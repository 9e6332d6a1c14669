import Mathlib.Data.List.DropRight
import Mathlib.Data.List.Forall2
import WorkerFleet.Proofs.JsonTokens

/-!
# Texts of values

A text spells a value when it is read as that value wherever a value may stand (`Spells`). Texts
of single values do, and so do texts put between brackets with commas and spaces.
-/

namespace WorkerFleet

namespace Json

section Machine
variable {K : Type}

/-- A container is open, or one has just been closed. No text ends with a number from here. -/
def State.InContainer : State K → Prop
  | value _ stack => stack ≠ []
  | key .. => True
  | colon .. => True
  | complete d stack => stack ≠ [] ∨ ∀ x, d ≠ .real x

theorem objectOf_ne_real (members : List (Option String × Document K)) (x : K) :
    objectOf members ≠ .real x := by
  unfold objectOf
  split <;> exact nofun

theorem objectOf_map (members : List (String × Document K)) :
    objectOf (members.map fun m => (some m.1, m.2)) = .object members := by
  have hkeys : (members.map fun m => (some m.1, m.2)).mapM
      (fun m : Option String × Document K => m.1.map (·, m.2)) = some members := by
    induction members with
    | nil => rfl
    | cons m rest ih => simp [ih]
  rw [objectOf, hkeys]

namespace State.InContainer

theorem step {st st' : State K} {t : Token K} (h : st.InContainer) (hstep : st.step? t = some st') :
    st'.InContainer := by
  unfold step? at hstep
  split at hstep <;> cases hstep
  · exact List.cons_ne_nil _ _
  · exact trivial
  · exact .inl h
  · exact .inl h
  · exact .inr nofun
  · exact trivial
  · exact .inr nofun
  · exact List.cons_ne_nil _ _
  · exact List.cons_ne_nil _ _
  · exact .inr nofun
  · exact trivial
  · exact .inr (objectOf_ne_real _)

end State.InContainer

end Machine

variable {K : Type} [Quantity K] {cs rest : List Char} {t : Token K}

theorem tokens?_of_spaces (h : cs.dropWhile isSpace = []) : tokens? (K := K) cs = some [] := by
  rw [tokens?]
  split
  · rfl
  · next hcs =>
    rw [h] at hcs
    cases hcs

theorem tokens?_eq (hne : cs.dropWhile isSpace ≠ []) :
    tokens? (K := K) cs =
      (next? (cs.dropWhile isSpace)).bind fun (t, rest) => (tokens? rest).map (t :: ·) := by
  rw [tokens?]
  split
  · next hcs => exact absurd hcs hne
  · next c tail hcs =>
    split
    · next hnone =>
      conv_rhs => rw [hcs, hnone]
      rfl
    · next hnext =>
      conv_rhs => rw [hcs, hnext]
      rfl

/-- Spaces in front of a text are passed over. -/
theorem tokens?_dropWhile (cs : List Char) :
    tokens? (K := K) (cs.dropWhile isSpace) = tokens? cs := by
  have hidem : (cs.dropWhile isSpace).dropWhile isSpace = cs.dropWhile isSpace :=
    List.dropWhile_idempotent _ cs
  by_cases hnil : cs.dropWhile isSpace = []
  · rw [tokens?_of_spaces hnil, tokens?_of_spaces (hidem.trans hnil)]
  · rw [tokens?_eq (hidem.symm ▸ hnil), hidem, ← tokens?_eq hnil]

/-- The document that a text ends with, when it is read on from `st`. -/
def readOn? (st : State K) (cs : List Char) : Option (Document K) :=
  (tokens? cs).bind fun ts => (ts.foldlM State.step? st).bind State.result?

theorem read?_eq_readOn? (text : String) :
    read? (K := K) text = readOn? (.value false []) text.toList := rfl

variable {st : State K}

theorem readOn?_nil (st : State K) : readOn? st [] = st.result? := by
  rw [readOn?, tokens?_of_spaces rfl]
  rfl

theorem readOn?_dropWhile (st : State K) (cs : List Char) :
    readOn? st (cs.dropWhile isSpace) = readOn? st cs := by
  rw [readOn?, tokens?_dropWhile, readOn?]

theorem readOn?_of_next? (h : next? (cs.dropWhile isSpace) = some (t, rest)) (st : State K) :
    readOn? st cs = (st.step? t).bind (readOn? · rest) := by
  have hne : cs.dropWhile isSpace ≠ [] := by
    intro hnil
    rw [hnil] at h
    cases h
  unfold readOn?
  rw [tokens?_eq hne, h, Option.bind_some]
  dsimp only
  cases tokens? (K := K) rest with
  | none => cases st.step? t <;> rfl
  | some ts =>
    rw [Option.map_some, Option.bind_some, List.foldlM_cons]
    cases st.step? t <;> rfl

theorem readOn?_cons {c : Char} (hc : isSpace c = false)
    (h : next? (c :: cs) = some (t, rest)) (st : State K) :
    readOn? st (c :: cs) = (st.step? t).bind (readOn? · rest) := by
  apply readOn?_of_next?
  rw [List.dropWhile_cons_of_neg (by simp [hc])]
  exact h

theorem readOn?_spaces {ws : List Char} (hws : ∀ c ∈ ws, isSpace c = true) (st : State K)
    (cs : List Char) : readOn? st (ws ++ cs) = readOn? st cs := by
  rw [← readOn?_dropWhile, List.dropWhile_append_of_pos hws, readOn?_dropWhile]

theorem readOn?_quote (st : State K) (s : String) (rest : List Char) :
    readOn? st ((quote s).toList ++ rest) =
      (st.step? (.string (some s))).bind (readOn? · rest) := by
  have hnext := next?_quote (K := K) s rest
  rw [toList_quote, List.cons_append] at hnext ⊢
  exact readOn?_cons (by decide) hnext st

/-- Wherever a value may stand, the text is read as the document. -/
def Spells (text : List Char) (d : Document K) : Prop :=
  ∀ first stack rest, Delimited rest →
    readOn? (.value first stack) (text ++ rest) = readOn? (.complete d stack) rest

theorem Spells.read? {text : String} {d : Document K} (h : Spells text.toList d) :
    read? text = some d := by
  have hread := h false [] [] delimited_nil
  rw [List.append_nil, readOn?_nil] at hread
  exact hread

theorem spells_scalar {c : Char} {tail : List Char} {d : Document K} (hc : isSpace c = false)
    (h : ∀ rest, Delimited rest → next? (c :: (tail ++ rest)) = some (.scalar d, rest)) :
    Spells (c :: tail) d := by
  intro first stack rest hrest
  rw [List.cons_append, readOn?_cons hc (h rest hrest)]
  rfl

theorem spells_null : Spells "null".toList (.null : Document K) :=
  spells_scalar (K := K) (c := 'n') (by decide) fun _ _ => rfl

theorem spells_bool (b : Bool) :
    Spells (if b then "true" else "false").toList (.bool b : Document K) := by
  cases b with
  | false => exact spells_scalar (K := K) (c := 'f') (by decide) fun _ _ => rfl
  | true => exact spells_scalar (K := K) (c := 't') (by decide) fun _ _ => rfl

theorem isSpace_of_isDigit {c : Char} (h : c.isDigit = true) : isSpace c = false := by
  rw [Bool.eq_false_iff]
  intro hspace
  simp only [isSpace, Bool.or_eq_true, beq_iff_eq] at hspace
  rcases hspace with ((rfl | rfl) | rfl) | rfl <;> exact absurd h (by decide)

theorem digitsValue_toDigits (n : Nat) : Memory.digitsValue (Nat.toDigits 10 n) = n :=
  Nat.ofDigitChars_ten_toDigits

theorem spells_natural {n : Nat} (h : n < Nat.pow 2 64) :
    Spells (JobFactory.decimalText n).toList (.natural n : Document K) := by
  rw [JobFactory.decimalText, String.toList_ofList]
  have hread := number?_toDigits (K := K) false n
  obtain ⟨c, tail, htext, hc⟩ := isDigit_of_number? hread
  have hvalue : wholeNumber (K := K) false (Nat.toDigits 10 n) = .natural n := by
    simp [wholeNumber, digitsValue_toDigits, h]
  rw [hvalue, htext] at hread
  rw [htext]
  refine spells_scalar (isSpace_of_isDigit hc) ?_
  intro rest hrest
  rw [next?_of_isDigit hc, ← List.cons_append, number?_append hrest hread]
  rfl

theorem spells_negative {n : Nat} (hpos : 0 < n) (h : n ≤ Nat.pow 2 63) :
    Spells ("-" ++ JobFactory.decimalText n).toList (.negative n : Document K) := by
  have htext : ("-" ++ JobFactory.decimalText n).toList = '-' :: Nat.toDigits 10 n := by
    simp [JobFactory.decimalText]
  have hread := number?_toDigits (K := K) true n
  have hvalue : wholeNumber (K := K) true (Nat.toDigits 10 n) = .negative n := by
    simp [wholeNumber, digitsValue_toDigits, hpos, h]
  rw [hvalue] at hread
  rw [htext]
  refine spells_scalar (by decide) ?_
  intro rest hrest
  rw [next?, number?_append hrest hread]
  rfl

theorem spells_string (s : String) : Spells (quote s).toList (.string s : Document K) := by
  intro first stack rest _
  rw [readOn?_quote]
  rfl

theorem State.InContainer.readOn?_ne_real {st : State K} (h : st.InContainer) (cs : List Char)
    (x : K) : readOn? st cs ≠ some (.real x) := by
  unfold readOn?
  cases tokens? (K := K) cs with
  | none => nofun
  | some ts =>
    rw [Option.bind_some]
    induction ts generalizing st with
    | nil =>
      intro hresult
      cases st with
      | complete d stack =>
        cases stack with
        | nil =>
          rcases h with h | h
          · exact h rfl
          · exact h x (Option.some.inj hresult)
        | cons f stack => cases hresult
      | _ => cases hresult
    | cons t ts ih =>
      rw [List.foldlM_cons]
      cases hstep : st.step? t with
      | none => nofun
      | some st' => exact ih (h.step hstep)

/-- A text that ends with a document is at its end, or goes on with a token. -/
theorem readOn?_cases {st : State K} {d : Document K} (h : readOn? st cs = some d) :
    cs.dropWhile isSpace = [] ∧ st.result? = some d ∨
      ∃ t rest st', next? (cs.dropWhile isSpace) = some (t, rest) ∧ st.step? t = some st' ∧
        readOn? st' rest = some d := by
  by_cases hnil : cs.dropWhile isSpace = []
  · rw [← readOn?_dropWhile, hnil, readOn?_nil] at h
    exact .inl ⟨hnil, h⟩
  · cases hnext : next? (K := K) (cs.dropWhile isSpace) with
    | none =>
      rw [readOn?, tokens?_eq hnil, hnext] at h
      cases h
    | some out =>
      rw [readOn?_of_next? hnext] at h
      obtain ⟨st', hstep, hread⟩ := Option.bind_eq_some_iff.mp h
      exact .inr ⟨_, _, st', rfl, hstep, hread⟩

theorem readOn?_complete {d e : Document K} (h : readOn? (.complete d []) cs = some e) :
    (∀ c ∈ cs, isSpace c = true) ∧ d = e := by
  rcases readOn?_cases h with ⟨hnil, hresult⟩ | ⟨t, _, _, _, hstep, _⟩
  · exact ⟨List.dropWhile_eq_nil_iff.mp hnil, Option.some.inj hresult⟩
  · cases t <;> cases hstep

/-- A text that is read as a number is a single token, so that it is read as that number wherever
a value may stand. -/
theorem spells_real {x : K} (h : readOn? (.value false []) cs = some (.real x)) :
    Spells cs (.real x) := by
  rcases readOn?_cases h with ⟨_, hresult⟩ | ⟨t, left, st', hnext, hstep, hread⟩
  · cases hresult
  · have hnumber : t = .scalar (.real x) ∧ ∀ c ∈ left, isSpace c = true := by
      cases t with
      | scalar d =>
        cases hstep
        obtain ⟨hspaces, rfl⟩ := readOn?_complete hread
        exact ⟨rfl, hspaces⟩
      | string s =>
        cases hstep
        obtain ⟨_, hstring⟩ := readOn?_complete hread
        cases s <;> cases hstring
      | openArray =>
        cases hstep
        have hopen : State.InContainer (K := K) (.value true [.array []]) := List.cons_ne_nil _ _
        exact absurd hread (hopen.readOn?_ne_real _ _)
      | openObject =>
        cases hstep
        have hopen : State.InContainer (K := K) (.key true [] []) := trivial
        exact absurd hread (hopen.readOn?_ne_real _ _)
      | _ => cases hstep
    obtain ⟨rfl, hspaces⟩ := hnumber
    intro first stack rest hrest
    have hdrop : (cs ++ rest).dropWhile isSpace = cs.dropWhile isSpace ++ rest := by
      rw [List.dropWhile_append, if_neg]
      intro hnil
      rw [List.isEmpty_iff.mp hnil] at hnext
      cases hnext
    rw [readOn?_of_next? (hdrop ▸ next?_real_append hrest hnext)]
    exact readOn?_spaces hspaces _ rest

/-- The character closes a container and nothing that stands in front of it goes on with it. -/
structure Closes (c : Char) (t : Token K) : Prop where
  notSpace : isSpace c = false
  next? : ∀ cs, next? (c :: cs) = some (t, cs)
  delimited : ∀ cs, Delimited (c :: cs)

theorem closes_bracket : Closes (K := K) ']' .closeArray :=
  ⟨by decide, fun _ => rfl, fun _ => delimited_cons (by decide)⟩

theorem closes_brace : Closes (K := K) '\x7d' .closeObject :=
  ⟨by decide, fun _ => rfl, fun _ => delimited_cons (by decide)⟩

theorem Delimited.spaces_append {ws : List Char} (hws : ∀ c ∈ ws, isSpace c = true)
    (h : Delimited rest) : Delimited (ws ++ rest) := by
  cases ws with
  | nil => exact h
  | cons c ws =>
    have hc := hws c List.mem_cons_self
    simp only [isSpace, Bool.or_eq_true, beq_iff_eq] at hc
    rcases hc with ((rfl | rfl) | rfl) | rfl <;> exact delimited_cons (by decide)

/-- The items of a container, a comma between any two of them and spaces where the layout has
them. `before` is the state when an item may come next, its items so far in reverse, and
`behind` the state when one more has come. -/
theorem readOn?_listing {β : Type} (before : Bool → List β → State K)
    (behind : List β → β → State K) (closed : List β → State K) {Text : List Char → β → Prop}
    {closing : Char} {closingToken : Token K} {ws ws' : List Char}
    (hitem : ∀ first done item text rest, Text text item → Delimited rest →
      readOn? (before first done) (text ++ rest) = readOn? (behind done item) rest)
    (hcomma : ∀ done item, (behind done item).step? .comma = some (before false (item :: done)))
    (hclose : ∀ done item, (behind done item).step? closingToken = some (closed (item :: done)))
    (hclosing : Closes closing closingToken)
    (hws : ∀ c ∈ ws, isSpace c = true) (hws' : ∀ c ∈ ws', isSpace c = true)
    {texts : List (List Char)} {items : List β} (h : List.Forall₂ Text texts items)
    (hne : items ≠ []) (first : Bool) (done : List β) (rest : List Char) :
    readOn? (before first done) ((',' :: ws).intercalate texts ++ (ws' ++ closing :: rest)) =
      readOn? (closed (items.reverse ++ done)) rest := by
  induction h generalizing first done with
  | nil => exact absurd rfl hne
  | @cons text item texts items htext hlater ih =>
    rw [List.reverse_cons, List.append_assoc, List.singleton_append]
    cases hlater with
    | nil =>
      rw [List.intercalate_singleton,
        hitem _ _ _ _ _ htext ((hclosing.delimited rest).spaces_append hws'),
        readOn?_spaces hws', readOn?_cons hclosing.notSpace (hclosing.next? rest), hclose]
      rfl
    | cons htext' hlater' =>
      rw [List.intercalate_cons_cons, List.append_assoc, List.append_assoc, List.cons_append,
        hitem _ _ _ _ _ htext (delimited_cons (by decide)),
        readOn?_cons (t := .comma) (by decide) rfl, hcomma, Option.bind_some,
        readOn?_spaces hws]
      exact ih (List.cons_ne_nil _ _) false (item :: done)

/-- Texts between brackets, with spaces `ws` in front of each and `ws'` behind the last. -/
def enclose (opening closing : Char) (ws ws' : List Char) (texts : List (List Char)) :
    List Char :=
  opening :: (ws ++ ((',' :: ws).intercalate texts ++ (ws' ++ [closing])))

theorem enclose_append (opening closing : Char) (ws ws' : List Char) (texts : List (List Char))
    (rest : List Char) :
    enclose opening closing ws ws' texts ++ rest =
      opening :: (ws ++ ((',' :: ws).intercalate texts ++ (ws' ++ closing :: rest))) := by
  simp [enclose]

variable {texts : List (List Char)} {ws ws' : List Char}

theorem spells_array (hws : ∀ c ∈ ws, isSpace c = true) (hws' : ∀ c ∈ ws', isSpace c = true)
    {items : List (Document K)} (h : List.Forall₂ Spells texts items) :
    Spells (enclose '[' ']' ws ws' texts) (.array items) := by
  intro first stack rest _
  rw [enclose_append, readOn?_cons (t := .openArray) (by decide) rfl, State.step?,
    Option.bind_some, readOn?_spaces hws]
  by_cases hne : items = []
  · subst hne
    cases h
    rw [List.intercalate_nil, List.nil_append, readOn?_spaces hws',
      readOn?_cons (closes_bracket (K := K)).notSpace (closes_bracket.next? rest)]
    rfl
  · have hlist := readOn?_listing (fun first done => .value first (.array done :: stack))
      (fun done d => .complete d (.array done :: stack))
      (fun done => .complete (.array done.reverse) stack)
      (fun first done d text rest htext hrest => htext first _ rest hrest)
      (fun _ _ => rfl) (fun _ _ => rfl) closes_bracket hws hws' h hne true [] rest
    rw [List.append_nil, List.reverse_reverse] at hlist
    exact hlist

/-- The text is a key, a colon and a value, with spaces between the colon and the value. -/
def SpellsMember (text : List Char) (m : String × Document K) : Prop :=
  ∃ gap value, text = (quote m.1).toList ++ ':' :: (gap ++ value) ∧
    (∀ c ∈ gap, isSpace c = true) ∧ Spells value m.2

theorem SpellsMember.readOn? {text : List Char} {m : String × Document K}
    (h : SpellsMember text m) (first : Bool) (done : List (Option String × Document K))
    (stack : List (Frame K)) (hrest : Delimited rest) :
    readOn? (.key first done stack) (text ++ rest) =
      readOn? (.complete m.2 (.object done (some m.1) :: stack)) rest := by
  obtain ⟨gap, value, rfl, hgap, hvalue⟩ := h
  rw [List.append_assoc, List.cons_append, List.append_assoc, readOn?_quote, State.step?,
    Option.bind_some, readOn?_cons (t := .colon) (by decide) rfl, State.step?, Option.bind_some,
    readOn?_spaces hgap, hvalue _ _ _ hrest]

theorem spells_object (hws : ∀ c ∈ ws, isSpace c = true) (hws' : ∀ c ∈ ws', isSpace c = true)
    {members : List (String × Document K)} (h : List.Forall₂ SpellsMember texts members) :
    Spells (enclose '\x7b' '\x7d' ws ws' texts) (.object members) := by
  intro first stack rest _
  rw [enclose_append, readOn?_cons (t := .openObject) (by decide) rfl, State.step?,
    Option.bind_some, readOn?_spaces hws]
  by_cases hne : members = []
  · subst hne
    cases h
    rw [List.intercalate_nil, List.nil_append, readOn?_spaces hws',
      readOn?_cons (closes_brace (K := K)).notSpace (closes_brace.next? rest)]
    rfl
  · have hclose : ∀ (done : List (String × Document K)) (m : String × Document K),
        State.step? (.complete m.2
          (.object (done.map fun m => (some m.1, m.2)) (some m.1) :: stack)) .closeObject =
        some (.complete (.object (m :: done).reverse) stack) := by
      intro done m
      rw [State.step?, ← objectOf_map (m :: done).reverse, List.map_reverse]
      rfl
    have hlist := readOn?_listing
      (fun first done => .key first (done.map fun m => (some m.1, m.2)) stack)
      (fun done m =>
        .complete m.2 (.object (done.map fun m => (some m.1, m.2)) (some m.1) :: stack))
      (fun done => .complete (.object done.reverse) stack)
      (fun first done m text rest htext hrest => htext.readOn? first _ stack hrest)
      (fun _ _ => rfl) hclose closes_brace hws hws' h hne true [] rest
    rw [List.append_nil, List.reverse_reverse] at hlist
    exact hlist

end Json

end WorkerFleet
