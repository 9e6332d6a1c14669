import Mathlib.Data.List.Nodup
import WorkerFleet.Codec.Fields
import WorkerFleet.Proofs.NameMap

/-!
# What codecs carry

A codec carries a value when it reads back what it writes for the value and what it writes can be
printed. Each codec that is built from others carries the values whose parts these carry; of a
record, that its field names differ is all that is asked besides.

Which documents can be printed does not depend on a format, save for the real numbers in them. Of
a format it is asked that it reads these documents back (`ReadsDocuments`).
-/

namespace WorkerFleet

/-- Whole numbers fit 64 bits, real numbers are as `p` says, members have different names, and
there is a value throughout. At most `depth` containers are nested. -/
inductive Document.Printable {K : Type} (p : K → Prop) : Nat → Document K → Prop where
  | null {depth : Nat} : Printable p depth .null
  | bool {depth : Nat} (b : Bool) : Printable p depth (.bool b)
  | natural {depth n : Nat} (h : n < Nat.pow 2 64) : Printable p depth (.natural n)
  | negative {depth n : Nat} (hpos : 0 < n) (h : n ≤ Nat.pow 2 63) : Printable p depth (.negative n)
  | real {depth : Nat} {x : K} (h : p x) : Printable p depth (.real x)
  | string {depth : Nat} (s : String) : Printable p depth (.string s)
  | array {depth : Nat} {items : List (Document K)} (h : ∀ d ∈ items, Printable p depth d) :
    Printable p (depth + 1) (.array items)
  | object {depth : Nat} {members : List (String × Document K)}
    (hnames : (members.map (·.1)).Nodup) (h : ∀ m ∈ members, Printable p depth m.2) :
    Printable p (depth + 1) (.object members)

namespace TextFormat
variable {K : Type}

/-- The text of the number is read as the number. -/
def ReadsBack (format : TextFormat K) (x : K) : Prop :=
  format.read? (format.print (.real x)) = some (.real x)

/-- A document whose real numbers are read back is read back. Nothing is asked of documents with
more than 127 containers in each other, which readers may refuse. -/
def ReadsDocuments (format : TextFormat K) : Prop :=
  ∀ d, d.Printable format.ReadsBack 127 → format.read? (format.print d) = some d

end TextFormat

theorem mapM_map_eq_some {α β : Type} {f : α → β} {g : β → Option α} {xs : List α}
    (h : ∀ x ∈ xs, g (f x) = some x) : (xs.map f).mapM g = some xs := by
  induction xs with
  | nil => rfl
  | cons x xs ih =>
    rw [List.map_cons, List.mapM_cons, h x List.mem_cons_self,
      ih fun y hy => h y (List.mem_cons_of_mem x hy)]
    rfl

theorem NameMap.ofList_entries {α : Type} (m : NameMap α) : ofList m.entries = m := by
  apply ext
  intro name
  rw [get?_ofList]
  cases hfind : m.entries.reverse.find? fun e => e.1 = name with
  | some e =>
    have hmem := List.mem_reverse.mp (List.mem_of_find?_eq_some hfind)
    have hname := List.find?_some hfind
    obtain rfl : e.1 = name := of_decide_eq_true hname
    exact (mem_entries.mp hmem).symm
  | none =>
    cases hget : m.get? name with
    | none => rfl
    | some v =>
      have hmem := List.mem_reverse.mpr (mem_entries.mpr hget)
      exact absurd (decide_eq_true rfl) (List.find?_eq_none.mp hfind (name, v) hmem)

namespace Codec
variable {K α ρ : Type} {p : K → Prop} {depth : Nat}

/-- What is written for the value reads back, and it can be printed. -/
structure Carries (p : K → Prop) (depth : Nat) (c : Codec K α) (value : α) : Prop where
  faithful : c.Faithful value
  printable : (c.write value).Printable p depth

/-- Printed and read again, the value is there unchanged. -/
def Replays (format : TextFormat K) (c : Codec K α) (value : α) : Prop :=
  (format.read? (format.print (c.write value))).bind c.read? = some value

theorem Carries.replays {format : TextFormat K} (hformat : format.ReadsDocuments)
    {c : Codec K α} {value : α} (h : c.Carries format.ReadsBack 127 value) :
    c.Replays format value := by
  rw [Replays, hformat _ h.printable]
  exact h.faithful

theorem carries_text (s : String) : text.Carries p depth s := ⟨rfl, .string s⟩

theorem carries_flag (b : Bool) : flag.Carries p depth b := ⟨rfl, .bool b⟩

theorem carries_countBelow {bound n : Nat} (hbound : bound ≤ Nat.pow 2 64) (h : n < bound) :
    (countBelow bound).Carries p depth n :=
  ⟨if_pos h, .natural (Nat.lt_of_lt_of_le h hbound)⟩

theorem carries_count32 {n : Nat} (h : n < Nat.pow 2 32) : count32.Carries p depth n :=
  carries_countBelow (by decide) h

theorem carries_count64 {n : Nat} (h : n < Nat.pow 2 64) : count64.Carries p depth n :=
  carries_countBelow (Nat.le_refl _) h

theorem carries_word32 (n : UInt32) : word32.Carries p depth n := by
  have h : count32.Carries p depth n.toNat := carries_count32 n.toNat_lt
  refine ⟨?_, h.printable⟩
  show ((count32.read? (count32.write n.toNat : Document K)).map UInt32.ofNat) = some n
  rw [h.faithful, Option.map_some, UInt32.ofNat_toNat]

theorem carries_millis (n : Millis) : millis.Carries p depth n := by
  have h : count64.Carries p depth n.toNat := carries_count64 n.toNat_lt
  refine ⟨?_, h.printable⟩
  show ((count64.read? (count64.write n.toNat : Document K)).map UInt64.ofNat) = some n
  rw [h.faithful, Option.map_some, UInt64.ofNat_toNat]

theorem carries_amount [Quantity K] {x : K} (h : Quantity.isFinite x = true ∧ p x) :
    amount.Carries p depth x := by
  have hwrite : amount.write x = .real x := if_pos h.1
  constructor
  · rw [Faithful, hwrite]
    rfl
  · rw [hwrite]
    exact .real h.2

theorem read?_option {c : Codec K α} {d : Document K} (h : d ≠ .null) :
    c.option.read? d = (c.read? d).map some := by
  cases d with
  | null => exact absurd rfl h
  | _ => rfl

/-- None is written as null, which is nothing that `c` reads. -/
theorem carries_option {c : Codec K α} (hnull : c.read? .null = none) {value : Option α}
    (h : ∀ x ∈ value, c.Carries p depth x) : c.option.Carries p depth value := by
  cases value with
  | none => exact ⟨rfl, .null⟩
  | some x =>
    obtain ⟨hfaithful, hprintable⟩ := h x rfl
    have hwrite : c.write x ≠ .null := by
      intro hwrite
      rw [Faithful, hwrite, hnull] at hfaithful
      cases hfaithful
    refine ⟨?_, hprintable⟩
    show c.option.read? (c.write x) = some (some x)
    rw [read?_option hwrite, hfaithful]
    rfl

theorem carries_list {c : Codec K α} {values : List α} (h : ∀ x ∈ values, c.Carries p depth x) :
    c.list.Carries p (depth + 1) values := by
  constructor
  · show (values.map c.write).mapM c.read? = some values
    exact mapM_map_eq_some fun x hx => (h x hx).faithful
  · refine .array ?_
    intro d hd
    obtain ⟨x, hx, rfl⟩ := List.mem_map.mp hd
    exact (h x hx).printable

theorem carries_nameMap {c : Codec K α} {m : NameMap α} (h : ∀ x ∈ m.values, c.Carries p depth x) :
    c.nameMap.Carries p (depth + 1) m := by
  have hentry : ∀ e ∈ m.entries, c.Carries p depth e.2 := fun e he => h e.2 (List.mem_map_of_mem he)
  constructor
  · have hentries : (m.entries.map fun e => (e.1, c.write e.2)).mapM
        (fun e : String × Document K => (c.read? e.2).map (e.1, ·)) = some m.entries := by
      apply mapM_map_eq_some
      intro e he
      rw [(hentry e he).faithful]
      rfl
    have hread : c.nameMap.read? (c.nameMap.write m) = (some m.entries).map NameMap.ofList :=
      congrArg (Option.map NameMap.ofList) hentries
    rw [Faithful, hread, Option.map_some, NameMap.ofList_entries]
  · refine .object ?_ ?_
    · rw [List.map_map]
      exact m.nodup_keys
    · intro member hmember
      obtain ⟨e, he, rfl⟩ := List.mem_map.mp hmember
      exact (hentry e he).printable

end Codec

namespace Fields
variable {K ρ α β : Type} {p : K → Prop} {depth : Nat} {r : ρ}

@[simp] theorem names_map (g : α → β) (x : Fields K ρ α) : (g <$> x).names = x.names := rfl

@[simp] theorem names_seq (f : Fields K ρ (α → β)) (x : Fields K ρ α) :
    (f <*> x).names = f.names ++ x.names := rfl

@[simp] theorem names_required (name : String) (c : Codec K α) (get : ρ → α) :
    (required name c get).names = [name] := rfl

@[simp] theorem names_optional (name : String) (c : Codec K α) (get : ρ → Option α) :
    (optional name c get).names = [name] := rfl

@[simp] theorem names_defaulted (name : String) (missing : α) (c : Codec K α) (get : ρ → α) :
    (defaulted name missing c get).names = [name] := rfl

/-- From what is written for the fields of `r`, `value` is read, and it can be printed. -/
structure Carries (p : K → Prop) (depth : Nat) (f : Fields K ρ α) (r : ρ) (value : α) : Prop where
  length_eq : (f.write r).length = f.names.length
  printable : ∀ d ∈ f.write r, d.Printable p depth
  reads : ∀ slots, f.read? false ((f.write r).map some ++ slots) = some (value, slots)

namespace Carries

theorem pure (value : α) : (Pure.pure value : Fields K ρ α).Carries p depth r value :=
  ⟨rfl, nofun, fun _ => rfl⟩

theorem seq {f : Fields K ρ (α → β)} {x : Fields K ρ α} {g : α → β} {value : α}
    (hf : f.Carries p depth r g) (hx : x.Carries p depth r value) :
    (f <*> x).Carries p depth r (g value) where
  length_eq := by
    show (f.write r ++ x.write r).length = (f.names ++ x.names).length
    rw [List.length_append, List.length_append, hf.length_eq, hx.length_eq]
  printable := by
    intro d hd
    rcases List.mem_append.mp hd with hd | hd
    · exact hf.printable d hd
    · exact hx.printable d hd
  reads := by
    intro slots
    show (f.read? false ((f.write r ++ x.write r).map some ++ slots)).bind _ = _
    rw [List.map_append, List.append_assoc, hf.reads, Option.bind_some]
    dsimp only
    rw [hx.reads]
    rfl

theorem map (g : α → β) {x : Fields K ρ α} {value : α} (hx : x.Carries p depth r value) :
    (g <$> x).Carries p depth r (g value) :=
  (pure g).seq hx

theorem field {name : String} {missing : Bool → Option α} {c : Codec K α} {get : ρ → α}
    (h : c.Carries p depth (get r)) : (field name missing c get).Carries p depth r (get r) where
  length_eq := rfl
  printable := by
    intro d hd
    obtain rfl := List.mem_singleton.mp hd
    exact h.printable
  reads := by
    intro slots
    show (c.read? (c.write (get r))).map (·, slots) = some (get r, slots)
    rw [h.faithful]
    rfl

theorem required {name : String} {c : Codec K α} {get : ρ → α} (h : c.Carries p depth (get r)) :
    (required name c get).Carries p depth r (get r) :=
  field h

theorem defaulted {name : String} {missing : α} {c : Codec K α} {get : ρ → α}
    (h : c.Carries p depth (get r)) : (defaulted name missing c get).Carries p depth r (get r) :=
  field h

theorem optional {name : String} {c : Codec K α} {get : ρ → Option α}
    (h : c.option.Carries p depth (get r)) : (optional name c get).Carries p depth r (get r) :=
  field h

end Carries

/-- Each field finds what was written for it. -/
theorem map_find?_zip {names : List String} {ds : List (Document K)}
    (hlength : ds.length = names.length) (hnames : names.Nodup) :
    (names.map fun name => ((names.zip ds).find? (·.1 == name)).map (·.2)) = ds.map some := by
  induction names generalizing ds with
  | nil =>
    obtain rfl := List.length_eq_zero_iff.mp hlength
    rfl
  | cons first names ih =>
    obtain ⟨d, ds, rfl⟩ := List.exists_cons_of_length_eq_add_one hlength
    obtain ⟨hfirst, hnames⟩ := List.nodup_cons.mp hnames
    rw [List.zip_cons_cons, List.map_cons, List.map_cons, List.find?_cons_of_pos (by simp),
      ← ih (Nat.succ.inj hlength) hnames]
    refine congrArg (List.cons (some d)) (List.map_congr_left ?_)
    intro name hname
    rw [List.find?_cons_of_neg]
    simp only [beq_iff_eq]
    rintro rfl
    exact hfirst hname

theorem slots?_zip {names : List String} {ds : List (Document K)}
    (hlength : ds.length = names.length) (hnames : names.Nodup) (loose : Bool) :
    slots? loose names (.object (names.zip ds)) = some (false, ds.map some) := by
  have honce : (names.all fun name => (names.zip ds).countP (·.1 == name) ≤ 1) = true := by
    rw [List.all_eq_true]
    intro name _
    have hcount : (names.zip ds).countP (·.1 == name) = names.count name := by
      conv_rhs => rw [← List.map_fst_zip (Nat.le_of_eq hlength.symm), List.count, List.countP_map]
      rfl
    rw [hcount]
    exact decide_eq_true (List.nodup_iff_count.mp hnames name)
  rw [slots?, if_pos honce, map_find?_zip hlength hnames]

end Fields

theorem Codec.carries_record {K ρ : Type} {p : K → Prop} {depth : Nat} {r : ρ} {f : Fields K ρ ρ}
    {loose : Bool} (hnames : f.names.Nodup) (h : f.Carries p depth r r) :
    (f.codecWith loose).Carries p (depth + 1) r where
  faithful := by
    show (Fields.slots? loose f.names (.object (f.names.zip (f.write r)))).bind _ = some r
    have hread := h.reads []
    rw [List.append_nil] at hread
    rw [Fields.slots?_zip h.length_eq hnames, Option.bind_some]
    dsimp only
    rw [hread]
    rfl
  printable := by
    refine .object ?_ ?_
    · rw [List.map_fst_zip (Nat.le_of_eq h.length_eq.symm)]
      exact hnames
    · intro member hmember
      exact h.printable _ (List.of_mem_zip hmember).2

end WorkerFleet
