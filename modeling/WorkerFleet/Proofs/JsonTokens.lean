import Mathlib.Data.List.TakeWhile
import WorkerFleet.Json.Printer
import WorkerFleet.Json.Reader

/-!
# Tokens of printed JSON

What the printer writes for one string or number is one token with that value, whatever follows
it. Behind a number something has to follow that does not go on with it (`Delimited`); all else
tells by itself where it ends.
-/

namespace WorkerFleet.Json

theorem hexValue?_control : ∀ n < 0x20,
    Text.hexValue? ['0', '0', (n / 16).digitChar, (n % 16).digitChar] = some n := by decide

theorem join?_unit {n : Nat} (h : n < 0xD800) (ps : List Piece) :
    join? (.unit n :: ps) = (join? ps).map (Char.ofNat n :: ·) := by
  have hhigh : isHighSurrogate n = false := by simp [isHighSurrogate]; omega
  have hlow : isLowSurrogate n = false := by simp [isLowSurrogate]; omega
  cases ps with
  | nil => simp [join?, hhigh, hlow]
  | cons p ps => cases p <;> simp [join?, hhigh, hlow]

/-- What is written for a character is one piece, which stands for that character. -/
theorem pieces?_escape (c : Char) (cs : List Char) :
    ∃ p, pieces? (escape c ++ cs) = (pieces? cs).map (fun (ps, rest) => (p :: ps, rest)) ∧
      ∀ ps, join? (p :: ps) = (join? ps).map (c :: ·) := by
  unfold escape
  split
  case h_8 hquote hslash _ _ _ _ _ =>
    split
    · next hcontrol =>
      refine ⟨.unit c.toNat, ?_, ?_⟩
      · rw [Nat.toDigits_of_lt_base (by omega), Nat.toDigits_of_lt_base (by omega)]
        simp [pieces?, hexValue?_control c.toNat hcontrol]
      · intro ps
        rw [join?_unit (by omega), Char.ofNat_toNat]
    · next hcontrol =>
      refine ⟨.char c, ?_, fun _ => rfl⟩
      rw [List.singleton_append, pieces?, if_neg]
      · rintro (h | h)
        · exact hcontrol h
        · exact hslash h
      all_goals simp_all
  all_goals exact ⟨.char _, by simp [pieces?, escaped?], fun _ => rfl⟩

theorem pieces?_flatMap_escape (s rest : List Char) :
    ∃ ps, pieces? (s.flatMap escape ++ '"' :: rest) = some (ps, rest) ∧ join? ps = some s := by
  induction s with
  | nil => exact ⟨[], by simp [pieces?], rfl⟩
  | cons c s ih =>
    obtain ⟨ps, hps, hjoin⟩ := ih
    obtain ⟨p, hp, hjoinp⟩ := pieces?_escape c (s.flatMap escape ++ '"' :: rest)
    refine ⟨p :: ps, ?_, ?_⟩
    · rw [List.flatMap_cons, List.append_assoc, hp, hps]
      rfl
    · rw [hjoinp, hjoin]
      rfl

variable {K : Type} [Quantity K]

theorem toList_quote (s : String) :
    (quote s).toList = '"' :: (s.toList.flatMap escape ++ ['"']) := by
  simp [quote]

theorem next?_quote (s : String) (rest : List Char) :
    next? (K := K) ((quote s).toList ++ rest) = some (.string (some s), rest) := by
  obtain ⟨ps, hps, hjoin⟩ := pieces?_flatMap_escape s.toList rest
  rw [toList_quote, List.cons_append, List.append_assoc, List.singleton_append, next?, hps]
  simp [hjoin]

/-- What follows a number and does not go on with it. -/
def Delimited (rest : List Char) : Prop :=
  ∀ c ∈ rest.head?, c.isDigit = false ∧ c ≠ '.' ∧ c ≠ 'e' ∧ c ≠ 'E'

variable {cs rest : List Char}

theorem delimited_nil : Delimited [] := nofun

theorem delimited_cons {c : Char} (h : c.isDigit = false ∧ c ≠ '.' ∧ c ≠ 'e' ∧ c ≠ 'E') :
    Delimited (c :: rest) := by
  intro d hd
  obtain rfl := Option.some.inj hd
  exact h

/-- As each part of a number ends at the first character that does not belong to it, nothing
changes when the text goes on with something that does not belong to a number. -/
theorem takeWhile_isDigit_append (cs : List Char) (hrest : Delimited rest) :
    (cs ++ rest).takeWhile Char.isDigit = cs.takeWhile Char.isDigit ∧
      (cs ++ rest).dropWhile Char.isDigit = cs.dropWhile Char.isDigit ++ rest := by
  have hstop : rest.takeWhile Char.isDigit = [] ∧ rest.dropWhile Char.isDigit = rest := by
    cases rest with
    | nil => exact ⟨rfl, rfl⟩
    | cons c rest =>
      have hc := (hrest c rfl).1
      exact ⟨List.takeWhile_cons_of_neg (by simp [hc]), List.dropWhile_cons_of_neg (by simp [hc])⟩
  rw [List.takeWhile_append, List.dropWhile_append, hstop.1, hstop.2, List.append_nil]
  constructor
  · split
    · next hall => exact ((List.takeWhile_prefix _).eq_of_length hall).symm
    · rfl
  · split
    · next hnil => rw [List.isEmpty_iff.mp hnil, List.nil_append]
    · rfl

theorem digits?_append (hrest : Delimited rest) {ds left : List Char}
    (h : digits? cs = some (ds, left)) : digits? (cs ++ rest) = some (ds, left ++ rest) := by
  obtain ⟨htake, hdrop⟩ := takeWhile_isDigit_append cs hrest
  unfold digits? at h ⊢
  dsimp only at h ⊢
  rw [htake, hdrop]
  split at h
  · cases h
  · next hne =>
    cases h
    exact if_neg hne

theorem fraction?_append (hrest : Delimited rest) {fraction : Option (List Char)}
    {left : List Char} (h : fraction? cs = some (fraction, left)) :
    fraction? (cs ++ rest) = some (fraction, left ++ rest) := by
  unfold fraction? at h
  split at h
  · next tail =>
    obtain ⟨⟨ds, left⟩, hds, heq⟩ := Option.map_eq_some_iff.mp h
    cases heq
    rw [List.cons_append, fraction?, digits?_append hrest hds]
    rfl
  · next hpoint =>
    cases h
    unfold fraction?
    split
    · next tail heq =>
      cases cs with
      | nil =>
        subst heq
        exact absurd rfl (hrest '.' rfl).2.1
      | cons c cs =>
        obtain ⟨rfl, _⟩ := List.cons.inj heq
        exact absurd rfl (hpoint cs)
    · rfl

theorem exponentSign_cons_append (c : Char) :
    exponentSign (c :: cs ++ rest) =
      ((exponentSign (c :: cs)).1, (exponentSign (c :: cs)).2 ++ rest) := by
  rw [List.cons_append]
  unfold exponentSign
  split <;> split <;> simp_all

theorem exponent?_append (hrest : Delimited rest) {exponent : Option Int} {left : List Char}
    (h : exponent? cs = some (exponent, left)) :
    exponent? (cs ++ rest) = some (exponent, left ++ rest) := by
  cases cs with
  | nil =>
    cases h
    cases rest with
    | nil => rfl
    | cons c rest =>
      obtain ⟨_, _, he⟩ := hrest c rfl
      rw [List.nil_append, exponent?, if_neg (not_or.mpr he)]
  | cons c tail =>
    rw [List.cons_append]
    rw [exponent?] at h ⊢
    split at h
    · next hmark =>
      rw [if_pos hmark]
      obtain ⟨⟨ds, left⟩, hds, heq⟩ := Option.map_eq_some_iff.mp h
      cases heq
      cases tail with
      | nil => cases hds
      | cons d tail =>
        have hds : digits? (exponentSign (d :: tail)).2 = some (ds, left) := hds
        rw [exponentSign_cons_append]
        dsimp only
        rw [digits?_append hrest hds]
        rfl
    · next hmark =>
      cases h
      exact if_neg hmark

theorem number?_append (hrest : Delimited rest) {isNegative : Bool} {d : Document K}
    {left : List Char} (h : number? isNegative cs = some (d, left)) :
    number? isNegative (cs ++ rest) = some (d, left ++ rest) := by
  simp only [number?, Option.bind_eq_some_iff] at h ⊢
  obtain ⟨⟨whole, left₁⟩, hwhole, h⟩ := h
  refine ⟨_, digits?_append hrest hwhole, ?_⟩
  dsimp only at h ⊢
  split at h
  · cases h
  · next hzero =>
    rw [if_neg hzero]
    obtain ⟨⟨fraction, left₂⟩, hfraction, h⟩ := Option.bind_eq_some_iff.mp h
    obtain ⟨⟨exponent, left₃⟩, hexponent, heq⟩ := Option.map_eq_some_iff.mp h
    rw [fraction?_append hrest hfraction, Option.bind_some,
      exponent?_append hrest hexponent, Option.map_some]
    dsimp only at heq ⊢
    split at heq
    · next hwhole =>
      cases heq
      rw [if_pos hwhole]
    · next hreal =>
      cases heq
      rw [if_neg hreal]

/-- No number but zero begins with the digit zero. -/
theorem head?_toDigits_ne {n : Nat} (h : 0 < n) : (Nat.toDigits 10 n).head? ≠ some '0' := by
  induction n using Nat.strongRecOn with
  | ind n ih =>
    by_cases hn : n < 10
    · rw [Nat.toDigits_of_lt_base hn]
      have hdigit : ∀ m < 10, 0 < m → [Nat.digitChar m].head? ≠ some '0' := by decide
      exact hdigit n hn h
    · have hfront := ih (n / 10) (by omega) (by omega)
      obtain ⟨c, tail, htail⟩ :=
        List.exists_cons_of_ne_nil (Nat.toDigits_ne_nil (n := n / 10) (b := 10))
      rw [Nat.toDigits_of_base_le (by decide) (Nat.le_of_not_lt hn), htail]
      rw [htail] at hfront
      exact hfront

theorem number?_toDigits (isNegative : Bool) (n : Nat) :
    number? (K := K) isNegative (Nat.toDigits 10 n) =
      some (wholeNumber isNegative (Nat.toDigits 10 n), []) := by
  have hdigits : ∀ c ∈ Nat.toDigits 10 n, c.isDigit = true :=
    fun c hc => Nat.isDigit_of_mem_toDigits (by decide) (by decide) hc
  have hread : digits? (Nat.toDigits 10 n) = some (Nat.toDigits 10 n, []) := by
    unfold digits?
    dsimp only
    rw [List.takeWhile_eq_self_iff.mpr hdigits, List.dropWhile_eq_nil_iff.mpr hdigits, if_neg]
    simp
  have hzero : ¬ ((Nat.toDigits 10 n).head? = some '0' ∧ (Nat.toDigits 10 n).length ≠ 1) := by
    rintro ⟨hhead, hlength⟩
    rcases Nat.eq_zero_or_pos n with rfl | hpos
    · exact hlength rfl
    · exact head?_toDigits_ne hpos hhead
  rw [number?, hread, Option.bind_some]
  dsimp only
  rw [if_neg hzero]
  rfl

theorem next?_of_isDigit {c : Char} (hc : c.isDigit = true) :
    next? (K := K) (c :: cs) =
      (number? false (c :: cs)).map fun (d, rest) => (.scalar d, rest) := by
  unfold next?
  split
  case h_12 => rfl
  all_goals
    next heq =>
      obtain ⟨rfl, _⟩ := List.cons.inj heq
      exact absurd hc (by decide)

theorem isDigit_of_number? {isNegative : Bool} {d : Document K} {left : List Char}
    (h : number? isNegative cs = some (d, left)) : ∃ c tail, cs = c :: tail ∧ c.isDigit = true := by
  obtain ⟨⟨whole, _⟩, hwhole, _⟩ := Option.bind_eq_some_iff.mp h
  unfold digits? at hwhole
  dsimp only at hwhole
  split at hwhole
  · cases hwhole
  · next hne =>
    cases cs with
    | nil => exact absurd rfl hne
    | cons c tail =>
      refine ⟨c, tail, rfl, ?_⟩
      by_contra hc
      exact hne (by rw [List.takeWhile_cons_of_neg hc]; rfl)

/-- A number goes on being the number that it is. -/
theorem next?_real_append (hrest : Delimited rest) {x : K} {left : List Char}
    (h : next? cs = some (.scalar (.real x), left)) :
    next? (cs ++ rest) = some (.scalar (.real x), left ++ rest) := by
  unfold next? at h
  split at h
  case h_10 =>
    obtain ⟨_, _, heq⟩ := Option.map_eq_some_iff.mp h
    cases heq
  case h_11 tail =>
    obtain ⟨⟨d, _⟩, hd, heq⟩ := Option.map_eq_some_iff.mp h
    cases heq
    rw [List.cons_append, next?, number?_append hrest hd]
    rfl
  case h_12 =>
    obtain ⟨⟨d, _⟩, hd, heq⟩ := Option.map_eq_some_iff.mp h
    cases heq
    obtain ⟨c, tail, rfl, hc⟩ := isDigit_of_number? hd
    rw [List.cons_append, next?_of_isDigit hc, ← List.cons_append, number?_append hrest hd]
    rfl
  all_goals cases h

end WorkerFleet.Json
