import Mathlib.Data.List.TakeWhile
import WorkerFleet.Memory

/-!
# Which texts are memory quantities

A quantity is a number with one of ten suffixes directly behind it, blanks around the whole
aside. These are the texts that `Memory.parse` reads, and every other one is refused with the
text between the blanks (`parse_accepts`).
-/

namespace WorkerFleet

namespace Text

/-- What is left of `cs` without the blanks at either end. -/
structure IsTrimmed (cs core : List Char) : Prop where
  parts : ∃ front back, cs = front ++ core ++ back ∧
    (∀ c ∈ front, isBlank c = true) ∧ ∀ c ∈ back, isBlank c = true
  first : ∀ c ∈ core.head?, isBlank c = false
  last : ∀ c ∈ core.getLast?, isBlank c = false

theorem isBlank_of_mem_head?_dropWhile {cs : List Char} {c : Char}
    (h : c ∈ (cs.dropWhile isBlank).head?) : isBlank c = false := by
  have hnot := List.head?_dropWhile_not isBlank cs
  rw [Option.mem_def.mp h] at hnot
  exact hnot

theorem isTrimmed_trim (cs : List Char) : IsTrimmed cs (trim cs) := by
  have hfront := List.takeWhile_append_dropWhile (p := isBlank) (l := cs)
  have hback := List.takeWhile_append_dropWhile (p := isBlank) (l := (cs.dropWhile isBlank).reverse)
  have hcore : cs.dropWhile isBlank =
      trim cs ++ ((cs.dropWhile isBlank).reverse.takeWhile isBlank).reverse := by
    rw [trim, ← List.reverse_append, hback, List.reverse_reverse]
  refine ⟨⟨cs.takeWhile isBlank, ((cs.dropWhile isBlank).reverse.takeWhile isBlank).reverse,
    ?_, ?_, ?_⟩, ?_, ?_⟩
  · rw [List.append_assoc, ← hcore, hfront]
  · exact fun c hc => List.mem_takeWhile_imp hc
  · exact fun c hc => List.mem_takeWhile_imp (List.mem_reverse.mp hc)
  · intro c hc
    have hfirst : c ∈ (cs.dropWhile isBlank).head? := by
      rw [hcore, List.head?_append, Option.mem_def.mp hc]
      rfl
    exact isBlank_of_mem_head?_dropWhile hfirst
  · intro c hc
    rw [trim, List.getLast?_reverse] at hc
    exact isBlank_of_mem_head?_dropWhile hc

end Text

namespace Memory

/-- Decimal digits, at least one, and at most one point in any place. -/
structure IsNumber (cs : List Char) : Prop where
  chars : ∀ c ∈ cs, c.isDigit = true ∨ c = '.'
  digit : ∃ c ∈ cs, c.isDigit = true
  point : cs.count '.' ≤ 1

def suffixes : List String := ["", "Ki", "Mi", "Gi", "Ti", "K", "k", "M", "G", "T"]

def IsQuantity (cs : List Char) : Prop :=
  ∃ number, IsNumber number ∧ ∃ suffix ∈ suffixes, cs = number ++ suffix.toList

theorem isNumberChar_iff {c : Char} : isNumberChar c = true ↔ c.isDigit = true ∨ c = '.' := by
  simp [isNumberChar]

/-- Number characters without a point among them are digits. -/
theorem all_isDigit_iff {cs : List Char} (h : ∀ c ∈ cs, isNumberChar c = true) :
    cs.all Char.isDigit = true ↔ cs.count '.' = 0 := by
  rw [List.all_eq_true, List.count_eq_zero]
  constructor
  · intro hdigits hpoint
    exact absurd (hdigits '.' hpoint) (by decide)
  · intro hpoint c hc
    rcases isNumberChar_iff.mp (h c hc) with hdigit | rfl
    · exact hdigit
    · exact absurd hc hpoint

theorem plainDecimal?_isSome_iff {cs : List Char} (h : ∀ c ∈ cs, isNumberChar c = true) :
    (plainDecimal? cs).isSome = true ↔ IsNumber cs := by
  have hparts := List.takeWhile_append_dropWhile (p := Char.isDigit) (l := cs)
  have hwhole : ∀ c ∈ cs.takeWhile Char.isDigit, c.isDigit = true :=
    fun c hc => List.mem_takeWhile_imp hc
  have hstop := List.head?_dropWhile_not Char.isDigit cs
  unfold plainDecimal?
  generalize cs.takeWhile Char.isDigit = whole at hparts hwhole ⊢
  generalize cs.dropWhile Char.isDigit = tail at hparts hstop ⊢
  subst hparts
  have hpoint : whole.count '.' = 0 :=
    (all_isDigit_iff fun c hc => h c (List.mem_append_left _ hc)).mp (List.all_eq_true.mpr hwhole)
  have hnumber : IsNumber (whole ++ tail) ↔
      (∃ c ∈ whole ++ tail, c.isDigit = true) ∧ (whole ++ tail).count '.' ≤ 1 :=
    ⟨fun hn => ⟨hn.digit, hn.point⟩,
      fun ⟨hdigit, hp⟩ => ⟨fun c hc => isNumberChar_iff.mp (h c hc), hdigit, hp⟩⟩
  rw [hnumber, List.count_append, hpoint]
  cases tail with
  | nil =>
    cases whole with
    | nil => simp
    | cons c rest => simp [hwhole c List.mem_cons_self]
  | cons c fraction =>
    -- What stopped the digits is the point, so a second one would stand in the fraction.
    obtain rfl : c = '.' := by
      have hc := isNumberChar_iff.mp (h c (by simp))
      rcases hc with hc | hc
      · exact absurd hc (by simpa using hstop)
      · exact hc
    have hfraction : fraction.all Char.isDigit = true ↔ fraction.count '.' = 0 :=
      all_isDigit_iff fun c hc => h c (by simp [hc])
    rw [List.count_cons_self, Nat.zero_add, Nat.succ_le_succ_iff, Nat.le_zero, ← hfraction,
      List.drop_one, List.tail_cons]
    by_cases hall : fraction.all Char.isDigit = true
    · have hdigit :
          (∃ c ∈ whole ++ '.' :: fraction, c.isDigit = true) ↔ whole ++ fraction ≠ [] := by
        constructor
        · rintro ⟨c, hc, hdigit⟩ hnil
          obtain ⟨rfl, rfl⟩ := List.append_eq_nil_iff.mp hnil
          obtain rfl := List.mem_singleton.mp hc
          exact absurd hdigit (by decide)
        · intro hne
          obtain ⟨c, hc⟩ := List.exists_mem_of_ne_nil _ hne
          rcases List.mem_append.mp hc with hc | hc
          · exact ⟨c, List.mem_append_left _ hc, hwhole c hc⟩
          · exact ⟨c, by simp [hc], List.all_eq_true.mp hall c hc⟩
      rw [hdigit]
      by_cases hne : whole ++ fraction = [] <;> simp [hall, hne]
    · simp [hall]

theorem ofSuffix?_isSome_iff {cs : List Char} :
    (MemoryUnit.ofSuffix? cs).isSome = true ↔ ∃ suffix ∈ suffixes, cs = suffix.toList := by
  constructor
  · intro h
    unfold MemoryUnit.ofSuffix? at h
    split at h
    case h_11 => cases h
    all_goals simp [suffixes]
  · rintro ⟨suffix, hsuffix, rfl⟩
    revert suffix
    decide

/-- No suffix begins as a number does, so the number ends where the suffix begins. -/
theorem isQuantity_iff {cs : List Char} :
    IsQuantity cs ↔ (plainDecimal? (cs.takeWhile isNumberChar)).isSome = true ∧
      (MemoryUnit.ofSuffix? (cs.dropWhile isNumberChar)).isSome = true := by
  have hnumber : (plainDecimal? (cs.takeWhile isNumberChar)).isSome = true ↔
      IsNumber (cs.takeWhile isNumberChar) :=
    plainDecimal?_isSome_iff fun c hc => List.mem_takeWhile_imp hc
  rw [hnumber, ofSuffix?_isSome_iff]
  constructor
  · rintro ⟨number, hn, suffix, hsuffix, rfl⟩
    have hchars : ∀ c ∈ number, isNumberChar c = true :=
      fun c hc => isNumberChar_iff.mpr (hn.chars c hc)
    have hstart : ∀ suffix ∈ suffixes, suffix.toList.takeWhile isNumberChar = [] ∧
        suffix.toList.dropWhile isNumberChar = suffix.toList := by decide
    obtain ⟨htake, hdrop⟩ := hstart suffix hsuffix
    rw [List.takeWhile_append_of_pos hchars, List.dropWhile_append_of_pos hchars, htake, hdrop,
      List.append_nil]
    exact ⟨hn, suffix, hsuffix, rfl⟩
  · rintro ⟨hn, suffix, hsuffix, hdrop⟩
    exact ⟨_, hn, suffix, hsuffix, by rw [← hdrop, List.takeWhile_append_dropWhile]⟩

variable {K : Type} [Quantity K]

theorem parse_cases (text : String) :
    (IsQuantity (Text.trim text.toList) ∧ ∃ x : K, parse text = .ok x) ∨
      (¬ IsQuantity (Text.trim text.toList) ∧ (parse text : Except (ResourceError K) K) =
        .error (.invalidMemory (String.ofList (Text.trim text.toList)))) := by
  rw [isQuantity_iff]
  unfold parse
  dsimp only
  split
  · next number unit hnumber hunit =>
    exact .inl ⟨⟨Option.isSome_of_eq_some hnumber, Option.isSome_of_eq_some hunit⟩, _, rfl⟩
  · next hnone =>
    refine .inr ⟨?_, rfl⟩
    rintro ⟨hnumber, hunit⟩
    obtain ⟨number, hnumber⟩ := Option.isSome_iff_exists.mp hnumber
    obtain ⟨unit, hunit⟩ := Option.isSome_iff_exists.mp hunit
    exact hnone number unit hnumber hunit

/-- A text is read just if it is a quantity between its blanks, and is refused with what stands
there just if it is none. -/
theorem parse_accepts (text : String) :
    ∃ core, Text.IsTrimmed text.toList core ∧
      ((∃ x : K, parse text = .ok x) ↔ IsQuantity core) ∧
      ((parse text : Except (ResourceError K) K) = .error (.invalidMemory (String.ofList core)) ↔
        ¬ IsQuantity core) := by
  refine ⟨Text.trim text.toList, Text.isTrimmed_trim _, ?_⟩
  rcases parse_cases (K := K) text with ⟨hquantity, x, hparse⟩ | ⟨hnone, hparse⟩
  · rw [hparse]
    exact ⟨⟨fun _ => hquantity, fun _ => ⟨x, rfl⟩⟩, nofun, fun hnone => absurd hquantity hnone⟩
  · rw [hparse]
    exact ⟨⟨nofun, fun hquantity => absurd hquantity hnone⟩, fun _ => hnone, fun _ => rfl⟩

end Memory

end WorkerFleet
