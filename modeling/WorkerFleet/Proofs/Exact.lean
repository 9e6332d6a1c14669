import Mathlib.Algebra.BigOperators.Group.List.Basic
import Mathlib.Data.List.Nodup
import Mathlib.Algebra.Order.BigOperators.Group.List
import Mathlib.Algebra.Order.Ring.Rat
import Mathlib.Tactic.Linarith
import WorkerFleet.Resources

/-!
# Exact numbers

Laws that binary64 lacks. Statements about sums that any exact numbers satisfy ask for `Exact`:
sums are those of an ordered commutative monoid, so infinite numbers may be among them, but
nothing that compares with no number. Where rooms and shares are computed, the numbers are
rational, and the laws are put in the words of the order on them.
-/

namespace WorkerFleet

/-- A sum can be taken name by name. -/
theorem sum_filter_names {α N M : Type} [DecidableEq N] [AddCommMonoid M] (name : α → N)
    (f : α → M) {names : List N} (hnodup : names.Nodup) {xs : List α}
    (h : ∀ x ∈ xs, name x ∈ names) :
    (names.map fun a => ((xs.filter (name · = a)).map f).sum).sum = (xs.map f).sum := by
  induction xs with
  | nil => simp
  | cons x xs ih =>
    obtain ⟨hx, hxs⟩ := List.forall_mem_cons.mp h
    have hsplit : ∀ a, (((x :: xs).filter (name · = a)).map f).sum =
        (if a = name x then f x else 0) + ((xs.filter (name · = a)).map f).sum := by
      intro a
      by_cases ha : name x = a
      · rw [List.filter_cons_of_pos (by simpa using ha), List.map_cons, List.sum_cons,
          if_pos ha.symm]
      · rw [List.filter_cons_of_neg (by simpa using ha), if_neg (Ne.symm ha), zero_add]
    -- Just one of the names is that of `x`.
    have hone : (names.map fun a => if a = name x then f x else 0).sum = f x := by
      rw [List.sum_map_eq_nsmul_single (name x) _ fun a ha _ => if_neg ha, if_pos rfl,
        List.count_eq_one_of_mem hnodup hx, one_nsmul]
    simp only [hsplit]
    rw [List.sum_map_add, hone, ih hxs, List.map_cons, List.sum_cons]

namespace Quantity
variable {K : Type} [Quantity K]

/-- The numbers added up from zero, the first one first. -/
def sum (xs : List K) : K := xs.foldl (· + ·) zero

/-- Sums are exact, any two numbers compare, and a sum grows with what is added. -/
class Exact (K : Type) [Quantity K] : Prop where
  add_assoc : ∀ x y z : K, x + y + z = x + (y + z)
  add_comm : ∀ x y : K, x + y = y + x
  zero_add : ∀ x : K, zero + x = x
  le_trans : ∀ x y z : K, le x y = true → le y z = true → le x z = true
  le_antisymm : ∀ x y : K, le x y = true → le y x = true → x = y
  le_total : ∀ x y : K, le x y = true ∨ le y x = true
  lt_iff : ∀ x y : K, lt x y = true ↔ le x y = true ∧ ¬ le y x = true
  add_le_add : ∀ x y : K, le x y = true → ∀ z, le (x + z) (y + z) = true

namespace Exact

abbrev addCommMonoid (K : Type) [Quantity K] [Exact K] : AddCommMonoid K where
  add_assoc := add_assoc
  zero := Quantity.zero
  zero_add := zero_add
  add_zero x := (add_comm x _).trans (zero_add x)
  add_comm := add_comm
  nsmul := @nsmulRec K ⟨Quantity.zero⟩ _

abbrev linearOrder (K : Type) [Quantity K] [Exact K] : LinearOrder K where
  le x y := Quantity.le x y = true
  lt x y := Quantity.lt x y = true
  le_refl x := (le_total x x).elim id id
  le_trans := le_trans
  le_antisymm := le_antisymm
  le_total := le_total
  lt_iff_le_not_ge := lt_iff
  toDecidableLE := inferInstanceAs (∀ x y : K, Decidable (Quantity.le x y = true))

end Exact

/-- Numbers that are those of an ordered monoid obey its laws. -/
theorem exact_of_embedding {L : Type} [AddCommMonoid L] [LinearOrder L] [IsOrderedAddMonoid L]
    (f : K → L) (hinjective : f.Injective) (hadd : ∀ x y, f (x + y) = f x + f y)
    (hzero : f zero = 0) (hle : ∀ x y, le x y = true ↔ f x ≤ f y)
    (hlt : ∀ x y, lt x y = true ↔ f x < f y) : Exact K where
  add_assoc x y z := hinjective (by simp only [hadd, add_assoc])
  add_comm x y := hinjective (by simp only [hadd, add_comm])
  zero_add x := hinjective (by rw [hadd, hzero, zero_add])
  le_trans x y z := by simpa only [hle] using le_trans
  le_antisymm x y h h' := hinjective (le_antisymm ((hle x y).mp h) ((hle y x).mp h'))
  le_total x y := by simpa only [hle] using le_total (f x) (f y)
  lt_iff x y := by simpa only [hle, hlt] using lt_iff_le_not_ge
  add_le_add x y h z := by
    rw [hle, hadd, hadd]
    exact add_le_add_left ((hle x y).mp h) (f z)

section Sums
variable [Exact K]

theorem sum_eq_listSum (xs : List K) :
    sum xs = let _ := Exact.addCommMonoid K; xs.sum := by
  let _ := Exact.addCommMonoid K
  exact List.sum_eq_foldl.symm

theorem foldl_add (x : K) (xs : List K) : xs.foldl (· + ·) x = sum (x :: xs) := by
  rw [sum, List.foldl_cons, Exact.zero_add]

theorem sum_sums_by_name {α : Type} (name : α → String) (f : α → K) {names : List String}
    (hnodup : names.Nodup) {xs : List α} (h : ∀ x ∈ xs, name x ∈ names) :
    sum (names.map fun a => sum ((xs.filter (name · = a)).map f)) = sum (xs.map f) := by
  let _ := Exact.addCommMonoid K
  simp only [sum_eq_listSum]
  exact sum_filter_names name f hnodup h

/-- Fewer and smaller numbers have a smaller sum, if none is below zero. -/
theorem sum_le_sum {xs ys : List K}
    (h : List.SublistForall₂ (fun x y => le x y = true) xs ys)
    (hnonneg : ∀ y ∈ ys, le zero y = true) : le (sum xs) (sum ys) = true := by
  let _ := Exact.addCommMonoid K
  let _ := Exact.linearOrder K
  have : IsOrderedAddMonoid K := { add_le_add_left := Exact.add_le_add }
  rw [sum_eq_listSum, sum_eq_listSum]
  exact h.sum_le_sum hnonneg

end Sums

section Rational

@[simp] theorem le_rat_iff {x y : Rat} : Quantity.le x y = true ↔ x ≤ y := decide_eq_true_iff

@[simp] theorem lt_rat_iff {x y : Rat} : Quantity.lt x y = true ↔ x < y := decide_eq_true_iff

@[simp] theorem zero_rat : (Quantity.zero : Rat) = 0 := rfl

@[simp] theorem isPositive_rat_iff {x : Rat} : isPositive x = true ↔ 0 < x := lt_rat_iff

instance : Exact Rat :=
  exact_of_embedding id Function.injective_id (fun _ _ => rfl) rfl (fun _ _ => le_rat_iff)
    fun _ _ => lt_rat_iff

theorem positivePart_rat (x : Rat) : positivePart x = max 0 x := by
  simp only [positivePart, zero_rat, lt_rat_iff]
  by_cases h : 0 < x
  · rw [if_pos h, max_eq_right h.le]
  · rw [if_neg h, max_eq_left (not_lt.mp h)]

end Rational

end Quantity

namespace Resources

section Sums
variable {K : Type} [Quantity K]

theorem get_foldl_add (r : Resources K) (rs : List (Resources K)) (d : Dimension) :
    (rs.foldl (· + ·) r).get d = (rs.map (·.get d)).foldl (· + ·) (r.get d) := by
  induction rs generalizing r with
  | nil => rfl
  | cons a rs ih => rw [List.foldl_cons, ih, get_add, List.map_cons, List.foldl_cons]

theorem get_sum (rs : List (Resources K)) (d : Dimension) :
    (sum rs).get d = Quantity.sum (rs.map (·.get d)) := by
  rw [sum, get_foldl_add, get_zero, Quantity.sum]

theorem foldl_add [Quantity.Exact K] (r : Resources K) (rs : List (Resources K)) :
    rs.foldl (· + ·) r = sum (r :: rs) := by
  apply ext_get
  intro d
  rw [get_foldl_add, Quantity.foldl_add, get_sum, List.map_cons]

end Sums

theorem fitsWithin_rat_iff {r available : Resources Rat} :
    r.fitsWithin available = true ↔ ∀ d, r.get d ≤ available.get d := by
  simp only [fitsWithin_iff, Quantity.le_rat_iff]

theorem isPositive_rat_iff {r : Resources Rat} : r.isPositive = true ↔ ∃ d, 0 < r.get d := by
  simp only [isPositive_iff, Quantity.isPositive_rat_iff]

theorem get_sum_rat (rs : List (Resources Rat)) (d : Dimension) :
    (sum rs).get d = (rs.map (·.get d)).sum := by
  rw [get_sum]
  exact List.sum_eq_foldl.symm

theorem get_leftAfter_rat (a b : Resources Rat) (d : Dimension) :
    (a.leftAfter b).get d = max 0 (a.get d - b.get d) := by
  rw [get_leftAfter, Quantity.positivePart_rat]

end Resources

end WorkerFleet
