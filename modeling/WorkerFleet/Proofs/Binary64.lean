import Mathlib
import WorkerFleet.Quantity

/-!
# Binary64 numbers

What holds of binary64 without a look at rounding. All numbers, the infinite ones included,
are in one order (`lt_iff`), so one that is not at most another is greater (`lt_of_not_le`). A sum
with something that is not a number is not a number, and a sum of numbers that are not negative is
not negative. Rounding to a count ends at the largest.
-/

namespace WorkerFleet

namespace Binary64
open Float.Model Float.Model.UnpackedFloat

/-- Where a number stands among the others. -/
def place : UnpackedFloat → ℤ ×ₗ ℤ ×ₗ ℤ
  | .infinity .negative => toLex (-2, toLex (0, 0))
  | .finite .negative m e _ => toLex (-1, toLex (-e, -m))
  | .zero _ | .notANumber => toLex (0, toLex (0, 0))
  | .finite .positive m e _ => toLex (1, toLex (e, m))
  | .infinity .positive => toLex (2, toLex (0, 0))

theorem compare_then_eq_lt_iff {e f : ℤ} {m n : ℕ} :
    (compare e f).then (compare m n) = .lt ↔ e < f ∨ e = f ∧ m < n := by
  rw [Ordering.then_eq_lt, compare_lt_iff_lt, compare_eq_iff_eq, compare_lt_iff_lt]

theorem compare_then_eq_gt_iff {e f : ℤ} {m n : ℕ} :
    (compare e f).then (compare m n) = .gt ↔ f < e ∨ e = f ∧ n < m := by
  rw [Ordering.then_eq_gt, compare_gt_iff_gt, compare_eq_iff_eq, compare_gt_iff_gt]

/-- Numbers compare by sign, then by exponent, then by mantissa. -/
theorem lt_unpacked_iff {a b : UnpackedFloat} (ha : a.isNaN = false) (hb : b.isNaN = false) :
    a.lt b = true ↔ place a < place b := by
  cases a with
  | notANumber => cases ha
  | infinity s =>
    cases b with
    | notANumber => cases hb
    | infinity t => cases s <;> cases t <;> decide
    | zero t => cases s <;> cases t <;> decide
    | finite t =>
      cases s <;> cases t <;>
        simp [UnpackedFloat.lt, UnpackedFloat.compare, place, Prod.Lex.toLex_lt_toLex]
  | zero s =>
    cases b with
    | notANumber => cases hb
    | infinity t => cases s <;> cases t <;> decide
    | zero t => cases s <;> cases t <;> decide
    | finite t =>
      cases t <;> simp [UnpackedFloat.lt, UnpackedFloat.compare, place, Prod.Lex.toLex_lt_toLex]
  | finite s =>
    cases b with
    | notANumber => cases hb
    | infinity t =>
      cases s <;> cases t <;>
        simp [UnpackedFloat.lt, UnpackedFloat.compare, place, Prod.Lex.toLex_lt_toLex]
    | zero t =>
      cases s <;> simp [UnpackedFloat.lt, UnpackedFloat.compare, place, Prod.Lex.toLex_lt_toLex]
    | finite t =>
      cases s <;> cases t <;>
        simp [UnpackedFloat.lt, UnpackedFloat.compare, place, Prod.Lex.toLex_lt_toLex,
          compare_then_eq_lt_iff, compare_then_eq_gt_iff]

theorem compare_then_swap (e f : ℤ) (m n : ℕ) :
    (compare f e).then (compare n m) = ((compare e f).then (compare m n)).swap := by
  rw [Ordering.swap_then, Std.OrientedOrd.eq_swap (a := f), Std.OrientedOrd.eq_swap (a := n)]

/-- Any two numbers compare, and the other way round when they change places. -/
theorem exists_compare {a b : UnpackedFloat} (ha : a.isNaN = false) (hb : b.isNaN = false) :
    ∃ o, a.compare b = some o ∧ b.compare a = some o.swap := by
  cases a with
  | notANumber => cases ha
  | infinity s =>
    cases b with
    | notANumber => cases hb
    | infinity t => cases s <;> cases t <;> exact ⟨_, rfl, rfl⟩
    | zero t => cases s <;> exact ⟨_, rfl, rfl⟩
    | finite t => cases s <;> cases t <;> exact ⟨_, rfl, rfl⟩
  | zero s =>
    cases b with
    | notANumber => cases hb
    | infinity t => cases t <;> exact ⟨_, rfl, rfl⟩
    | zero t => exact ⟨_, rfl, rfl⟩
    | finite t => cases t <;> exact ⟨_, rfl, rfl⟩
  | finite s m e =>
    cases b with
    | notANumber => cases hb
    | infinity t => cases s <;> cases t <;> exact ⟨_, rfl, rfl⟩
    | zero t => cases s <;> exact ⟨_, rfl, rfl⟩
    | finite t n f =>
      have hswap := compare_then_swap e f m n
      cases s with
      | positive =>
        cases t with
        | positive => exact ⟨_, rfl, congrArg some hswap⟩
        | negative => exact ⟨_, rfl, rfl⟩
      | negative =>
        cases t with
        | positive => exact ⟨_, rfl, rfl⟩
        | negative => exact ⟨_, rfl, congrArg (fun o => some (Ordering.swap o)) hswap⟩

/-- The number is zero or above; a zero is, whatever its sign. -/
def isNonneg : UnpackedFloat → Bool
  | .infinity .positive | .zero _ | .finite .positive .. => true
  | .infinity .negative | .finite .negative .. | .notANumber => false

section Sums
variable {spec : Format}

theorem isNonneg_round (m : ℕ) (e : ℤ) :
    isNonneg (UnpackedFloat.round spec .positive m e) = true := by
  unfold UnpackedFloat.round roundWithAccuracy
  simp only
  split <;> rfl

theorem isNonneg_normalize {m : ℤ} (hm : 0 ≤ m) (e : ℤ) :
    isNonneg (UnpackedFloat.normalize spec m e .positive) = true := by
  unfold UnpackedFloat.normalize
  cases h : compare m 0 with
  | lt => exact absurd (compare_lt_iff_lt.mp h) hm.not_gt
  | eq => rfl
  | gt => exact isNonneg_round _ _

theorem isNonneg_add {a b : UnpackedFloat} (ha : isNonneg a = true) (hb : isNonneg b = true) :
    isNonneg (a.add spec b) = true := by
  cases a with
  | notANumber => cases ha
  | infinity s =>
    cases s with
    | negative => cases ha
    | positive =>
      cases b with
      | notANumber => cases hb
      | infinity t =>
        cases t with
        | negative => cases hb
        | positive => rfl
      | zero | finite => rfl
  | zero s =>
    cases b with
    | notANumber => cases hb
    | zero t => cases s <;> cases t <;> rfl
    | infinity | finite => exact hb
  | finite s =>
    cases s with
    | negative => cases ha
    | positive =>
      cases b with
      | notANumber => cases hb
      | infinity => exact hb
      | zero => rfl
      | finite t =>
        cases t with
        | negative => cases hb
        | positive =>
          exact isNonneg_normalize
            (Int.add_nonneg (Int.natCast_nonneg _) (Int.natCast_nonneg _)) _

theorem unpackSign_packComponents {sign : Sign} {exponent : BitVec spec.exponentBits}
    {mantissa : BitVec spec.mantissaBitsWithoutImplicit} :
    unpackSign (packComponents spec sign exponent mantissa) = sign.toBitVec := by
  ext i hi
  obtain rfl : i = 0 := by omega
  simp [unpackSign, packComponents, BitVec.getLsbD_append, BitVec.getElem_append]

theorem ofBitVec_toBitVec (s : Sign) : Sign.ofBitVec s.toBitVec = s := by
  cases s <;> rfl

/-- The pattern of the sign and another exponent than that of the infinite numbers. -/
theorem isNonneg_unpack_packComponents {exponent : BitVec spec.exponentBits}
    {mantissa : BitVec spec.mantissaBitsWithoutImplicit}
    (h : exponent ≠ -1#_ ∨ mantissa = 0#_) :
    isNonneg (UnpackedFloat.unpack spec (packComponents spec .positive exponent mantissa)) =
      true := by
  unfold UnpackedFloat.unpack
  simp only [unpackMantissa_packComponents, unpackExponent_packComponents,
    unpackSign_packComponents, ofBitVec_toBitVec]
  split
  · next hexponent =>
    rw [if_pos (h.resolve_left (not_not.mpr hexponent))]
    rfl
  · split
    · split <;> rfl
    · rfl

/-- Packing may round a number up to infinity, but keeps its sign. -/
theorem isNonneg_unpack_pack {a : UnpackedFloat} (ha : isNonneg a = true) :
    isNonneg (Float.Model.pack a).unpack = true := by
  change isNonneg (UnpackedFloat.unpack .binary64 (UnpackedFloat.pack .binary64 a)) = true
  cases a with
  | notANumber => cases ha
  | infinity s =>
    cases s with
    | negative => cases ha
    | positive => exact isNonneg_unpack_packComponents (.inr rfl)
  | zero s => cases s <;> rfl
  | finite s =>
    cases s with
    | negative => cases ha
    | positive =>
      unfold UnpackedFloat.pack
      simp only
      split
      · exact isNonneg_unpack_packComponents (.inr rfl)
      · next hsmall =>
        split
        · refine isNonneg_unpack_packComponents (.inl fun h => ?_)
          have hbits := congrArg BitVec.toNat h
          simp only [BitVec.toNat_ofNat, BitVec.reduceNeg, Nat.reducePow] at hbits
          omega
        · exact isNonneg_unpack_packComponents (.inl (by decide))

end Sums

section Floats
variable {x y : Float}

theorem lt_eq : Quantity.lt x y = x.toModel.unpack.lt y.toModel.unpack := by
  change decide (decide (x.toModel.unpack.lt y.toModel.unpack = true) = true) = _
  rw [Bool.decide_eq_true, Bool.decide_eq_true]

theorem le_eq : Quantity.le x y = x.toModel.unpack.le y.toModel.unpack := by
  change decide (decide (x.toModel.unpack.le y.toModel.unpack = true) = true) = _
  rw [Bool.decide_eq_true, Bool.decide_eq_true]

theorem lt_iff (hx : x.isNaN = false) (hy : y.isNaN = false) :
    Quantity.lt x y = true ↔ place x.toModel.unpack < place y.toModel.unpack := by
  rw [lt_eq]
  exact lt_unpacked_iff hx hy

theorem unpack_of_isNaN (h : x.isNaN = true) : x.toModel.unpack = .notANumber := by
  change x.toModel.unpack.isNaN = true at h
  cases hx : x.toModel.unpack with
  | notANumber => rfl
  | infinity | zero | finite =>
    rw [hx] at h
    cases h

/-- What is not a number compares with nothing. -/
theorem lt_of_isNaN (h : x.isNaN = true ∨ y.isNaN = true) : Quantity.lt x y = false := by
  rw [lt_eq]
  rcases h with hx | hy
  · rw [unpack_of_isNaN hx]
    rfl
  · rw [unpack_of_isNaN hy]
    cases x.toModel.unpack <;> rfl

theorem lt_self (x : Float) : Quantity.lt x x = false := by
  cases h : x.isNaN with
  | true => exact lt_of_isNaN (.inl h)
  | false => exact Bool.eq_false_iff.mpr fun hlt => lt_irrefl _ ((lt_iff h h).mp hlt)

/-- Of two numbers, if the one is not at most the other, the other is less. -/
theorem lt_of_not_le (hx : x.isNaN = false) (hy : y.isNaN = false)
    (h : Quantity.le x y = false) : Quantity.lt y x = true := by
  obtain ⟨o, hxy, hyx⟩ := exists_compare (a := x.toModel.unpack) (b := y.toModel.unpack) hx hy
  rw [le_eq, UnpackedFloat.le, hxy] at h
  rw [lt_eq, UnpackedFloat.lt, hyx]
  cases o with
  | lt | eq => cases h
  | gt => rfl

/-- What compares with zero is a number, and so is zero. -/
theorem isNaN_positivePart (x : Float) : (Quantity.positivePart x).isNaN = false := by
  unfold Quantity.positivePart
  split
  · next h =>
    refine Bool.eq_false_iff.mpr fun hnan => ?_
    rw [lt_of_isNaN (.inr hnan)] at h
    cases h
  · rfl

theorem isNaN_add (h : x.isNaN = true ∨ y.isNaN = true) : (x + y).isNaN = true := by
  have hsum : UnpackedFloat.add .binary64 x.toModel.unpack y.toModel.unpack = .notANumber := by
    rcases h with hx | hy
    · rw [unpack_of_isNaN hx]
      rfl
    · rw [unpack_of_isNaN hy]
      cases x.toModel.unpack <;> rfl
  change (Float.Model.pack (UnpackedFloat.add .binary64 _ _)).unpack.isNaN = true
  rw [hsum]
  rfl

def Nonneg (x : Float) : Prop := isNonneg x.toModel.unpack = true

theorem nonneg_iff : Nonneg x ↔ Quantity.le Quantity.zero x = true := by
  have hzero : (Quantity.zero : Float).toModel.unpack = .zero .positive := rfl
  rw [le_eq, hzero, Nonneg]
  cases x.toModel.unpack with
  | notANumber | zero => exact Iff.rfl
  | infinity s | finite s => cases s <;> exact Iff.rfl

theorem Nonneg.isNaN (h : Nonneg x) : x.isNaN = false := by
  refine Bool.eq_false_iff.mpr fun hnan => ?_
  rw [Nonneg, unpack_of_isNaN hnan] at h
  cases h

theorem Nonneg.add (hx : Nonneg x) (hy : Nonneg y) : Nonneg (x + y) :=
  isNonneg_unpack_pack (isNonneg_add hx hy)

/-- Rounding ends at the largest count. -/
theorem roundNat_le (x : Float) : Quantity.roundNat x ≤ Quantity.maxCount := by
  have hwhole : x.toUInt64.toNat ≤ Quantity.maxCount := Nat.le_of_lt_succ x.toUInt64.toNat_lt
  change (if 0.5 ≤ x - x.toUInt64.toFloat then min (x.toUInt64.toNat + 1) Quantity.maxCount
    else x.toUInt64.toNat) ≤ Quantity.maxCount
  split
  · exact Nat.min_le_right _ _
  · exact hwhole

end Floats

end Binary64

end WorkerFleet
