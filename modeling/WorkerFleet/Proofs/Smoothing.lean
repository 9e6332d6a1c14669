import Mathlib.Algebra.Order.Group.Pointwise.Interval
import Mathlib.Tactic.Ring
import WorkerFleet.Capacity
import WorkerFleet.Proofs.Exact

/-!
# Smoothed estimates

Over exact numbers the estimate moves towards the number of workers that is seen, or towards the
nearer bound where that number lies outside. It never passes this target, and each update leaves
at most the weight of the previous estimate of the distance to it.
-/

namespace WorkerFleet

namespace Quantity
variable {lo hi x y : Rat}

theorem clamp_rat (h : lo ≤ hi) (x : Rat) : clamp lo hi x = max lo (min hi x) := by
  simp only [clamp, lt_rat_iff]
  by_cases hlo : x < lo
  · rw [if_pos hlo, min_eq_right (hlo.le.trans h), max_eq_left hlo.le]
  · rw [if_neg hlo]
    by_cases hhi : hi < x
    · rw [if_pos hhi, min_eq_left hhi.le, max_eq_right h]
    · rw [if_neg hhi, min_eq_right (not_lt.mp hhi), max_eq_right (not_lt.mp hlo)]

theorem clamp_mem_Icc (h : lo ≤ hi) (x : Rat) : clamp lo hi x ∈ Set.Icc lo hi := by
  rw [clamp_rat h]
  exact ⟨le_max_left _ _, max_le h (min_le_left _ _)⟩

theorem clamp_of_mem_Icc (hx : x ∈ Set.Icc lo hi) : clamp lo hi x = x := by
  rw [clamp_rat (hx.1.trans hx.2), min_eq_right hx.2, max_eq_right hx.1]

theorem clamp_monotone (h : lo ≤ hi) : Monotone (clamp lo hi) := by
  intro x y hxy
  rw [clamp_rat h, clamp_rat h]
  exact max_le_max le_rfl (min_le_min le_rfl hxy)

/-- Moving a number into bounds that hold `x` brings it no further from `x`. -/
theorem clamp_mem_uIcc (hx : x ∈ Set.Icc lo hi) (y : Rat) : clamp lo hi y ∈ Set.uIcc x y := by
  have hbounds := hx.1.trans hx.2
  rcases le_total x y with h | h
  · have hle := clamp_monotone hbounds h
    rw [clamp_of_mem_Icc hx] at hle
    refine Set.mem_uIcc_of_le hle ?_
    rw [clamp_rat hbounds]
    exact max_le (hx.1.trans h) (min_le_right _ _)
  · have hle := clamp_monotone hbounds h
    rw [clamp_of_mem_Icc hx] at hle
    refine Set.mem_uIcc_of_ge ?_ hle
    rw [clamp_rat hbounds]
    exact (le_min (h.trans hx.2) le_rfl).trans (le_max_right _ _)

end Quantity

namespace Capacity

section Blend

/-- The mean of `previous` and `seen`, weighed by `alpha`. -/
def blend (alpha previous seen : Rat) : Rat := previous * alpha + seen * (1 - alpha)

variable (alpha previous seen : Rat)

theorem blend_sub_previous : blend alpha previous seen - previous =
    (1 - alpha) * (seen - previous) := by
  unfold blend
  ring

theorem seen_sub_blend : seen - blend alpha previous seen = alpha * (seen - previous) := by
  unfold blend
  ring

variable {alpha previous seen}

theorem blend_le_blend {seen' : Rat} (hhigh : alpha ≤ 1) (h : seen ≤ seen') :
    blend alpha previous seen ≤ blend alpha previous seen' := by
  have hweight : 0 ≤ 1 - alpha := sub_nonneg.mpr hhigh
  unfold blend
  gcongr

theorem blend_mem_uIcc (hlow : 0 ≤ alpha) (hhigh : alpha ≤ 1) (previous seen : Rat) :
    blend alpha previous seen ∈ Set.uIcc previous seen := by
  have hleft := blend_sub_previous alpha previous seen
  have hright := seen_sub_blend alpha previous seen
  have hweight : 0 ≤ 1 - alpha := sub_nonneg.mpr hhigh
  rcases le_total previous seen with h | h
  · have hgap : 0 ≤ seen - previous := sub_nonneg.mpr h
    refine Set.mem_uIcc_of_le ?_ ?_
    · exact sub_nonneg.mp (hleft ▸ mul_nonneg hweight hgap)
    · exact sub_nonneg.mp (hright ▸ mul_nonneg hlow hgap)
  · have hgap : seen - previous ≤ 0 := sub_nonpos.mpr h
    refine Set.mem_uIcc_of_ge ?_ ?_
    · exact sub_nonpos.mp (hright ▸ mul_nonpos_of_nonneg_of_nonpos hlow hgap)
    · exact sub_nonpos.mp (hleft ▸ mul_nonpos_of_nonneg_of_nonpos hweight hgap)

/-- A target on the way to what is seen pulls less. -/
theorem blend_mem_uIcc_of_nearer (hlow : 0 ≤ alpha) (hhigh : alpha ≤ 1) {target : Rat}
    (h : target ∈ Set.uIcc previous seen) :
    blend alpha previous seen ∈ Set.uIcc (blend alpha previous target) seen := by
  have hblend := blend_mem_uIcc hlow hhigh previous seen
  rcases le_total previous seen with hle | hle
  · rw [Set.uIcc_of_le hle] at h hblend
    exact Set.mem_uIcc_of_le (blend_le_blend hhigh h.2) hblend.2
  · rw [Set.uIcc_of_ge hle] at h hblend
    exact Set.mem_uIcc_of_ge hblend.1 (blend_le_blend hhigh h.1)

end Blend

section Update
variable (c : Capacity Rat) (seen : Nat)

/-- What the estimate moves towards while `seen` workers are seen. -/
def target : Rat := Quantity.clamp c.policy.min c.policy.max seen

def WithinBounds : Prop := c.value ∈ Set.Icc c.policy.min c.policy.max

theorem min_le_max : c.policy.min ≤ c.policy.max := Quantity.le_rat_iff.mp c.bounds_ordered

@[simp] theorem policy_update : (c.update seen).policy = c.policy := rfl

theorem value_update : (c.update seen).value = Quantity.clamp c.policy.min c.policy.max
    (blend c.policy.alpha c.value seen) := by
  have hone : (Quantity.ofNat 1 : Rat) = 1 := Nat.cast_one
  rw [update, blend, hone]
  rfl

theorem withinBounds_update : (c.update seen).WithinBounds := by
  rw [WithinBounds, value_update]
  exact Quantity.clamp_mem_Icc c.min_le_max _

variable {c}

theorem abs_update_sub_le (hhigh : c.policy.alpha ≤ 1) (h : c.WithinBounds) :
    |(c.update seen).value - c.value| ≤ (1 - c.policy.alpha) * |(seen : Rat) - c.value| := by
  rw [value_update]
  calc |Quantity.clamp c.policy.min c.policy.max (blend c.policy.alpha c.value seen) - c.value|
      ≤ |blend c.policy.alpha c.value seen - c.value| :=
        Set.abs_sub_left_of_mem_uIcc (Quantity.clamp_mem_uIcc h _)
    _ = (1 - c.policy.alpha) * |(seen : Rat) - c.value| := by
        rw [blend_sub_previous, abs_mul, abs_of_nonneg (sub_nonneg.mpr hhigh)]

section Weight
variable (hlow : 0 ≤ c.policy.alpha) (hhigh : c.policy.alpha ≤ 1) (h : c.WithinBounds)
include hlow hhigh h

theorem update_mem_uIcc : (c.update seen).value ∈ Set.uIcc c.value (c.target seen) := by
  have hclamp := (Quantity.clamp_monotone c.min_le_max).mapsTo_uIcc
    (blend_mem_uIcc hlow hhigh c.value seen)
  rw [Quantity.clamp_of_mem_Icc h] at hclamp
  rw [value_update]
  exact hclamp

/-- An update towards the target itself would stop short of it, and what is seen lies no
nearer. -/
theorem abs_target_sub_update_le : |c.target seen - (c.update seen).value| ≤
    c.policy.alpha * |c.target seen - c.value| := by
  have hstop : blend c.policy.alpha c.value (c.target seen) ∈
      Set.Icc c.policy.min c.policy.max :=
    Set.uIcc_subset_Icc h (Quantity.clamp_mem_Icc c.min_le_max _)
      (blend_mem_uIcc hlow hhigh c.value (c.target seen))
  have hclamp : Quantity.clamp c.policy.min c.policy.max (blend c.policy.alpha c.value seen) ∈
      Set.uIcc (Quantity.clamp c.policy.min c.policy.max
        (blend c.policy.alpha c.value (c.target seen))) (c.target seen) :=
    (Quantity.clamp_monotone c.min_le_max).mapsTo_uIcc
      (blend_mem_uIcc_of_nearer hlow hhigh (Quantity.clamp_mem_uIcc h seen))
  rw [Quantity.clamp_of_mem_Icc hstop] at hclamp
  calc |c.target seen - (c.update seen).value|
      ≤ |c.target seen - blend c.policy.alpha c.value (c.target seen)| := by
        rw [value_update]
        exact Set.abs_sub_right_of_mem_uIcc hclamp
    _ = c.policy.alpha * |c.target seen - c.value| := by
        rw [seen_sub_blend, abs_mul, abs_of_nonneg hlow]

end Weight

end Update

section Run

/-- The estimate after these numbers of workers were seen, one after the other. -/
def observe (c : Capacity Rat) (counts : List Nat) : Capacity Rat := counts.foldl update c

theorem policy_observe (c : Capacity Rat) (counts : List Nat) :
    (c.observe counts).policy = c.policy := by
  induction counts generalizing c with
  | nil => rfl
  | cons seen counts ih => exact (ih (c.update seen)).trans (c.policy_update seen)

theorem withinBounds_observe {c : Capacity Rat} (h : c.WithinBounds) (counts : List Nat) :
    (c.observe counts).WithinBounds := by
  induction counts generalizing c with
  | nil => exact h
  | cons seen counts ih => exact ih (c.withinBounds_update seen)

theorem abs_target_sub_observe_replicate_le {c : Capacity Rat} (hlow : 0 ≤ c.policy.alpha)
    (hhigh : c.policy.alpha ≤ 1) (h : c.WithinBounds) (seen n : Nat) :
    |c.target seen - (c.observe (List.replicate n seen)).value| ≤
      c.policy.alpha ^ n * |c.target seen - c.value| := by
  induction n generalizing c with
  | zero => rw [pow_zero, one_mul]; rfl
  | succ n ih =>
    calc |c.target seen - (c.observe (List.replicate (n + 1) seen)).value|
        ≤ c.policy.alpha ^ n * |c.target seen - (c.update seen).value| :=
          ih (c := c.update seen) hlow hhigh (c.withinBounds_update seen)
      _ ≤ c.policy.alpha ^ n * (c.policy.alpha * |c.target seen - c.value|) :=
          mul_le_mul_of_nonneg_left (abs_target_sub_update_le seen hlow hhigh h)
            (pow_nonneg hlow n)
      _ = c.policy.alpha ^ (n + 1) * |c.target seen - c.value| := by
          rw [pow_succ, mul_assoc]

/-- Where an estimate stands and how it moves from there. -/
structure Smooths (c : Capacity Rat) : Prop where
  within : c.policy.min ≤ c.value ∧ c.value ≤ c.policy.max
  step : ∀ seen : Nat,
    |(c.update seen).value - c.value| ≤ (1 - c.policy.alpha) * |(seen : Rat) - c.value|
  notPast : ∀ seen : Nat, (c.update seen).value ∈
    Set.uIcc c.value (Quantity.clamp c.policy.min c.policy.max (seen : Rat))
  approaches : ∀ seen n : Nat,
    |(c.observe (List.replicate n seen)).value -
        Quantity.clamp c.policy.min c.policy.max (seen : Rat)| ≤
      c.policy.alpha ^ n * |c.value - Quantity.clamp c.policy.min c.policy.max (seen : Rat)|

theorem WithinBounds.smooths {c : Capacity Rat} (h : c.WithinBounds)
    (hlow : 0 ≤ c.policy.alpha) (hhigh : c.policy.alpha ≤ 1) : c.Smooths := by
  refine {
    within := h
    step := fun seen => abs_update_sub_le seen hhigh h
    notPast := fun seen => update_mem_uIcc seen hlow hhigh h
    approaches := ?_ }
  intro seen n
  rw [abs_sub_comm, abs_sub_comm c.value]
  exact abs_target_sub_observe_replicate_le hlow hhigh h seen n

theorem WithinBounds.smooths_observe {c : Capacity Rat} (h : c.WithinBounds)
    (hlow : 0 ≤ c.policy.alpha) (hhigh : c.policy.alpha ≤ 1) (counts : List Nat) :
    (c.observe counts).Smooths := by
  refine (withinBounds_observe h counts).smooths ?_ ?_
  · rw [policy_observe]
    exact hlow
  · rw [policy_observe]
    exact hhigh

/-- Every start succeeds, and from it on the estimate is smoothed within the bounds; so it is after
every start anew. -/
theorem startAt?_smooths (policy : CapacityPolicy Rat) (hbounds : policy.min ≤ policy.max)
    (hlow : 0 ≤ policy.alpha) (hhigh : policy.alpha ≤ 1) (start : Rat) :
    ∃ c, startAt? policy start = some c ∧ c.policy = policy ∧
      (∀ counts, (c.observe counts).Smooths) ∧
      ∀ value counts, ((c.restartAt value).observe counts).Smooths := by
  have hordered : Quantity.le policy.min policy.max = true := Quantity.le_rat_iff.mpr hbounds
  let c : Capacity Rat := ⟨policy, Quantity.clamp policy.min policy.max start, hordered⟩
  have hwithin : c.WithinBounds := Quantity.clamp_mem_Icc hbounds start
  refine ⟨c, dif_pos hordered, rfl, hwithin.smooths_observe hlow hhigh, ?_⟩
  intro value
  have hanew : (c.restartAt value).WithinBounds := Quantity.clamp_mem_Icc hbounds value
  exact hanew.smooths_observe hlow hhigh

/-- The default policy has its bounds in order; a start above them is moved to the upper one. -/
theorem smooths_default :
    let policy : CapacityPolicy Rat := Config.defaultCapacity
    policy.min ≤ policy.max ∧ 0 ≤ policy.alpha ∧ policy.alpha ≤ 1 ∧
      ∃ c, startAt? policy 500 = some c ∧ c.policy = policy ∧
        (∀ counts, (c.observe counts).Smooths) ∧
        ∀ value counts, ((c.restartAt value).observe counts).Smooths := by
  intro policy
  have hbounds : policy.min ≤ policy.max := by decide +kernel
  have hlow : 0 ≤ policy.alpha := by decide +kernel
  have hhigh : policy.alpha ≤ 1 := by decide +kernel
  exact ⟨hbounds, hlow, hhigh, startAt?_smooths policy hbounds hlow hhigh 500⟩

end Run

end Capacity

end WorkerFleet
