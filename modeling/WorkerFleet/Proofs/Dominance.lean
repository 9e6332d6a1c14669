import Mathlib.Analysis.SpecialFunctions.Pow.Real
import Mathlib.Data.List.Forall2
import WorkerFleet.Config
import WorkerFleet.Proofs.Deficits

/-!
# Many and early skips

Of two algorithms one has the better claim to freed room if it has at least as many skipped jobs
and each job of the other was skipped after its counterpart. It is served first then, whatever
else was skipped and however positions are weighed, as long as no weight is below zero and an
earlier position weighs no less (`sublist_deficits_of_dominates`). Powers of the positions are
such weights for every exponent that is not below zero (`weighs_real`).
-/

namespace WorkerFleet

theorem sublistForall₂_of_getElem? {α β : Type} {R : α → β → Prop} {xs : List α} {ys : List β}
    (hlength : xs.length ≤ ys.length)
    (h : ∀ (k : Nat) x y, xs[k]? = some x → ys[k]? = some y → R x y) :
    List.SublistForall₂ R xs ys := by
  induction xs generalizing ys with
  | nil => exact .nil
  | cons x xs ih =>
    cases ys with
    | nil => cases hlength
    | cons y ys =>
      refine .cons (h 0 x y rfl rfl) (ih (Nat.le_of_succ_le_succ hlength) ?_)
      intro k
      exact h (k + 1)

theorem pair_sublist_or {α : Type} {x y : α} {xs : List α} (hx : x ∈ xs) (hy : y ∈ xs)
    (hne : x ≠ y) : [x, y].Sublist xs ∨ [y, x].Sublist xs := by
  obtain ⟨before, after, rfl⟩ := List.append_of_mem hx
  rcases List.mem_append.mp hy with hy | hy
  · right
    exact (List.singleton_sublist.mpr hy).append (List.singleton_sublist.mpr List.mem_cons_self)
  · left
    have hafter : y ∈ after := (List.mem_cons.mp hy).resolve_left hne.symm
    exact ((List.singleton_sublist.mpr hafter).cons_cons x).trans
      (List.sublist_append_right before _)

namespace Reclaim
variable {K : Type}

/-- The first algorithm has as many skips as the second or more, and the second's come later, each
than its counterpart. -/
structure Dominates (skipped : List (SkippedJob K)) (a b : String) : Prop where
  length_le : (positions b skipped).length ≤ (positions a skipped).length
  before : ∀ k i j : Nat, (positions a skipped)[k]? = some i →
    (positions b skipped)[k]? = some j → i < j

/-- No weight is below zero, and a position further from the end weighs no less. -/
structure Weighs [Quantity K] (weigh : Nat → K) : Prop where
  nonneg : ∀ n, Quantity.le Quantity.zero (weigh n) = true
  mono : ∀ m n, m ≤ n → Quantity.le (weigh m) (weigh n) = true

section Dominance
variable {skipped : List (SkippedJob K)} {a b : String}

theorem Dominates.mem (h : Dominates skipped a b) (hb : b ∈ skipped.map (·.algorithm)) :
    a ∈ skipped.map (·.algorithm) := by
  by_contra ha
  have hlength := h.length_le
  rw [positions_eq_nil_iff.mpr ha, List.length_nil, Nat.le_zero, List.length_eq_zero_iff] at hlength
  exact positions_eq_nil_iff.mp hlength hb

variable [Quantity K] [Quantity.Exact K] {weigh : Nat → K} {d e : Deficit K}

theorem Dominates.sum_le (h : Dominates skipped a b) (hweigh : Weighs weigh) :
    Quantity.le (Quantity.sum ((positions b skipped).map fun i => weigh (skipped.length - i)))
      (Quantity.sum ((positions a skipped).map fun i => weigh (skipped.length - i))) = true := by
  apply Quantity.sum_le_sum
  · rw [List.sublistForall₂_map_left_iff, List.sublistForall₂_map_right_iff]
    apply sublistForall₂_of_getElem? h.length_le
    intro k j i hj hi
    -- What comes earlier is further from the end.
    have hbefore : i < j := h.before k i j hi hj
    apply hweigh.mono
    omega
  · intro w hw
    obtain ⟨i, _, rfl⟩ := List.mem_map.mp hw
    exact hweigh.nonneg _

theorem precedes_of_dominates (hweigh : Weighs weigh)
    (hd : Gathers (fun i => weigh (skipped.length - i)) skipped d)
    (he : Gathers (fun i => weigh (skipped.length - i)) skipped e)
    (h : Dominates skipped d.algorithm e.algorithm) : Deficit.precedes d e = true := by
  have hle : Quantity.le e.weight d.weight = true := by
    rw [hd.weight_eq_sum, he.weight_eq_sum]
    exact h.sum_le hweigh
  have hindex : d.firstIndex < e.firstIndex :=
    h.before 0 _ _ (List.head?_eq_getElem? ▸ hd.firstIndex) (List.head?_eq_getElem? ▸ he.firstIndex)
  let _ := Quantity.Exact.linearOrder K
  rw [precedes_exact_iff]
  rcases lt_or_eq_of_le (α := K) hle with hlt | heq
  · exact .inl hlt
  · -- Of equal weights the one with the earlier first skip comes first.
    exact .inr ⟨heq, hindex⟩

/-- An algorithm with more and earlier skips is served first. -/
theorem sublist_deficits_of_dominates (hweigh : Weighs weigh)
    (hb : b ∈ skipped.map (·.algorithm)) (h : Dominates skipped a b) :
    [a, b].Sublist ((deficits weigh skipped).map (·.algorithm)) := by
  have hds := deficits_gathersAll weigh skipped
  have hordered := pairwise_deficits weigh skipped (orders_gather_of_exact weigh skipped)
  obtain ⟨d, hd, rfl⟩ := List.mem_map.mp ((hds.algorithms a).mpr (h.mem hb))
  obtain ⟨e, he, rfl⟩ := List.mem_map.mp ((hds.algorithms b).mpr hb)
  have hprecedes : Deficit.precedes d e = true :=
    precedes_of_dominates hweigh (hds.gathers d hd) (hds.gathers e he) h
  have horders : Orders Deficit.precedes (deficits weigh skipped) :=
    (orders_gather_of_exact weigh skipped).subset (deficits_perm weigh skipped).subset
  have hbehind : ¬ Deficit.precedes e d = true := horders.asymm hd he hprecedes
  have hne : d ≠ e := by
    rintro rfl
    exact hbehind hprecedes
  rcases pair_sublist_or hd he hne with hsublist | hsublist
  · exact hsublist.map (·.algorithm)
  · exact absurd (List.pairwise_iff_forall_sublist.mp hordered hsublist) hbehind

end Dominance

section Real

/-- Numbers without rounding, of which any power can be taken. -/
noncomputable instance : Powers ℝ where
  ofNat n := n
  ofDecimal digits exponent := digits * 10 ^ exponent
  lt x y := decide (x < y)
  le x y := decide (x ≤ y)
  isFinite _ := true
  roundNat x := min ⌊x + 1 / 2⌋₊ Quantity.maxCount
  pow x y := x ^ y

theorem zero_real : (Quantity.zero : ℝ) = 0 := Nat.cast_zero

theorem le_real_iff {x y : ℝ} : Quantity.le x y = true ↔ x ≤ y := decide_eq_true_iff

instance : Quantity.Exact ℝ :=
  Quantity.exact_of_embedding id Function.injective_id (fun _ _ => rfl) zero_real
    (fun _ _ => le_real_iff) fun _ _ => decide_eq_true_iff

/-- Powers with an exponent that is not below zero are weights. -/
theorem weighs_real {policy : ReclaimPolicy ℝ} (h : 0 ≤ policy.weightExponent) :
    Weighs policy.weigh where
  nonneg n := by
    rw [le_real_iff, zero_real]
    exact Real.rpow_nonneg n.cast_nonneg _
  mono m n hmn := by
    rw [le_real_iff]
    exact Real.rpow_le_rpow m.cast_nonneg (Nat.cast_le.mpr hmn) h

theorem weighs_defaultReclaim : Weighs (Config.defaultReclaim (K := ℝ)).weigh := by
  have htenths : (0 : ℝ) ≤ (7 : Nat) * 10 ^ (-1 : Int) := by positivity
  exact weighs_real htenths

/-- Of five skips the first and third are of `a`, the second and last of `b`. -/
noncomputable def mixedSkips : List (SkippedJob ℝ) := ["a", "b", "a", "c", "b"].map .sample

theorem dominates_mixedSkips : Dominates mixedSkips "a" "b" := by
  have ha : positions "a" mixedSkips = [0, 2] := rfl
  have hb : positions "b" mixedSkips = [1, 4] := rfl
  constructor
  · simp [ha, hb]
  · intro k i j hi hj
    rw [ha] at hi
    rw [hb] at hj
    rcases k with _ | _ | k
    · simp at hi hj
      omega
    · simp at hi hj
      omega
    · simp at hi

theorem sublist_deficits_mixedSkips :
    Weighs (Config.defaultReclaim (K := ℝ)).weigh ∧
    "b" ∈ mixedSkips.map (·.algorithm) ∧
    Dominates mixedSkips "a" "b" ∧
    ["a", "b"].Sublist
      ((deficits (Config.defaultReclaim (K := ℝ)).weigh mixedSkips).map (·.algorithm)) := by
  have hb : "b" ∈ mixedSkips.map (·.algorithm) := by simp [mixedSkips]
  refine ⟨weighs_defaultReclaim, hb, dominates_mixedSkips, ?_⟩
  exact sublist_deficits_of_dominates weighs_defaultReclaim hb dominates_mixedSkips

end Real

end Reclaim

end WorkerFleet
