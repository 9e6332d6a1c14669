import Mathlib.Algebra.BigOperators.Ring.List
import Mathlib.Data.List.Dedup
import Mathlib.Data.Rat.Floor
import WorkerFleet.Proofs.Budget
import WorkerFleet.Proofs.FairShare

/-!
# Rounded shares

Over exact numbers a quota is what the algorithm requires, rounded up, unless it has fewer
requests. What the algorithms of a window require adds up to the capacity (`sum_required`). So
together they get all of the capacity or of the window, and each of them less than one request
more than its share.
-/

namespace WorkerFleet

namespace FairShare

def names (requests : List Request) : List String := (requests.map Request.algorithm).dedup

theorem nodup_names (requests : List Request) : (names requests).Nodup := List.nodup_dedup _

theorem names_ne_nil {requests : List Request} (h : requests ≠ []) : names requests ≠ [] := by
  rw [names, ne_eq, List.dedup_eq_nil, List.map_eq_nil_iff]
  exact h

theorem length_ne_zero {requests : List Request} (h : requests ≠ []) :
    (requests.length : Rat) ≠ 0 :=
  Nat.cast_ne_zero.mpr (List.length_eq_zero_iff.not.mpr h)

section Required
variable (requests : List Request) (capacity : Rat) (a : String)

theorem required_le_required {least most : Rat} (h : least ≤ most) :
    required requests least a ≤ required requests most a :=
  mul_le_mul_of_nonneg_left h (div_nonneg (Nat.cast_nonneg _) (Nat.cast_nonneg _))

theorem required_nonneg {capacity : Rat} (h : 0 ≤ capacity) : 0 ≤ required requests capacity a :=
  mul_nonneg (div_nonneg (Nat.cast_nonneg _) (Nat.cast_nonneg _)) h

theorem required_pos {r : Request} (hr : r ∈ requests) {capacity : Rat} (h : 0 < capacity) :
    0 < required requests capacity r.algorithm := by
  have hcount : 0 < requests.countP (·.algorithm = r.algorithm) :=
    List.countP_pos_iff.mpr ⟨r, hr, decide_eq_true rfl⟩
  have hlength : 0 < requests.length := List.length_pos_of_mem hr
  exact mul_pos (div_pos (Nat.cast_pos.mpr hcount) (Nat.cast_pos.mpr hlength)) h

variable {requests}

/-- With one worker for each request an algorithm requires one for each of its own. -/
theorem required_length (h : requests ≠ []) :
    required requests (requests.length : Rat) a = (requests.countP (·.algorithm = a) : Rat) :=
  div_mul_cancel₀ _ (length_ne_zero h)

end Required

section Sums
variable {requests : List Request}

theorem sum_lengths {rs : List Request} (h : rs ⊆ requests) :
    ((names requests).map fun a => ((rs.filter (·.algorithm = a)).length : Rat)).sum =
      (rs.length : Rat) := by
  have hnames : ∀ r ∈ rs, r.algorithm ∈ names requests := by
    intro r hr
    exact List.mem_dedup.mpr (List.mem_map_of_mem (h hr))
  have hsum := sum_filter_names Request.algorithm (fun _ => (1 : Rat)) (nodup_names requests) hnames
  simpa using hsum

theorem sum_required (h : requests ≠ []) (capacity : Rat) :
    ((names requests).map (required requests capacity)).sum = capacity := by
  have hrequired : required requests capacity = fun a =>
      ((requests.filter (·.algorithm = a)).length : Rat) * (capacity / requests.length) := by
    funext a
    rw [← List.countP_eq_length_filter]
    exact (div_mul_comm _ _ _).trans (mul_comm _ _)
  rw [hrequired, List.sum_map_mul_right, sum_lengths (List.Subset.refl requests),
    mul_div_cancel₀ _ (length_ne_zero h)]

end Sums

section Quota
variable (requests : List Request) (capacity : Rat) (a : String)

theorem quota_eq_min_ceil : quota requests capacity a =
    min (requests.countP (·.algorithm = a)) ⌈required requests capacity a⌉₊ := by
  have hgreatest := isGreatest_room (required requests capacity a) 0
    (requests.countP (·.algorithm = a))
  refine hgreatest.unique ⟨⟨min_le_left _ _, ?_⟩, ?_⟩
  · intro j hj
    rw [Quantity.lt_rat_iff, Nat.zero_add]
    exact Nat.lt_ceil.mp (hj.trans_le (min_le_right _ _))
  · rintro k ⟨hk, hfits⟩
    refine le_min hk ?_
    cases k with
    | zero => exact Nat.zero_le _
    | succ j =>
      have hlast := hfits j (Nat.lt_succ_self j)
      rw [Quantity.lt_rat_iff, Nat.zero_add] at hlast
      exact Nat.lt_ceil.mpr hlast

theorem quota_lt_required_add_one (h : 0 ≤ capacity) :
    (quota requests capacity a : Rat) < required requests capacity a + 1 := by
  have hceil : quota requests capacity a ≤ ⌈required requests capacity a⌉₊ := by
    rw [quota_eq_min_ceil]
    exact min_le_right _ _
  calc (quota requests capacity a : Rat)
      ≤ (⌈required requests capacity a⌉₊ : Rat) := Nat.cast_le.mpr hceil
    _ < required requests capacity a + 1 := Nat.ceil_lt_add_one (required_nonneg requests a h)

theorem quota_pos {r : Request} (hr : r ∈ requests) {capacity : Rat} (h : 0 < capacity) :
    0 < quota requests capacity r.algorithm := by
  rw [quota_eq_min_ceil]
  exact lt_min (List.countP_pos_iff.mpr ⟨r, hr, decide_eq_true rfl⟩)
    (Nat.ceil_pos.mpr (required_pos requests hr h))

variable {requests}

theorem required_le_quota (h : requests ≠ []) :
    required requests (min (requests.length : Rat) capacity) a ≤ quota requests capacity a := by
  rw [quota_eq_min_ceil, Nat.cast_min]
  refine le_min ?_ ?_
  · calc required requests (min (requests.length : Rat) capacity) a
        ≤ required requests (requests.length : Rat) a :=
          required_le_required requests a (min_le_left _ _)
      _ = (requests.countP (·.algorithm = a) : Rat) := required_length a h
  · calc required requests (min (requests.length : Rat) capacity) a
        ≤ required requests capacity a := required_le_required requests a (min_le_right _ _)
      _ ≤ (⌈required requests capacity a⌉₊ : Rat) := Nat.le_ceil _

end Quota

section Cut
variable (requests : List Request) (capacity : Rat)

theorem filter_admitted_cut (a : String) :
    (cut requests capacity).admitted.filter (·.algorithm = a) =
      (requests.filter (·.algorithm = a)).take (quota requests capacity a) := by
  have hadmitted := (fill_spec (shares requests capacity) requests).1
  rw [rooms_shares] at hadmitted
  exact (congrArg (List.filter _) hadmitted).trans
    (filter_takeRanks Request.algorithm (quota requests capacity) requests a)

theorem length_filter_admitted_cut (a : String) :
    ((cut requests capacity).admitted.filter (·.algorithm = a)).length =
      quota requests capacity a := by
  rw [filter_admitted_cut, List.length_take, ← List.countP_eq_length_filter]
  refine min_eq_left ?_
  rw [quota_eq_min_ceil]
  exact min_le_left _ _

theorem sum_quota : ((names requests).map fun a => (quota requests capacity a : Rat)).sum =
    ((cut requests capacity).admitted.length : Rat) := by
  rw [← sum_lengths (admitted_cut_sublist requests capacity).subset]
  simp only [length_filter_admitted_cut]

theorem admitted_cut_lt (h : requests ≠ []) (hcapacity : 0 ≤ capacity) :
    ((cut requests capacity).admitted.length : Rat) < capacity + (names requests).length := by
  calc ((cut requests capacity).admitted.length : Rat)
      = ((names requests).map fun a => (quota requests capacity a : Rat)).sum :=
        (sum_quota requests capacity).symm
    _ < ((names requests).map fun a => required requests capacity a + 1).sum :=
        List.sum_lt_sum_of_ne_nil (names_ne_nil h) _ _ fun a _ =>
          quota_lt_required_add_one requests capacity a hcapacity
    _ = capacity + (names requests).length := by
        rw [List.sum_map_add, sum_required h, List.map_const', List.sum_replicate, nsmul_one]

theorem min_le_admitted_cut (h : requests ≠ []) :
    min (requests.length : Rat) capacity ≤ ((cut requests capacity).admitted.length : Rat) := by
  calc min (requests.length : Rat) capacity
      = ((names requests).map (required requests (min (requests.length : Rat) capacity))).sum :=
        (sum_required h _).symm
    _ ≤ ((names requests).map fun a => (quota requests capacity a : Rat)).sum :=
        List.sum_le_sum fun a _ => required_le_quota capacity a h
    _ = ((cut requests capacity).admitted.length : Rat) := sum_quota requests capacity

/-- All of the capacity or of the window is used, and each algorithm gets less than one request
more than its share. -/
structure UsesCapacity (c : FairCut Rat) : Prop where
  least : min (requests.length : Rat) capacity ≤ c.admitted.length
  most : (c.admitted.length : Rat) < capacity + (names requests).length
  whole : (requests.length : Rat) ≤ capacity → c.admitted = requests ∧ c.dropped = 0
  each : 0 < capacity → ∀ r ∈ requests, ∃ q ∈ c.admitted, q.algorithm = r.algorithm

theorem cut_usesCapacity (h : requests ≠ []) (hcapacity : 0 ≤ capacity) :
    UsesCapacity requests capacity (cut requests capacity) := by
  have hleast := min_le_admitted_cut requests capacity h
  refine {
    least := hleast
    most := admitted_cut_lt requests capacity h hcapacity
    whole := ?_
    each := ?_ }
  · intro hlength
    rw [min_eq_left hlength, Nat.cast_le] at hleast
    have hall := (admitted_cut_sublist requests capacity).eq_of_length_le hleast
    exact ⟨hall, Nat.sub_eq_zero_of_le hleast⟩
  · intro hpos r hr
    have hsome : 0 < ((cut requests capacity).admitted.filter
        (·.algorithm = r.algorithm)).length := by
      rw [length_filter_admitted_cut]
      exact quota_pos requests hr hpos
    obtain ⟨q, hq⟩ := List.exists_mem_of_length_pos hsome
    obtain ⟨hadmitted, hname⟩ := List.mem_filter.mp hq
    exact ⟨q, hadmitted, of_decide_eq_true hname⟩

end Cut

/-- Twenty requests of `a` and ten of `b`. -/
def unevenWindow : List Request :=
  List.replicate 20 ⟨"a", false, 0⟩ ++ List.replicate 10 ⟨"b", false, 0⟩

/-- Of ten workers `a` requires six and two thirds and `b` three and a third. -/
theorem usesCapacity_uneven : (cut unevenWindow (10 : Rat)).admitted.length = 11 ∧
    UsesCapacity unevenWindow 10 (cut unevenWindow 10) :=
  ⟨by decide +kernel, cut_usesCapacity unevenWindow 10 (by decide) (by decide)⟩

end FairShare

end WorkerFleet
