import Mathlib.Data.List.Nodup
import WorkerFleet.Proofs.HotWorkers
import WorkerFleet.Proofs.NameMap
import WorkerFleet.Proofs.Sample

/-!
# How many workers are hot

Warming up and cooling down each look at one algorithm at a time. Of its workers the first ones
that are not hot make up what is missing, and the first ones that are hot are what is too many; so
once both are applied the algorithm has as many hot workers as its template wants, or only hot
ones. From there neither finds anything to do.
-/

namespace WorkerFleet

section Take
variable {α : Type} {xs : List α}

theorem pos_of_mem_take {x : α} {n : Nat} (h : x ∈ xs.take n) : 0 < n := by
  cases n with
  | zero => exact absurd h List.not_mem_nil
  | succ n => exact Nat.succ_pos n

variable [DecidableEq α]

theorem countP_mem_take (h : xs.Nodup) (n : Nat) :
    xs.countP (fun x => x ∈ xs.take n) = min n xs.length := by
  have hfirst : (xs.take n).countP (fun x => x ∈ xs.take n) = (xs.take n).length :=
    List.countP_eq_length.mpr fun x hx => decide_eq_true hx
  have hrest : (xs.drop n).countP (fun x => x ∈ xs.take n) = 0 :=
    List.countP_eq_zero.mpr fun x hx htake =>
      List.disjoint_take_drop h (Nat.le_refl n) (of_decide_eq_true htake) hx
  calc xs.countP (fun x => x ∈ xs.take n)
      = (xs.take n ++ xs.drop n).countP (fun x => x ∈ xs.take n) := by rw [List.take_append_drop]
    _ = min n xs.length := by
        rw [List.countP_append, hfirst, hrest, Nat.add_zero, List.length_take]

theorem countP_notMem_take (h : xs.Nodup) (n : Nat) :
    xs.countP (fun x => x ∉ xs.take n) = xs.length - n := by
  have hsplit := List.length_eq_countP_add_countP (fun x => x ∈ xs.take n) (l := xs)
  rw [countP_mem_take h] at hsplit
  simp only [decide_eq_true_iff] at hsplit
  omega

end Take

section Groups
variable {workers : List Worker} {pick : String × List Worker → List Worker}
variable (hpick : ∀ e, (pick e).Sublist e.2)
include hpick

/-- What is picked of one algorithm is picked from its own workers. -/
theorem filter_flatMap_groups (a : String) :
    ((groupByAlgorithm workers).entries.flatMap pick).filter (·.algorithm = a) =
      pick (a, workers.filter (·.algorithm = a)) := by
  have hparts : ∀ es : List (String × List Worker), (∀ e ∈ es, ∀ w ∈ pick e, w.algorithm = e.1) →
      (es.flatMap pick).filter (·.algorithm = a) = (es.filter (·.1 = a)).flatMap pick := by
    intro es
    induction es with
    | nil => intro _; rfl
    | cons e es ih =>
      intro h
      obtain ⟨he, hes⟩ := List.forall_mem_cons.mp h
      rw [List.flatMap_cons, List.filter_append, ih hes]
      by_cases hname : e.1 = a
      · rw [List.filter_cons_of_pos (by simpa using hname), List.flatMap_cons,
          List.filter_eq_self.mpr fun w hw => decide_eq_true ((he w hw).trans hname)]
      · rw [List.filter_cons_of_neg (by simpa using hname), List.filter_eq_nil_iff.mpr,
          List.nil_append]
        intro w hw heq
        exact hname ((he w hw).symm.trans (of_decide_eq_true heq))
  rw [hparts _ fun e he w hw => algorithm_of_mem_pick hpick he hw, NameMap.filter_entries,
    ← getD_get?_groupByAlgorithm]
  cases (groupByAlgorithm workers).get? a with
  | none => exact (List.sublist_nil.mp (hpick (a, []))).symm
  | some group => simp

end Groups

namespace HotWorkers
variable {K : Type} (templates : Templates K) (workers : List Worker) (a : String)

def ofAlgorithm : List Worker := workers.filter (·.algorithm = a)

/-- The worker once those of `warm` are warmed up and those of `cool` cooled down. -/
def flagged (warm cool : List Worker) (w : Worker) : Worker :=
  { w with hot := if w ∈ warm then true else if w ∈ cool then false else w.hot }

/-- How many workers of the algorithm are hot. -/
def hotCount : Nat := (ofAlgorithm workers a).countP (·.hot)

theorem filter_warmUp : (warmUp templates workers).filter (·.algorithm = a) =
    ((ofAlgorithm workers a).filter fun w => !w.hot).take
      (wanted templates a - hotCount workers a) :=
  filter_flatMap_groups (fun _ => take_filter_sublist _ _ _) a

theorem filter_coolDown : (coolDown templates workers).filter (·.algorithm = a) =
    ((ofAlgorithm workers a).filter (·.hot)).take (hotCount workers a - wanted templates a) :=
  filter_flatMap_groups (fun _ => take_filter_sublist _ _ _) a

variable {templates workers}

theorem mem_ofAlgorithm {w : Worker} : w ∈ ofAlgorithm workers a ↔
    w ∈ workers ∧ w.algorithm = a := by
  rw [ofAlgorithm, List.mem_filter, decide_eq_true_iff]

theorem mem_warmUp_iff {w : Worker} (hw : w.algorithm = a) : w ∈ warmUp templates workers ↔
    w ∈ ((ofAlgorithm workers a).filter fun w => !w.hot).take
      (wanted templates a - hotCount workers a) := by
  rw [← filter_warmUp, List.mem_filter, hw]
  simp

theorem mem_coolDown_iff {w : Worker} (hw : w.algorithm = a) : w ∈ coolDown templates workers ↔
    w ∈ ((ofAlgorithm workers a).filter (·.hot)).take
      (hotCount workers a - wanted templates a) := by
  rw [← filter_coolDown, List.mem_filter, hw]
  simp

theorem hotCount_lt_wanted_of_mem_warmUp {w : Worker} (h : w ∈ warmUp templates workers) :
    hotCount workers w.algorithm < wanted templates w.algorithm :=
  Nat.lt_of_sub_pos (pos_of_mem_take ((mem_warmUp_iff _ rfl).mp h))

theorem wanted_lt_hotCount_of_mem_coolDown {w : Worker} (h : w ∈ coolDown templates workers) :
    wanted templates w.algorithm < hotCount workers w.algorithm :=
  Nat.lt_of_sub_pos (pos_of_mem_take ((mem_coolDown_iff _ rfl).mp h))

theorem warmUp_subset : warmUp templates workers ⊆ workers := fun _ h => (mem_of_mem_warmUp h).1

theorem coolDown_subset : coolDown templates workers ⊆ workers :=
  fun _ h => (mem_of_mem_coolDown h).1

section Apply
variable {warm cool : List Worker} (hids : (workers.map (·.id)).Nodup)
include hids

theorem any_id_iff {picked : List Worker} (hpicked : picked ⊆ workers) {w : Worker}
    (hw : w ∈ workers) : picked.any (·.id = w.id) = true ↔ w ∈ picked := by
  rw [List.any_eq_true]
  constructor
  · rintro ⟨v, hv, hid⟩
    have heq := List.inj_on_of_nodup_map hids (hpicked hv) hw (of_decide_eq_true hid)
    exact heq ▸ hv
  · intro hmem
    exact ⟨w, hmem, decide_eq_true rfl⟩

theorem apply_eq_map (hwarm : warm ⊆ workers) (hcool : cool ⊆ workers) :
    apply warm cool workers = workers.map (flagged warm cool) := by
  refine List.map_congr_left ?_
  intro w hw
  have hwarmed := any_id_iff hids hwarm hw
  have hcooled := any_id_iff hids hcool hw
  unfold flagged
  by_cases h : w ∈ warm
  · rw [if_pos (hwarmed.mpr h), if_pos h]
  · rw [if_neg (mt hwarmed.mp h), if_neg h]
    by_cases h : w ∈ cool
    · rw [if_pos (hcooled.mpr h), if_pos h]
    · rw [if_neg (mt hcooled.mp h), if_neg h]

theorem nodup_ofAlgorithm (a : String) : (ofAlgorithm workers a).Nodup := hids.of_map.filter _

theorem ofAlgorithm_apply (hwarm : warm ⊆ workers) (hcool : cool ⊆ workers) (a : String) :
    ofAlgorithm (apply warm cool workers) a =
      (ofAlgorithm workers a).map (flagged warm cool) := by
  rw [apply_eq_map hids hwarm hcool, ofAlgorithm, List.filter_map]
  rfl

variable (templates)

/-- Of the hot workers those stay that are not cooled down. -/
theorem countP_hot_kept (a : String) :
    ((ofAlgorithm workers a).filter (·.hot)).countP
      (fun w => (flagged (warmUp templates workers) (coolDown templates workers) w).hot) =
    hotCount workers a - (hotCount workers a - wanted templates a) := by
  have hkept := countP_notMem_take ((nodup_ofAlgorithm hids a).filter (·.hot))
    (hotCount workers a - wanted templates a)
  rw [← List.countP_eq_length_filter] at hkept
  refine Eq.trans (List.countP_congr ?_) hkept
  intro w hw
  obtain ⟨hmem, hhot⟩ := List.mem_filter.mp hw
  have hwarm : w ∉ warmUp templates workers := by
    intro h
    rw [(mem_of_mem_warmUp h).2] at hhot
    cases hhot
  rw [flagged, if_neg hwarm, decide_eq_true_iff,
    ← mem_coolDown_iff a ((mem_ofAlgorithm a).mp hmem).2]
  by_cases hcool : w ∈ coolDown templates workers <;> simp [hcool, hhot]

/-- Of the others those become hot that are warmed up. -/
theorem countP_hot_gained (a : String) :
    ((ofAlgorithm workers a).filter fun w => !w.hot).countP
      (fun w => (flagged (warmUp templates workers) (coolDown templates workers) w).hot) =
    min (wanted templates a - hotCount workers a)
      ((ofAlgorithm workers a).length - hotCount workers a) := by
  have hgained := countP_mem_take ((nodup_ofAlgorithm hids a).filter fun w => !w.hot)
    (wanted templates a - hotCount workers a)
  have hothers : ((ofAlgorithm workers a).filter fun w => !w.hot).length =
      (ofAlgorithm workers a).length - hotCount workers a := by
    have hsplit := List.length_eq_countP_add_countP (·.hot) (l := ofAlgorithm workers a)
    simp only [Bool.not_eq_true, Bool.decide_eq_false] at hsplit
    rw [← List.countP_eq_length_filter, hsplit, hotCount, Nat.add_sub_cancel_left]
  rw [hothers] at hgained
  refine Eq.trans (List.countP_congr ?_) hgained
  intro w hw
  obtain ⟨hmem, hcold⟩ := List.mem_filter.mp hw
  rw [Bool.not_eq_true'] at hcold
  have hcool : w ∉ coolDown templates workers := by
    intro h
    rw [(mem_of_mem_coolDown h).2] at hcold
    cases hcold
  rw [flagged, if_neg hcool, decide_eq_true_iff,
    ← mem_warmUp_iff a ((mem_ofAlgorithm a).mp hmem).2]
  by_cases hwarm : w ∈ warmUp templates workers <;> simp [hwarm, hcold]

theorem hotCount_apply (a : String) :
    hotCount (apply (warmUp templates workers) (coolDown templates workers) workers) a =
      min (wanted templates a) ((ofAlgorithm workers a).length) := by
  have hle : hotCount workers a ≤ (ofAlgorithm workers a).length := List.countP_le_length
  rw [hotCount, ofAlgorithm_apply hids warmUp_subset coolDown_subset, List.countP_map,
    List.countP_eq_countP_filter_add _ _ (·.hot)]
  simp only [Function.comp_def]
  rw [countP_hot_kept templates hids, countP_hot_gained templates hids]
  omega

end Apply

section Settled
variable (h : ∀ a, hotCount workers a =
  min (wanted templates a) ((ofAlgorithm workers a).length))
include h

theorem warmUp_eq_nil : warmUp templates workers = [] := by
  refine List.eq_nil_iff_forall_not_mem.mpr ?_
  intro w hw
  have hlt := hotCount_lt_wanted_of_mem_warmUp hw
  obtain ⟨hmem, hcold⟩ := mem_of_mem_warmUp hw
  -- The algorithm has fewer hot workers than are wanted, so all that it has are hot.
  have hall : hotCount workers w.algorithm = (ofAlgorithm workers w.algorithm).length := by
    have hw := h w.algorithm
    omega
  have hhot := List.countP_eq_length.mp hall w (mem_ofAlgorithm w.algorithm |>.mpr ⟨hmem, rfl⟩)
  rw [hcold] at hhot
  cases hhot

theorem coolDown_eq_nil : coolDown templates workers = [] := by
  refine List.eq_nil_iff_forall_not_mem.mpr ?_
  intro w hw
  have hlt := wanted_lt_hotCount_of_mem_coolDown hw
  rw [h] at hlt
  exact absurd (Nat.min_le_left _ _) (Nat.not_le.mpr hlt)

end Settled

/-- Every algorithm has reached the number of hot workers that its template wants. -/
structure ReachesWanted (templates : Templates K) (workers warm cool after : List Worker) :
    Prop where
  hot : ∀ a, hotCount after a = min (wanted templates a) (ofAlgorithm workers a).length
  apart : ∀ w ∈ warm, ∀ c ∈ cool, w.algorithm ≠ c.algorithm
  flags : after = workers.map (flagged warm cool)
  nothingLeft : warmUp templates after = [] ∧ coolDown templates after = []

theorem apply_reachesWanted (templates : Templates K) {workers : List Worker}
    (hids : (workers.map (·.id)).Nodup) :
    ReachesWanted templates workers (warmUp templates workers) (coolDown templates workers)
      (apply (warmUp templates workers) (coolDown templates workers) workers) := by
  have hhot := hotCount_apply templates hids
  have hsettled : ∀ a, hotCount (apply (warmUp templates workers) (coolDown templates workers)
      workers) a = min (wanted templates a) (ofAlgorithm (apply (warmUp templates workers)
        (coolDown templates workers) workers) a).length := by
    intro a
    rw [hhot, ofAlgorithm_apply hids warmUp_subset coolDown_subset, List.length_map]
  refine {
    hot := hhot
    apart := ?_
    flags := apply_eq_map hids warmUp_subset coolDown_subset
    nothingLeft := ⟨warmUp_eq_nil hsettled, coolDown_eq_nil hsettled⟩ }
  intro w hw c hc heq
  have hmissing := hotCount_lt_wanted_of_mem_warmUp hw
  have hexcess := wanted_lt_hotCount_of_mem_coolDown hc
  rw [heq] at hmissing
  exact Nat.lt_asymm hmissing hexcess

/-- Two workers are wanted hot for `blue`, and one for `green`. -/
def unevenTemplates : Templates Float :=
  NameMap.ofList [("blue", { Template.sample "blue" 1 with minHotWorkers := 2 }),
    ("green", { Template.sample "green" 1 with minHotWorkers := 1 })]

/-- The one worker of `blue` is not hot, both of `green` are, and one is left of an algorithm
without template. -/
def unevenWorkers : List Worker :=
  [("u", "green", true), ("v", "green", true), ("w", "blue", false), ("x", "gone", true)].map
    fun (id, algorithm, hot) =>
      .ofReport ⟨id, algorithm, id, .ready, false, hot, none, none⟩

theorem reachesWanted_uneven : (unevenWorkers.map (·.id)).Nodup ∧
    (warmUp unevenTemplates unevenWorkers).map (·.id) = ["w"] ∧
    (coolDown unevenTemplates unevenWorkers).map (·.id) = ["x", "u"] ∧
    ReachesWanted unevenTemplates unevenWorkers (warmUp unevenTemplates unevenWorkers)
      (coolDown unevenTemplates unevenWorkers)
      (apply (warmUp unevenTemplates unevenWorkers) (coolDown unevenTemplates unevenWorkers)
        unevenWorkers) := by
  have hids : (unevenWorkers.map (·.id)).Nodup := by decide +kernel
  exact ⟨hids, by decide +kernel, by decide +kernel, apply_reachesWanted unevenTemplates hids⟩

end HotWorkers

end WorkerFleet
