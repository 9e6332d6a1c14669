import Mathlib.Data.List.Nodup
import WorkerFleet.HotWorkers

/-!
# Workers to warm up and to cool down

The groups of a list of workers are its parts by algorithm, so what is picked group by group
is picked from the list, and no worker twice. Warming up and cooling down change nothing
about a worker but its hot flag.
-/

namespace WorkerFleet

/-- The workers of one algorithm are those of the list, in their order. -/
theorem getD_get?_groupByAlgorithm (workers : List Worker) (algorithm : String) :
    ((groupByAlgorithm workers).get? algorithm).getD [] =
      workers.filter (·.algorithm = algorithm) := by
  have go : ∀ (ws : List Worker) (groups : NameMap (List Worker)),
      ((ws.foldl (fun groups w => groups.upsert w.algorithm fun g => g.getD [] ++ [w])
        groups).get? algorithm).getD [] =
      (groups.get? algorithm).getD [] ++ ws.filter (·.algorithm = algorithm) := by
    intro ws
    induction ws with
    | nil => intro groups; simp
    | cons w ws ih =>
      intro groups
      rw [List.foldl_cons, ih, NameMap.get?_upsert]
      by_cases h : w.algorithm = algorithm <;> simp [h]
  rw [groupByAlgorithm, go]
  simp

theorem group_of_mem_entries {workers : List Worker} {e : String × List Worker}
    (h : e ∈ (groupByAlgorithm workers).entries) :
    e.2 = workers.filter (·.algorithm = e.1) := by
  rw [← getD_get?_groupByAlgorithm, NameMap.mem_entries.mp h]
  rfl

section Picked
variable {workers : List Worker} {pick : String × List Worker → List Worker}
variable (hpick : ∀ e, (pick e).Sublist e.2)
include hpick

theorem mem_of_mem_flatMap_groups {w : Worker}
    (hw : w ∈ (groupByAlgorithm workers).entries.flatMap pick) : w ∈ workers := by
  obtain ⟨e, he, hwe⟩ := List.mem_flatMap.mp hw
  have hgroup := (hpick e).subset hwe
  rw [group_of_mem_entries he] at hgroup
  exact (List.mem_filter.mp hgroup).1

theorem algorithm_of_mem_pick {e : String × List Worker}
    (he : e ∈ (groupByAlgorithm workers).entries) {w : Worker} (hw : w ∈ pick e) :
    w.algorithm = e.1 := by
  have hgroup := (hpick e).subset hw
  rw [group_of_mem_entries he] at hgroup
  exact of_decide_eq_true (List.mem_filter.mp hgroup).2

theorem nodup_ids_flatMap_groups (hids : (workers.map (·.id)).Nodup) :
    (((groupByAlgorithm workers).entries.flatMap pick).map (·.id)).Nodup := by
  have hnodup : ((groupByAlgorithm workers).entries.flatMap pick).Nodup := by
    refine List.nodup_flatMap.mpr ⟨?_, ?_⟩
    · intro e he
      have hgroup : e.2.Nodup := by
        rw [group_of_mem_entries he]
        exact hids.of_map.filter _
      exact hgroup.sublist (hpick e)
    · refine (groupByAlgorithm workers).ascending.imp_of_mem ?_
      intro a b ha hb hlt w hwa hwb
      have heq : a.1 = b.1 := (algorithm_of_mem_pick hpick ha hwa).symm.trans
        (algorithm_of_mem_pick hpick hb hwb)
      exact String.lt_irrefl b.1 (heq ▸ hlt)
  refine hnodup.map_on ?_
  intro w hw v hv
  exact List.inj_on_of_nodup_map hids (mem_of_mem_flatMap_groups hpick hw)
    (mem_of_mem_flatMap_groups hpick hv)

end Picked

namespace HotWorkers
variable {K : Type} {templates : Templates K} {workers : List Worker} {w : Worker}

theorem take_filter_sublist (n : Nat) (p : Worker → Bool) (ws : List Worker) :
    ((ws.filter p).take n).Sublist ws :=
  (List.take_sublist _ _).trans List.filter_sublist

theorem mem_of_mem_warmUp (h : w ∈ warmUp templates workers) :
    w ∈ workers ∧ w.hot = false := by
  refine ⟨mem_of_mem_flatMap_groups (fun _ => take_filter_sublist _ _ _) h, ?_⟩
  obtain ⟨e, _, hw⟩ := List.mem_flatMap.mp h
  simpa using (List.mem_filter.mp (List.mem_of_mem_take hw)).2

theorem mem_of_mem_coolDown (h : w ∈ coolDown templates workers) :
    w ∈ workers ∧ w.hot = true := by
  refine ⟨mem_of_mem_flatMap_groups (fun _ => take_filter_sublist _ _ _) h, ?_⟩
  obtain ⟨e, _, hw⟩ := List.mem_flatMap.mp h
  exact (List.mem_filter.mp (List.mem_of_mem_take hw)).2

theorem nodup_ids_warmUp (hids : (workers.map (·.id)).Nodup) :
    ((warmUp templates workers).map (·.id)).Nodup :=
  nodup_ids_flatMap_groups (fun _ => take_filter_sublist _ _ _) hids

theorem nodup_ids_coolDown (hids : (workers.map (·.id)).Nodup) :
    ((coolDown templates workers).map (·.id)).Nodup :=
  nodup_ids_flatMap_groups (fun _ => take_filter_sublist _ _ _) hids

variable {warm cool : List Worker}

/-- The hot flag apart, every worker stays as it was. -/
theorem map_apply {β : Type} (f : Worker → β) (hf : ∀ w hot, f { w with hot } = f w) :
    (apply warm cool workers).map f = workers.map f := by
  rw [apply, List.map_map]
  refine List.map_congr_left fun w _ => ?_
  change f (if _ then _ else _) = f w
  split
  · exact hf w true
  · split
    · exact hf w false
    · rfl

theorem hot_of_warm (hw : w ∈ apply warm cool workers) (hwarm : w.id ∈ warm.map (·.id)) :
    w.hot = true := by
  obtain ⟨v, _, hv⟩ := List.mem_map.mp hw
  split at hv
  · rw [← hv]
  · next hno =>
    have hid : w.id = v.id := by
      rw [← hv]
      split <;> rfl
    rw [hid] at hwarm
    obtain ⟨u, hu, huv⟩ := List.mem_map.mp hwarm
    exact absurd (List.any_eq_true.mpr ⟨u, hu, decide_eq_true huv⟩) hno

end HotWorkers

end WorkerFleet
