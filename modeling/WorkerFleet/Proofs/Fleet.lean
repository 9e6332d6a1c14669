import WorkerFleet.Plan
import WorkerFleet.Proofs.HotWorkers
import WorkerFleet.Proofs.Roster

/-!
# Workers of a cycle

A worker that reports itself either has to exit or stays, and one that stays keeps all but
its hot flag. Ids and jobs of the workers that stay are among those of the snapshot.
-/

namespace WorkerFleet

/-- No two records of one kind share the name that tells them apart. -/
structure Snapshot.DistinctNames {K : Type} (input : Snapshot K) : Prop where
  workers : (input.workers.map (·.id)).Nodup
  jobs : (input.jobs.map (·.name)).Nodup
  pods : (input.pods.map (·.name)).Nodup

theorem find?_key_of_mem {α β : Type} [DecidableEq β] {key : α → β} {xs : List α}
    (hkeys : (xs.map key).Nodup) {x : α} (hx : x ∈ xs) :
    xs.find? (fun y => key y = key x) = some x := by
  cases hfind : xs.find? (fun y => key y = key x) with
  | none =>
    have hno := List.find?_eq_none.mp hfind x hx
    exact absurd (decide_eq_true rfl) hno
  | some y =>
    have hkey := List.find?_some hfind
    have hy : y ∈ xs := List.mem_of_find?_eq_some hfind
    exact congrArg some (List.inj_on_of_nodup_map hkeys hy hx (of_decide_eq_true hkey))

namespace Fleet

/-- The workers that do not have to exit, with the hot flags that they report. -/
def staying (fleet : Fleet) : List Worker :=
  fleet.roster.workers.filter fun w => !fleet.exits.any (·.worker.id = w.id)

variable {K : Type} (config : Config K) (input : Snapshot K)

theorem live_ofSnapshot :
    (ofSnapshot config input).live = HotWorkers.apply (ofSnapshot config input).warmUp
      (ofSnapshot config input).coolDown (ofSnapshot config input).staying := rfl

theorem ids_roster :
    (ofSnapshot config input).roster.workers.map (·.id) = input.workers.map (·.id) := by
  have h := Roster.map_attach (·.id) (fun _ _ => rfl)
    (Roster.liveJobs input.jobs input.pods) (input.workers.map Worker.ofReport)
  rw [List.map_map] at h
  exact h

theorem ids_staying_sublist :
    ((ofSnapshot config input).staying.map (·.id)).Sublist (input.workers.map (·.id)) := by
  rw [← ids_roster config input]
  exact List.filter_sublist.map _

theorem ids_live : (ofSnapshot config input).live.map (·.id) =
    (ofSnapshot config input).staying.map (·.id) := by
  rw [live_ofSnapshot]
  exact HotWorkers.map_apply (·.id) (fun _ _ => rfl)

theorem jobNames_roster_sublist :
    ∃ names, names.Sublist (input.jobs.map (·.name)) ∧
      (ofSnapshot config input).roster.jobNames.Perm names := by
  refine ⟨_, Roster.names_liveJobs_sublist input.jobs input.pods, ?_⟩
  refine Roster.jobNames_merge_perm _ ?_
  intro w hw
  obtain ⟨r, _, rfl⟩ := List.mem_map.mp hw
  rfl

/-- The jobs of the workers that stay are jobs of the roster. -/
theorem jobNames_live_sublist :
    ((ofSnapshot config input).live.filterMap (·.jobName?)).Sublist
      ((ofSnapshot config input).roster.workers.filterMap (·.jobName?)) := by
  have hsplit : ∀ ws : List Worker, ws.filterMap (·.jobName?) =
      (ws.map (·.jobName?)).filterMap id := by
    intro ws
    rw [List.filterMap_map]
    rfl
  have hlive : (ofSnapshot config input).live.map (·.jobName?) =
      (ofSnapshot config input).staying.map (·.jobName?) := by
    rw [live_ofSnapshot]
    exact HotWorkers.map_apply (·.jobName?) (fun _ _ => rfl)
  rw [hsplit, hlive, ← hsplit]
  exact List.filter_sublist.filterMap _

theorem exists_staying_of_live {w : Worker} (hw : w ∈ (ofSnapshot config input).live) :
    ∃ v ∈ (ofSnapshot config input).staying, { v with hot := w.hot } = w := by
  let still (w : Worker) : Worker := { w with hot := false }
  have hmap : (ofSnapshot config input).live.map still =
      (ofSnapshot config input).staying.map still := by
    rw [live_ofSnapshot]
    exact HotWorkers.map_apply still (fun _ _ => rfl)
  have hmem : still w ∈ (ofSnapshot config input).staying.map still :=
    hmap ▸ List.mem_map_of_mem hw
  obtain ⟨v, hv, heq⟩ := List.mem_map.mp hmem
  refine ⟨v, hv, ?_⟩
  calc { v with hot := w.hot } = { still v with hot := w.hot } := rfl
    _ = { still w with hot := w.hot } := by rw [heq]
    _ = w := rfl

theorem id_ne_of_live {w : Worker} {e : ExitOrder} (hw : w ∈ (ofSnapshot config input).live)
    (he : e ∈ (ofSnapshot config input).exits) : e.worker.id ≠ w.id := by
  intro heq
  obtain ⟨v, hv, hvw⟩ := exists_staying_of_live config input hw
  have hno := (List.mem_filter.mp hv).2
  have hid : e.worker.id = v.id := by rw [heq, ← hvw]
  rw [Bool.not_eq_true', List.any_eq_false] at hno
  exact hno e he (decide_eq_true hid)

theorem workers_exits_sublist :
    ((ofSnapshot config input).exits.map (·.worker)).Sublist
      (ofSnapshot config input).roster.workers := by
  have go : ∀ ws : List Worker,
      ((ExitOrder.ofWorkers config input.templates ws).map (·.worker)).Sublist ws := by
    intro ws
    induction ws with
    | nil => exact .refl _
    | cons w ws ih =>
      unfold ExitOrder.ofWorkers at ih ⊢
      rw [List.filterMap_cons]
      split
      · exact ih.cons w
      · next order horder =>
        obtain ⟨template, _, hstale⟩ := Option.bind_eq_some_iff.mp horder
        obtain ⟨reason, _, rfl⟩ := Option.map_eq_some_iff.mp hstale
        exact ih.cons_cons w
  exact go _

end Fleet

end WorkerFleet
