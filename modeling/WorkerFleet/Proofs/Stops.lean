import Mathlib.Data.List.Perm.Subperm
import WorkerFleet.Reclaim

/-!
# Where stops come from

Stops are picked from the idle and the active workers, each worker at most once and only
where it is eligible. Trimming them and cancelling them against resumes only drops some.
-/

namespace WorkerFleet

namespace Reclaim
variable {K : Type} [Quantity K]

omit [Quantity K] in
theorem not_hot_of_isEligible {w : Worker} {now minAge : Millis}
    (h : isEligible w now minAge = true) : w.hot = false := by
  cases hhot : w.hot with
  | false => rfl
  | true => simp [isEligible, hhot] at h

/-- Every candidate is either taken or left. -/
theorem cover_perm (outstanding : Resources K) (candidates : List (Worker × Resources K)) :
    ((cover outstanding candidates).1 ++ (cover outstanding candidates).2).Perm candidates := by
  induction candidates generalizing outstanding with
  | nil => exact .refl _
  | cons c rest ih =>
    unfold cover
    split
    · exact (ih _).cons c
    · exact List.perm_middle.trans ((ih _).cons c)

/-- No candidate is stopped for two algorithms. -/
theorem serve_subperm (ds : List (Deficit K)) (candidates : List (Worker × Resources K)) :
    ((serve ds candidates).map fun s => (s.worker, s.resources)).Subperm candidates := by
  induction ds generalizing candidates with
  | nil => exact List.nil_subperm
  | cons d ds ih =>
    have htaken : ((cover d.resources candidates).1.map
        fun c => (⟨c.1, c.2, d.algorithm⟩ : Stop K)).map (fun s => (s.worker, s.resources)) =
        (cover d.resources candidates).1 := by
      rw [List.map_map]
      exact List.map_id _
    rw [serve, List.map_append, htaken]
    exact ((List.Subperm.refl _).append (ih _)).trans (cover_perm d.resources candidates).subperm

/-- The worker of a stop is a candidate, and the stop frees what the candidate takes up. -/
theorem mem_of_mem_serve {ds : List (Deficit K)} {candidates : List (Worker × Resources K)}
    {s : Stop K} (h : s ∈ serve ds candidates) : (s.worker, s.resources) ∈ candidates := by
  apply (serve_subperm ds candidates).subset
  exact List.mem_map_of_mem (f := fun s => (s.worker, s.resources)) h

theorem workers_serve_subperm (ds : List (Deficit K)) (candidates : List (Worker × Resources K)) :
    ((serve ds candidates).map (·.worker)).Subperm (candidates.map (·.1)) := by
  obtain ⟨stopped, hperm, hsub⟩ := serve_subperm ds candidates
  have hworkers := hperm.map Prod.fst
  rw [List.map_map] at hworkers
  exact ⟨stopped.map (·.1), hworkers, hsub.map _⟩

/-- What a worker is known to take up has passed the check of requests. -/
theorem isRequest_of_footprint {a : String} {templates : Templates K} {defaults : ResourceSpec K}
    {r : Resources K} (h : footprint a templates defaults = .ok r) : r.isRequest = true := by
  unfold footprint at h
  split at h
  · exact ResourceSpec.isRequest_of_resolve h
  · exact ResourceSpec.isRequest_of_resolve h

section Pool
variable (isSkipped : String → Bool) (idle active : List Worker) (templates : Templates K)
variable (defaults : ResourceSpec K) (minAge now : Millis)

theorem workers_filterMap_sublist {β : Type} (f : Worker → Option β) (ws : List Worker) :
    ((ws.filterMap fun w => (f w).map (w, ·)).map (·.1)).Sublist ws := by
  induction ws with
  | nil => exact .refl _
  | cons w ws ih =>
    rw [List.filterMap_cons]
    cases f w with
    | none => exact ih.cons w
    | some b => exact ih.cons_cons w

theorem workers_pool_subperm :
    ((pool isSkipped idle active templates defaults minAge now).map (·.1)).Subperm
      (idle ++ active) := by
  refine (workers_filterMap_sublist _ _).subperm.trans ?_
  rw [List.append_assoc]
  refine List.filter_sublist.subperm.append ?_
  have hsplit : ∀ ws : List Worker, (ws.filter (fun w => !isSkipped w.algorithm)
      ++ ws.filter fun w => isSkipped w.algorithm).Perm ws := by
    intro ws
    exact List.perm_append_comm.trans (List.filter_append_perm _ ws)
  exact (hsplit _).subperm.trans List.filter_sublist.subperm

theorem isEligible_of_mem_pool {c : Worker × Resources K}
    (h : c ∈ pool isSkipped idle active templates defaults minAge now) :
    isEligible c.1 now minAge = true := by
  obtain ⟨w, hw, heq⟩ := List.mem_filterMap.mp h
  obtain ⟨r, _, rfl⟩ := Option.map_eq_some_iff.mp heq
  have hfilter : ∀ ws : List Worker, w ∈ ws.filter (fun w => isEligible w now minAge &&
      !isDebug w.algorithm templates) → isEligible w now minAge = true := by
    intro ws hmem
    exact (Bool.and_eq_true_iff.mp (List.mem_filter.mp hmem).2).1
  rcases List.mem_append.mp hw with hw | hw
  · rcases List.mem_append.mp hw with hw | hw
    · exact hfilter _ hw
    · exact hfilter _ (List.mem_filter.mp hw).1
  · exact hfilter _ (List.mem_filter.mp hw).1

theorem footprint_of_mem_pool {c : Worker × Resources K}
    (h : c ∈ pool isSkipped idle active templates defaults minAge now) :
    footprint c.1.algorithm templates defaults = .ok c.2 := by
  obtain ⟨w, _, heq⟩ := List.mem_filterMap.mp h
  obtain ⟨r, hr, rfl⟩ := Option.map_eq_some_iff.mp heq
  cases hf : footprint w.algorithm templates defaults with
  | error e => rw [hf] at hr; cases hr
  | ok r' => rw [hf] at hr; cases hr; rfl

end Pool

theorem trimToBudget_sublist (budget : Resources K) (stops : List (Stop K)) :
    (trimToBudget budget stops).Sublist stops := by
  induction stops generalizing budget with
  | nil => exact .refl _
  | cons s rest ih =>
    unfold trimToBudget
    split
    · exact (ih _).cons_cons s
    · exact List.nil_sublist _

omit [Quantity K] in
theorem cancelAgainst_sublist (resumes : List Worker) (stops : List (Stop K)) :
    (cancelAgainst resumes stops).1.Sublist stops ∧
      (cancelAgainst resumes stops).2.Sublist resumes := by
  induction stops generalizing resumes with
  | nil => exact ⟨.refl _, .refl _⟩
  | cons s rest ih =>
    unfold cancelAgainst
    split
    · next w left h =>
      obtain ⟨hstops, hresumes⟩ := ih left
      obtain ⟨before, after, rfl, rfl, -, -⟩ := takeFirst?_eq_some_iff.mp h
      refine ⟨hstops.cons s, hresumes.trans ?_⟩
      exact (List.Sublist.refl before).append (List.sublist_cons_self w after)
    · exact ⟨(ih resumes).1.cons_cons s, (ih resumes).2⟩

section FindStops
variable (skipped : List (SkippedJob K)) (idle active : List Worker) (templates : Templates K)
variable (defaults : ResourceSpec K) (weigh : Nat → K) (minAge now : Millis)

theorem workers_findStops_subperm :
    ((findStops skipped idle active templates defaults weigh minAge now).map
      (·.worker)).Subperm (idle ++ active) :=
  (workers_serve_subperm _ _).trans
    (workers_pool_subperm _ idle active templates defaults minAge now)

theorem isEligible_of_mem_findStops {s : Stop K}
    (h : s ∈ findStops skipped idle active templates defaults weigh minAge now) :
    isEligible s.worker now minAge = true := by
  exact isEligible_of_mem_pool _ _ _ _ _ _ _ (mem_of_mem_serve h)

theorem footprint_of_mem_findStops {s : Stop K}
    (h : s ∈ findStops skipped idle active templates defaults weigh minAge now) :
    footprint s.worker.algorithm templates defaults = .ok s.resources :=
  footprint_of_mem_pool _ _ _ _ _ _ _ (mem_of_mem_serve h)

end FindStops

end Reclaim

end WorkerFleet
