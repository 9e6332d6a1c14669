import WorkerFleet.Proofs.Commands

/-!
# Resumes and the stops they meet

A request that takes a paused worker counts on the worker's resume. Before anything is sent,
resumes are cancelled against the stops that were selected, one for one within an algorithm.
What is left is said by `plan_cancelsOneForOne`: the first entries of an algorithm lose
their resumes, one for each stop, and all later entries keep them.
-/

namespace WorkerFleet

namespace Reclaim
variable {K : Type} [Quantity K]

omit [Quantity K] in
/-- Within an algorithm the first stops and the first resumes cancel, one for one. -/
theorem filter_cancelAgainst (resumes : List Worker) (stops : List (Stop K)) (a : String) :
    (cancelAgainst resumes stops).1.filter (·.worker.algorithm = a) =
        (stops.filter (·.worker.algorithm = a)).drop
          (resumes.filter (·.algorithm = a)).length ∧
      (cancelAgainst resumes stops).2.filter (·.algorithm = a) =
        (resumes.filter (·.algorithm = a)).drop
          (stops.filter (·.worker.algorithm = a)).length := by
  induction stops generalizing resumes with
  | nil => exact ⟨by simp [cancelAgainst], rfl⟩
  | cons s rest ih =>
    cases htake : takeFirst? (fun r => decide (r.algorithm = s.worker.algorithm)) resumes with
    | some taken =>
      obtain ⟨w, left⟩ := taken
      obtain ⟨hstops, hresumes⟩ := ih left
      simp only [cancelAgainst, htake]
      by_cases h : s.worker.algorithm = a
      · have hfilter := filter_eq_cons_of_takeFirst? htake
        rw [h] at hfilter
        rw [hstops, hresumes, hfilter, List.filter_cons_of_pos (by simpa using h)]
        exact ⟨rfl, rfl⟩
      · -- The pair that cancels is of another algorithm, whose lists are not looked at.
        have hw : decide (w.algorithm = a) = false := by
          obtain ⟨_, _, _, _, hw, _⟩ := takeFirst?_eq_some_iff.mp htake
          rw [of_decide_eq_true hw]
          exact decide_eq_false h
        rw [hstops, hresumes, filter_eq_of_takeFirst? htake hw,
          List.filter_cons_of_neg (by simpa using h)]
        exact ⟨rfl, rfl⟩
    | none =>
      obtain ⟨hstops, hresumes⟩ := ih resumes
      simp only [cancelAgainst, htake]
      by_cases h : s.worker.algorithm = a
      · -- The algorithm has no resume, so all of its stops stay.
        have hnone : resumes.filter (·.algorithm = a) = [] := by
          apply List.filter_eq_nil_iff.mpr
          intro r hr heq
          have hne := takeFirst?_eq_none_iff.mp htake r hr
          rw [h] at hne
          rw [hne] at heq
          cases heq
        rw [hnone] at hstops hresumes ⊢
        rw [List.filter_cons_of_pos (by simpa using h), hstops, hresumes,
          List.filter_cons_of_pos (by simpa using h)]
        simp
      · rw [List.filter_cons_of_neg (by simpa using h), hstops, hresumes,
          List.filter_cons_of_neg (by simpa using h)]
        exact ⟨rfl, rfl⟩

end Reclaim

namespace Plan
variable {K : Type} (plan : Plan K)

def pausedFor (a : String) : List ScheduledRequest :=
  plan.scheduled.filter fun s => s.supply = .paused && s.algorithm = a

/-- Every request that takes a paused worker has it resumed. -/
def ServesPaused : Prop :=
  ∀ s ∈ plan.scheduled, s.supply = .paused →
    s.workerId ∈ plan.resumes.map (·.id) ∧ plan.Sends s.workerId .startProcessing

/-- Of each algorithm as many entries lose their resumes as stops were selected, the first
ones first, and as many of these stops are dropped; the resumes left are sent. -/
structure CancelsOneForOne (selected : List (Stop K)) : Prop where
  resumes : ∀ a, (plan.resumes.filter (·.algorithm = a)).map (·.id) =
    ((plan.pausedFor a).map (·.workerId)).drop (selected.filter (·.worker.algorithm = a)).length
  stops : ∀ a, plan.stops.filter (·.worker.algorithm = a) =
    (selected.filter (·.worker.algorithm = a)).drop (plan.pausedFor a).length
  sent : ∀ w ∈ plan.resumes, plan.Sends w.id .startProcessing

end Plan

theorem SupplyItem.workerIds_paused (items : List SupplyItem) (a : String) :
    ((items.map schedule).filter fun s => s.supply = .paused && s.algorithm = a).map
        (·.workerId) =
      ((items.filterMap resumed?).filter (·.algorithm = a)).map (·.id) := by
  induction items with
  | nil => rfl
  | cons item rest ih =>
    cases item with
    | paused w => by_cases h : w.algorithm = a <;> simpa [schedule, supply, algorithm, resumed?,
        workerId, h] using ih
    | idle w => exact ih
    | pending w => exact ih
    | ledger e => exact ih

namespace Reconciler
variable {K : Type} [Powers K] (r : Reconciler K) (input : Snapshot K) (now : Millis)

def selectedStops : List (Stop K) :=
  Reclaim.trimToBudget (Reclaim.resourcesToFree (r.placement input now).skipped)
    (r.foundStops input now)

theorem workerIds_pausedFor (a : String) :
    ((r.plan input now).1.pausedFor a).map (·.workerId) =
      ((r.assignment input now).toResume.filter (·.algorithm = a)).map (·.id) := by
  rw [Plan.pausedFor, scheduled_plan, assignment_scheduled, assignment_toResume]
  exact SupplyItem.workerIds_paused _ a

/-- A request that takes a paused worker goes unserved only against a stop of its algorithm. -/
theorem plan_cancelsOneForOne :
    (r.plan input now).1.CancelsOneForOne (r.selectedStops input now) := by
  have hcancel := Reclaim.filter_cancelAgainst (r.assignment input now).toResume
    (r.selectedStops input now)
  constructor
  · intro a
    rw [resumes_plan, settled, ← selectedStops, (hcancel a).2, workerIds_pausedFor, List.map_drop]
  · intro a
    have hlength := congrArg List.length (r.workerIds_pausedFor input now a)
    rw [List.length_map, List.length_map] at hlength
    rw [stops_plan, settled, ← selectedStops, (hcancel a).1, hlength]
  · intro w hw
    rw [resumes_plan] at hw
    rw [sends_plan_iff]
    exact List.mem_map_of_mem hw

end Reconciler

/-- `w` is paused and asked for, `u` is busy with the same algorithm, and `b` finds no room. -/
def Snapshot.contended : Snapshot Float where
  templates := .sample ["a", "b"]
  requests := [⟨"a", false, 0⟩, ⟨"b", false, 0⟩]
  workers := [
    ⟨"w", "a", "pod-w", .ready, true, false, none, none⟩,
    ⟨"u", "a", "pod-u", .working, false, false, none, none⟩]
  jobs := []
  pods := []
  resources := ⟨(Cluster.sample 1 1).nodes.map fun n => { n with other := Resources.zero }⟩

/-- The stop of `u` for `b` takes the resume of `w` along, and neither request is served. -/
theorem not_servesPaused_contended : ∃ (r : Reconciler Float) (input : Snapshot Float)
    (now : Millis), (r.plan input now).1.scheduled = [⟨"a", "w", .paused⟩] ∧
      (r.plan input now).1.skipped.map (·.algorithm) = ["b"] ∧
      (r.plan input now).1.resumes = [] ∧ (r.plan input now).1.outbound = [] ∧
      ¬ (r.plan input now).1.ServesPaused := by
  refine ⟨.sample, .contended, 1000, by decide +kernel, by decide +kernel, by decide +kernel,
    by decide +kernel, ?_⟩
  intro hserves
  have hscheduled : (⟨"a", "w", .paused⟩ : ScheduledRequest) ∈
      (Reconciler.sample.plan .contended 1000).1.scheduled := by decide +kernel
  have hresumed := (hserves _ hscheduled rfl).1
  revert hresumed
  decide +kernel

end WorkerFleet
