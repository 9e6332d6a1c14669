import WorkerFleet.Proofs.NameMap
import WorkerFleet.Roster

/-!
# Jobs of a roster

Putting a roster together moves jobs and loses none: every live job is attached to one
worker or stands for one pending worker (`attach_perm`), and a worker changes only in its
job. Before that each live job is joined to one pod, the last that is listed of it
(`liveJobs_eq`).
-/

namespace WorkerFleet

namespace Worker

def jobName? (w : Worker) : Option String := w.job.map (·.jobName)

end Worker

namespace ClusterJob

def isLive (j : ClusterJob) : Bool := !j.succeeded && !j.failed

end ClusterJob

namespace Roster

theorem attach_cons_of_some {w : Worker} {jobs rest : List LiveJob} {j : LiveJob}
    (h : takeFirst? (runsIn w) jobs = some (j, rest)) (ws : List Worker) :
    attach jobs (w :: ws) =
      ({ w with job := some j.job } :: (attach rest ws).1, (attach rest ws).2) := by
  simp only [attach, h]

theorem attach_cons_of_none {w : Worker} {jobs : List LiveJob}
    (h : takeFirst? (runsIn w) jobs = none) (ws : List Worker) :
    attach jobs (w :: ws) = (w :: (attach jobs ws).1, (attach jobs ws).2) := by
  simp only [attach, h]

/-- Attaching a job changes nothing else about a worker. -/
theorem map_attach {β : Type} (f : Worker → β) (hf : ∀ w job, f { w with job } = f w)
    (jobs : List LiveJob) (ws : List Worker) : (attach jobs ws).1.map f = ws.map f := by
  induction ws generalizing jobs with
  | nil => rfl
  | cons w ws ih =>
    cases h : takeFirst? (runsIn w) jobs with
    | none => rw [attach_cons_of_none h, List.map_cons, List.map_cons, ih]
    | some e => rw [attach_cons_of_some h, List.map_cons, List.map_cons, ih, hf]

/-- The jobs attached, which keep their algorithms apart from the workers. -/
theorem exists_attached (jobs : List LiveJob) {ws : List Worker}
    (hnone : ∀ w ∈ ws, w.job = none) :
    ∃ attached : List LiveJob, (attached ++ (attach jobs ws).2).Perm jobs ∧
      (attach jobs ws).1.filterMap (·.job) = attached.map (·.job) := by
  induction ws generalizing jobs with
  | nil => exact ⟨[], .refl _, rfl⟩
  | cons w ws ih =>
    obtain ⟨hw, hrest⟩ := List.forall_mem_cons.mp hnone
    cases h : takeFirst? (runsIn w) jobs with
    | none =>
      rw [attach_cons_of_none h, List.filterMap_cons_none hw]
      exact ih jobs hrest
    | some e =>
      obtain ⟨attached, hperm, hjobs⟩ := ih e.2 hrest
      refine ⟨e.1 :: attached, ?_, ?_⟩
      · rw [attach_cons_of_some h]
        exact (hperm.cons e.1).trans (perm_of_takeFirst? h).symm
      · simp only [attach_cons_of_some h, List.filterMap_cons, hjobs, List.map_cons]

theorem attach_perm (jobs : List LiveJob) {ws : List Worker} (hnone : ∀ w ∈ ws, w.job = none) :
    ((attach jobs ws).1.filterMap (·.job) ++ (attach jobs ws).2.map (·.job)).Perm
      (jobs.map (·.job)) := by
  obtain ⟨attached, hperm, hjobs⟩ := exists_attached jobs hnone
  rw [hjobs, ← List.map_append]
  exact hperm.map _

def ofRecords (reports : List WorkerReport) (jobs : List ClusterJob) (pods : List Pod) : Roster :=
  merge (reports.map Worker.ofReport) (liveJobs jobs pods)

/-- The jobs that the roster accounts for, pending workers going by their job's name. -/
def jobNames (roster : Roster) : List String :=
  roster.workers.filterMap (·.jobName?) ++ roster.pending.map (·.id)

theorem jobNames_merge_perm {ws : List Worker} (jobs : List LiveJob)
    (hnone : ∀ w ∈ ws, w.job = none) :
    (merge ws jobs).jobNames.Perm (jobs.map (·.job.jobName)) := by
  have h := (attach_perm jobs hnone).map BackingJob.jobName
  rw [List.map_append, List.map_filterMap, List.map_map, List.map_map] at h
  have hpending : (merge ws jobs).pending.map (·.id) =
      (attach jobs ws).2.map (BackingJob.jobName ∘ LiveJob.job) := by
    simp only [merge, List.map_map]
    rfl
  rw [jobNames, hpending]
  exact h

def lastPod? (pods : List Pod) (jobName : String) : Option Pod :=
  (pods.filter (·.jobName = jobName)).getLast?

theorem mem_of_lastPod? {pods : List Pod} {jobName : String} {p : Pod}
    (h : lastPod? pods jobName = some p) : p ∈ pods ∧ p.jobName = jobName := by
  obtain ⟨hp, hjob⟩ := List.mem_filter.mp (List.mem_of_getLast? h)
  exact ⟨hp, of_decide_eq_true hjob⟩

theorem get?_podsByJob (pods : List Pod) (jobName : String) :
    (podsByJob pods).get? jobName = lastPod? pods jobName := by
  rw [podsByJob, NameMap.get?_ofList, ← List.map_reverse, List.find?_map, Option.map_map,
    lastPod?, List.getLast?_eq_head?_reverse, ← List.filter_reverse, List.head?_filter]
  exact congrFun Option.map_id _

def joined (pods : List Pod) (j : ClusterJob) : LiveJob :=
  let pod := lastPod? pods j.name
  ⟨j.algorithm, ⟨j.name, pod.map (·.name), pod.bind (·.nodeName), j.startTime⟩⟩

theorem liveJobs_eq (jobs : List ClusterJob) (pods : List Pod) :
    liveJobs jobs pods = (jobs.filter (·.isLive)).map (joined pods) := by
  simp only [liveJobs, get?_podsByJob]
  rfl

/-- Only jobs that the cluster lists are live. -/
theorem names_liveJobs_sublist (jobs : List ClusterJob) (pods : List Pod) :
    ((liveJobs jobs pods).map (·.job.jobName)).Sublist (jobs.map (·.name)) := by
  rw [liveJobs_eq, List.map_map]
  exact List.filter_sublist.map _

end Roster

end WorkerFleet
