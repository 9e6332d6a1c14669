import Mathlib.Data.List.Nodup
import WorkerFleet.Proofs.Roster

/-!
# Jobs matched to workers

Workers are matched to jobs by their pods. `merge_matches` says that no job is lost or doubled,
that workers change only in their jobs, and that no more can be matched. Where no two workers and
no two jobs are in one pod, each worker has the job of its pod, and the jobs of other pods are
left, so the order in which workers and jobs are listed matters to neither.

A worker or a job that tells no pod is matched with nothing. Any number of them may be there.
-/

namespace WorkerFleet

section Taking
variable {α : Type} {p q : α → Bool} {xs rest : List α} {y : α}

theorem find?_of_takeFirst? (h : takeFirst? p xs = some (y, rest)) : xs.find? p = some y := by
  rw [← List.head?_filter, filter_eq_cons_of_takeFirst? h, List.head?_cons]

theorem find?_eq_of_takeFirst? (h : takeFirst? p xs = some (y, rest)) (hy : q y = false) :
    xs.find? q = rest.find? q := by
  rw [← List.head?_filter, filter_eq_of_takeFirst? h hy, List.head?_filter]

theorem find?_eq_none_of_takeFirst? (h : takeFirst? p xs = none) : xs.find? p = none := by
  rw [List.find?_eq_none]
  intro x hx
  exact Bool.eq_false_iff.mp (takeFirst?_eq_none_iff.mp h x hx)

end Taking

namespace Roster

/-- The pods in which a worker runs, a pod as often as workers are in it. -/
def workerPods (ws : List Worker) : List String := ws.filterMap (·.podName)

def jobPods (jobs : List LiveJob) : List String := jobs.filterMap (·.job.podName)

theorem runsIn_iff {w : Worker} {j : LiveJob} :
    runsIn w j = true ↔ ∃ pod, j.job.podName = some pod ∧ w.podName = some pod := by
  rw [runsIn, Bool.and_eq_true, Option.isSome_iff_exists, decide_eq_true_iff]
  constructor
  · rintro ⟨⟨pod, hpod⟩, heq⟩
    exact ⟨pod, hpod, heq.symm.trans hpod⟩
  · rintro ⟨pod, hpod, hw⟩
    exact ⟨⟨pod, hpod⟩, hpod.trans hw.symm⟩

section Attached
variable {ws : List Worker} (hnone : ∀ w ∈ ws, w.job = none)
include hnone

theorem runsIn_of_mem_attach {jobs : List LiveJob} {w : Worker} (hw : w ∈ (attach jobs ws).1)
    {job : BackingJob} (hjob : w.job = some job) :
    ∃ pod, job.podName = some pod ∧ w.podName = some pod := by
  induction ws generalizing jobs with
  | nil => cases hw
  | cons v ws ih =>
    obtain ⟨hv, hrest⟩ := List.forall_mem_cons.mp hnone
    cases htake : takeFirst? (runsIn v) jobs with
    | none =>
      rw [attach_cons_of_none htake] at hw
      rcases List.mem_cons.mp hw with rfl | hw
      · rw [hv] at hjob
        cases hjob
      · exact ih hrest hw
    | some e =>
      rw [attach_cons_of_some htake] at hw
      rcases List.mem_cons.mp hw with rfl | hw
      · obtain ⟨_, _, _, _, hruns, _⟩ := takeFirst?_eq_some_iff.mp htake
        obtain rfl := Option.some.inj hjob
        exact runsIn_iff.mp hruns
      · exact ih hrest hw

/-- A job is left only if it is in the pod of no worker without a job. -/
theorem runsIn_eq_false_of_left {jobs : List LiveJob} {w : Worker}
    (hw : w ∈ (attach jobs ws).1) (hfree : w.job = none) {j : LiveJob}
    (hj : j ∈ (attach jobs ws).2) : runsIn w j = false := by
  induction ws generalizing jobs with
  | nil => cases hw
  | cons v ws ih =>
    obtain ⟨_, hrest⟩ := List.forall_mem_cons.mp hnone
    cases htake : takeFirst? (runsIn v) jobs with
    | none =>
      rw [attach_cons_of_none htake] at hw hj
      rcases List.mem_cons.mp hw with rfl | hw
      · obtain ⟨attached, hperm, _⟩ := exists_attached jobs hrest
        apply takeFirst?_eq_none_iff.mp htake
        exact hperm.subset (List.mem_append_right _ hj)
      · exact ih hrest hw hj
    | some e =>
      rw [attach_cons_of_some htake] at hw hj
      rcases List.mem_cons.mp hw with rfl | hw
      · cases hfree
      · exact ih hrest hw hj

end Attached

section DistinctPods

/-- While no pod has two jobs, a worker that takes a job leaves none of its pod. -/
theorem runsIn_rest_eq_false {w : Worker} {jobs rest : List LiveJob} {j : LiveJob}
    (hjobs : (jobPods jobs).Nodup) (htake : takeFirst? (runsIn w) jobs = some (j, rest)) :
    ∀ i ∈ rest, runsIn w i = false := by
  obtain ⟨_, _, _, _, hruns, _⟩ := takeFirst?_eq_some_iff.mp htake
  obtain ⟨pod, hjpod, hwpod⟩ := runsIn_iff.mp hruns
  have hperm := (perm_of_takeFirst? htake).filterMap (·.job.podName)
  rw [jobPods, hperm.nodup_iff,
    List.filterMap_cons_some (f := fun l : LiveJob => l.job.podName) hjpod,
    List.nodup_cons] at hjobs
  intro i hi
  apply Bool.eq_false_iff.mpr
  intro hruns
  obtain ⟨pod', hipod, hwpod'⟩ := runsIn_iff.mp hruns
  obtain rfl := Option.some.inj (hwpod.symm.trans hwpod')
  exact hjobs.1 (List.mem_filterMap.mpr ⟨i, hi, hipod⟩)

theorem nodup_jobPods_rest {w : Worker} {jobs rest : List LiveJob} {j : LiveJob}
    (hjobs : (jobPods jobs).Nodup) (htake : takeFirst? (runsIn w) jobs = some (j, rest)) :
    (jobPods rest).Nodup := by
  have hperm := (perm_of_takeFirst? htake).filterMap (·.job.podName)
  have hcons := hperm.nodup_iff.mp hjobs
  exact hcons.sublist ((List.sublist_cons_self j rest).filterMap _)

/-- No worker but the one that takes a job runs in its pod. -/
theorem runsIn_later_eq_false {w : Worker} {ws : List Worker} {j : LiveJob}
    (hws : (workerPods (w :: ws)).Nodup) (hruns : runsIn w j = true) :
    ∀ v ∈ ws, runsIn v j = false := by
  obtain ⟨pod, hjpod, hwpod⟩ := runsIn_iff.mp hruns
  rw [workerPods, List.filterMap_cons_some hwpod, List.nodup_cons] at hws
  intro v hv
  apply Bool.eq_false_iff.mpr
  intro hruns'
  obtain ⟨pod', hjpod', hvpod⟩ := runsIn_iff.mp hruns'
  obtain rfl := Option.some.inj (hjpod.symm.trans hjpod')
  exact hws.1 (List.mem_filterMap.mpr ⟨v, hv, hvpod⟩)

def jobFor (jobs : List LiveJob) (w : Worker) : Option LiveJob := jobs.find? (runsIn w)

theorem attach_eq_map {ws : List Worker} (hnone : ∀ w ∈ ws, w.job = none)
    (hws : (workerPods ws).Nodup) (jobs : List LiveJob) :
    (attach jobs ws).1 = ws.map fun w => { w with job := (jobFor jobs w).map (·.job) } := by
  induction ws generalizing jobs with
  | nil => rfl
  | cons w ws ih =>
    obtain ⟨hw, hrest⟩ := List.forall_mem_cons.mp hnone
    have hlater : (workerPods ws).Nodup := hws.sublist ((List.sublist_cons_self w ws).filterMap _)
    rw [List.map_cons]
    cases htake : takeFirst? (runsIn w) jobs with
    | none =>
      rw [attach_cons_of_none htake, ih hrest hlater, jobFor, find?_eq_none_of_takeFirst? htake,
        Option.map_none, ← hw]
    | some e =>
      obtain ⟨_, _, _, _, hruns, _⟩ := takeFirst?_eq_some_iff.mp htake
      -- No later worker runs in the pod of the job taken, so each finds what it would have found.
      have hsame : ∀ v ∈ ws, jobFor e.2 v = jobFor jobs v := fun v hv =>
        (find?_eq_of_takeFirst? htake (runsIn_later_eq_false hws hruns v hv)).symm
      rw [attach_cons_of_some htake, ih hrest hlater, jobFor, find?_of_takeFirst? htake]
      refine congrArg _ (List.map_congr_left fun v hv => ?_)
      rw [hsame v hv]

/-- While no pod has two jobs, the jobs left are those in no worker's pod. -/
theorem left_eq_filter (ws : List Worker) {jobs : List LiveJob} (hjobs : (jobPods jobs).Nodup) :
    (attach jobs ws).2 = jobs.filter fun j => ∀ w ∈ ws, runsIn w j = false := by
  induction ws generalizing jobs with
  | nil =>
    symm
    apply List.filter_eq_self.mpr
    intro j _
    exact decide_eq_true fun _ hw => nomatch hw
  | cons w ws ih =>
    simp only [List.forall_mem_cons]
    cases htake : takeFirst? (runsIn w) jobs with
    | none =>
      rw [attach_cons_of_none htake, ih hjobs]
      refine List.filter_congr fun j hj => ?_
      simp [takeFirst?_eq_none_iff.mp htake j hj]
    | some e =>
      -- What is left does not run in this worker's pod, so the filter need not ask for it.
      have hrest := runsIn_rest_eq_false hjobs htake
      obtain ⟨_, _, _, _, hruns, _⟩ := takeFirst?_eq_some_iff.mp htake
      rw [attach_cons_of_some htake, ih (nodup_jobPods_rest hjobs htake)]
      rw [filter_eq_of_takeFirst? htake (by simp [hruns])]
      refine List.filter_congr fun j hj => ?_
      simp [hrest j hj]

theorem filter_runsIn {jobs : List LiveJob} (hjobs : (jobPods jobs).Nodup) (w : Worker) :
    jobs.filter (runsIn w) = (jobFor jobs w).toList := by
  cases htake : takeFirst? (runsIn w) jobs with
  | none =>
    rw [jobFor, find?_eq_none_of_takeFirst? htake, Option.toList_none, List.filter_eq_nil_iff]
    intro j hj
    exact Bool.eq_false_iff.mp (takeFirst?_eq_none_iff.mp htake j hj)
  | some e =>
    have hnone : e.2.filter (runsIn w) = [] := by
      rw [List.filter_eq_nil_iff]
      intro j hj
      exact Bool.eq_false_iff.mp (runsIn_rest_eq_false hjobs htake j hj)
    rw [jobFor, find?_of_takeFirst? htake, filter_eq_cons_of_takeFirst? htake, hnone,
      Option.toList_some]

theorem jobFor_perm {jobs jobs' : List LiveJob} (hperm : jobs'.Perm jobs)
    (hjobs : (jobPods jobs).Nodup) (w : Worker) : jobFor jobs' w = jobFor jobs w := by
  have hjobs' : (jobPods jobs').Nodup := (hperm.filterMap _).nodup_iff.mpr hjobs
  have hfilter := hperm.filter (runsIn w)
  rw [filter_runsIn hjobs, filter_runsIn hjobs'] at hfilter
  cases h : jobFor jobs w with
  | none =>
    rw [h] at hfilter
    exact Option.toList_eq_nil_iff.mp hfilter.eq_nil
  | some j =>
    rw [h] at hfilter
    exact Option.toList_eq_singleton_iff.mp hfilter.eq_singleton

section Reordered
variable {ws ws' : List Worker} {jobs jobs' : List LiveJob}
variable (hworkers : ws'.Perm ws) (hlisted : jobs'.Perm jobs)
include hworkers hlisted

theorem workers_merge_perm (hnone : ∀ w ∈ ws, w.job = none) (hws : (workerPods ws).Nodup)
    (hjobs : (jobPods jobs).Nodup) : (merge ws' jobs').workers.Perm (merge ws jobs).workers := by
  have hnone' : ∀ w ∈ ws', w.job = none := fun w hw => hnone w (hworkers.subset hw)
  have hws' : (workerPods ws').Nodup := (hworkers.filterMap _).nodup_iff.mpr hws
  have hsame : ∀ w, jobFor jobs' w = jobFor jobs w := jobFor_perm hlisted hjobs
  rw [merge, merge]
  simp only [attach_eq_map hnone hws, attach_eq_map hnone' hws', hsame]
  exact hworkers.map _

theorem pending_merge_perm (hjobs : (jobPods jobs).Nodup) :
    (merge ws' jobs').pending.Perm (merge ws jobs).pending := by
  have hjobs' : (jobPods jobs').Nodup := (hlisted.filterMap _).nodup_iff.mpr hjobs
  rw [merge, merge]
  simp only [left_eq_filter _ hjobs, left_eq_filter _ hjobs', hworkers.mem_iff]
  exact (hlisted.filter _).map _

end Reordered

end DistinctPods

/-- The roster is a greatest matching of workers and jobs by their pods. -/
structure Matches (ws : List Worker) (jobs : List LiveJob) (roster : Roster) : Prop where
  conserves : ∃ attached left : List LiveJob, (attached ++ left).Perm jobs ∧
    roster.workers.filterMap (·.job) = attached.map (·.job) ∧
    roster.pending = left.map fun j => .expectedOf j.algorithm j.job
  sameWorkers : roster.workers.map (fun w => { w with job := none }) = ws
  samePod : ∀ w ∈ roster.workers, ∀ job, w.job = some job →
    ∃ pod, job.podName = some pod ∧ w.podName = some pod
  maximal : ∀ w ∈ roster.workers, w.job = none → ∀ v ∈ roster.pending, ∀ job, v.job = some job →
    ∀ pod, job.podName = some pod → w.podName ≠ some pod

/-- Every matching conserves workers and jobs and is maximal, and where pods are distinct, it is
the same in whatever order workers and jobs are listed. -/
theorem merge_matches {ws : List Worker} (hnone : ∀ w ∈ ws, w.job = none) (jobs : List LiveJob) :
    Matches ws jobs (merge ws jobs) ∧
      ((ws.filterMap (·.podName)).Nodup → (jobs.filterMap (·.job.podName)).Nodup →
        ∀ ws' jobs', ws'.Perm ws → jobs'.Perm jobs →
          (merge ws' jobs').workers.Perm (merge ws jobs).workers ∧
            (merge ws' jobs').pending.Perm (merge ws jobs).pending) := by
  refine ⟨⟨?_, ?_, ?_, ?_⟩, ?_⟩
  · obtain ⟨attached, hperm, hjobs⟩ := exists_attached jobs hnone
    exact ⟨attached, (attach jobs ws).2, hperm, hjobs, rfl⟩
  · have hself : ws.map (fun w => { w with job := none }) = ws.map id := by
      refine List.map_congr_left fun w hw => ?_
      rw [← hnone w hw]
      rfl
    rw [List.map_id] at hself
    exact (map_attach (fun w => { w with job := none }) (fun _ _ => rfl) jobs ws).trans hself
  · intro w hw job hjob
    exact runsIn_of_mem_attach hnone hw hjob
  · intro w hw hfree v hv job hjob pod hpod hwpod
    obtain ⟨j, hj, rfl⟩ := List.mem_map.mp hv
    obtain rfl := Option.some.inj hjob
    have hruns := runsIn_eq_false_of_left hnone hw hfree hj
    exact Bool.false_ne_true (hruns.symm.trans (runsIn_iff.mpr ⟨pod, hpod, hwpod⟩))
  · intro hws hjobs ws' jobs' hworkers hlisted
    exact ⟨workers_merge_perm hworkers hlisted hnone hws hjobs,
      pending_merge_perm hworkers hlisted hjobs⟩

def twoWorkers : List Worker :=
  ["p", "q"].map fun pod => .ofReport ⟨pod, "a", pod, .ready, false, false, none, none⟩

/-- A job in the pod of a worker, one in a pod of its own and one without a pod. -/
def threeJobs : List LiveJob :=
  [⟨"a", ⟨"i", some "q", none, 0⟩⟩, ⟨"a", ⟨"j", some "r", none, 0⟩⟩, ⟨"b", ⟨"k", none, none, 0⟩⟩]

theorem matches_threeJobs : (∀ w ∈ twoWorkers, w.job = none) ∧
    (twoWorkers.filterMap (·.podName)).Nodup ∧ (threeJobs.filterMap (·.job.podName)).Nodup ∧
    Matches twoWorkers threeJobs (merge twoWorkers threeJobs) ∧
    (merge twoWorkers.reverse threeJobs.reverse).workers.Perm
      (merge twoWorkers threeJobs).workers ∧
    (merge twoWorkers.reverse threeJobs.reverse).pending.Perm
      (merge twoWorkers threeJobs).pending := by
  have hnone : ∀ w ∈ twoWorkers, w.job = none := by decide
  have hws : (twoWorkers.filterMap (·.podName)).Nodup := by decide
  have hjobs : (threeJobs.filterMap (·.job.podName)).Nodup := by decide
  obtain ⟨hmatches, hreordered⟩ := merge_matches hnone threeJobs
  exact ⟨hnone, hws, hjobs, hmatches,
    hreordered hws hjobs _ _ (List.reverse_perm _) (List.reverse_perm _)⟩

end Roster

end WorkerFleet
