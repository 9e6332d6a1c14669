import WorkerFleet.Proofs.Matching

/-!
# Jobs that wait for their worker

A live job counts as a pending worker until a worker reports itself from its pod. A job that
was restarted has several pods, and it is joined to the last that is listed: a worker in
another pod of the job is not recognised, and the job is waited for although its worker is
there. `awaitsUnannounced_iff` says that nothing else keeps a roster from waiting for exactly
the jobs without a worker.
-/

namespace WorkerFleet

namespace Roster

def Awaits (roster : Roster) (jobName : String) : Prop := ∃ w ∈ roster.pending, w.id = jobName

instance (roster : Roster) (jobName : String) : Decidable (roster.Awaits jobName) :=
  inferInstanceAs (Decidable (∃ w ∈ roster.pending, w.id = jobName))

def Announced (reports : List WorkerReport) (p : Pod) : Prop := ∃ r ∈ reports, r.podName = p.name

instance (reports : List WorkerReport) (p : Pod) : Decidable (Announced reports p) :=
  inferInstanceAs (Decidable (∃ r ∈ reports, r.podName = p.name))

/-- A worker reports itself from one of the job's pods. -/
def HasWorker (reports : List WorkerReport) (pods : List Pod) (j : ClusterJob) : Prop :=
  ∃ p ∈ pods, p.jobName = j.name ∧ Announced reports p

instance (reports : List WorkerReport) (pods : List Pod) (j : ClusterJob) :
    Decidable (HasWorker reports pods j) :=
  inferInstanceAs (Decidable (∃ p ∈ pods, p.jobName = j.name ∧ Announced reports p))

/-- The live jobs that the roster waits for are those without a worker. -/
def AwaitsUnannounced (reports : List WorkerReport) (jobs : List ClusterJob) (pods : List Pod) :
    Prop :=
  ∀ j ∈ jobs, j.isLive = true →
    ((ofRecords reports jobs pods).Awaits j.name ↔ ¬ HasWorker reports pods j)

instance (reports : List WorkerReport) (jobs : List ClusterJob) (pods : List Pod) :
    Decidable (AwaitsUnannounced reports jobs pods) :=
  inferInstanceAs (Decidable (∀ j ∈ jobs, j.isLive = true →
    ((ofRecords reports jobs pods).Awaits j.name ↔ ¬ HasWorker reports pods j)))

/-- While no pod belongs to two jobs, a job is left if and only if no worker runs in its pod. -/
theorem mem_left_iff (ws : List Worker) {jobs : List LiveJob} {j : LiveJob}
    (hpods : (jobs.filterMap (·.job.podName)).Nodup) :
    j ∈ (attach jobs ws).2 ↔ j ∈ jobs ∧ ∀ w ∈ ws, runsIn w j = false := by
  rw [left_eq_filter ws hpods, List.mem_filter, decide_eq_true_iff]

theorem runsIn_joined {r : WorkerReport} {pods : List Pod} {j : ClusterJob} :
    runsIn (.ofReport r) (joined pods j) = true ↔
      ∃ p ∈ lastPod? pods j.name, r.podName = p.name := by
  unfold runsIn joined Worker.ofReport
  cases lastPod? pods j.name with
  | none => simp
  | some p => simp [eq_comm]

section DistinctNames
variable {reports : List WorkerReport} {jobs : List ClusterJob} {pods : List Pod}
variable (hjobs : (jobs.map (·.name)).Nodup) (hpods : (pods.map (·.name)).Nodup)
include hjobs hpods

/-- A pod belongs to one job, so no two jobs are joined to the same pod. -/
theorem nodup_podNames_liveJobs : ((liveJobs jobs pods).filterMap (·.job.podName)).Nodup := by
  rw [liveJobs_eq, List.filterMap_map]
  apply List.pairwise_filterMap.mpr
  refine (List.pairwise_map.mp (hjobs.sublist (List.filter_sublist.map _))).imp ?_
  intro i j hne name hi name' hj
  rintro rfl
  obtain ⟨p, hp, hpname⟩ := Option.map_eq_some_iff.mp hi
  obtain ⟨q, hq, hqname⟩ := Option.map_eq_some_iff.mp hj
  obtain ⟨hpmem, hpjob⟩ := mem_of_lastPod? hp
  obtain ⟨hqmem, hqjob⟩ := mem_of_lastPod? hq
  obtain rfl := List.inj_on_of_nodup_map hpods hpmem hqmem (hpname.trans hqname.symm)
  exact hne (hpjob.symm.trans hqjob)

/-- Only the last pod of a job decides whether it is waited for. -/
theorem awaits_iff {j : ClusterJob} (hj : j ∈ jobs) (hlive : j.isLive = true) :
    (ofRecords reports jobs pods).Awaits j.name ↔
      ¬ ∃ p ∈ lastPod? pods j.name, Announced reports p := by
  have hleft := @mem_left_iff (reports.map .ofReport) _ (joined pods j)
    (nodup_podNames_liveJobs hjobs hpods)
  have hmem : joined pods j ∈ liveJobs jobs pods := by
    rw [liveJobs_eq]
    exact List.mem_map_of_mem (List.mem_filter.mpr ⟨hj, hlive⟩)
  have hfree : (∀ w ∈ reports.map Worker.ofReport, runsIn w (joined pods j) = false) ↔
      ¬ ∃ p ∈ lastPod? pods j.name, Announced reports p := by
    simp only [List.forall_mem_map, ← Bool.not_eq_true, runsIn_joined, Announced]
    grind
  rw [← hfree, ← and_iff_right hmem (b := ∀ w ∈ _, _), ← hleft]
  constructor
  · rintro ⟨w, hw, hid⟩
    obtain ⟨l, hl, rfl⟩ := List.mem_map.mp hw
    have hlmem := (mem_left_iff _ (nodup_podNames_liveJobs hjobs hpods)).mp hl
    rw [liveJobs_eq] at hlmem
    obtain ⟨i, hi, rfl⟩ := List.mem_map.mp hlmem.1
    obtain rfl := List.inj_on_of_nodup_map hjobs (List.mem_filter.mp hi).1 hj hid
    exact hl
  · intro hl
    exact ⟨_, List.mem_map_of_mem hl, rfl⟩

/-- The roster waits for the jobs without a worker, as long as a job with a worker has one in
the last of its pods. -/
theorem awaitsUnannounced_iff : AwaitsUnannounced reports jobs pods ↔
    ∀ j ∈ jobs, j.isLive = true → HasWorker reports pods j →
      ∃ p ∈ lastPod? pods j.name, Announced reports p := by
  refine forall_congr' fun j => forall_congr' fun hj => forall_congr' fun hlive => ?_
  have hlast : (∃ p ∈ lastPod? pods j.name, Announced reports p) → HasWorker reports pods j := by
    rintro ⟨p, hp, hannounced⟩
    obtain ⟨hmem, hjob⟩ := mem_of_lastPod? hp
    exact ⟨p, hmem, hjob, hannounced⟩
  rw [awaits_iff hjobs hpods hj hlive, not_iff_not]
  exact ⟨fun h => h.mpr, fun h => ⟨hlast, h⟩⟩

end DistinctNames

end Roster

def WorkerReport.sample (podName : String) : WorkerReport :=
  ⟨"w", "a", podName, .ready, false, false, none, none⟩

namespace Roster

/-- A job that was started in one pod and restarted in another; its worker is in the second. -/
theorem awaitsUnannounced_restarted :
    ["job"].Nodup ∧ ["pod-1", "pod-2"].Nodup ∧
      AwaitsUnannounced [.sample "pod-2"] [⟨"job", "a", 0, false, false⟩]
        [⟨"pod-1", "job", none⟩, ⟨"pod-2", "job", none⟩] := by
  refine ⟨by decide, by decide, (awaitsUnannounced_iff (by decide) (by decide)).mpr ?_⟩
  intro j hj _ _
  obtain rfl := List.mem_singleton.mp hj
  exact ⟨⟨"pod-2", "job", none⟩, rfl, .sample "pod-2", List.mem_singleton_self _, rfl⟩

/-- The worker is in the first pod of its job: it is idle without a job, and a second worker is
expected of the job. -/
theorem not_awaitsUnannounced_restarted :
    ¬ ∀ (reports : List WorkerReport) (jobs : List ClusterJob) (pods : List Pod),
      (pods.map (·.name)).Nodup → (jobs.map (·.name)).Nodup → (reports.map (·.podName)).Nodup →
        AwaitsUnannounced reports jobs pods := by
  intro h
  refine absurd (h [.sample "pod-1"] [⟨"job", "a", 0, false, false⟩]
    [⟨"pod-1", "job", none⟩, ⟨"pod-2", "job", none⟩] ?_ ?_ ?_) ?_ <;> decide

end Roster

end WorkerFleet
