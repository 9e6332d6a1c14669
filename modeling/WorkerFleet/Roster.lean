import WorkerFleet.Job
import WorkerFleet.Selection
import WorkerFleet.Worker

/-!
# Roster

The workers of one cycle, put together from what workers report and what the cluster lists.
A job is attached to the worker in its pod; a job without a worker is a pending worker. A
worker that runs an outdated image has to exit.
-/

namespace WorkerFleet

structure LiveJob where
  algorithm : String
  job : BackingJob
deriving DecidableEq, Repr

/-- The workers with their jobs, and the workers still expected of jobs. -/
structure Roster where
  workers : List Worker
  pending : List Worker
deriving DecidableEq, Repr

namespace Roster

/-- The last listed pod of each job. -/
def podsByJob (pods : List Pod) : NameMap Pod :=
  NameMap.ofList (pods.map fun p => (p.jobName, p))

/-- Jobs that have neither succeeded nor failed, with their pods. -/
def liveJobs (jobs : List ClusterJob) (pods : List Pod) : List LiveJob :=
  let byJob := podsByJob pods
  (jobs.filter fun j => !j.succeeded && !j.failed).map fun j =>
    let pod := byJob.get? j.name
    ⟨j.algorithm, ⟨j.name, pod.map (·.name), pod.bind (·.nodeName), j.startTime⟩⟩

def runsIn (w : Worker) (j : LiveJob) : Bool :=
  j.job.podName.isSome && j.job.podName = w.podName

/-- Attaches to each worker in turn the first job in its pod: the workers, and the jobs
left. -/
def attach : List LiveJob → List Worker → List Worker × List LiveJob
  | jobs, [] => ([], jobs)
  | jobs, w :: rest =>
    match takeFirst? (runsIn w) jobs with
    | some (j, jobs) =>
      let (workers, left) := attach jobs rest
      ({ w with job := some j.job } :: workers, left)
    | none =>
      let (workers, left) := attach jobs rest
      (w :: workers, left)

def merge (workers : List Worker) (jobs : List LiveJob) : Roster :=
  let (workers, left) := attach jobs workers
  ⟨workers, left.map fun j => Worker.expectedOf j.algorithm j.job⟩

end Roster

inductive StaleImage where
  | algorithm
  | worker
deriving DecidableEq, Repr

def StaleImage.message : StaleImage → String
  | algorithm => "algorithm image changed"
  | worker => "worker image changed"

structure ExitOrder where
  worker : Worker
  reason : StaleImage
deriving DecidableEq, Repr

namespace ExitOrder
variable {K : Type}

def staleImage? (config : Config K) (template : Template K) (w : Worker) : Option StaleImage :=
  if w.algorithmImage.any (· ≠ config.algorithmImage template) then some .algorithm
  else if w.workerImage.any (· ≠ config.workerImage template) then some .worker
  else none

def ofWorkers (config : Config K) (templates : Templates K) (workers : List Worker) :
    List ExitOrder :=
  workers.filterMap fun w =>
    (templates.get? w.algorithm).bind fun template =>
      (staleImage? config template w).map (⟨w, ·⟩)

end ExitOrder

end WorkerFleet
