import WorkerFleet.Template

/-!
# Workers

What workers report of themselves, what the cluster lists about jobs and pods, and the
worker as the reconciler sees it.
-/

namespace WorkerFleet

/-- The stage a worker reports. A stage outside the four known ones is kept as written and
counts as not ready. -/
inductive WorkerStatus where
  | starting
  | ready
  | working
  | exiting
  | other (text : String)
deriving DecidableEq, Repr

namespace WorkerStatus

def text : WorkerStatus → String
  | starting => "init"
  | ready => "ready"
  | working => "working"
  | exiting => "exit"
  | other text => text

def ofText (text : String) : WorkerStatus :=
  if text = "init" then starting
  else if text = "ready" then ready
  else if text = "working" then working
  else if text = "exit" then exiting
  else other text

@[simp] theorem text_ofText (s : String) : (ofText s).text = s := by
  unfold ofText
  split
  · next h => exact h.symm
  · split
    · next h => exact h.symm
    · split
      · next h => exact h.symm
      · split
        · next h => exact h.symm
        · rfl

end WorkerStatus

structure WorkerReport where
  id : String
  algorithm : String
  podName : String
  status : WorkerStatus
  paused : Bool
  hot : Bool
  /-- The images the worker was started with, where it tells. -/
  algorithmImage : Option String
  workerImage : Option String
deriving DecidableEq, Repr

structure ClusterJob where
  name : String
  algorithm : String
  startTime : Millis
  succeeded : Bool
  failed : Bool
deriving DecidableEq, Repr

structure Pod where
  name : String
  jobName : String
  nodeName : Option String
deriving DecidableEq, Repr

structure BackingJob where
  jobName : String
  podName : Option String
  nodeName : Option String
  startTime : Millis
deriving DecidableEq, Repr

/-- A worker, its job attached where it is known. -/
structure Worker where
  id : String
  algorithm : String
  status : WorkerStatus
  paused : Bool
  hot : Bool
  job : Option BackingJob
  podName : Option String
  algorithmImage : Option String
  workerImage : Option String
deriving DecidableEq, Repr

namespace Worker

def isIdle (w : Worker) : Bool := w.status = .ready && !w.paused

/-- At work, or getting ready for it. -/
def isActive (w : Worker) : Bool := w.status ≠ .ready && !w.paused

def isPaused (w : Worker) : Bool := w.status = .ready && w.paused

def age? (w : Worker) (now : Millis) : Option Nat := w.job.map fun j => Millis.since now j.startTime

def nodeName? (w : Worker) : Option String := w.job.bind (·.nodeName)

def ofReport (r : WorkerReport) : Worker where
  id := r.id
  algorithm := r.algorithm
  status := r.status
  paused := r.paused
  hot := r.hot
  job := none
  podName := some r.podName
  algorithmImage := r.algorithmImage
  workerImage := r.workerImage

/-- The worker expected of a job that has not announced itself; it goes by the job's name. -/
def expectedOf (algorithm : String) (job : BackingJob) : Worker where
  id := job.jobName
  algorithm := algorithm
  status := .starting
  paused := false
  hot := false
  job := some job
  podName := job.podName
  algorithmImage := none
  workerImage := none

end Worker

def countByAlgorithm (workers : List Worker) : NameMap Nat :=
  workers.foldl (fun counts w => counts.upsert w.algorithm fun n => n.getD 0 + 1) .empty

def groupByAlgorithm (workers : List Worker) : NameMap (List Worker) :=
  workers.foldl (fun groups w => groups.upsert w.algorithm fun g => g.getD [] ++ [w]) .empty

end WorkerFleet
