import WorkerFleet.Capacity
import WorkerFleet.Command
import WorkerFleet.FairShare
import WorkerFleet.HotWorkers
import WorkerFleet.Reclaim
import WorkerFleet.Statistics
import WorkerFleet.Supply
import WorkerFleet.Tracker

/-!
# Plan

All decisions of one cycle, made from a snapshot of the cluster, the time and what the
reconciler remembers from earlier cycles. Planning sends nothing.
-/

namespace WorkerFleet

structure Snapshot (K : Type) where
  templates : Templates K
  /-- The backlog, the highest priority first. -/
  requests : List Request
  workers : List WorkerReport
  jobs : List ClusterJob
  pods : List Pod
  resources : Cluster K
deriving DecidableEq

/-- What one cycle decided for one algorithm. The counts have no bound here; kept in words of 32
bits they are the same while none reaches `2 ^ 32`. -/
structure Outcome where
  required : Nat
  /-- Idle workers at the start. -/
  idle : Nat
  /-- Workers told to stop. -/
  paused : Nat
  created : Nat
  skipped : Nat
  resumed : Nat
  /-- Workers that report themselves. -/
  active : Nat
deriving DecidableEq, Repr

def Outcome.zero : Outcome := ⟨0, 0, 0, 0, 0, 0, 0⟩

structure Plan (K : Type) where
  outcomes : NameMap Outcome
  capacity : K
  pressure : Pressure K
  admitted : List Request
  scheduled : List ScheduledRequest
  created : List (PlacedJob K)
  skipped : List (SkippedJob K)
  resourcesToFree : Resources K
  stops : List (Stop K)
  resumes : List Worker
  exits : List ExitOrder
  warmUp : List Worker
  coolDown : List Worker
  unscheduled : AlertDelta K
  outbound : List (Outbound K)
  actual : WorkerStats
  nodes : List (NodeStats K)
deriving DecidableEq

structure Reconciler (K : Type) [Quantity K] where
  config : Config K
  capacity : Capacity K
  ledger : Ledger
  tracker : Tracker K
  factory : JobFactory

namespace Plan
variable {K : Type}

def outboundOf (created : List (PlacedJob K)) (exits : List ExitOrder)
    (warmUp coolDown : List Worker) (stops : List (Stop K)) (resumes : List Worker) :
    List (Outbound K) :=
  created.map (fun j => .createJob j.spec)
    ++ exits.map (fun e => .command (.ofExit e))
    ++ warmUp.map (fun w => .command (.ofWorker .warmUp w))
    ++ coolDown.map (fun w => .command (.ofWorker .coolDown w))
    ++ stops.map (fun s => .command (.ofWorker .stopProcessing s.worker))
    ++ resumes.map (fun w => .command (.ofWorker .startProcessing w))

/-- Notes each item in the outcome of its algorithm, which is made where there is none. -/
def noteAll {α : Type} (name : α → String) (note : α → Outcome → Outcome) (items : List α)
    (outcomes : NameMap Outcome) : NameMap Outcome :=
  items.foldl (fun m x => m.upsert (name x) fun o => note x (o.getD .zero)) outcomes

def outcomesOf (required idle : NameMap Nat) (created : List (PlacedJob K))
    (skipped : List (SkippedJob K)) (unschedulable : List Request) (stops : List (Stop K))
    (resumes : List Worker) (actual : WorkerStats) : NameMap Outcome :=
  NameMap.empty
    |> noteAll (·.1) (fun e o => { o with required := e.2 }) required.entries
    |> noteAll (·.1) (fun e o => { o with idle := e.2 }) idle.entries
    |> noteAll (·.spec.algorithm) (fun _ o => { o with created := o.created + 1 }) created
    |> noteAll (·.algorithm) (fun _ o => { o with skipped := o.skipped + 1 }) skipped
    |> noteAll (·.algorithm) (fun _ o => { o with skipped := o.skipped + 1 }) unschedulable
    |> noteAll (·.worker.algorithm) (fun _ o => { o with paused := o.paused + 1 }) stops
    |> noteAll (·.algorithm) (fun _ o => { o with resumed := o.resumed + 1 }) resumes
    |> noteAll (·.algorithm) (fun s o => { o with active := s.count }) actual.stats

end Plan

namespace Reconciler
variable {K : Type} [Quantity K]

/-- A fresh start; none if the bounds of the capacity are out of order. -/
def start? (config : Config K) : Option (Reconciler K) :=
  (Capacity.start? config.capacity).map fun capacity =>
    ⟨config, capacity, .empty config.createdJobsTtl, .empty config.warningTimeout, .fresh⟩

def withCapacity (r : Reconciler K) (value : K) : Reconciler K :=
  { r with capacity := r.capacity.restartAt value }

end Reconciler

/-- The workers of one cycle and what becomes of them before any request is looked at. -/
structure Fleet where
  /-- As reported, without jobs. -/
  discovered : List Worker
  roster : Roster
  exits : List ExitOrder
  warmUp : List Worker
  coolDown : List Worker
  /-- The workers that stay, with the hot flags they will have. -/
  live : List Worker
deriving DecidableEq, Repr

def Fleet.ofSnapshot {K : Type} (config : Config K) (input : Snapshot K) : Fleet :=
  let discovered := input.workers.map Worker.ofReport
  let roster := Roster.merge discovered (Roster.liveJobs input.jobs input.pods)
  let exits := ExitOrder.ofWorkers config input.templates roster.workers
  let staying := roster.workers.filter fun w => !exits.any (·.worker.id = w.id)
  let warmUp := HotWorkers.warmUp input.templates staying
  let coolDown := HotWorkers.coolDown input.templates staying
  { discovered, roster, exits, warmUp, coolDown
    live := HotWorkers.apply warmUp coolDown staying }

namespace Reconciler
variable {K : Type} [Powers K]

def plan (r : Reconciler K) (input : Snapshot K) (now : Millis) : Plan K × Reconciler K :=
  let ledger := r.ledger.expire now
  let fleet := Fleet.ofSnapshot r.config input
  let pools := Pools.ofWorkers fleet.live fleet.roster.pending ledger.entries
  let capacity :=
    r.capacity.update (pools.idle.length + pools.active.length + ledger.entries.length)
  let window :=
    FairShare.window input.requests capacity.value capacity.policy.windowFactor
  let cut := FairShare.cut (HotWorkers.requests input.templates ++ window) capacity.value
  let assignment :=
    Assignment.assign input.templates r.config now pools r.factory cut.admitted
  let placement := Placement.place now input.resources.nodes assignment.toCreate
  let (unscheduled, tracker) :=
    r.tracker.update placement.created placement.skipped input.requests input.templates now
  let budget := Reclaim.resourcesToFree placement.skipped
  let found := Reclaim.findStops placement.skipped assignment.pools.idle assignment.pools.active
    input.templates r.config.defaults r.config.reclaim.weigh r.config.reclaim.minAgeForStop now
  let (stops, resumes) :=
    Reclaim.cancelAgainst assignment.toResume (Reclaim.trimToBudget budget found)
  let actual := WorkerStats.ofWorkers fleet.discovered
  ({ outcomes := Plan.outcomesOf assignment.required (countByAlgorithm pools.idle)
      placement.created placement.skipped assignment.unschedulable stops resumes actual
     capacity := capacity.value
     pressure := input.resources.pressure
     admitted := cut.admitted
     scheduled := assignment.scheduled
     created := placement.created
     skipped := placement.skipped
     resourcesToFree := budget
     stops, resumes
     exits := fleet.exits
     warmUp := fleet.warmUp
     coolDown := fleet.coolDown
     unscheduled
     outbound := Plan.outboundOf placement.created fleet.exits fleet.warmUp fleet.coolDown
      stops resumes
     actual
     nodes := NodeStats.ofCluster input.resources fleet.roster.workers },
   { r with
     capacity, tracker
     ledger := ledger.record placement.created now
     factory := assignment.factory })

end Reconciler

end WorkerFleet
