import WorkerFleet.Ledger
import WorkerFleet.Selection
import WorkerFleet.Worker

/-!
# Supply

Every admitted request takes the first supply of its algorithm: an idle worker, then a
pending one, then a created job of the ledger, then a paused worker, which is resumed. If
there is none, a new job is staged. What is taken leaves its pool, so nothing serves two
requests.
-/

namespace WorkerFleet

inductive Supply where
  | idle
  | pending
  | ledger
  | paused
deriving DecidableEq, Repr

def Supply.name : Supply → String
  | idle => "idle"
  | pending => "pending"
  | ledger => "ledger"
  | paused => "paused"

/-- What there is to serve requests, and the active workers. -/
structure Pools where
  idle : List Worker
  active : List Worker
  paused : List Worker
  pending : List Worker
  ledger : List LedgerEntry
deriving DecidableEq, Repr

inductive SupplyItem where
  | idle (w : Worker)
  | pending (w : Worker)
  | ledger (e : LedgerEntry)
  | paused (w : Worker)
deriving DecidableEq, Repr

namespace SupplyItem

def supply : SupplyItem → Supply
  | idle _ => .idle
  | pending _ => .pending
  | ledger _ => .ledger
  | paused _ => .paused

/-- The worker's id, or the job's name where the worker is still to come. -/
def workerId : SupplyItem → String
  | idle w => w.id
  | pending w => w.id
  | ledger e => e.jobName
  | paused w => w.id

def resumed? : SupplyItem → Option Worker
  | paused w => some w
  | _ => none

end SupplyItem

structure ScheduledRequest where
  algorithm : String
  workerId : String
  supply : Supply
deriving DecidableEq, Repr

namespace Pools

def empty : Pools := ⟨[], [], [], [], []⟩

/-- Sorts workers into pools. A worker that is paused and not ready goes into none. -/
def ofWorkers (workers pending : List Worker) (ledger : List LedgerEntry) : Pools where
  idle := workers.filter (·.isIdle)
  active := workers.filter (·.isActive)
  paused := workers.filter (·.isPaused)
  pending := pending
  ledger := ledger

def take? (pools : Pools) (algorithm : String) : Option (SupplyItem × Pools) :=
  match takeFirst? (fun w => w.algorithm = algorithm) pools.idle with
  | some (w, rest) => some (.idle w, { pools with idle := rest })
  | none =>
    match takeFirst? (fun w => w.algorithm = algorithm) pools.pending with
    | some (w, rest) => some (.pending w, { pools with pending := rest })
    | none =>
      match takeFirst? (fun e => e.algorithm = algorithm) pools.ledger with
      | some (e, rest) => some (.ledger e, { pools with ledger := rest })
      | none =>
        match takeFirst? (fun w => w.algorithm = algorithm) pools.paused with
        | some (w, rest) => some (.paused w, { pools with paused := rest })
        | none => none

end Pools

structure Assignment (K : Type) where
  scheduled : List ScheduledRequest
  toResume : List Worker
  /-- New jobs, in the order of their requests. -/
  toCreate : List (JobSpec K)
  /-- Requests whose algorithm has no usable template. -/
  unschedulable : List Request
  required : NameMap Nat
  /-- The pools without what was taken. -/
  pools : Pools
  factory : JobFactory
deriving DecidableEq

namespace Assignment
variable {K : Type} [Quantity K]

/-- A new job for a request without supply; no job without a usable template. -/
def stage? (templates : Templates K) (config : Config K) (now : Millis) (factory : JobFactory)
    (request : Request) : Option (JobSpec K) × JobFactory :=
  match templates.get? request.algorithm with
  | none => (none, factory)
  | some template =>
    let (built, factory) := factory.build template request config now
    (built.toOption, factory)

def assign (templates : Templates K) (config : Config K) (now : Millis) :
    Pools → JobFactory → List Request → Assignment K
  | pools, factory, [] => ⟨[], [], [], [], .empty, pools, factory⟩
  | pools, factory, r :: rest =>
    match pools.take? r.algorithm with
    | some (item, pools) =>
      let a := assign templates config now pools factory rest
      { a with
        scheduled := ⟨r.algorithm, item.workerId, item.supply⟩ :: a.scheduled
        toResume := item.resumed?.toList ++ a.toResume }
    | none =>
      match stage? templates config now factory r with
      | (some spec, factory) =>
        let a := assign templates config now pools factory rest
        { a with
          toCreate := spec :: a.toCreate
          required := a.required.upsert r.algorithm fun n => n.getD 0 + 1 }
      | (none, factory) =>
        let a := assign templates config now pools factory rest
        { a with unschedulable := r :: a.unschedulable }

end Assignment

end WorkerFleet
