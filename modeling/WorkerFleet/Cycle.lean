import WorkerFleet.Plan

/-!
# Cycle

One full cycle: plan, bring the alert events in line, send everything out, and publish what
was decided. A call that fails changes no decision of its cycle; only the alert events
depend on what the event store answers.

The outside is a `Backends` record over a state of its own, so a cycle is a function of that
state too, and its `Report` lists the calls that were made, in order.
-/

namespace WorkerFleet

structure Discovery (K : Type) where
  outcomes : NameMap Outcome
  actual : WorkerStats
  thresholds : PressureThresholds K
  nodes : List (NodeStats K)
  unscheduled : AlertDelta K
  capacity : K
  resourcesToFree : Resources K
  timestamp : Millis
deriving DecidableEq

/-- The systems a cycle talks to; `σ` is their state. -/
structure Backends (K σ : Type) where
  /-- Publishes an alert; answers its event id, or none on failure. -/
  addEvent : Unscheduled K → σ → Option String × σ
  /-- The answers of the other calls tell success. -/
  removeEvent : EventRemoval → σ → Bool × σ
  send : Outbound K → σ → Bool × σ
  publish : Discovery K → σ → Bool × σ

/-- The calls of one cycle with their answers. -/
structure Report (K : Type) where
  outcomes : NameMap Outcome
  removals : List (EventRemoval × Bool)
  additions : List (Unscheduled K × Option String)
  sent : List (Outbound K × Bool)
  discovery : Discovery K
  published : Bool
deriving DecidableEq

namespace Cycle
variable {K σ : Type}

def callAll {α β : Type} (call : α → σ → β × σ) : List α → σ → List (α × β) × σ
  | [], s => ([], s)
  | x :: rest, s =>
    let (answer, s) := call x s
    let (answers, s) := callAll call rest s
    ((x, answer) :: answers, s)

/-- What the tracker learns from one answer of the event store. -/
def learn (tracker : Tracker K) (addition : Unscheduled K × Option String) : Tracker K :=
  match addition.2 with
  | some id => tracker.recordEvent addition.1.algorithm id
  | none => tracker.resetNotification addition.1.algorithm

def published (addition : Unscheduled K × Option String) : Unscheduled K :=
  match addition.2 with
  | some id => { addition.1 with eventId := some id }
  | none => addition.1

def tally (sent : List (Outbound K × Bool)) : Nat × Nat :=
  (sent.countP (·.2), sent.countP fun e => !e.2)

variable [Powers K]

def run (backends : Backends K σ) (r : Reconciler K) (input : Snapshot K) (now : Millis) (s : σ) :
    Report K × Reconciler K × σ :=
  let (plan, r) := r.plan input now
  let (removals, s) := callAll backends.removeEvent plan.unscheduled.removed s
  let (additions, s) := callAll backends.addEvent plan.unscheduled.added s
  let (sent, s) := callAll backends.send plan.outbound s
  let discovery : Discovery K := {
    outcomes := plan.outcomes
    actual := plan.actual
    thresholds := r.config.pressure
    nodes := plan.nodes
    unscheduled := ⟨additions.map published, plan.unscheduled.removed⟩
    capacity := plan.capacity
    resourcesToFree := plan.resourcesToFree
    timestamp := now }
  let (ok, s) := backends.publish discovery s
  (⟨plan.outcomes, removals, additions, sent, discovery, ok⟩,
    { r with tracker := additions.foldl learn r.tracker }, s)

/-- Runs a cycle for each snapshot that could be fetched, and none for the others. -/
def runAll (backends : Backends K σ) :
    Reconciler K → List (Option (Snapshot K) × Millis) → σ → List (Report K) × Reconciler K × σ
  | r, [], s => ([], r, s)
  | r, (none, _) :: rest, s => runAll backends r rest s
  | r, (some input, now) :: rest, s =>
    let (report, r, s) := run backends r input now s
    let (reports, r, s) := runAll backends r rest s
    (report :: reports, r, s)

end Cycle

end WorkerFleet
