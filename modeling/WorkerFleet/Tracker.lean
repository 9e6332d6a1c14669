import WorkerFleet.Placement

/-!
# Tracker of unscheduled algorithms

An algorithm whose staged jobs find no room is tracked from its first skip. It is notified
once, when it has been stuck for longer than the warning timeout or can never fit, and it
is dropped as soon as it gets a job, is no longer requested, or has no template.

The tracker only says which alert events to add and to remove; `Cycle` talks to the event
store and reports back.
-/

namespace WorkerFleet

structure Unscheduled (K : Type) where
  algorithm : String
  /-- When it was first skipped. -/
  firstSeenAt : Millis
  isNotified : Bool
  hasMaxCapacity : Bool
  /-- The alert event, once there is one. -/
  eventId : Option String
  warning : SkipWarning K
deriving DecidableEq, Repr

structure EventRemoval where
  algorithm : String
  eventId : String
deriving DecidableEq, Repr

structure AlertDelta (K : Type) where
  added : List (Unscheduled K)
  removed : List EventRemoval
deriving DecidableEq, Repr

def AlertDelta.isEmpty {K : Type} (delta : AlertDelta K) : Bool :=
  delta.added.isEmpty && delta.removed.isEmpty

namespace Unscheduled
variable {K : Type}

def ofSkip (s : SkippedJob K) : Unscheduled K where
  algorithm := s.algorithm
  firstSeenAt := s.warning.timestamp
  isNotified := false
  hasMaxCapacity := s.warning.hasMaxCapacity
  eventId := none
  warning := s.warning

/-- Stuck for longer than `timeout`, or never to fit. -/
def isDue (e : Unscheduled K) (timeout now : Millis) : Bool :=
  timeout.toNat < Millis.since now e.firstSeenAt || e.hasMaxCapacity

def isNewlyDue (e : Unscheduled K) (timeout now : Millis) : Bool :=
  !e.isNotified && e.isDue timeout now

def notify (e : Unscheduled K) (timeout now : Millis) : Unscheduled K :=
  if e.isNewlyDue timeout now then { e with isNotified := true } else e

end Unscheduled

structure Tracker (K : Type) where
  entries : NameMap (Unscheduled K)
  timeout : Millis
deriving DecidableEq

namespace Tracker
variable {K : Type}

def empty (timeout : Millis) : Tracker K := ⟨.empty, timeout⟩

def track (entries : NameMap (Unscheduled K)) (skipped : List (SkippedJob K)) :
    NameMap (Unscheduled K) :=
  skipped.foldl (fun es s => es.insertNew s.algorithm (Unscheduled.ofSkip s)) entries

/-- The algorithm got a job, is not requested, or has no template. -/
def isSettled (created : List (PlacedJob K)) (requests : List Request) (templates : Templates K)
    (algorithm : String) : Bool :=
  created.any (·.spec.algorithm = algorithm)
    || !requests.any (·.algorithm = algorithm)
    || !templates.contains algorithm

/-- Applies the outcome of one cycle. `requests` is the whole backlog: an algorithm that
fair share cut is still wanted. -/
def update (tracker : Tracker K) (created : List (PlacedJob K)) (skipped : List (SkippedJob K))
    (requests : List Request) (templates : Templates K) (now : Millis) :
    AlertDelta K × Tracker K :=
  let tracked := track tracker.entries skipped
  let settled := isSettled created requests templates
  let kept := tracked.filterMap fun name e => if settled name then none else some e
  let removed := tracked.entries.filterMap fun e =>
    if settled e.1 then e.2.eventId.map fun id => ⟨e.1, id⟩ else none
  let due := kept.values.filter (·.isNewlyDue tracker.timeout now)
  (⟨due.map (·.notify tracker.timeout now), removed⟩,
    { tracker with entries := kept.map (·.notify tracker.timeout now) })

def recordEvent (tracker : Tracker K) (algorithm eventId : String) : Tracker K :=
  { tracker with
    entries := tracker.entries.adjust algorithm fun e => { e with eventId := some eventId } }

/-- The event could not be added; the algorithm is up again in the next cycle. -/
def resetNotification (tracker : Tracker K) (algorithm : String) : Tracker K :=
  { tracker with
    entries := tracker.entries.adjust algorithm fun e => { e with isNotified := false } }

end Tracker

end WorkerFleet
