import WorkerFleet.Tracker

/-!
# Event log

Alert events kept in memory, under ids that are numbered in the order of their making.
-/

namespace WorkerFleet

structure EventLog (K : Type) where
  /-- Events made so far. -/
  made : Nat
  events : NameMap (Unscheduled K)
deriving DecidableEq

namespace EventLog
variable {K : Type}

def empty : EventLog K := ⟨0, .empty⟩

def idOf (number : Nat) : String := "event-" ++ JobFactory.decimalText number

/-- Keeps the alert under the next id. -/
def add (e : Unscheduled K) (log : EventLog K) : String × EventLog K :=
  let id := idOf (log.made + 1)
  (id, ⟨log.made + 1, log.events.insert id e⟩)

def remove (e : EventRemoval) (log : EventLog K) : EventLog K :=
  { log with events := log.events.erase e.eventId }

end EventLog

end WorkerFleet
