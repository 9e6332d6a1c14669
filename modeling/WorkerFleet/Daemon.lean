import WorkerFleet.Codec.Cycle
import WorkerFleet.Config.Reader
import WorkerFleet.EventLog

/-!
# Daemon

A reconciler that runs on its own. The snapshot of a cycle is a text of some format, alert
events are kept in memory, and what a cycle publishes is printed in that format again. Jobs and
commands are only announced, so no call of the daemon fails.

This module does NOT touch any file; it works on their texts, none for a file that cannot be
read.
-/

namespace WorkerFleet

/-- Why a daemon does not start, or has to pass over a cycle. -/
inductive Failure where
  | noConfig
  | malformedConfig
  /-- The bounds of the capacity are out of order. -/
  | unorderedBounds
  | noSnapshot
  | malformedSnapshot
deriving DecidableEq, Repr

namespace Failure

def message : Failure → String
  | noConfig => "failed to read config"
  | malformedConfig => "failed to parse config"
  | unorderedBounds => "capacity bounds are out of order"
  | noSnapshot => "reading snapshot"
  | malformedSnapshot => "parsing snapshot"

/-- The exit code of a program that fails like this. -/
def exitCode : Failure → UInt8
  | unorderedBounds => 101
  | _ => 1

end Failure

variable {K : Type}

def Config.ofFile [Quantity K] (text : Option String) : Except Failure (Config K) :=
  match text with
  | none => .error .noConfig
  | some text =>
    match Config.ofToml? text with
    | none => .error .malformedConfig
    | some config => .ok config

def Snapshot.ofFile [Quantity K] (format : TextFormat K) (text : Option String) :
    Except Failure (Snapshot K) :=
  match text with
  | none => .error .noSnapshot
  | some text =>
    match (format.read? text).bind Codec.snapshot.read? with
    | none => .error .malformedSnapshot
    | some snapshot => .ok snapshot

structure Daemon (K : Type) [Quantity K] where
  reconciler : Reconciler K
  events : EventLog K

namespace Daemon

/-- The event log for the alerts; the other calls succeed without an effect. -/
def backends : Backends K (EventLog K) where
  addEvent e log := (some (log.add e).1, (log.add e).2)
  removeEvent e log := (true, log.remove e)
  send _ log := (true, log)
  publish _ log := (true, log)

def start [Quantity K] (config : Config K) : Except Failure (Daemon K) :=
  match Reconciler.start? config with
  | none => .error .unorderedBounds
  | some reconciler => .ok ⟨reconciler, .empty⟩

def step [Powers K] (d : Daemon K) (input : Snapshot K) (now : Millis) : Report K × Daemon K :=
  let (report, reconciler, events) := Cycle.run backends d.reconciler input now d.events
  (report, ⟨reconciler, events⟩)

/-- A fresh daemon's report on one cycle. -/
def once [Powers K] (format : TextFormat K) (config : Config K) (snapshot : Option String)
    (now : Millis) : Except Failure (Report K) := do
  let d ← start config
  let input ← Snapshot.ofFile format snapshot
  return (d.step input now).1

end Daemon

namespace Report

/-- The calls of a cycle, a line for each. -/
def announcements (r : Report K) : List String :=
  r.removals.map (fun e => "removeEvent " ++ e.1.eventId)
    ++ r.additions.map (fun e => "addEvent " ++ e.2.getD "" ++ " " ++ e.1.algorithm)
    ++ r.sent.map (fun e => e.1.describe)

def outcomesText (format : TextFormat K) (r : Report K) : String :=
  format.print (Codec.outcomes.write r.outcomes)

def discoveryText [Quantity K] (format : TextFormat K) (r : Report K) : String :=
  format.print (Codec.discovery.write r.discovery)

end Report

end WorkerFleet
