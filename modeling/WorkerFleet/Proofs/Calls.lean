import Mathlib.Data.List.Basic
import WorkerFleet.Cycle

/-!
# Calls

A report is what a cycle says of its calls. What the backends are asked is seen from their side:
behind any backends `Backends.noting` keeps a log of the calls that reach them, with the
answers. Noting changes nothing else (`run_noting`), so the log is also what backends without
one receive.
-/

namespace WorkerFleet

/-- A call as the backends receive it, with their answer. -/
inductive Call (K : Type) where
  | removeEvent (event : EventRemoval) (ok : Bool)
  | addEvent (e : Unscheduled K) (answer : Option String)
  | send (item : Outbound K) (ok : Bool)
  | publish (d : Discovery K) (ok : Bool)
deriving DecidableEq

namespace Call
variable {K : Type}

def removal? : Call K → Option (EventRemoval × Bool)
  | removeEvent event ok => some (event, ok)
  | _ => none

def addition? : Call K → Option (Unscheduled K × Option String)
  | addEvent e answer => some (e, answer)
  | _ => none

def sent? : Call K → Option (Outbound K)
  | send item _ => some item
  | _ => none

def published? : Call K → Option (Discovery K)
  | publish d _ => some d
  | _ => none

end Call

variable {K σ : Type}

/-- A call that also puts itself at the end of a log. -/
def noted {α β : Type} (note : α → β → Call K) (call : α → σ → β × σ) (x : α)
    (s : σ × List (Call K)) : β × σ × List (Call K) :=
  ((call x s.1).1, (call x s.1).2, s.2 ++ [note x (call x s.1).1])

def Backends.noting (backends : Backends K σ) : Backends K (σ × List (Call K)) where
  addEvent := noted .addEvent backends.addEvent
  removeEvent := noted .removeEvent backends.removeEvent
  send := noted .send backends.send
  publish := noted .publish backends.publish

namespace Report

/-- The calls that a report tells of. -/
def calls (report : Report K) : List (Call K) :=
  report.removals.map (fun x => .removeEvent x.1 x.2)
    ++ report.additions.map (fun x => .addEvent x.1 x.2)
    ++ report.sent.map (fun x => .send x.1 x.2)
    ++ [.publish report.discovery report.published]

variable (report : Report K)

theorem filterMap_removal?_calls : report.calls.filterMap Call.removal? = report.removals := by
  simp [calls, List.filterMap_map, Function.comp_def, List.filterMap_cons, Call.removal?]

theorem filterMap_addition?_calls : report.calls.filterMap Call.addition? = report.additions := by
  simp [calls, List.filterMap_map, Function.comp_def, List.filterMap_cons, Call.addition?]

theorem filterMap_sent?_calls : report.calls.filterMap Call.sent? = report.sent.map (·.1) := by
  simp [calls, List.filterMap_map, Function.comp_def, List.filterMap_cons, Call.sent?]

theorem filterMap_published?_calls :
    report.calls.filterMap Call.published? = [report.discovery] := by
  simp [calls, List.filterMap_map, Function.comp_def, Call.published?]

end Report

namespace Cycle

theorem callAll_noted {α β : Type} (note : α → β → Call K) (call : α → σ → β × σ) (xs : List α)
    (s : σ) (log : List (Call K)) :
    callAll (noted note call) xs (s, log) = ((callAll call xs s).1, (callAll call xs s).2,
      log ++ (callAll call xs s).1.map fun x => note x.1 x.2) := by
  induction xs generalizing s log with
  | nil => rw [callAll, callAll, List.map_nil, List.append_nil]
  | cons x xs ih =>
    simp only [callAll, noted, ih, List.map_cons, List.append_assoc, List.singleton_append]

variable [Powers K]

/-- Noting changes no answer and no decision, and what is noted is what the report tells. -/
theorem run_noting (backends : Backends K σ) (r : Reconciler K) (input : Snapshot K)
    (now : Millis) (s : σ) (log : List (Call K)) :
    run backends.noting r input now (s, log) =
      ((run backends r input now s).1, (run backends r input now s).2.1,
        (run backends r input now s).2.2, log ++ (run backends r input now s).1.calls) := by
  unfold run Backends.noting
  generalize r.plan input now = planned
  simp only [callAll_noted, noted, Report.calls, List.append_assoc]

/-- The calls that backends receive in a run. -/
def received (backends : Backends K σ) (r : Reconciler K)
    (cycles : List (Option (Snapshot K) × Millis)) (s : σ) : List (Call K) :=
  (runAll backends.noting r cycles (s, [])).2.2.2

end Cycle

end WorkerFleet
