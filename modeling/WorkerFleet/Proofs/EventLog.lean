import WorkerFleet.Daemon
import WorkerFleet.Proofs.JobNames
import WorkerFleet.Proofs.Orphans

/-!
# The event log along a run

Where alert events are kept in memory, the log and the tracker are changed by the same calls,
the log by the calls themselves and the tracker by their answers. So they stay in step
(`runAll_inStep`): the log keeps just the events that entries remember, each for the
algorithm whose entry remembers it.
-/

namespace WorkerFleet

namespace EventLog
variable {K : Type}

@[simp] theorem numberOf_idOf (n : Nat) : JobFactory.numberOf (idOf n) = n := by
  have hid : (idOf n).toList = "event".toList ++ '-' :: Nat.toDigits 10 n := by
    simp [idOf, JobFactory.decimalText]
  exact JobFactory.numberOf_of_toList hid

def algorithm? (log : EventLog K) (id : String) : Option String :=
  (log.events.get? id).map (·.algorithm)

/-- The ids in the log are those of events made before. -/
def Numbered (log : EventLog K) : Prop :=
  ∀ id, log.algorithm? id ≠ none → ∃ n ≤ log.made, id = idOf n

theorem numbered_empty : (empty : EventLog K).Numbered := fun _ h => absurd rfl h

theorem Numbered.algorithm?_next {log : EventLog K} (h : log.Numbered) :
    log.algorithm? (idOf (log.made + 1)) = none := by
  by_contra hsome
  obtain ⟨n, hn, hid⟩ := h _ hsome
  have hnumber := congrArg JobFactory.numberOf hid
  rw [numberOf_idOf, numberOf_idOf] at hnumber
  omega

theorem algorithm?_add (e : Unscheduled K) (log : EventLog K) (id : String) :
    (log.add e).2.algorithm? id =
      if idOf (log.made + 1) = id then some e.algorithm else log.algorithm? id := by
  rw [algorithm?, add, NameMap.get?_insert, apply_ite (Option.map _)]
  rfl

theorem Numbered.add {log : EventLog K} (h : log.Numbered) (e : Unscheduled K) :
    (log.add e).2.Numbered := by
  intro id hid
  rw [algorithm?_add] at hid
  by_cases hnew : idOf (log.made + 1) = id
  · exact ⟨log.made + 1, Nat.le_refl _, hnew.symm⟩
  · rw [if_neg hnew] at hid
    obtain ⟨n, hn, rfl⟩ := h id hid
    exact ⟨n, Nat.le_succ_of_le hn, rfl⟩

theorem algorithm?_remove (e : EventRemoval) (log : EventLog K) (id : String) :
    (log.remove e).algorithm? id = if id = e.eventId then none else log.algorithm? id := by
  rw [algorithm?, remove, NameMap.get?_erase, apply_ite (Option.map _)]
  rfl

/-- What a log and a tracker that are in step agree on. -/
structure InStep (log : EventLog K) (tracker : Tracker K) : Prop where
  /-- The events in the log are those that entries remember, -/
  keys : ∀ id, id ∈ log.events.keys ↔ ∃ e ∈ tracker.entries.entries, e.2.eventId = some id
  /-- no two entries the same, -/
  distinct : (tracker.entries.entries.filterMap (·.2.eventId)).Nodup
  /-- each kept for the algorithm of the entry. -/
  algorithm : ∀ e ∈ tracker.entries.entries, ∀ id, e.2.eventId = some id →
    ∃ event, log.events.get? id = some event ∧ event.algorithm = e.2.algorithm
  notified_iff : ∀ e ∈ tracker.entries.entries,
    (e.2.isNotified = true ↔ e.2.eventId.isSome = true)

end EventLog

/-- Alert events go to the log that `log` finds in the state, and nothing else touches it. The
other calls may fail. -/
structure Backends.LogsEvents {K σ : Type} (backends : Backends K σ) (log : σ → EventLog K) :
    Prop where
  addEvent_fst : ∀ e s, (backends.addEvent e s).1 = some ((log s).add e).1
  addEvent_snd : ∀ e s, log (backends.addEvent e s).2 = ((log s).add e).2
  removeEvent : ∀ e s, log (backends.removeEvent e s).2 = (log s).remove e
  send : ∀ o s, log (backends.send o s).2 = log s
  publish : ∀ d s, log (backends.publish d s).2 = log s

namespace Cycle
variable {K σ : Type}

theorem callAll_unchanged {α β γ : Type} {call : α → σ → β × σ} {f : σ → γ}
    (hcall : ∀ x s, f (call x s).2 = f s) (xs : List α) (s : σ) :
    f (callAll call xs s).2 = f s := by
  induction xs generalizing s with
  | nil => rfl
  | cons x xs ih => exact (ih _).trans (hcall x s)

section Calls
variable {backends : Backends K σ} {log : σ → EventLog K} (hlogs : backends.LogsEvents log)
include hlogs

theorem algorithm?_callAll_removeEvent (removals : List EventRemoval) (s : σ) (id : String) :
    (log (callAll backends.removeEvent removals s).2).algorithm? id =
      if id ∈ removals.map (·.eventId) then none else (log s).algorithm? id := by
  induction removals generalizing s with
  | nil => rfl
  | cons e rest ih =>
    have hstep : (log (callAll backends.removeEvent (e :: rest) s).2).algorithm? id =
        if id ∈ rest.map (·.eventId) then none
        else (log (backends.removeEvent e s).2).algorithm? id := ih _
    rw [hstep, hlogs.removeEvent, EventLog.algorithm?_remove]
    by_cases h : id = e.eventId <;> simp [h]

theorem numbered_callAll_removeEvent (removals : List EventRemoval) {s : σ}
    (hs : (log s).Numbered) : (log (callAll backends.removeEvent removals s).2).Numbered := by
  have hmade : (log (callAll backends.removeEvent removals s).2).made = (log s).made :=
    callAll_unchanged (f := fun s => (log s).made)
      (fun e s => (congrArg EventLog.made (hlogs.removeEvent e s)).trans rfl) removals s
  intro id hid
  rw [algorithm?_callAll_removeEvent hlogs] at hid
  rw [hmade]
  by_cases hremoved : id ∈ removals.map (·.eventId)
  · exact absurd (if_pos hremoved) hid
  · rw [if_neg hremoved] at hid
    exact hs id hid

/-- Adding events changes nothing about those that are in the log. -/
theorem callAll_addEvent (added : List (Unscheduled K)) {s : σ} (hs : (log s).Numbered) :
    (log (callAll backends.addEvent added s).2).Numbered ∧
      ∀ id a, (log (callAll backends.addEvent added s).2).algorithm? id = some a ↔
        (∃ x ∈ (callAll backends.addEvent added s).1, x.1.algorithm = a ∧ x.2 = some id) ∨
          (log s).algorithm? id = some a := by
  induction added generalizing s with
  | nil => exact ⟨hs, fun id a => by simp [callAll]⟩
  | cons e rest ih =>
    have hnext : log (backends.addEvent e s).2 = ((log s).add e).2 := hlogs.addEvent_snd e s
    have hanswers : (callAll backends.addEvent (e :: rest) s).1 =
        (e, some (EventLog.idOf ((log s).made + 1))) ::
          (callAll backends.addEvent rest (backends.addEvent e s).2).1 :=
      congrArg (fun id => (e, id) :: _) (hlogs.addEvent_fst e s)
    obtain ⟨hnumbered, hrest⟩ := ih (s := (backends.addEvent e s).2) (hnext ▸ hs.add e)
    refine ⟨hnumbered, fun id a => ?_⟩
    have hfresh := hs.algorithm?_next
    refine (hrest id a).trans ?_
    simp only [hanswers, List.mem_cons, exists_eq_or_imp, hnext, EventLog.algorithm?_add]
    by_cases h : EventLog.idOf ((log s).made + 1) = id
    · rw [if_pos h, ← h, hfresh]
      simp [or_comm]
    · rw [if_neg h]
      simp [h]

end Calls

section Run
variable [Powers K] {backends : Backends K σ} {log : σ → EventLog K}

theorem Record.mem_added_iff {c : Record K} {a id : String} : id ∈ c.added a ↔
    ∃ x ∈ c.additionCalls, x.1.algorithm = a ∧ x.2 = some id := by
  simp [added, additions, and_assoc]

variable {timeout : Millis} {past : List (Record K)} {r : Reconciler K}
variable {input : Snapshot K} {now : Millis} {s : σ}

/-- After a cycle an algorithm holds what it added, and what it held and did not give up. -/
theorem AlertState.mem_heldEvents_iff {c : Record K} (h : AlertState timeout past c.before)
    (hrun : c.IsRun backends) {a id : String} :
    id ∈ c.after.heldEvents a ↔
      id ∈ c.added a ∨ id ∈ c.before.heldEvents a ∧ id ∉ c.removed a := by
  rcases h.heldEvents_cases hrun a with ⟨hremoved, hheld⟩ | ⟨hremoved, hadded, hheld⟩
  · rw [hremoved, hheld, List.mem_append]
    simp
  · rw [hremoved, hadded, hheld]
    simp

/-- Only the calls about alert events change the log. -/
theorem log_run (hlogs : backends.LogsEvents log) :
    log (run backends r input now s).2.2 =
      log (callAll backends.addEvent (r.plan input now).1.unscheduled.added
        (callAll backends.removeEvent (r.plan input now).1.unscheduled.removed s).2).2 := by
  unfold run
  generalize r.plan input now = planned
  exact (hlogs.publish _ _).trans (callAll_unchanged hlogs.send _ _)

theorem additionCalls_record : (record backends r input now s).additionCalls =
    (callAll backends.addEvent (r.plan input now).1.unscheduled.added
      (callAll backends.removeEvent (r.plan input now).1.unscheduled.removed s).2).1 := by
  rw [(isRun_record backends r input now s).additionCalls_eq]
  unfold record run
  generalize r.plan input now = planned
  rfl

theorem removalCalls_record : (record backends r input now s).removalCalls.map (·.1) =
    (r.plan input now).1.unscheduled.removed := by
  have hremovals := (isRun_record backends r input now s).followsPlan.removals
  rwa [plan_record] at hremovals

theorem Record.mem_removalCalls_iff {c : Record K} {id : String} :
    id ∈ (c.removalCalls.map (·.1)).map (·.eventId) ↔ ∃ a, id ∈ c.removed a := by
  simp only [removed, List.map_map, List.mem_map, List.mem_filter, decide_eq_true_eq]
  constructor
  · rintro ⟨x, hx, hid⟩
    exact ⟨x.1.algorithm, x, ⟨hx, rfl⟩, hid⟩
  · rintro ⟨_, x, ⟨hx, -⟩, hid⟩
    exact ⟨x, hx, hid⟩

/-- The log knows the events that the entries remember, and no others. -/
structure LogState (timeout : Millis) (past : List (Record K)) (log : EventLog K)
    (r : Reconciler K) : Prop extends AlertState timeout past r where
  numbered : log.Numbered
  agree : ∀ id a, log.algorithm? id = some a ↔ id ∈ r.heldEvents a

theorem logState_fresh (hr : r.Fresh) : LogState r.config.warningTimeout [] .empty r where
  toAlertState := alertState_fresh hr
  numbered := EventLog.numbered_empty
  agree := by
    obtain ⟨_, htracker, _⟩ := hr.memory
    intro id a
    rw [Reconciler.heldEvents, htracker]
    exact iff_of_false (by rintro ⟨⟩) List.not_mem_nil

namespace LogState

theorem step (hlogs : backends.LogsEvents log) (h : LogState timeout past (log s) r)
    (input : Snapshot K) (now : Millis) :
    LogState timeout (record backends r input now s :: past)
      (log (run backends r input now s).2.2) (record backends r input now s).after := by
  have hrun := isRun_record backends r input now s
  have hremovals := numbered_callAll_removeEvent hlogs (r.plan input now).1.unscheduled.removed
    h.numbered
  obtain ⟨hnumbered, hadded⟩ :=
    callAll_addEvent hlogs (r.plan input now).1.unscheduled.added hremovals
  refine ⟨h.toAlertState.step hrun, ?_, ?_⟩
  · rw [log_run hlogs]
    exact hnumbered
  · intro id a
    rw [log_run hlogs, hadded, ← additionCalls_record, ← Record.mem_added_iff,
      h.toAlertState.mem_heldEvents_iff hrun, algorithm?_callAll_removeEvent hlogs,
      Option.ite_none_left_eq_some, h.agree, and_comm, ← removalCalls_record,
      Record.mem_removalCalls_iff]
    refine or_congr_right (and_congr_right fun hheld => not_congr ?_)
    refine ⟨?_, fun hremoved => ⟨a, hremoved⟩⟩
    -- What is removed was held for the same algorithm.
    rintro ⟨b, hremoved⟩
    have hb := (h.agree id b).mpr (h.toAlertState.removed_subset hrun b hremoved)
    have ha := (h.agree id a).mpr hheld
    obtain rfl := Option.some.inj (ha.symm.trans hb)
    exact hremoved

theorem held {events : EventLog K} (h : LogState timeout past events r) {e : String × Unscheduled K}
    (he : e ∈ r.tracker.entries.entries) {id : String} (hid : e.2.eventId = some id) :
    events.algorithm? id = some e.1 := by
  rw [h.agree, Reconciler.heldEvents, NameMap.mem_entries.mp he, Option.bind_some, hid]
  exact List.mem_singleton_self id

theorem inStep {events : EventLog K} (h : LogState timeout past events r) :
    events.InStep r.tracker where
  keys id := by
    calc id ∈ events.events.keys ↔ ∃ a, events.algorithm? id = some a := by
          simp [NameMap.keys, EventLog.algorithm?, NameMap.mem_entries]
      _ ↔ ∃ a, id ∈ r.heldEvents a := exists_congr (h.agree id)
      _ ↔ r.Holds id := Reconciler.holds_iff.symm
  distinct := by
    refine List.pairwise_filterMap.mpr (r.tracker.entries.ascending.imp_of_mem ?_)
    rintro e e' he he' hlt id hid _ hid' rfl
    have heq := Option.some.inj ((h.held he hid).symm.trans (h.held he' hid'))
    exact String.lt_irrefl _ (heq ▸ hlt)
  algorithm e he id hid := by
    obtain ⟨event, hevent, halgorithm⟩ := Option.map_eq_some_iff.mp (h.held he hid)
    have hown := h.ownNames e.1 e.2 (NameMap.mem_entries.mp he)
    exact ⟨event, hevent, halgorithm.trans hown.symm⟩
  notified_iff e he := by
    rw [(h.remembers e.1 e.2 (NameMap.mem_entries.mp he)).notified_eq]

end LogState

theorem runAll_cons (rest : List (Option (Snapshot K) × Millis)) :
    (runAll backends r ((some input, now) :: rest) s).2 =
      (runAll backends (run backends r input now s).2.1 rest
        (run backends r input now s).2.2).2 := by
  rw [runAll]

theorem exists_logState_runAll (hlogs : backends.LogsEvents log)
    (h : LogState timeout past (log s) r) (cycles : List (Option (Snapshot K) × Millis)) :
    ∃ past', LogState timeout past' (log (runAll backends r cycles s).2.2)
      (runAll backends r cycles s).2.1 := by
  induction cycles generalizing past r s with
  | nil => exact ⟨past, h⟩
  | cons cycle rest ih =>
    obtain ⟨_ | input, now⟩ := cycle
    · exact ih h
    · have hnext := h.step hlogs input now
      rw [after_record] at hnext
      rw [runAll_cons]
      exact ih hnext

/-- After every run the log and the tracker are in step. -/
theorem runAll_inStep (hlogs : backends.LogsEvents log) (hr : r.Fresh) (hs : log s = .empty)
    (cycles : List (Option (Snapshot K) × Millis)) :
    (log (runAll backends r cycles s).2.2).InStep (runAll backends r cycles s).2.1.tracker := by
  obtain ⟨past, h⟩ := exists_logState_runAll hlogs (hs ▸ logState_fresh hr) cycles
  exact h.inStep

end Run

theorem logsEvents_daemon :
    (Daemon.backends : Backends Float (EventLog Float)).LogsEvents fun log => log :=
  ⟨fun _ _ => rfl, fun _ _ => rfl, fun _ _ => rfl, fun _ _ => rfl, fun _ _ => rfl⟩

def daemonRun (cycles : List (Option (Snapshot Float) × Millis)) :
    Reconciler Float × EventLog Float :=
  (runAll Daemon.backends .sample cycles .empty).2

/-- A daemon raises an alert, and takes it back when nobody asks any more. -/
theorem inStep_daemonRun :
    (daemonRun (stuckForAWhile.take 1)).2.events.keys = ["event-1"] ∧
      (daemonRun (stuckForAWhile.take 1)).2.InStep (daemonRun (stuckForAWhile.take 1)).1.tracker ∧
      (daemonRun stuckForAWhile).2.events.keys = [] ∧
      (daemonRun stuckForAWhile).2.InStep (daemonRun stuckForAWhile).1.tracker := by
  have hfresh : Reconciler.sample.Fresh := .start Reconciler.start?_sample
  have hinStep : ∀ cycles, (daemonRun cycles).2.InStep (daemonRun cycles).1.tracker := by
    intro cycles
    unfold daemonRun
    exact runAll_inStep logsEvents_daemon hfresh rfl cycles
  exact ⟨by decide +kernel, hinStep _, by decide +kernel, hinStep _⟩

end Cycle

end WorkerFleet
