import Mathlib.Data.List.Pairwise
import WorkerFleet.EventLog
import WorkerFleet.Proofs.Alerts

/-!
# Orphaned events

An event stays in the store until a removal succeeds. Only the entry that it was added for
remembers it, and the entry goes with the first try to remove it. So while ids are fresh the
events that nobody is going to remove are those of which a removal has failed.
-/

namespace WorkerFleet

namespace Reconciler
variable {K : Type} [Quantity K] (r : Reconciler K) (id : String)

def Holds : Prop := ∃ e ∈ r.tracker.entries.entries, e.2.eventId = some id

instance : Decidable (r.Holds id) :=
  inferInstanceAs (Decidable (∃ e ∈ r.tracker.entries.entries, e.2.eventId = some id))

def heldEvents (algorithm : String) : List String :=
  ((r.tracker.entries.get? algorithm).bind (·.eventId)).toList

variable {r id}

theorem holds_iff : r.Holds id ↔ ∃ a, id ∈ r.heldEvents a := by
  simp only [heldEvents, Option.mem_toList, Option.bind_eq_some_iff]
  constructor
  · rintro ⟨⟨a, e⟩, he, hid⟩
    exact ⟨a, e, NameMap.mem_entries.mp he, hid⟩
  · rintro ⟨a, e, he, hid⟩
    exact ⟨(a, e), NameMap.mem_entries.mpr he, hid⟩

end Reconciler

namespace Cycle
variable {K : Type}

section Events
variable [Quantity K]

/-- The calls of the cycles that add an event, with their answers. -/
def allAdditions (past : List (Record K)) : List (Unscheduled K × Option String) :=
  past.flatMap (·.additionCalls)

def addedEvents (past : List (Record K)) : List String := (allAdditions past).filterMap (·.2)

/-- The cycle asks for the removal of the event, with or without success. -/
def Record.Removes (c : Record K) (id : String) (ok : Bool) : Prop :=
  ∃ call ∈ c.removalCalls, call.1.eventId = id ∧ call.2 = ok

instance (c : Record K) (id : String) (ok : Bool) : Decidable (c.Removes id ok) :=
  inferInstanceAs (Decidable (∃ call ∈ c.removalCalls, call.1.eventId = id ∧ call.2 = ok))

/-- The event was added, and no removal of it has succeeded. -/
def Outstanding (past : List (Record K)) (id : String) : Prop :=
  id ∈ addedEvents past ∧ ∀ c ∈ past, ¬ c.Removes id true

instance (past : List (Record K)) (id : String) : Decidable (Outstanding past id) :=
  inferInstanceAs (Decidable (_ ∧ _))

def RemovalFailed (past : List (Record K)) (id : String) : Prop := ∃ c ∈ past, c.Removes id false

instance (past : List (Record K)) (id : String) : Decidable (RemovalFailed past id) :=
  inferInstanceAs (Decidable (∃ c ∈ past, c.Removes id false))

/-- An entry remembers the event, or the next cycle asks for its removal. -/
def Tended (r : Reconciler K) (next : Option (Record K)) (id : String) : Prop :=
  r.Holds id ∨ ∃ n ∈ next, ∃ ok, n.Removes id ok

instance (r : Reconciler K) (next : Option (Record K)) (id : String) :
    Decidable (Tended r next id) :=
  inferInstanceAs (Decidable (_ ∨ _))

theorem Record.exists_removes_iff {c : Record K} {id : String} :
    (∃ ok, c.Removes id ok) ↔ ∃ a, id ∈ c.removed a := by
  simp only [removed, Removes, List.mem_map, List.mem_filter, decide_eq_true_eq]
  constructor
  · rintro ⟨_, x, hx, hid, -⟩
    exact ⟨x.1.algorithm, x, ⟨hx, rfl⟩, hid⟩
  · rintro ⟨a, x, ⟨hx, -⟩, hid⟩
    exact ⟨x.2, x, hx, hid, rfl⟩

variable {past : List (Record K)} {id : String}

theorem flatMap_added (past : List (Record K)) (a : String) :
    past.flatMap (·.added a) =
      ((allAdditions past).filter fun x => x.1.algorithm = a).filterMap (·.2) := by
  rw [allAdditions, List.filter_flatMap, List.filterMap_flatMap]
  rfl

theorem exists_mem_added (h : id ∈ addedEvents past) : ∃ a, id ∈ past.flatMap (·.added a) := by
  obtain ⟨x, hx, hid⟩ := List.mem_filterMap.mp h
  refine ⟨x.1.algorithm, ?_⟩
  rw [flatMap_added]
  exact List.mem_filterMap.mpr ⟨x, List.mem_filter.mpr ⟨hx, decide_eq_true rfl⟩, hid⟩

section Fresh
variable (hfresh : (addedEvents past).Nodup)
include hfresh

theorem nodup_added (a : String) : (past.flatMap (·.added a)).Nodup := by
  rw [flatMap_added]
  exact hfresh.sublist (List.filter_sublist.filterMap _)

/-- With fresh ids an event belongs to one algorithm. -/
theorem eq_of_mem_added {a b : String} (ha : id ∈ past.flatMap (·.added a))
    (hb : id ∈ past.flatMap (·.added b)) : a = b := by
  rw [flatMap_added] at ha hb
  obtain ⟨x, hx, hxid⟩ := List.mem_filterMap.mp ha
  obtain ⟨y, hy, hyid⟩ := List.mem_filterMap.mp hb
  obtain ⟨hx, hxa⟩ := List.mem_filter.mp hx
  obtain ⟨hy, hyb⟩ := List.mem_filter.mp hy
  by_contra hne
  have hxy : x ≠ y := by
    rintro rfl
    exact hne ((of_decide_eq_true hxa).symm.trans (of_decide_eq_true hyb))
  have hsymm : Std.Symm fun u v : Unscheduled K × Option String =>
      ∀ i, u.2 = some i → ∀ j, v.2 = some j → i ≠ j :=
    ⟨fun u v huv i hi j hj hij => huv j hj i hi hij.symm⟩
  exact (List.pairwise_filterMap.mp hfresh).forall hx hy hxy id hxid id hyid rfl

end Fresh

/-- What holds between two cycles: the events of an algorithm are the one that its entry
remembers and those that it has asked to remove. -/
structure EventState (timeout : Millis) (past : List (Record K)) (r : Reconciler K) : Prop
    extends AlertState timeout past r where
  accounts : ∀ a, past.flatMap (·.added a) = r.heldEvents a ++ past.flatMap (·.removed a)

theorem eventState_fresh {r : Reconciler K} (hr : r.Fresh) :
    EventState r.config.warningTimeout [] r where
  toAlertState := alertState_fresh hr
  accounts := by
    obtain ⟨_, htracker, _⟩ := hr.memory
    intro a
    rw [Reconciler.heldEvents, htracker]
    rfl

theorem AlertState.episodeEvents_eq {timeout : Millis} {r : Reconciler K}
    (h : AlertState timeout past r) (a : String) : episodeEvents a past = r.heldEvents a := by
  rw [Reconciler.heldEvents]
  cases hentry : r.tracker.entries.get? a with
  | none => exact h.episodeEvents_of_untracked hentry
  | some e => exact (h.remembers a e hentry).events_eq

/-- With fresh ids the events that entries remember are those never asked to be removed. -/
theorem EventState.holds_iff {timeout : Millis} {r : Reconciler K}
    (h : EventState timeout past r) (hfresh : (addedEvents past).Nodup)
    (hadded : id ∈ addedEvents past) :
    r.Holds id ↔ ∀ c ∈ past, ∀ ok, ¬ c.Removes id ok := by
  rw [Reconciler.holds_iff]
  constructor
  · rintro ⟨a, hheld⟩ c hc ok hremoves
    obtain ⟨b, hremoved⟩ := Record.exists_removes_iff.mp ⟨ok, hremoves⟩
    have hremoved : id ∈ past.flatMap (·.removed b) := List.mem_flatMap.mpr ⟨c, hc, hremoved⟩
    have ha : id ∈ past.flatMap (·.added a) := by
      rw [h.accounts]
      exact List.mem_append_left _ hheld
    have hb : id ∈ past.flatMap (·.added b) := by
      rw [h.accounts]
      exact List.mem_append_right _ hremoved
    obtain rfl := eq_of_mem_added hfresh ha hb
    have hnodup := nodup_added hfresh a
    rw [h.accounts] at hnodup
    exact (List.nodup_append.mp hnodup).2.2 id hheld id hremoved rfl
  · intro hnone
    obtain ⟨a, ha⟩ := exists_mem_added hadded
    rw [h.accounts] at ha
    rcases List.mem_append.mp ha with hheld | hremoved
    · exact ⟨a, hheld⟩
    · obtain ⟨c, hc, hremoved⟩ := List.mem_flatMap.mp hremoved
      obtain ⟨ok, hremoves⟩ := Record.exists_removes_iff.mpr ⟨a, hremoved⟩
      exact (hnone c hc ok hremoves).elim

end Events

section Run
variable {σ : Type} [Powers K] {backends : Backends K σ} {timeout : Millis}
variable {past : List (Record K)} {c : Record K} {id : String}

/-- An algorithm keeps its event and what it adds, or gives up its event and adds nothing. -/
theorem AlertState.heldEvents_cases (h : AlertState timeout past c.before)
    (hrun : c.IsRun backends) (a : String) :
    (c.removed a = [] ∧ c.after.heldEvents a = c.added a ++ c.before.heldEvents a) ∨
      (c.removed a = c.before.heldEvents a ∧ c.added a = [] ∧ c.after.heldEvents a = []) := by
  have hentry : c.after.heldEvents a = ((c.kept? a).bind (·.eventId)).toList := rfl
  rw [hentry, ← h.episodeEvents_eq]
  cases hkept : c.kept? a with
  | some e =>
    obtain ⟨_, hremoved, hremembers⟩ := h.kept hrun hkept
    exact .inl ⟨hremoved, hremembers.events_eq.symm⟩
  | none =>
    obtain ⟨hremoved, hadditions⟩ := (h.alertsInOrder hrun a).ends hkept
    refine .inr ⟨hremoved, ?_, rfl⟩
    rw [Record.added, hadditions]
    rfl

theorem AlertState.removed_subset (h : AlertState timeout past c.before)
    (hrun : c.IsRun backends) (a : String) : c.removed a ⊆ c.before.heldEvents a := by
  rcases h.heldEvents_cases hrun a with ⟨hremoved, _⟩ | ⟨hremoved, _⟩
  · rw [hremoved]
    exact List.nil_subset _
  · rw [hremoved]
    exact List.Subset.refl _

namespace EventState

theorem step (h : EventState timeout past c.before) (hrun : c.IsRun backends) :
    EventState timeout (c :: past) c.after where
  toAlertState := h.toAlertState.step hrun
  accounts := by
    intro a
    rw [List.flatMap_cons, List.flatMap_cons, h.accounts]
    rcases h.heldEvents_cases hrun a with ⟨hremoved, hheld⟩ | ⟨hremoved, hadded, hheld⟩
    · rw [hremoved, hheld, List.nil_append, List.append_assoc]
    · rw [hremoved, hadded, hheld, List.nil_append]

theorem holds_of_removes (h : EventState timeout past c.before) (hrun : c.IsRun backends)
    {ok : Bool} (hremoves : c.Removes id ok) : c.before.Holds id := by
  obtain ⟨a, hremoved⟩ := Record.exists_removes_iff.mp ⟨ok, hremoves⟩
  exact Reconciler.holds_iff.mpr ⟨a, h.removed_subset hrun a hremoved⟩

end EventState

theorem eventState_of_history {r : Reconciler K} (hr : r.Fresh)
    {cycles : List (Option (Snapshot K) × Millis)} {s : σ} {before after : List (Record K)}
    (h : history backends r cycles s = before ++ c :: after) :
    EventState r.config.warningTimeout before.reverse c.before ∧ c.IsRun backends := by
  have hstep : ∀ past (c : Record K), c.IsRun backends →
      EventState r.config.warningTimeout past c.before →
      EventState r.config.warningTimeout (c :: past) c.after :=
    fun past c hrun hstate => hstate.step hrun
  have hinvariant := invariant_of_history hstep (eventState_fresh hr) h
  rwa [List.append_nil] at hinvariant

/-- While the store gives fresh ids, an event that it still has is tended until a removal of
it fails, and never after. -/
theorem tended_iff_not_removalFailed {r : Reconciler K} (hr : r.Fresh)
    {cycles : List (Option (Snapshot K) × Millis)} {s : σ} {before after : List (Record K)}
    (h : history backends r cycles s = before ++ c :: after)
    (hfresh : (addedEvents (c :: before.reverse)).Nodup)
    (hid : Outstanding (c :: before.reverse) id) :
    Tended c.after after.head? id ↔ ¬ RemovalFailed (c :: before.reverse) id := by
  obtain ⟨hstate, hrun⟩ := eventState_of_history hr h
  have hstate := hstate.step hrun
  constructor
  · rintro htended ⟨c', hc', hfailed⟩
    rcases htended with hheld | ⟨n, hn, ok, hremoves⟩
    · exact (hstate.holds_iff hfresh hid.1).mp hheld c' hc' false hfailed
    · -- What the next cycle asks to remove was remembered until then.
      obtain ⟨rest, rfl⟩ := List.head?_eq_some_iff.mp hn
      rw [← List.singleton_append, ← List.append_assoc] at h
      obtain ⟨hnext, hnextrun⟩ := eventState_of_history hr h
      rw [List.reverse_append] at hnext
      have hheld := hnext.holds_of_removes hnextrun hremoves
      exact (hnext.holds_iff hfresh hid.1).mp hheld c' hc' false hfailed
  · intro hnone
    refine .inl ((hstate.holds_iff hfresh hid.1).mpr ?_)
    intro c' hc' ok hremoves
    cases ok with
    | false => exact hnone ⟨c', hc', hremoves⟩
    | true => exact hid.2 c' hc' hremoves

end Run

/-- An event store that gives nothing back. -/
def stubborn : Backends Float (EventLog Float) where
  addEvent e log := (some (log.add e).1, (log.add e).2)
  removeEvent _ log := (false, log)
  send _ log := (true, log)
  publish _ log := (true, log)

/-- Nobody asks any more after the first cycle. -/
def stuckOnce : List (Option (Snapshot Float) × Millis) :=
  [(some stuck, 1000), (some { stuck with requests := [] }, 2000),
    (some { stuck with requests := [] }, 3000)]

theorem tended_iff_stubborn : ∃ first second third : Record Float,
    history stubborn .sample stuckOnce .empty = [] ++ first :: [second, third] ∧
      history stubborn .sample stuckOnce .empty = [first] ++ second :: [third] ∧
      (Tended first.after (some second) "event-1" ↔ ¬ RemovalFailed [first] "event-1") ∧
      (Tended second.after (some third) "event-1" ↔ ¬ RemovalFailed [second, first] "event-1") ∧
      ¬ RemovalFailed [first] "event-1" ∧ RemovalFailed [second, first] "event-1" := by
  have hfresh : Reconciler.sample.Fresh := .start Reconciler.start?_sample
  have hfirst : history stubborn .sample stuckOnce .empty = [] ++ _ :: [_, _] := rfl
  have hsecond : history stubborn .sample stuckOnce .empty = [_] ++ _ :: [_] := rfl
  refine ⟨_, _, _, hfirst, hsecond,
    tended_iff_not_removalFailed hfresh hfirst (by decide +kernel) (by decide +kernel),
    tended_iff_not_removalFailed hfresh hsecond (by decide +kernel) (by decide +kernel),
    by decide +kernel, by decide +kernel⟩

/-- The removal fails in the cycle that drops the entry, and nobody tries again. -/
theorem not_tended_stubborn : ∃ first second third : Record Float,
    Reconciler.sample.Fresh ∧
      history stubborn .sample stuckOnce .empty = [first, second, third] ∧
      (addedEvents [third, second, first]).Nodup ∧ Outstanding [second, first] "event-1" ∧
      ¬ Tended second.after (some third) "event-1" := by
  have hsplit : history stubborn .sample stuckOnce .empty = [_, _, _] := rfl
  refine ⟨_, _, _, .start Reconciler.start?_sample, hsplit, by decide +kernel,
    by decide +kernel, ?_⟩
  decide +kernel

end Cycle

end WorkerFleet
