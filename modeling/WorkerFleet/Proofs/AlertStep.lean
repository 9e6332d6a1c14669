import WorkerFleet.Proofs.Run
import WorkerFleet.Proofs.Stages
import WorkerFleet.Proofs.Tracker

/-!
# What one cycle does about an alert

`AlertStep` lists the ways in which one cycle may treat an algorithm: what becomes of its
entry, which events it asks the store to add and to remove, and what the entry learns from
the answer. `alertStep_of_isRun` says that there are no others.
-/

namespace WorkerFleet

namespace Unscheduled
variable {K : Type}

/-- The entry after the event store answered. -/
def answered (e : Unscheduled K) : Option String → Unscheduled K
  | some id => { e with eventId := some id }
  | none => { e with isNotified := false }

@[simp] theorem algorithm_answered (e : Unscheduled K) (answer : Option String) :
    (e.answered answer).algorithm = e.algorithm := by
  cases answer <;> rfl

theorem isDue_answered (e : Unscheduled K) (answer : Option String) (timeout now : Millis) :
    (({ e with isNotified := true } : Unscheduled K).answered answer).isDue timeout now =
      e.isDue timeout now := by
  cases answer <;> rfl

/-- The entry holds the event that was added for it, and counts as notified because of it. -/
structure Remembers (e : Unscheduled K) (events : List String) : Prop where
  events_eq : events = e.eventId.toList
  notified_eq : e.isNotified = e.eventId.isSome

theorem Remembers.isNewlyDue_iff {e : Unscheduled K} {events : List String}
    (h : e.Remembers events) {timeout now : Millis} :
    e.isNewlyDue timeout now = true ↔ events = [] ∧ e.isDue timeout now = true := by
  rw [isNewlyDue, h.events_eq, h.notified_eq]
  cases e.eventId <;> simp

end Unscheduled

namespace Cycle
variable {K : Type}

theorem get?_learn (tracker : Tracker K) (addition : Unscheduled K × Option String)
    (algorithm : String) :
    (learn tracker addition).entries.get? algorithm =
      (tracker.entries.get? algorithm).map fun e =>
        if algorithm = addition.1.algorithm then e.answered addition.2 else e := by
  unfold learn
  split
  · next id hid =>
    rw [Tracker.recordEvent, NameMap.get?_adjust, hid]
    rfl
  · next hid =>
    rw [Tracker.resetNotification, NameMap.get?_adjust, hid]
    rfl

/-- An entry hears the answers to the calls for its own algorithm. -/
theorem get?_foldl_learn (tracker : Tracker K) (additions : List (Unscheduled K × Option String))
    (algorithm : String) :
    (additions.foldl learn tracker).entries.get? algorithm =
      (tracker.entries.get? algorithm).map fun e =>
        ((additions.filter fun x => x.1.algorithm = algorithm).map (·.2)).foldl
          Unscheduled.answered e := by
  induction additions generalizing tracker with
  | nil => simp
  | cons x rest ih =>
    rw [List.foldl_cons, ih, get?_learn, Option.map_map]
    refine congrArg (Option.map · _) (funext fun e => ?_)
    by_cases h : x.1.algorithm = algorithm
    · rw [List.filter_cons_of_pos (by simpa using h)]
      simp [h]
    · have hne : ¬ algorithm = x.1.algorithm := fun heq => h heq.symm
      rw [List.filter_cons_of_neg (by simpa using h)]
      simp [hne]

theorem ownNames_foldl_learn {tracker : Tracker K} (hown : Tracker.OwnNames tracker.entries)
    (additions : List (Unscheduled K × Option String)) :
    Tracker.OwnNames (additions.foldl learn tracker).entries := by
  have hanswered : ∀ (answers : List (Option String)) (e : Unscheduled K),
      (answers.foldl Unscheduled.answered e).algorithm = e.algorithm := by
    intro answers
    induction answers with
    | nil => exact fun _ => rfl
    | cons a answers ih =>
      intro e
      rw [List.foldl_cons, ih, Unscheduled.algorithm_answered]
  intro name e he
  rw [get?_foldl_learn] at he
  obtain ⟨old, hold, rfl⟩ := Option.map_eq_some_iff.mp he
  rw [hanswered]
  exact hown name old hold

theorem timeout_foldl_learn (tracker : Tracker K)
    (additions : List (Unscheduled K × Option String)) :
    (additions.foldl learn tracker).timeout = tracker.timeout := by
  induction additions generalizing tracker with
  | nil => rfl
  | cons x rest ih =>
    rw [List.foldl_cons, ih, learn]
    split <;> rfl

/-- What one cycle may do about an algorithm: from its entry, the skips of the cycle
included, to the calls that add an event with their answers, the events to remove, and the
entry afterwards. -/
inductive AlertStep (timeout now : Millis) : Option (Unscheduled K) →
    List (Unscheduled K × Option String) → List String → Option (Unscheduled K) → Prop
  | untracked : AlertStep timeout now none [] [] none
  | ended (e : Unscheduled K) : AlertStep timeout now (some e) [] e.eventId.toList none
  | quiet (e : Unscheduled K) (h : e.isNewlyDue timeout now = false) :
    AlertStep timeout now (some e) [] [] (some e)
  | raised (e : Unscheduled K) (h : e.isNewlyDue timeout now = true) (answer : Option String) :
    AlertStep timeout now (some e) [({ e with isNotified := true }, answer)] []
      (some (({ e with isNotified := true } : Unscheduled K).answered answer))

namespace AlertStep
variable {timeout now : Millis} {watched after : Option (Unscheduled K)} {events : List String}
variable {additions : List (Unscheduled K × Option String)} {removed : List String}

theorem dropped (h : AlertStep timeout now watched additions removed after)
    (hnone : watched = none → events = []) (hsome : ∀ e, watched = some e → e.Remembers events)
    (hafter : after = none) : removed = events ∧ additions = [] := by
  cases h with
  | untracked => exact ⟨(hnone rfl).symm, rfl⟩
  | ended e => exact ⟨(hsome e rfl).events_eq.symm, rfl⟩
  | quiet | raised => cases hafter

/-- An entry that has no event yet and is due makes one call, and its answer is what the
entry learns. -/
theorem kept (h : AlertStep timeout now watched additions removed after)
    (hsome : ∀ e, watched = some e → e.Remembers events)
    {e : Unscheduled K} (hafter : after = some e) :
    additions.length = (if events = [] ∧ e.isDue timeout now = true then 1 else 0) ∧
      removed = [] ∧ e.Remembers (additions.filterMap (·.2) ++ events) := by
  cases h with
  | untracked | ended => cases hafter
  | quiet e' hquiet =>
    obtain rfl := Option.some.inj hafter
    have hremembers := hsome _ rfl
    -- Not newly due means that there is an event already, or nothing to tell.
    have hno : ¬ (events = [] ∧ e'.isDue timeout now = true) := by
      rw [← hremembers.isNewlyDue_iff, hquiet]
      exact Bool.false_ne_true
    rw [if_neg hno]
    exact ⟨rfl, rfl, hremembers⟩
  | raised e' hraised answer =>
    obtain rfl := Option.some.inj hafter
    have hremembers := hsome _ rfl
    have hyes := hremembers.isNewlyDue_iff.mp hraised
    rw [Unscheduled.isDue_answered, if_pos hyes]
    refine ⟨rfl, rfl, ?_⟩
    cases answer with
    | none =>
      -- A refusal puts the flag back to what it was.
      have hnew : e'.isNotified = false :=
        Bool.not_eq_true' _ ▸ (Bool.and_eq_true_iff.mp hraised).1
      exact ⟨hremembers.events_eq, hnew.symm.trans hremembers.notified_eq⟩
    | some id => exact ⟨congrArg (id :: ·) hyes.1, rfl⟩

/-- No step changes since when an entry is there. -/
theorem same_entry (h : AlertStep timeout now watched additions removed after)
    {e : Unscheduled K} (hafter : after = some e) : ∃ e', watched = some e' ∧
      e'.firstSeenAt = e.firstSeenAt ∧ e'.hasMaxCapacity = e.hasMaxCapacity := by
  cases h with
  | untracked | ended => cases hafter
  | quiet e' =>
    obtain rfl := Option.some.inj hafter
    exact ⟨e', rfl, rfl, rfl⟩
  | raised e' _ answer =>
    obtain rfl := Option.some.inj hafter
    refine ⟨e', rfl, ?_⟩
    cases answer <;> exact ⟨rfl, rfl⟩

end AlertStep

namespace Record
variable [Quantity K] (c : Record K) (algorithm : String)

def additions : List (Unscheduled K × Option String) :=
  c.additionCalls.filter fun x => x.1.algorithm = algorithm

/-- The events that the cycle added for the algorithm. -/
def added : List String := (c.additions algorithm).filterMap (·.2)

/-- The events of the algorithm that the cycle has removed, or tried to. -/
def removed : List String :=
  (c.removalCalls.filter fun x => x.1.algorithm = algorithm).map (·.1.eventId)

def kept? : Option (Unscheduled K) := c.after.tracker.entries.get? algorithm

end Record

section Step
variable {σ : Type} [Powers K] {backends : Backends K σ} {c : Record K}

/-- The entry of the algorithm, the skips of the cycle included. -/
def Record.watched? (c : Record K) (algorithm : String) : Option (Unscheduled K) :=
  (Tracker.track c.before.tracker.entries
    (c.before.placement c.input c.now).skipped).get? algorithm

def Record.settles (c : Record K) (algorithm : String) : Bool :=
  Tracker.isSettled (c.before.placement c.input c.now).created c.input.requests
    c.input.templates algorithm

theorem map_additions (hrun : c.IsRun backends)
    (hown : Tracker.OwnNames c.before.tracker.entries) (a : String) :
    (c.additions a).map (·.1) = if c.settles a then [] else
      ((c.watched? a).toList.filter (·.isNewlyDue c.before.tracker.timeout c.now)).map
        (·.notify c.before.tracker.timeout c.now) := by
  have hadded := hrun.followsPlan.additions
  rw [Reconciler.unscheduled_plan] at hadded
  have hfilter : (c.additions a).map (·.1) =
      (c.before.tracked c.input c.now).1.added.filter fun e => e.algorithm = a := by
    rw [← hadded, List.filter_map]
    rfl
  exact hfilter.trans (Tracker.filter_added_update _ _ _ _ _ _ _ hown)

theorem removed_eq (hrun : c.IsRun backends) (a : String) :
    c.removed a = if c.settles a then ((c.watched? a).bind (·.eventId)).toList else [] := by
  have hremoved := hrun.followsPlan.removals
  rw [Reconciler.unscheduled_plan] at hremoved
  have hfilter : c.removed a = ((c.before.tracked c.input c.now).1.removed.filter
      fun x => x.algorithm = a).map (·.eventId) := by
    rw [← hremoved, List.filter_map, List.map_map]
    rfl
  rw [hfilter, Reconciler.tracked, Tracker.filter_removed_update]
  change List.map _ (if c.settles a = true then _ else _) = _
  by_cases h : c.settles a = true
  · rw [if_pos h, if_pos h, List.map_map]
    exact List.map_id _
  · rw [if_neg h, if_neg h, List.map_nil]

theorem kept?_eq (hrun : c.IsRun backends) (a : String) :
    c.kept? a = if c.settles a then none else (c.watched? a).map fun e =>
      ((c.additions a).map (·.2)).foldl Unscheduled.answered
        (e.notify c.before.tracker.timeout c.now) := by
  have htracker : c.after.tracker = c.additionCalls.foldl learn _ :=
    congrArg (·.tracker) hrun.followsPlan.after
  rw [Reconciler.tracker_plan] at htracker
  rw [Record.kept?, htracker, get?_foldl_learn, Reconciler.tracked, Tracker.get?_update]
  change Option.map _ (if c.settles a = true then _ else _) = _
  by_cases h : c.settles a = true
  · rw [if_pos h, if_pos h, Option.map_none]
  · rw [if_neg h, if_neg h, Option.map_map]
    rfl

theorem alertStep_of_isRun (hrun : c.IsRun backends)
    (hown : Tracker.OwnNames c.before.tracker.entries) (a : String) :
    AlertStep c.before.tracker.timeout c.now (c.watched? a) (c.additions a) (c.removed a)
      (c.kept? a) := by
  have hadditions := map_additions hrun hown a
  rw [removed_eq hrun, kept?_eq hrun]
  by_cases hsettled : c.settles a = true
  · rw [if_pos hsettled] at hadditions
    rw [List.map_eq_nil_iff.mp hadditions, if_pos hsettled, if_pos hsettled]
    cases c.watched? a with
    | none => exact .untracked
    | some e => exact .ended e
  · rw [if_neg hsettled] at hadditions
    rw [if_neg hsettled, if_neg hsettled]
    cases hwatched : c.watched? a with
    | none =>
      rw [hwatched] at hadditions
      rw [List.map_eq_nil_iff.mp hadditions]
      exact .untracked
    | some e =>
      rw [hwatched, Option.toList_some] at hadditions
      cases hdue : e.isNewlyDue c.before.tracker.timeout c.now with
      | false =>
        rw [List.filter_cons_of_neg (by simpa using hdue)] at hadditions
        rw [List.map_eq_nil_iff.mp hadditions, Option.map_some, e.notify_of_not_due _ _ hdue]
        exact .quiet e hdue
      | true =>
        rw [List.filter_cons_of_pos (by simpa using hdue)] at hadditions
        obtain ⟨⟨raised, answer⟩, hone, hfst⟩ := List.map_eq_singleton_iff.mp hadditions
        have hraised : raised = { e with isNotified := true } :=
          hfst.trans (e.notify_of_due _ _ hdue)
        subst hraised
        rw [hone, Option.map_some, e.notify_of_due _ _ hdue]
        exact .raised e hdue answer

end Step

end Cycle

end WorkerFleet
