import WorkerFleet.Proofs.Stuck

/-!
# One update of the tracker

What one update makes of a tracker and of its alerts. Which alerts come and go is read off the
trackers before and after, so `Advances` does not mention how the update gets there. The same
update once more changes nothing (`update_update`).
-/

namespace WorkerFleet

namespace Unscheduled
variable {K : Type} (e : Unscheduled K) (timeout now : Millis)

theorem isNotified_notify : (e.notify timeout now).isNotified =
    (e.isNotified || e.isDue timeout now) := by
  unfold notify isNewlyDue
  cases hnotified : e.isNotified <;> cases e.isDue timeout now <;> simp [hnotified]

theorem notify_eq : e.notify timeout now =
    { e with isNotified := e.isNotified || e.isDue timeout now } := by
  rw [← isNotified_notify]
  unfold notify
  split <;> rfl

@[simp] theorem isDue_notify : (e.notify timeout now).isDue timeout now = e.isDue timeout now := by
  rw [notify_eq]
  rfl

@[simp] theorem notify_notify :
    (e.notify timeout now).notify timeout now = e.notify timeout now := by
  rw [notify_eq (e.notify timeout now), isNotified_notify, isDue_notify, Bool.or_assoc,
    Bool.or_self, ← isNotified_notify]

end Unscheduled

namespace Tracker
variable {K : Type}

def wasNotified (tracker : Tracker K) (a : String) : Bool :=
  (tracker.entries.get? a).any (·.isNotified)

/-- The entries of `after` that are due and were not notified in `before`. -/
def alerts (before after : Tracker K) (now : Millis) : NameMap (Unscheduled K) :=
  after.entries.filterMap fun a e =>
    if e.isDue before.timeout now && !before.wasNotified a then some e else none

/-- The events of those that `before` tracks and `after` does not. -/
def withdrawn (before after : Tracker K) : NameMap String :=
  before.entries.filterMap fun a e => if after.Tracks a then none else e.eventId

section Delta
variable {before after : Tracker K} {now : Millis} {a : String}

theorem get?_alerts_eq_some_iff {e : Unscheduled K} :
    (before.alerts after now).get? a = some e ↔
      after.entries.get? a = some e ∧ e.isDue before.timeout now = true ∧
        before.wasNotified a = false := by
  rw [alerts, NameMap.get?_filterMap, Option.bind_eq_some_iff]
  constructor
  · rintro ⟨e', he', h⟩
    rw [Option.ite_none_right_eq_some, Bool.and_eq_true, Bool.not_eq_true', Option.some.injEq] at h
    obtain ⟨h, rfl⟩ := h
    exact ⟨he', h⟩
  · rintro ⟨he, hdue, hnew⟩
    exact ⟨e, he, by simp [hdue, hnew]⟩

theorem get?_withdrawn_eq_some_iff {id : String} :
    (before.withdrawn after).get? a = some id ↔
      ∃ e, before.entries.get? a = some e ∧ ¬ after.Tracks a ∧ e.eventId = some id := by
  rw [withdrawn, NameMap.get?_filterMap, Option.bind_eq_some_iff]
  simp only [Option.ite_none_left_eq_some]

theorem exists_of_mem_alerts {e : Unscheduled K} (h : e ∈ (before.alerts after now).values) :
    ∃ a, (before.alerts after now).get? a = some e := by
  obtain ⟨p, hp, rfl⟩ := List.mem_map.mp h
  exact ⟨p.1, NameMap.mem_entries.mp hp⟩

end Delta

section Update
variable {tracker : Tracker K} {created : List (PlacedJob K)} {skipped : List (SkippedJob K)}
variable {requests : List Request} {templates : Templates K} {now : Millis}

/-- An algorithm that stays tracked has its old entry, or that of its first skip. -/
theorem get?_update_of_tracks {a : String}
    (h : (tracker.update created skipped requests templates now).2.Tracks a) :
    (tracker.update created skipped requests templates now).2.entries.get? a =
      ((track tracker.entries skipped).get? a).map (·.notify tracker.timeout now) := by
  have hopen := (tracks_update.mp h).2
  rw [get?_update, hopen]
  rfl

theorem get?_update_of_old {a : String} {e : Unscheduled K}
    (hold : tracker.entries.get? a = some e)
    (h : (tracker.update created skipped requests templates now).2.Tracks a) :
    (tracker.update created skipped requests templates now).2.entries.get? a =
      some { e with isNotified := e.isNotified || e.isDue tracker.timeout now } := by
  rw [get?_update_of_tracks h, get?_track, hold,
    ← Unscheduled.notify_eq]
  rfl

theorem get?_update_of_new {a : String} (hnew : tracker.entries.get? a = none)
    (h : (tracker.update created skipped requests templates now).2.Tracks a) :
    ∃ s, skipped.find? (·.algorithm = a) = some s ∧
      (tracker.update created skipped requests templates now).2.entries.get? a = some {
        Unscheduled.ofSkip s with
        algorithm := a
        isNotified := (Unscheduled.ofSkip s).isDue tracker.timeout now } := by
  have hentry := get?_update_of_tracks h
  rw [get?_track, hnew] at hentry
  rw [Tracks, hentry] at h
  obtain ⟨s, hs⟩ : ∃ s, skipped.find? (·.algorithm = a) = some s := by
    rw [← Option.isSome_iff_exists]
    simpa using h
  have hname := List.find?_some hs
  obtain rfl : s.algorithm = a := of_decide_eq_true hname
  refine ⟨s, hs, ?_⟩
  rw [hentry, hs, ← Bool.false_or ((Unscheduled.ofSkip s).isDue tracker.timeout now)]
  exact congrArg some (Unscheduled.notify_eq _ _ _)

theorem removed_update : (tracker.update created skipped requests templates now).1.removed =
    (withdrawn tracker (tracker.update created skipped requests templates now).2).entries.map
      fun e => ⟨e.1, e.2⟩ := by
  let drop (a : String) (e : Unscheduled K) : Option String :=
    if isSettled created requests templates a then e.eventId else none
  have hremoved : (tracker.update created skipped requests templates now).1.removed =
      ((track tracker.entries skipped).filterMap drop).entries.map fun e => ⟨e.1, e.2⟩ := by
    simp only [update, NameMap.filterMap, List.map_filterMap]
    refine List.filterMap_congr ?_
    intro e _
    cases hid : e.2.eventId <;> simp [drop, hid]
  rw [hremoved]
  congr 2
  refine NameMap.ext ?_
  intro a
  rw [withdrawn, NameMap.get?_filterMap, NameMap.get?_filterMap, get?_track]
  -- What is tracked from now on has no event yet.
  cases hold : tracker.entries.get? a with
  | none =>
    cases skipped.find? (·.algorithm = a) <;> simp [drop, Unscheduled.ofSkip]
  | some e =>
    have htracks : (tracker.update created skipped requests templates now).2.Tracks a ↔
        isSettled created requests templates a = false := by
      rw [tracks_update, Tracks, hold]
      simp
    cases hsettled : isSettled created requests templates a <;> simp [drop, htracks, hsettled]

theorem added_update : (tracker.update created skipped requests templates now).1.added =
    (alerts tracker (tracker.update created skipped requests templates now).2 now).values := by
  let raise (a : String) (e : Unscheduled K) : Option (Unscheduled K) :=
    if isSettled created requests templates a then none
    else if e.isNewlyDue tracker.timeout now then some (e.notify tracker.timeout now) else none
  have hadded : (tracker.update created skipped requests templates now).1.added =
      ((track tracker.entries skipped).filterMap raise).values := by
    rw [NameMap.values_filterMap]
    exact added_eq_filterMap tracker created skipped requests templates now
  rw [hadded]
  congr 1
  refine NameMap.ext ?_
  intro a
  rw [alerts, NameMap.get?_filterMap, NameMap.get?_filterMap, get?_update]
  cases hsettled : isSettled created requests templates a with
  | true => cases (track tracker.entries skipped).get? a <;> simp [raise, hsettled]
  | false =>
    rw [get?_track, wasNotified]
    cases hold : tracker.entries.get? a with
    | none =>
      cases skipped.find? (·.algorithm = a) <;>
        simp [raise, hsettled, Unscheduled.isNewlyDue, Unscheduled.ofSkip]
    | some e => simp [raise, hsettled, Unscheduled.isNewlyDue, and_comm]

theorem isNotified_of_isDue {a : String} {e : Unscheduled K}
    (h : (tracker.update created skipped requests templates now).2.entries.get? a = some e)
    (hdue : e.isDue tracker.timeout now = true) : e.isNotified = true := by
  rw [get?_update, Option.ite_none_left_eq_some, Option.map_eq_some_iff] at h
  obtain ⟨_, old, _, rfl⟩ := h
  rw [Unscheduled.isDue_notify] at hdue
  rw [Unscheduled.isNotified_notify, hdue, Bool.or_true]

theorem snd_update_update :
    ((tracker.update created skipped requests templates now).2.update created skipped requests
      templates now).2 = (tracker.update created skipped requests templates now).2 := by
  have hentries : ((tracker.update created skipped requests templates now).2.update created
      skipped requests templates now).2.entries =
        (tracker.update created skipped requests templates now).2.entries := by
    refine NameMap.ext ?_
    intro a
    rw [get?_update, get?_track, get?_update, get?_track]
    cases isSettled created requests templates a with
    | true => rfl
    | false =>
      cases tracker.entries.get? a <;> cases skipped.find? (·.algorithm = a) <;> simp
  have hrest : ∀ t : Tracker K, (t.update created skipped requests templates now).2 =
      { t with entries := (t.update created skipped requests templates now).2.entries } :=
    fun _ => rfl
  rw [hrest, hentries]

theorem withdrawn_self : tracker.withdrawn tracker = .empty := by
  refine NameMap.ext ?_
  intro a
  rw [withdrawn, NameMap.get?_filterMap, NameMap.get?_empty]
  cases h : tracker.entries.get? a with
  | none => rfl
  | some e => simp [Tracks, h]

theorem alerts_update_self :
    (tracker.update created skipped requests templates now).2.alerts
      (tracker.update created skipped requests templates now).2 now = .empty := by
  refine NameMap.ext ?_
  intro a
  rw [alerts, NameMap.get?_filterMap, NameMap.get?_empty, wasNotified]
  cases h : (tracker.update created skipped requests templates now).2.entries.get? a with
  | none => rfl
  | some e =>
    have hnotified := isNotified_of_isDue h
    simpa using hnotified

theorem update_update :
    (tracker.update created skipped requests templates now).2.update created skipped requests
      templates now = (⟨[], []⟩, (tracker.update created skipped requests templates now).2) := by
  have hadded : ((tracker.update created skipped requests templates now).2.update created skipped
      requests templates now).1.added = [] := by
    rw [added_update, snd_update_update, alerts_update_self]
    rfl
  have hremoved : ((tracker.update created skipped requests templates now).2.update created skipped
      requests templates now).1.removed = [] := by
    rw [removed_update, snd_update_update, withdrawn_self]
    rfl
  exact Prod.ext (congrArg₂ AlertDelta.mk hadded hremoved) snd_update_update

theorem isNotified_of_mem_added {e : Unscheduled K}
    (h : e ∈ (tracker.update created skipped requests templates now).1.added) :
    e.isNotified = true := by
  rw [added_update] at h
  obtain ⟨a, ha⟩ := exists_of_mem_alerts h
  obtain ⟨hafter, hdue, _⟩ := get?_alerts_eq_some_iff.mp ha
  exact isNotified_of_isDue hafter hdue

theorem removed_pairwise :
    (tracker.update created skipped requests templates now).1.removed.Pairwise
      (·.algorithm < ·.algorithm) := by
  rw [removed_update]
  exact List.pairwise_map.mpr (NameMap.ascending _)

section OwnNames
variable (hown : OwnNames tracker.entries)
include hown

theorem added_pairwise : (tracker.update created skipped requests templates now).1.added.Pairwise
    (·.algorithm < ·.algorithm) := by
  rw [added_update]
  refine NameMap.pairwise_values ?_
  intro a e ha
  exact ownNames_update _ created skipped requests templates now hown a e
    (get?_alerts_eq_some_iff.mp ha).1

theorem added_apart_removed {e : Unscheduled K} {r : EventRemoval}
    (he : e ∈ (tracker.update created skipped requests templates now).1.added)
    (hr : r ∈ (tracker.update created skipped requests templates now).1.removed) :
    e.algorithm ≠ r.algorithm := by
  intro heq
  rw [added_update] at he
  rw [removed_update] at hr
  obtain ⟨a, ha⟩ := exists_of_mem_alerts he
  have hafter := (get?_alerts_eq_some_iff.mp ha).1
  have hname := ownNames_update _ created skipped requests templates now hown a e hafter
  obtain ⟨p, hp, rfl⟩ := List.mem_map.mp hr
  obtain ⟨_, _, hgone, _⟩ := get?_withdrawn_eq_some_iff.mp (NameMap.mem_entries.mp hp)
  have hkey : a = p.1 := hname.symm.trans heq
  rw [Tracks, ← hkey, hafter] at hgone
  exact hgone rfl

end OwnNames

variable (tracker created skipped requests templates now)

/-- What an update makes of `before`. In every tracker that starts empty the entries are under the
names of their algorithms, so there the alerts to add are in name order too. -/
structure Advances (before : Tracker K) (result : AlertDelta K × Tracker K) : Prop where
  tracked : ∀ a, result.2.Tracks a ↔ (before.Tracks a ∨ ∃ s ∈ skipped, s.algorithm = a) ∧
    (∀ c ∈ created, c.spec.algorithm ≠ a) ∧ (∃ q ∈ requests, q.algorithm = a) ∧
      templates.contains a = true
  kept : ∀ a e, before.entries.get? a = some e → result.2.Tracks a →
    result.2.entries.get? a =
      some { e with isNotified := e.isNotified || e.isDue before.timeout now }
  begun : ∀ a, before.entries.get? a = none → result.2.Tracks a →
    ∃ s, skipped.find? (·.algorithm = a) = some s ∧ result.2.entries.get? a = some {
      algorithm := a
      firstSeenAt := s.warning.timestamp
      isNotified := (Unscheduled.ofSkip s).isDue before.timeout now
      hasMaxCapacity := s.warning.hasMaxCapacity
      eventId := none
      warning := s.warning }
  removed : result.1.removed = (before.withdrawn result.2).entries.map fun e => ⟨e.1, e.2⟩
  added : result.1.added = (before.alerts result.2 now).values
  notified : ∀ e ∈ result.1.added, e.isNotified = true
  removedInOrder : result.1.removed.Pairwise (·.algorithm < ·.algorithm)
  ownNames : OwnNames before.entries → OwnNames result.2.entries
  addedInOrder : OwnNames before.entries → result.1.added.Pairwise (·.algorithm < ·.algorithm)
  apart : OwnNames before.entries →
    ∀ e ∈ result.1.added, ∀ r ∈ result.1.removed, e.algorithm ≠ r.algorithm
  settled : result.2.update created skipped requests templates now = (⟨[], []⟩, result.2)

theorem update_advances : Advances created skipped requests templates now tracker
    (tracker.update created skipped requests templates now) where
  tracked a := by rw [tracks_update, isSettled_eq_false_iff]
  kept _ _ hold h := get?_update_of_old hold h
  begun _ hnew h := get?_update_of_new hnew h
  removed := removed_update
  added := added_update
  notified _ he := isNotified_of_mem_added he
  removedInOrder := removed_pairwise
  ownNames := ownNames_update tracker created skipped requests templates now
  addedInOrder := added_pairwise
  apart hown _ he _ hr := added_apart_removed hown he hr
  settled := update_update

end Update

end Tracker

end WorkerFleet
