import WorkerFleet.Proofs.NameMap
import WorkerFleet.Tracker

/-!
# The tracker, algorithm by algorithm

What an update and the answers of the event store do to the entry of one algorithm, and
which calls they make for it. Algorithms do not affect one another.
-/

namespace WorkerFleet

namespace Unscheduled
variable {K : Type} (e : Unscheduled K) (timeout now : Millis)

@[simp] theorem algorithm_notify : (e.notify timeout now).algorithm = e.algorithm := by
  unfold notify
  split <;> rfl

theorem notify_of_due (h : e.isNewlyDue timeout now = true) :
    e.notify timeout now = { e with isNotified := true } := if_pos h

theorem notify_of_not_due (h : e.isNewlyDue timeout now = false) :
    e.notify timeout now = e := if_neg (Bool.eq_false_iff.mp h)

end Unscheduled

namespace Tracker
variable {K : Type}

/-- Every entry is for the algorithm under whose name it is. -/
def OwnNames (entries : NameMap (Unscheduled K)) : Prop :=
  ∀ name e, entries.get? name = some e → e.algorithm = name

/-- The entry of an algorithm stays; without one the first skip makes one. -/
theorem get?_track (entries : NameMap (Unscheduled K)) (skipped : List (SkippedJob K))
    (algorithm : String) :
    (track entries skipped).get? algorithm = (entries.get? algorithm <|>
      (skipped.find? (·.algorithm = algorithm)).map Unscheduled.ofSkip) := by
  induction skipped generalizing entries with
  | nil => simp [track]
  | cons s rest ih =>
    have hstep : track entries (s :: rest) =
        track (entries.insertNew s.algorithm (.ofSkip s)) rest := rfl
    rw [hstep, ih, NameMap.get?_insertNew]
    cases entries.get? algorithm with
    | some e => rfl
    | none =>
      by_cases h : s.algorithm = algorithm
      · rw [if_pos h, List.find?_cons_of_pos (by simpa using h)]
        rfl
      · rw [if_neg h, List.find?_cons_of_neg (by simpa using h)]
        rfl

section Track
variable {entries : NameMap (Unscheduled K)} {skipped : List (SkippedJob K)} {name : String}

theorem track_cases {e : Unscheduled K} (h : (track entries skipped).get? name = some e) :
    entries.get? name = some e ∨
      entries.get? name = none ∧ ∃ s ∈ skipped, s.algorithm = name ∧ e = .ofSkip s := by
  rw [get?_track] at h
  cases hold : entries.get? name with
  | some old =>
    rw [hold] at h
    exact .inl h
  | none =>
    rw [hold] at h
    obtain ⟨s, hs, rfl⟩ := Option.map_eq_some_iff.mp h
    have hname := List.find?_some hs
    exact .inr ⟨rfl, s, List.mem_of_find?_eq_some hs, of_decide_eq_true hname, rfl⟩

theorem get?_of_track_eq_none (h : (track entries skipped).get? name = none) :
    entries.get? name = none := by
  rw [get?_track] at h
  cases hold : entries.get? name with
  | none => rfl
  | some old =>
    rw [hold] at h
    cases h

theorem ownNames_track (hown : OwnNames entries) (skipped : List (SkippedJob K)) :
    OwnNames (track entries skipped) := by
  intro name e he
  rcases track_cases he with hold | ⟨_, s, _, hname, rfl⟩
  · exact hown name e hold
  · exact hname

end Track

section Update
variable (tracker : Tracker K) (created : List (PlacedJob K)) (skipped : List (SkippedJob K))
variable (requests : List Request) (templates : Templates K) (now : Millis) (algorithm : String)

@[simp] theorem timeout_update :
    (tracker.update created skipped requests templates now).2.timeout = tracker.timeout := rfl

theorem get?_update :
    (tracker.update created skipped requests templates now).2.entries.get? algorithm =
      if isSettled created requests templates algorithm then none
      else ((track tracker.entries skipped).get? algorithm).map
        (·.notify tracker.timeout now) := by
  simp only [update, NameMap.get?_map, NameMap.get?_filterMap]
  split
  · cases (track tracker.entries skipped).get? algorithm <;> rfl
  · cases (track tracker.entries skipped).get? algorithm <;> rfl

theorem ownNames_update (hown : OwnNames tracker.entries) :
    OwnNames (tracker.update created skipped requests templates now).2.entries := by
  intro name e he
  rw [get?_update] at he
  split at he
  · cases he
  · obtain ⟨old, hold, rfl⟩ := Option.map_eq_some_iff.mp he
    rw [Unscheduled.algorithm_notify]
    exact ownNames_track hown skipped name old hold

theorem added_eq_filterMap : (tracker.update created skipped requests templates now).1.added =
    (track tracker.entries skipped).entries.filterMap fun e =>
      if isSettled created requests templates e.1 then none
      else if e.2.isNewlyDue tracker.timeout now then some (e.2.notify tracker.timeout now)
      else none := by
  simp only [update, NameMap.values, NameMap.filterMap, List.filter_map, List.map_map]
  rw [← List.filterMap_eq_map, List.filterMap_filter, List.filterMap_filterMap]
  refine List.filterMap_congr ?_
  intro e _
  by_cases h : isSettled created requests templates e.1 = true <;> simp [h]

/-- The alerts to add for one algorithm. -/
theorem filter_added_update (hown : OwnNames tracker.entries) :
    (tracker.update created skipped requests templates now).1.added.filter
        (fun e => e.algorithm = algorithm) =
      if isSettled created requests templates algorithm then []
      else (((track tracker.entries skipped).get? algorithm).toList.filter
        (·.isNewlyDue tracker.timeout now)).map (·.notify tracker.timeout now) := by
  let raise (name : String) (e : Unscheduled K) : Option (Unscheduled K) :=
    if isSettled created requests templates name then none
    else if e.isNewlyDue tracker.timeout now then some (e.notify tracker.timeout now) else none
  have hadded : (tracker.update created skipped requests templates now).1.added =
      (track tracker.entries skipped).entries.filterMap fun e => raise e.1 e.2 :=
    added_eq_filterMap tracker created skipped requests templates now
  have hname : ∀ e ∈ (track tracker.entries skipped).entries, ∀ b, raise e.1 e.2 = some b →
      b.algorithm = e.1 := by
    intro e he b hb
    have halgorithm := ownNames_track hown skipped _ _ (NameMap.mem_entries.mp he)
    simp only [raise, Option.ite_none_left_eq_some, Option.ite_none_right_eq_some,
      Option.some.injEq] at hb
    obtain ⟨_, _, rfl⟩ := hb
    rw [Unscheduled.algorithm_notify, halgorithm]
  rw [hadded, NameMap.filter_filterMap_entries _ raise _ hname]
  by_cases h : isSettled created requests templates algorithm = true
  · cases (track tracker.entries skipped).get? algorithm <;> simp [raise, h]
  · cases he : (track tracker.entries skipped).get? algorithm with
    | none => simp [h]
    | some e => by_cases hdue : e.isNewlyDue tracker.timeout now = true <;> simp [raise, h, hdue]

/-- The events to remove for one algorithm. -/
theorem filter_removed_update :
    (tracker.update created skipped requests templates now).1.removed.filter
        (fun r => r.algorithm = algorithm) =
      if isSettled created requests templates algorithm then
        (((track tracker.entries skipped).get? algorithm).bind (·.eventId)).toList.map
          fun id => ⟨algorithm, id⟩
      else [] := by
  let drop (name : String) (e : Unscheduled K) : Option EventRemoval :=
    if isSettled created requests templates name then e.eventId.map fun id => ⟨name, id⟩
    else none
  have hremoved : (tracker.update created skipped requests templates now).1.removed =
      (track tracker.entries skipped).entries.filterMap fun e => drop e.1 e.2 := rfl
  have hname : ∀ e ∈ (track tracker.entries skipped).entries, ∀ b, drop e.1 e.2 = some b →
      b.algorithm = e.1 := by
    intro e _ b hb
    simp only [drop, Option.ite_none_right_eq_some] at hb
    obtain ⟨id, _, rfl⟩ := Option.map_eq_some_iff.mp hb.2
    rfl
  rw [hremoved, NameMap.filter_filterMap_entries _ drop _ hname]
  by_cases h : isSettled created requests templates algorithm = true
  · cases he : (track tracker.entries skipped).get? algorithm with
    | none => simp
    | some e => cases hid : e.eventId <;> simp [drop, h, hid]
  · cases (track tracker.entries skipped).get? algorithm <;> simp [drop, h]

end Update

end Tracker

end WorkerFleet
