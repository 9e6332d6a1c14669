import WorkerFleet.Proofs.AlertStep
import WorkerFleet.Proofs.Sample

/-!
# Alerts

An episode of an algorithm is the span in which the tracker holds its entry. Along every run
an episode raises its alert until the event store takes it, once, and takes the event back
at its end. Calls may fail at any point.
-/

namespace WorkerFleet

namespace Cycle
variable {K : Type}

section Episodes
variable [Quantity K]

/-- The cycles of the present episode, the latest first; none when the algorithm is not
tracked. -/
def episode (algorithm : String) (past : List (Record K)) : List (Record K) :=
  past.takeWhile fun c => (c.kept? algorithm).isSome

def episodeEvents (algorithm : String) (past : List (Record K)) : List String :=
  (episode algorithm past).flatMap (·.added algorithm)

/-- What a cycle after `past` does about an algorithm is what its episode asks for. -/
structure AlertsInOrder (timeout : Millis) (past : List (Record K)) (c : Record K)
    (a : String) : Prop where
  /-- An episode goes on where there was an entry, -/
  continues : episode a past = [] ↔ c.before.tracker.entries.get? a = none
  /-- and its cycles have one entry. -/
  one_entry : ∀ c' ∈ episode a past, ∀ e' e, c'.kept? a = some e' → c.kept? a = some e →
    e'.firstSeenAt = e.firstSeenAt ∧ e'.hasMaxCapacity = e.hasMaxCapacity
  one_event : (episodeEvents a past).length ≤ 1
  adds : ∀ e, c.kept? a = some e → (c.additions a).length =
    if episodeEvents a past = [] ∧
      (timeout.toNat < Millis.since c.now e.firstSeenAt ∨ e.hasMaxCapacity = true) then 1 else 0
  removes_none : ∀ e, c.kept? a = some e → c.removed a = []
  ends : c.kept? a = none → c.removed a = episodeEvents a past ∧ c.additions a = []
  notified_iff : ∀ e, c.kept? a = some e → (e.isNotified = true ↔ e.eventId.isSome = true)

/-- What holds between two cycles: `past` ends in `r`, and every entry remembers the event
of its episode. -/
structure AlertState (timeout : Millis) (past : List (Record K)) (r : Reconciler K) : Prop where
  timeout_eq : r.tracker.timeout = timeout
  ownNames : Tracker.OwnNames r.tracker.entries
  latest : ∀ a, past.head?.bind (·.kept? a) = r.tracker.entries.get? a
  one_entry : ∀ a e, r.tracker.entries.get? a = some e → ∀ c ∈ episode a past,
    ∀ e', c.kept? a = some e' →
      e'.firstSeenAt = e.firstSeenAt ∧ e'.hasMaxCapacity = e.hasMaxCapacity
  remembers : ∀ a e, r.tracker.entries.get? a = some e → e.Remembers (episodeEvents a past)

theorem alertState_fresh {r : Reconciler K} (hr : r.Fresh) :
    AlertState r.config.warningTimeout [] r := by
  obtain ⟨_, htracker, _⟩ := hr.memory
  have hnone : ∀ a, r.tracker.entries.get? a = none := by
    intro a
    rw [htracker]
    rfl
  refine ⟨by rw [htracker]; rfl, ?_, fun a => (hnone a).symm, ?_, ?_⟩
  all_goals
    intro a e he
    rw [hnone] at he
    cases he

namespace AlertState
variable {timeout : Millis} {past : List (Record K)} {r : Reconciler K}

theorem episode_eq_nil_iff (h : AlertState timeout past r) (a : String) :
    episode a past = [] ↔ r.tracker.entries.get? a = none := by
  rw [← h.latest]
  cases past with
  | nil => exact ⟨fun _ => rfl, fun _ => rfl⟩
  | cons c past =>
    change List.takeWhile _ _ = [] ↔ c.kept? a = none
    cases hentry : c.kept? a <;> simp [hentry]

theorem episodeEvents_of_untracked (h : AlertState timeout past r) {a : String}
    (hnone : r.tracker.entries.get? a = none) : episodeEvents a past = [] := by
  rw [episodeEvents, (h.episode_eq_nil_iff a).mpr hnone]
  rfl

theorem one_event (h : AlertState timeout past r) (a : String) :
    (episodeEvents a past).length ≤ 1 := by
  cases hentry : r.tracker.entries.get? a with
  | none =>
    rw [h.episodeEvents_of_untracked hentry]
    exact Nat.zero_le 1
  | some e =>
    rw [(h.remembers a e hentry).events_eq]
    cases e.eventId with
    | none => exact Nat.zero_le 1
    | some id => exact Nat.le_refl 1

end AlertState

theorem episode_cons {c : Record K} {past : List (Record K)} {a : String}
    (h : (c.kept? a).isSome = true) : episode a (c :: past) = c :: episode a past :=
  List.takeWhile_cons_of_pos h

theorem episodeEvents_cons {c : Record K} {past : List (Record K)} {a : String}
    (h : (c.kept? a).isSome = true) :
    episodeEvents a (c :: past) = c.added a ++ episodeEvents a past := by
  rw [episodeEvents, episode_cons h, List.flatMap_cons]
  rfl

end Episodes

section Run
variable {σ : Type} [Powers K] {backends : Backends K σ} {timeout : Millis}
variable {past : List (Record K)} {c : Record K}

namespace AlertState

theorem watched (h : AlertState timeout past c.before) {a : String} {e : Unscheduled K}
    (he : c.watched? a = some e) : e.Remembers (episodeEvents a past) := by
  rcases Tracker.track_cases he with hold | ⟨hnone, s, _, _, rfl⟩
  · exact h.remembers a e hold
  · exact ⟨h.episodeEvents_of_untracked hnone, rfl⟩

variable (hrun : c.IsRun backends)
include hrun

theorem kept (h : AlertState timeout past c.before) {a : String} {e : Unscheduled K}
    (he : c.kept? a = some e) :
    (c.additions a).length =
        (if episodeEvents a past = [] ∧ e.isDue timeout c.now = true then 1 else 0) ∧
      c.removed a = [] ∧ e.Remembers (c.added a ++ episodeEvents a past) := by
  have hstep := alertStep_of_isRun hrun h.ownNames a
  rw [h.timeout_eq] at hstep
  exact hstep.kept (fun _ hw => h.watched hw) he

theorem one_entry_step (h : AlertState timeout past c.before) {a : String} {e : Unscheduled K}
    (he : c.kept? a = some e) {c' : Record K} (hc' : c' ∈ episode a past)
    {e' : Unscheduled K} (he' : c'.kept? a = some e') :
    e'.firstSeenAt = e.firstSeenAt ∧ e'.hasMaxCapacity = e.hasMaxCapacity := by
  obtain ⟨w, hw, hseen, hmax⟩ := (alertStep_of_isRun hrun h.ownNames a).same_entry he
  rcases Tracker.track_cases hw with hold | ⟨hnone, _⟩
  · obtain ⟨hseen', hmax'⟩ := h.one_entry a w hold c' hc' e' he'
    exact ⟨hseen'.trans hseen, hmax'.trans hmax⟩
  · rw [(h.episode_eq_nil_iff a).mpr hnone] at hc'
    cases hc'

theorem alertsInOrder (h : AlertState timeout past c.before) (a : String) :
    AlertsInOrder timeout past c a where
  continues := h.episode_eq_nil_iff a
  one_entry c' hc' e' e he' he := h.one_entry_step hrun he hc' he'
  one_event := h.one_event a
  adds := by
    intro e he
    have hdue : e.isDue timeout c.now = true ↔
        timeout.toNat < Millis.since c.now e.firstSeenAt ∨ e.hasMaxCapacity = true := by
      simp [Unscheduled.isDue]
    simp only [(h.kept hrun he).1, hdue]
  removes_none e he := (h.kept hrun he).2.1
  ends := by
    intro hnone
    refine (alertStep_of_isRun hrun h.ownNames a).dropped ?_ (fun _ hw => h.watched hw) hnone
    intro hwatched
    exact h.episodeEvents_of_untracked (Tracker.get?_of_track_eq_none hwatched)
  notified_iff e he := by rw [(h.kept hrun he).2.2.notified_eq]

theorem step (h : AlertState timeout past c.before) : AlertState timeout (c :: past) c.after where
  timeout_eq := by
    rw [hrun.followsPlan.after, timeout_foldl_learn, Reconciler.tracker_plan, Reconciler.tracked,
      Tracker.timeout_update]
    exact h.timeout_eq
  ownNames := by
    rw [hrun.followsPlan.after]
    refine ownNames_foldl_learn ?_ _
    rw [Reconciler.tracker_plan]
    exact Tracker.ownNames_update _ _ _ _ _ _ h.ownNames
  latest a := rfl
  one_entry := by
    intro a e he c' hc' e' he'
    rw [episode_cons (Option.isSome_of_mem he)] at hc'
    rcases List.mem_cons.mp hc' with rfl | hc'
    · obtain rfl := Option.some.inj (he'.symm.trans he)
      exact ⟨rfl, rfl⟩
    · exact h.one_entry_step hrun he hc' he'
  remembers := by
    intro a e he
    rw [episodeEvents_cons (Option.isSome_of_mem he)]
    exact (h.kept hrun he).2.2

end AlertState

/-- In every cycle of every run the backends receive, for every algorithm, the calls that its
episode asks for; and they receive no others. -/
theorem alertsInOrder_of_history {r : Reconciler K} (hr : r.Fresh) (backends : Backends K σ)
    (cycles : List (Option (Snapshot K) × Millis)) (s : σ) :
    received backends r cycles s = (history backends r cycles s).flatMap (·.calls) ∧
      ∀ before c after, history backends r cycles s = before ++ c :: after →
        ∀ a, AlertsInOrder r.config.warningTimeout before.reverse c a := by
  refine ⟨received_eq backends r cycles s, ?_⟩
  intro before c after h a
  have hstep : ∀ past (c : Record K), c.IsRun backends →
      AlertState r.config.warningTimeout past c.before →
      AlertState r.config.warningTimeout (c :: past) c.after :=
    fun past c hrun hstate => hstate.step hrun
  obtain ⟨hstate, hrun⟩ := invariant_of_history hstep (alertState_fresh hr) h
  rw [List.append_nil] at hstate
  exact hstate.alertsInOrder hrun a

end Run

/-- An event store that refuses its first event. -/
def flaky : Backends Float Nat where
  addEvent _ n := (if n = 0 then none else some "event", n + 1)
  removeEvent _ n := (true, n)
  send _ n := (true, n)
  publish _ n := (true, n)

/-- A request for an algorithm that fits no node. -/
def stuck : Snapshot Float where
  templates := .sample ["a"]
  requests := [⟨"a", false, 0⟩]
  workers := []
  jobs := []
  pods := []
  resources := .sample 0 0

/-- One cycle cannot be planned, and in the end nobody asks any more. -/
def stuckForAWhile : List (Option (Snapshot Float) × Millis) :=
  [(some stuck, 1000), (none, 1500), (some stuck, 2000), (some { stuck with requests := [] }, 3000)]

/-- The alert is raised again after the refusal, and is taken back at the end. -/
theorem alertsInOrder_flaky : Reconciler.sample.Fresh ∧
    ((received flaky .sample stuckForAWhile 0).filterMap Call.addition?).map (·.2) =
      [none, some "event"] ∧
    (received flaky .sample stuckForAWhile 0).filterMap Call.removal? =
      [(⟨"a", "event"⟩, true)] ∧
    ∃ first second third : Record Float,
      history flaky .sample stuckForAWhile 0 = [first, second, third] ∧
        received flaky .sample stuckForAWhile 0 = first.calls ++ second.calls ++ third.calls ∧
        AlertsInOrder Reconciler.sample.config.warningTimeout [] first "a" ∧
        AlertsInOrder Reconciler.sample.config.warningTimeout [first] second "a" ∧
        AlertsInOrder Reconciler.sample.config.warningTimeout [second, first] third "a" := by
  have hfresh : Reconciler.sample.Fresh := .start Reconciler.start?_sample
  obtain ⟨hreceived, horder⟩ := alertsInOrder_of_history hfresh flaky stuckForAWhile 0
  have hhistory : history flaky .sample stuckForAWhile 0 = [_, _, _] := rfl
  refine ⟨hfresh, by decide +kernel, by decide +kernel, _, _, _, hhistory, ?_,
    horder [] _ [_, _] hhistory "a", horder [_] _ [_] hhistory "a",
    horder [_, _] _ [] hhistory "a"⟩
  rw [hreceived, hhistory]
  simp

end Cycle

end WorkerFleet
