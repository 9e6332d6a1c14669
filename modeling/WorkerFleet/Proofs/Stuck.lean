import WorkerFleet.Proofs.Sample
import WorkerFleet.Proofs.Shortage
import WorkerFleet.Proofs.Tracker

/-!
# Stuck algorithms

An algorithm is stuck in a cycle that skips a job of it and creates none. Skipping starts to
track it, but the same pass drops what the backlog does not ask for. So of the stuck algorithms
just those of the backlog are tracked, and one that is stuck on its hot workers alone is not.
-/

namespace WorkerFleet

namespace FairShare
variable {K : Type} [Quantity K]

theorem fill_sublist (shares : NameMap (Share K)) (requests : List Request) :
    (fill shares requests).1.Sublist requests := by
  induction requests generalizing shares with
  | nil => exact .refl _
  | cons q rest ih =>
    unfold fill
    split
    · exact (ih _).cons q
    · split
      · exact (ih _).cons_cons q
      · exact (ih _).cons q

theorem admitted_cut_sublist (requests : List Request) (capacity : K) :
    (cut requests capacity).admitted.Sublist requests :=
  fill_sublist (shares requests capacity) requests

end FairShare

theorem HotWorkers.hot_of_mem_requests {K : Type} {templates : Templates K} {q : Request}
    (h : q ∈ requests templates) : q.hot = true := by
  obtain ⟨e, _, hq⟩ := List.mem_flatMap.mp h
  obtain rfl := List.eq_of_mem_replicate hq
  rfl

namespace Tracker
variable {K : Type}

def Tracks (tracker : Tracker K) (a : String) : Prop :=
  (tracker.entries.get? a).isSome = true

instance (tracker : Tracker K) (a : String) : Decidable (tracker.Tracks a) :=
  inferInstanceAs (Decidable (_ = true))

variable {tracker : Tracker K} {created : List (PlacedJob K)} {skipped : List (SkippedJob K)}
variable {requests : List Request} {templates : Templates K} {now : Millis} {a : String}

theorem tracks_update : (tracker.update created skipped requests templates now).2.Tracks a ↔
    (tracker.Tracks a ∨ ∃ s ∈ skipped, s.algorithm = a) ∧
      isSettled created requests templates a = false := by
  rw [Tracks, get?_update, get?_track, Tracks]
  cases isSettled created requests templates a with
  | true => simp
  | false => cases tracker.entries.get? a <;> simp

theorem tracks_update_iff (h : ∃ s ∈ skipped, s.algorithm = a) :
    (tracker.update created skipped requests templates now).2.Tracks a ↔
      isSettled created requests templates a = false := by
  rw [tracks_update, and_iff_right (.inr h)]

theorem isSettled_eq_false_iff : isSettled created requests templates a = false ↔
    (∀ c ∈ created, c.spec.algorithm ≠ a) ∧ (∃ q ∈ requests, q.algorithm = a) ∧
      templates.contains a = true := by
  simp [isSettled, and_assoc]

end Tracker

/-- A job of the algorithm is skipped and none is created. -/
structure Plan.Stuck {K : Type} (plan : Plan K) (a : String) : Prop where
  skipped : ∃ s ∈ plan.skipped, s.algorithm = a
  none_created : ∀ c ∈ plan.created, c.spec.algorithm ≠ a

namespace Reconciler
variable {K : Type} [Powers K] (r : Reconciler K) (input : Snapshot K) (now : Millis)

def TracksStuck : Prop :=
  ∀ a, (r.plan input now).1.Stuck a → (r.plan input now).2.tracker.Tracks a

theorem mem_requests_of_mem_admitted {q : Request} (h : q ∈ (r.cut input now).admitted)
    (hcold : q.hot = false) : q ∈ input.requests := by
  rcases List.mem_append.mp ((FairShare.admitted_cut_sublist _ _).subset h) with hhot | hwindow
  · rw [HotWorkers.hot_of_mem_requests hhot] at hcold
    contradiction
  · exact List.mem_of_mem_take hwindow

variable {r input now}

/-- A skipped job stands for an admitted request of an algorithm with a template. -/
theorem exists_admitted_of_skipped (hown : input.templates.OwnNames) {s : SkippedJob K}
    (hs : s ∈ (r.placement input now).skipped) :
    input.templates.contains s.algorithm = true ∧
      ∃ q ∈ (r.cut input now).admitted, q.algorithm = s.algorithm ∧ q.hot = s.spec.hot := by
  obtain ⟨q, hq, ⟨f, f', hstage⟩, _⟩ :=
    Assignment.exists_stage?_of_mem_toCreate (r.mem_toCreate_of_skipped input now hs)
  have halgorithm : s.algorithm = q.algorithm := Assignment.algorithm_of_stage? hown hstage
  refine ⟨?_, q, hq, halgorithm.symm, (Assignment.hot_of_stage? hstage).symm⟩
  rw [halgorithm]
  exact Assignment.contains_of_stage? hstage

/-- A stuck algorithm is tracked just if the backlog asks for it, and it does where a skipped job
was not for a hot worker. -/
theorem plan_tracks_stuck_iff (hown : input.templates.OwnNames) {a : String}
    (hstuck : (r.plan input now).1.Stuck a) :
    ((r.plan input now).2.tracker.Tracks a ↔ ∃ q ∈ input.requests, q.algorithm = a) ∧
      ((∃ s ∈ (r.plan input now).1.skipped, s.algorithm = a ∧ s.spec.hot = false) →
        (r.plan input now).2.tracker.Tracks a) := by
  have hskipped := hstuck.skipped
  have hcreated := hstuck.none_created
  rw [skipped_plan] at hskipped ⊢
  rw [created_plan] at hcreated
  have htracks : (r.plan input now).2.tracker.Tracks a ↔
      ∃ q ∈ input.requests, q.algorithm = a := by
    rw [tracker_plan, tracked, Tracker.tracks_update_iff hskipped, Tracker.isSettled_eq_false_iff]
    constructor
    · rintro ⟨_, hrequested, _⟩
      exact hrequested
    · intro hrequested
      obtain ⟨s, hs, rfl⟩ := hskipped
      exact ⟨hcreated, hrequested, (exists_admitted_of_skipped hown hs).1⟩
  refine ⟨htracks, ?_⟩
  rintro ⟨s, hs, rfl, hcold⟩
  obtain ⟨_, q, hq, halgorithm, hhot⟩ := exists_admitted_of_skipped hown hs
  apply htracks.mpr
  exact ⟨q, r.mem_requests_of_mem_admitted input now hq (hhot.trans hcold), halgorithm⟩

end Reconciler

/-- A node without room, a hot worker wanted of `a`, and a request for `b`. -/
def Snapshot.cold : Snapshot Float where
  templates := NameMap.ofList
    [("a", { Template.sample "a" 1 with minHotWorkers := 1 }), ("b", .sample "b" 1)]
  requests := [⟨"b", false, 0⟩]
  workers := []
  jobs := []
  pods := []
  resources := .sample 0 0

theorem Snapshot.stuck_cold : (Reconciler.sample.plan .cold 1000).1.Stuck "a" ∧
    (Reconciler.sample.plan .cold 1000).1.Stuck "b" := by
  refine ⟨⟨?_, ?_⟩, ⟨?_, ?_⟩⟩ <;> decide +kernel

/-- Both algorithms are stuck, but only that of the backlog is tracked. -/
theorem tracks_stuck_iff_cold : Snapshot.cold.templates.OwnNames ∧
    (Reconciler.sample.plan .cold 1000).1.Stuck "a" ∧
    (Reconciler.sample.plan .cold 1000).1.Stuck "b" ∧
    ¬ (Reconciler.sample.plan .cold 1000).2.tracker.Tracks "a" ∧
    (Reconciler.sample.plan .cold 1000).2.tracker.Tracks "b" := by
  have hown : Snapshot.cold.templates.OwnNames := by decide
  have hunasked : ¬ ∃ q ∈ Snapshot.cold.requests, q.algorithm = "a" := by decide
  have hcold : ∃ s ∈ (Reconciler.sample.plan .cold 1000).1.skipped,
      s.algorithm = "b" ∧ s.spec.hot = false := by decide +kernel
  obtain ⟨ha, hb⟩ := Snapshot.stuck_cold
  refine ⟨hown, ha, hb, ?_, ?_⟩
  · exact mt (Reconciler.plan_tracks_stuck_iff hown ha).1.mp hunasked
  · exact (Reconciler.plan_tracks_stuck_iff hown hb).2 hcold

theorem not_tracksStuck_cold : Snapshot.cold.templates.OwnNames ∧
    ¬ Reconciler.sample.TracksStuck .cold 1000 := by
  refine ⟨by decide, ?_⟩
  intro htracks
  have ha := htracks "a" Snapshot.stuck_cold.1
  revert ha
  decide +kernel

end WorkerFleet
