import Mathlib.Data.List.Forall2
import WorkerFleet.Proofs.AlertStep

/-!
# Decisions do not depend on answers

The answers of the event store come back into the tracker, and the next plan reads the
tracker. Still two runs over the same snapshots decide the same, whatever is answered to
their calls: they differ in the alert fields of tracked entries and in the alert events.

The proof forgets those fields. A plan and the state after it, so forgotten, are functions
of the state before, so forgotten.
-/

namespace WorkerFleet

section Forget
variable {K : Type}

/-- The entry without its dealings with the event store. -/
def Unscheduled.withoutAlert (e : Unscheduled K) : Unscheduled K :=
  { e with isNotified := false, eventId := none }

/-- Which algorithms are tracked, since when and with which warning. -/
def Tracker.withoutAlerts (tracker : Tracker K) : Tracker K :=
  { tracker with entries := tracker.entries.map Unscheduled.withoutAlert }

/-- What is published of a plan. -/
def Discovery.ofPlan (thresholds : PressureThresholds K) (plan : Plan K) (now : Millis) :
    Discovery K where
  outcomes := plan.outcomes
  actual := plan.actual
  thresholds := thresholds
  nodes := plan.nodes
  unscheduled := plan.unscheduled
  capacity := plan.capacity
  resourcesToFree := plan.resourcesToFree
  timestamp := now

def Plan.withoutAlerts (plan : Plan K) : Plan K := { plan with unscheduled := ⟨[], []⟩ }

theorem Plan.withoutAlerts_unscheduled (plan : Plan K) (unscheduled : AlertDelta K) :
    Plan.withoutAlerts { plan with unscheduled } = plan.withoutAlerts := rfl

theorem Plan.outcomes_congr {plan plan' : Plan K} (h : plan.withoutAlerts = plan'.withoutAlerts) :
    plan.outcomes = plan'.outcomes := (congrArg Plan.outcomes h :)

theorem Plan.outbound_congr {plan plan' : Plan K} (h : plan.withoutAlerts = plan'.withoutAlerts) :
    plan.outbound = plan'.outbound := (congrArg Plan.outbound h :)

def Discovery.withoutAlerts (d : Discovery K) : Discovery K := { d with unscheduled := ⟨[], []⟩ }

namespace Unscheduled
variable (e : Unscheduled K)

@[simp] theorem withoutAlert_withoutAlert : e.withoutAlert.withoutAlert = e.withoutAlert := rfl

@[simp] theorem withoutAlert_ofSkip (s : SkippedJob K) :
    (ofSkip s).withoutAlert = ofSkip s := rfl

@[simp] theorem withoutAlert_notify (timeout now : Millis) :
    (e.notify timeout now).withoutAlert = e.withoutAlert := by
  unfold notify
  split <;> rfl

end Unscheduled

namespace Tracker

theorem withoutAlerts_ext {t t' : Tracker K} (htimeout : t.timeout = t'.timeout)
    (h : ∀ a, (t.entries.get? a).map Unscheduled.withoutAlert =
      (t'.entries.get? a).map Unscheduled.withoutAlert) : t.withoutAlerts = t'.withoutAlerts := by
  have hentries : t.entries.map Unscheduled.withoutAlert =
      t'.entries.map Unscheduled.withoutAlert := by
    apply NameMap.ext
    intro a
    rw [NameMap.get?_map, NameMap.get?_map, h a]
  simp only [withoutAlerts, htimeout, hentries]

/-- What an update keeps is decided by names, and it changes no more than the alert fields. -/
theorem withoutAlerts_update (tracker : Tracker K) (created : List (PlacedJob K))
    (skipped : List (SkippedJob K)) (requests : List Request) (templates : Templates K)
    (now : Millis) :
    (tracker.update created skipped requests templates now).2.withoutAlerts =
      (tracker.withoutAlerts.update created skipped requests templates now).2.withoutAlerts := by
  refine withoutAlerts_ext rfl ?_
  intro a
  rw [get?_update, get?_update, get?_track, get?_track]
  split
  · rfl
  · rw [withoutAlerts, NameMap.get?_map]
    cases tracker.entries.get? a with
    | some e => simp
    | none => simp

end Tracker

theorem Cycle.withoutAlerts_learn (tracker : Tracker K)
    (addition : Unscheduled K × Option String) :
    (learn tracker addition).withoutAlerts = tracker.withoutAlerts := by
  refine Tracker.withoutAlerts_ext ?_ ?_
  · unfold learn
    split <;> rfl
  · intro a
    rw [get?_learn, Option.map_map]
    congr 1
    funext e
    by_cases h : a = addition.1.algorithm
    · cases haddition : addition.2 <;> simp [h, Unscheduled.withoutAlert, Unscheduled.answered]
    · simp [h]

theorem Cycle.withoutAlerts_foldl_learn (tracker : Tracker K)
    (additions : List (Unscheduled K × Option String)) :
    (additions.foldl learn tracker).withoutAlerts = tracker.withoutAlerts := by
  induction additions generalizing tracker with
  | nil => rfl
  | cons x rest ih => rw [List.foldl_cons, ih, withoutAlerts_learn]

end Forget

namespace Reconciler
variable {K : Type} [Powers K] (r : Reconciler K) (input : Snapshot K) (now : Millis)

def withTracker (tracker : Tracker K) : Reconciler K := { r with tracker }

def withoutAlerts : Reconciler K := r.withTracker r.tracker.withoutAlerts

section Stages
variable (t : Tracker K)

theorem withoutAlerts_withTracker :
    (r.withTracker t).withoutAlerts = r.withTracker t.withoutAlerts := rfl

@[simp] theorem fleet_withTracker : (r.withTracker t).fleet input = r.fleet input := rfl

@[simp] theorem pools_withTracker : (r.withTracker t).pools input now = r.pools input now := rfl

@[simp] theorem estimate_withTracker :
    (r.withTracker t).estimate input now = r.estimate input now := rfl

@[simp] theorem cut_withTracker : (r.withTracker t).cut input now = r.cut input now := rfl

@[simp] theorem assignment_withTracker :
    (r.withTracker t).assignment input now = r.assignment input now := rfl

@[simp] theorem placement_withTracker :
    (r.withTracker t).placement input now = r.placement input now := rfl

@[simp] theorem settled_withTracker :
    (r.withTracker t).settled input now = r.settled input now := rfl

end Stages

/-- No stage but the tracker's own reads the tracker. -/
theorem plan_withTracker (t : Tracker K) : (r.withTracker t).plan input now =
    ({ (r.plan input now).1 with unscheduled := ((r.withTracker t).tracked input now).1 },
      (r.plan input now).2.withTracker ((r.withTracker t).tracked input now).2) := by
  simp only [plan_eq, fleet_withTracker, pools_withTracker, estimate_withTracker,
    cut_withTracker, assignment_withTracker, placement_withTracker, settled_withTracker]
  rfl

theorem withoutAlerts_tracked : (r.tracked input now).2.withoutAlerts =
    (r.withoutAlerts.tracked input now).2.withoutAlerts :=
  Tracker.withoutAlerts_update r.tracker (r.placement input now).created
    (r.placement input now).skipped input.requests input.templates now

theorem withoutAlerts_plan :
    (r.plan input now).1.withoutAlerts = (r.withoutAlerts.plan input now).1.withoutAlerts ∧
      (r.plan input now).2.withoutAlerts = (r.withoutAlerts.plan input now).2.withoutAlerts := by
  have htracker := r.tracker_plan input now
  have htracked := r.withoutAlerts_tracked input now
  have hplan := r.plan_withTracker input now r.tracker.withoutAlerts
  rw [← withoutAlerts] at hplan
  rw [hplan]
  generalize r.plan input now = planned at htracker ⊢
  refine ⟨(Plan.withoutAlerts_unscheduled _ _).symm, ?_⟩
  rw [withoutAlerts_withTracker, ← htracked, ← htracker]
  rfl

theorem withoutAlerts_inj {r r' : Reconciler K} (h : r.withoutAlerts = r'.withoutAlerts) :
    r.config = r'.config ∧ r.capacity = r'.capacity ∧ r.ledger = r'.ledger ∧
      r.factory = r'.factory ∧ r.tracker.withoutAlerts = r'.tracker.withoutAlerts := by
  obtain ⟨hconfig, hcapacity, hledger, htracker, hfactory⟩ := Reconciler.mk.inj h
  exact ⟨hconfig, hcapacity, hledger, hfactory, htracker⟩

theorem withoutAlerts_plan_congr {r r' : Reconciler K}
    (h : r.withoutAlerts = r'.withoutAlerts) :
    (r.plan input now).1.withoutAlerts = (r'.plan input now).1.withoutAlerts ∧
      (r.plan input now).2.withoutAlerts = (r'.plan input now).2.withoutAlerts := by
  obtain ⟨hplan, hnext⟩ := r.withoutAlerts_plan input now
  obtain ⟨hplan', hnext'⟩ := r'.withoutAlerts_plan input now
  rw [hplan, hnext, hplan', hnext', h]
  exact ⟨rfl, rfl⟩

end Reconciler

namespace Cycle
variable {K : Type} [Powers K]

/-- What the cycle has to send. -/
def Record.queue (c : Record K) : List (Outbound K) := (c.before.plan c.input c.now).1.outbound

/-- Two cycles decide the same and leave the same behind, the alert fields of tracked entries
apart; and of each the backends receive the whole queue, every item once. -/
structure SameDecisions (c d : Record K) : Prop where
  input : c.input = d.input
  now : c.now = d.now
  outcomes : c.report.outcomes = d.report.outcomes
  queue : c.queue = d.queue
  sent : c.sentItems = c.queue ∧ d.sentItems = d.queue
  published : ∃ x y, c.publications = [x] ∧ d.publications = [y] ∧
    x.withoutAlerts = y.withoutAlerts
  config : c.after.config = d.after.config
  capacity : c.after.capacity = d.after.capacity
  ledger : c.after.ledger = d.after.ledger
  factory : c.after.factory = d.after.factory
  tracker : c.after.tracker.withoutAlerts = d.after.tracker.withoutAlerts

theorem Record.FollowsPlan.withoutAlerts_after {c : Record K} (h : c.FollowsPlan) :
    c.after.withoutAlerts = (c.before.plan c.input c.now).2.withoutAlerts := by
  have hafter := h.after
  generalize c.before.plan c.input c.now = planned at hafter ⊢
  simp only [hafter, Reconciler.withoutAlerts, Reconciler.withTracker, withoutAlerts_foldl_learn]

theorem Record.FollowsPlan.exists_published {c : Record K} (h : c.FollowsPlan) :
    ∃ x, c.publications = [x] ∧ x.withoutAlerts =
      Discovery.ofPlan c.after.config.pressure (c.before.plan c.input c.now).1.withoutAlerts
        c.now := by
  have hpublications := h.publications
  have hafter := h.after
  generalize c.before.plan c.input c.now = planned at hpublications hafter ⊢
  refine ⟨_, hpublications, ?_⟩
  rw [hafter]
  rfl

/-- States that differ in alert fields only lead to the same decisions, and on to such states. -/
theorem sameDecisions_of_followsPlan {c d : Record K} (hc : c.FollowsPlan) (hd : d.FollowsPlan)
    (hbefore : c.before.withoutAlerts = d.before.withoutAlerts) (hinput : c.input = d.input)
    (hnow : c.now = d.now) :
    SameDecisions c d ∧ c.after.withoutAlerts = d.after.withoutAlerts := by
  obtain ⟨hplan, hnext⟩ := Reconciler.withoutAlerts_plan_congr d.input d.now hbefore
  rw [← hinput, ← hnow] at hplan hnext
  have hafter : c.after.withoutAlerts = d.after.withoutAlerts := by
    rw [hc.withoutAlerts_after, hd.withoutAlerts_after, hnext, hinput, hnow]
  have hqueue : c.queue = d.queue := by
    rw [Record.queue, Record.queue, ← hinput, ← hnow]
    exact Plan.outbound_congr hplan
  obtain ⟨config, capacity, ledger, factory, tracker⟩ := Reconciler.withoutAlerts_inj hafter
  obtain ⟨x, hx, hxplan⟩ := hc.exists_published
  obtain ⟨y, hy, hyplan⟩ := hd.exists_published
  refine ⟨?_, hafter⟩
  exact {
    input := hinput
    now := hnow
    outcomes := by
      rw [hc.outcomes, hd.outcomes, ← hinput, ← hnow]
      exact Plan.outcomes_congr hplan
    queue := hqueue
    sent := ⟨hc.sent, hd.sent⟩
    published := by
      refine ⟨x, y, hx, hy, ?_⟩
      rw [hxplan, hyplan, config, ← hinput, ← hnow, hplan]
    config, capacity, ledger, factory, tracker }

section Runs
variable {σ τ : Type} {backends : Backends K σ} {backends' : Backends K τ}

theorem forall₂_history {r r' : Reconciler K} (h : r.withoutAlerts = r'.withoutAlerts)
    (cycles : List (Option (Snapshot K) × Millis)) (s : σ) (t : τ) :
    List.Forall₂ SameDecisions (history backends r cycles s) (history backends' r' cycles t) := by
  induction cycles generalizing r r' s t with
  | nil => exact .nil
  | cons cycle rest ih =>
    obtain ⟨_ | input, now⟩ := cycle
    · exact ih h s t
    · obtain ⟨hsame, hafter⟩ := sameDecisions_of_followsPlan
        (isRun_record backends r input now s).followsPlan
        (isRun_record backends' r' input now t).followsPlan h rfl rfl
      exact .cons hsame (ih hafter _ _)

/-- Whatever the backends answer, two runs from one state decide the same in every cycle, and the
backends receive the calls of these cycles and no others. -/
theorem history_sameDecisions (backends : Backends K σ) (backends' : Backends K τ)
    (r : Reconciler K) (cycles : List (Option (Snapshot K) × Millis)) (s : σ) (t : τ) :
    received backends r cycles s = (history backends r cycles s).flatMap (·.calls) ∧
      received backends' r cycles t = (history backends' r cycles t).flatMap (·.calls) ∧
      List.Forall₂ SameDecisions (history backends r cycles s) (history backends' r cycles t) :=
  ⟨received_eq backends r cycles s, received_eq backends' r cycles t,
    forall₂_history rfl cycles s t⟩

end Runs

end Cycle

end WorkerFleet
