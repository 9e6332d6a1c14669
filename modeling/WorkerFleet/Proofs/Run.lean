import WorkerFleet.Proofs.Calls

/-!
# Runs

A run starts from a fresh reconciler and keeps a record of each of its cycles, so that
statements about earlier cycles have something to speak of. A run either only plans
(`Reconciler.plannings`) or makes the calls too (`Cycle.history`). The record of a cycle has the
calls that the backends received in it, and one after the other these are all that they receive
in the run (`received_eq`).
-/

namespace WorkerFleet

namespace Reconciler
variable {K : Type} [Quantity K]

/-- Nothing is remembered; only the capacity estimate may have been set. -/
inductive Fresh : Reconciler K → Prop
  | start {config : Config K} {r : Reconciler K} (h : start? config = some r) : Fresh r
  | withCapacity {r : Reconciler K} (h : Fresh r) (value : K) : Fresh (r.withCapacity value)

theorem Fresh.memory {r : Reconciler K} (h : r.Fresh) :
    r.ledger = .empty r.config.createdJobsTtl ∧ r.tracker = .empty r.config.warningTimeout ∧
      r.factory = .fresh := by
  induction h with
  | start h =>
    obtain ⟨capacity, _, rfl⟩ := Option.map_eq_some_iff.mp h
    exact ⟨rfl, rfl, rfl⟩
  | withCapacity _ _ ih => exact ih

end Reconciler

/-- One cycle of a run that only plans. -/
structure Planning (K : Type) [Powers K] where
  before : Reconciler K
  input : Snapshot K
  now : Millis

namespace Planning
variable {K : Type} [Powers K]

def plan (c : Planning K) : Plan K := (c.before.plan c.input c.now).1

def after (c : Planning K) : Reconciler K := (c.before.plan c.input c.now).2

end Planning

def Reconciler.plannings {K : Type} [Powers K] (r : Reconciler K) :
    List (Snapshot K × Millis) → List (Planning K)
  | [] => []
  | (input, now) :: rest => ⟨r, input, now⟩ :: (r.plan input now).2.plannings rest

/-- What every planned cycle of a run preserves holds before each of them. `P past r` speaks of
the cycles so far, the latest first, and of the reconciler that they lead to. -/
theorem Reconciler.invariant_of_plannings {K : Type} [Powers K]
    {P : List (Planning K) → Reconciler K → Prop} {cycles : List (Snapshot K × Millis)}
    (hstep : ∀ past (c : Planning K), (c.input, c.now) ∈ cycles → P past c.before →
      P (c :: past) c.after)
    {r : Reconciler K} {past : List (Planning K)} (h : P past r)
    {before after : List (Planning K)} {c : Planning K}
    (hsplit : r.plannings cycles = before ++ c :: after) :
    P (before.reverse ++ past) c.before ∧ (c.input, c.now) ∈ cycles := by
  induction cycles generalizing r past before with
  | nil => simp [plannings] at hsplit
  | cons cycle rest ih =>
    rw [plannings] at hsplit
    cases before with
    | nil =>
      obtain ⟨rfl, _⟩ := List.cons.inj hsplit
      exact ⟨h, List.mem_cons_self⟩
    | cons _ before =>
      obtain ⟨rfl, hrest⟩ := List.cons.inj hsplit
      have hfirst := hstep past ⟨r, cycle.1, cycle.2⟩ List.mem_cons_self h
      obtain ⟨hlater, hmem⟩ :=
        ih (fun past c hc => hstep past c (List.mem_cons_of_mem cycle hc)) hfirst hrest
      rw [List.reverse_cons, List.append_assoc]
      exact ⟨hlater, List.mem_cons_of_mem cycle hmem⟩

theorem Reconciler.invariant_of_mem_plannings {K : Type} [Powers K] {P : Reconciler K → Prop}
    (hstep : ∀ c : Planning K, P c.before → P c.after) {r : Reconciler K} (h : P r)
    {cycles : List (Snapshot K × Millis)} {c : Planning K} (hc : c ∈ r.plannings cycles) :
    P c.before := by
  obtain ⟨before, after, hsplit⟩ := List.append_of_mem hc
  let always (_ : List (Planning K)) (r : Reconciler K) : Prop := P r
  have hkept : ∀ past (c : Planning K), (c.input, c.now) ∈ cycles → always past c.before →
      always (c :: past) c.after := fun _ c _ hbefore => hstep c hbefore
  exact (@invariant_of_plannings K _ always cycles hkept r [] h before after c hsplit).1

namespace Cycle

/-- One cycle of a run that makes the calls. -/
structure Record (K : Type) [Quantity K] where
  before : Reconciler K
  input : Snapshot K
  now : Millis
  report : Report K
  /-- What the backends received. -/
  calls : List (Call K)
  after : Reconciler K

namespace Record
variable {K : Type} [Quantity K] (c : Record K)

def removalCalls : List (EventRemoval × Bool) := c.calls.filterMap Call.removal?

def additionCalls : List (Unscheduled K × Option String) := c.calls.filterMap Call.addition?

def sentItems : List (Outbound K) := c.calls.filterMap Call.sent?

def publications : List (Discovery K) := c.calls.filterMap Call.published?

end Record

variable {K σ : Type} [Powers K]

def record (backends : Backends K σ) (r : Reconciler K) (input : Snapshot K) (now : Millis)
    (s : σ) : Record K where
  before := r
  input := input
  now := now
  report := (run backends r input now s).1
  calls := (run backends.noting r input now (s, [])).2.2.2
  after := (run backends r input now s).2.1

def history (backends : Backends K σ) :
    Reconciler K → List (Option (Snapshot K) × Millis) → σ → List (Record K)
  | _, [], _ => []
  | r, (none, _) :: rest, s => history backends r rest s
  | r, (some input, now) :: rest, s =>
    record backends r input now s ::
      history backends (record backends r input now s).after rest
        (run backends r input now s).2.2

theorem plan_record (backends : Backends K σ) (r : Reconciler K) (input : Snapshot K)
    (now : Millis) (s : σ) : (record backends r input now s).before.plan
      (record backends r input now s).input (record backends r input now s).now =
        r.plan input now := rfl

theorem report_record (backends : Backends K σ) (r : Reconciler K) (input : Snapshot K)
    (now : Millis) (s : σ) :
    (record backends r input now s).report = (run backends r input now s).1 := by
  rw [record]

theorem after_record (backends : Backends K σ) (r : Reconciler K) (input : Snapshot K)
    (now : Millis) (s : σ) :
    (record backends r input now s).after = (run backends r input now s).2.1 := by
  rw [record]

theorem calls_record (backends : Backends K σ) (r : Reconciler K) (input : Snapshot K)
    (now : Millis) (s : σ) :
    (record backends r input now s).calls = (record backends r input now s).report.calls := by
  rw [record, run_noting, List.nil_append]

/-- A run whose calls are noted is the run, and notes the calls of its cycles. -/
theorem runAll_noting (backends : Backends K σ) (r : Reconciler K)
    (cycles : List (Option (Snapshot K) × Millis)) (s : σ) (log : List (Call K)) :
    runAll backends.noting r cycles (s, log) =
      ((runAll backends r cycles s).1, (runAll backends r cycles s).2.1,
        (runAll backends r cycles s).2.2,
        log ++ (history backends r cycles s).flatMap (·.calls)) := by
  induction cycles generalizing r s log with
  | nil => rw [history, List.flatMap_nil, List.append_nil, runAll, runAll]
  | cons cycle rest ih =>
    obtain ⟨_ | input, now⟩ := cycle
    · exact ih r s log
    · simp only [runAll, run_noting, ih, history, after_record, calls_record, report_record,
        List.flatMap_cons, List.append_assoc]

theorem received_eq (backends : Backends K σ) (r : Reconciler K)
    (cycles : List (Option (Snapshot K) × Millis)) (s : σ) :
    received backends r cycles s = (history backends r cycles s).flatMap (·.calls) := by
  rw [received, runAll_noting, List.nil_append]

@[simp] theorem map_fst_callAll {α β : Type} (call : α → σ → β × σ) (xs : List α) (s : σ) :
    (callAll call xs s).1.map (·.1) = xs := by
  induction xs generalizing s with
  | nil => rfl
  | cons x xs ih => exact congrArg (x :: ·) (ih _)

/-- The cycle is one run of `Cycle.run`. -/
def Record.IsRun (backends : Backends K σ) (c : Record K) : Prop :=
  ∃ s, c = record backends c.before c.input c.now s

theorem isRun_record (backends : Backends K σ) (r : Reconciler K) (input : Snapshot K)
    (now : Millis) (s : σ) : (record backends r input now s).IsRun backends := ⟨s, rfl⟩

/-- What every cycle preserves holds before each cycle of a history. `P past r` speaks of the
cycles so far, the latest first, and of the reconciler that they lead to. -/
theorem invariant_of_history {backends : Backends K σ}
    {P : List (Record K) → Reconciler K → Prop}
    (hstep : ∀ past c, c.IsRun backends → P past c.before → P (c :: past) c.after)
    {r : Reconciler K} {past : List (Record K)} (h : P past r)
    {cycles : List (Option (Snapshot K) × Millis)} {s : σ} {before after : List (Record K)}
    {c : Record K} (hsplit : history backends r cycles s = before ++ c :: after) :
    P (before.reverse ++ past) c.before ∧ c.IsRun backends := by
  -- `past` takes over what `before` loses at its head.
  induction cycles generalizing r s past before with
  | nil => simp [history] at hsplit
  | cons cycle rest ih =>
    obtain ⟨_ | input, now⟩ := cycle
    · exact ih h hsplit
    · rw [history] at hsplit
      cases before with
      | nil =>
        obtain ⟨rfl, _⟩ := List.cons.inj hsplit
        exact ⟨h, isRun_record backends r input now s⟩
      | cons _ before =>
        obtain ⟨rfl, hrest⟩ := List.cons.inj hsplit
        rw [List.reverse_cons, List.append_assoc]
        exact ih (hstep past _ (isRun_record backends r input now s) h) hrest

/-- The calls of a cycle are the planned ones, each made once, and the tracker learns the
answers to those that add events. -/
structure Record.FollowsPlan (c : Record K) : Prop where
  outcomes : c.report.outcomes = (c.before.plan c.input c.now).1.outcomes
  removals : c.removalCalls.map (·.1) = (c.before.plan c.input c.now).1.unscheduled.removed
  additions : c.additionCalls.map (·.1) = (c.before.plan c.input c.now).1.unscheduled.added
  sent : c.sentItems = (c.before.plan c.input c.now).1.outbound
  publications : c.publications = [{
    outcomes := (c.before.plan c.input c.now).1.outcomes
    actual := (c.before.plan c.input c.now).1.actual
    thresholds := (c.before.plan c.input c.now).2.config.pressure
    nodes := (c.before.plan c.input c.now).1.nodes
    unscheduled :=
      ⟨c.additionCalls.map published, (c.before.plan c.input c.now).1.unscheduled.removed⟩
    capacity := (c.before.plan c.input c.now).1.capacity
    resourcesToFree := (c.before.plan c.input c.now).1.resourcesToFree
    timestamp := c.now }]
  after : c.after = { (c.before.plan c.input c.now).2 with
    tracker := c.additionCalls.foldl learn (c.before.plan c.input c.now).2.tracker }

namespace Record.IsRun
variable {backends : Backends K σ} {c : Record K}

/-- The report tells of the calls that the backends received. -/
theorem calls_eq (h : c.IsRun backends) : c.calls = c.report.calls := by
  obtain ⟨s, h⟩ := h
  have hcalls := congrArg Record.calls h
  rwa [calls_record, ← h] at hcalls

theorem additionCalls_eq (h : c.IsRun backends) : c.additionCalls = c.report.additions := by
  rw [additionCalls, h.calls_eq, Report.filterMap_addition?_calls]

theorem followsPlan (h : c.IsRun backends) : c.FollowsPlan := by
  have hadditions := h.additionCalls_eq
  have hremovals : c.removalCalls = c.report.removals := by
    rw [removalCalls, h.calls_eq, Report.filterMap_removal?_calls]
  have hsent : c.sentItems = c.report.sent.map (·.1) := by
    rw [sentItems, h.calls_eq, Report.filterMap_sent?_calls]
  have hpublications : c.publications = [c.report.discovery] := by
    rw [publications, h.calls_eq, Report.filterMap_published?_calls]
  obtain ⟨s, h⟩ := h
  have hreport := congrArg Record.report h
  have hafter := congrArg Record.after h
  unfold record run at hreport hafter
  constructor
  all_goals generalize c.before.plan c.input c.now = planned at hreport hafter ⊢
  · rw [hreport]
  · rw [hremovals, hreport]
    exact map_fst_callAll _ _ _
  · rw [hadditions, hreport]
    exact map_fst_callAll _ _ _
  · rw [hsent, hreport]
    exact map_fst_callAll _ _ _
  · rw [hpublications, hadditions, hreport]
  · rw [hadditions, hafter, hreport]

end Record.IsRun

end Cycle

end WorkerFleet
