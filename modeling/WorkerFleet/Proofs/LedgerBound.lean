import WorkerFleet.Proofs.Sample
import WorkerFleet.Proofs.Shortage

/-!
# Size of the ledger

The ledger holds no more entries of an algorithm than requests of it were ever admitted at
once, so it does not run away however long a run is. A cycle that creates jobs has handed out
every entry first, and a cycle that creates none leaves the ledger no larger than it was.

Nothing is assumed of the clock: an entry may stay forever, or come back into its time to live.
-/

namespace WorkerFleet

namespace Reconciler
variable {K : Type} [Quantity K]

/-- The created jobs of an algorithm that the ledger remembers. -/
def ledgered (r : Reconciler K) (a : String) : Nat := r.ledger.entries.countP (·.algorithm = a)

theorem ledgered_fresh (r : Reconciler K) (hr : r.Fresh) (a : String) : r.ledgered a = 0 := by
  obtain ⟨hledger, _, _⟩ := hr.memory
  rw [ledgered, hledger]
  rfl

end Reconciler

namespace Planning
variable {K : Type} [Powers K]

def demand (c : Planning K) (a : String) : Nat := c.plan.admitted.countP (·.algorithm = a)

def peakDemand (a : String) (past : List (Planning K)) : Nat :=
  (past.map (·.demand a)).foldr max 0

theorem peakDemand_cons (a : String) (c : Planning K) (past : List (Planning K)) :
    peakDemand a (c :: past) = max (c.demand a) (peakDemand a past) := rfl

end Planning

theorem Pools.countP_ledger_le_items (pools : Pools) (a : String) :
    pools.ledger.countP (·.algorithm = a) ≤ pools.items.countP (·.algorithm = a) := by
  have hledger : (pools.ledger.map SupplyItem.ledger).Sublist pools.items :=
    (List.sublist_append_left _ _).trans
      ((List.sublist_append_right _ _).trans (List.sublist_append_right _ _))
  have hcount : (pools.ledger.map SupplyItem.ledger).countP (·.algorithm = a) ≤
      pools.items.countP (·.algorithm = a) := hledger.countP_le
  rw [List.countP_map] at hcount
  exact hcount

namespace Reconciler
variable {K : Type} [Powers K] (r : Reconciler K) (input : Snapshot K) (now : Millis)

theorem ledgered_plan (a : String) : (r.plan input now).2.ledgered a =
    (r.pools input now).ledger.countP (·.algorithm = a)
      + (r.placement input now).created.countP (·.spec.algorithm = a) := by
  rw [ledgered, ledger_plan, Ledger.record, List.countP_append, List.countP_map]
  rfl

theorem countP_scheduled (a : String) :
    (r.assignment input now).scheduled.countP (·.algorithm = a) =
      (r.served input now).1.countP (·.algorithm = a) := by
  rw [assignment_scheduled, List.countP_map]
  rfl

/-- Where a job is staged, all supply of its algorithm has been handed out before. -/
theorem countP_scheduled_of_staged (hown : input.templates.OwnNames) {a : String}
    (hstaged : 0 < (r.assignment input now).toCreate.countP (·.algorithm = a)) :
    (r.assignment input now).scheduled.countP (·.algorithm = a) =
      (r.pools input now).items.countP (·.algorithm = a) := by
  obtain ⟨spec, hspec, heq⟩ := List.countP_pos_iff.mp hstaged
  obtain rfl := of_decide_eq_true heq
  have hlacks := r.lacks_of_mem_toCreate input now hown hspec
  rw [assignment_pools] at hlacks
  rw [countP_scheduled]
  exact Pools.countP_serve_of_lacks hlacks

/-- One cycle leaves at most as many entries as there were, or as it admitted requests. -/
theorem ledgered_plan_le (hown : input.templates.OwnNames) (a : String) :
    (r.plan input now).2.ledgered a ≤
      max ((r.plan input now).1.admitted.countP (·.algorithm = a)) (r.ledgered a) := by
  have hcreated := r.countP_toCreate input now a
  have haccounts := Assignment.assign_accounts r.config now hown (r.pools input now) r.factory
    (r.cut input now).admitted a
  rw [← assignment] at haccounts
  have hfresh : (r.pools input now).ledger.countP (·.algorithm = a) ≤ r.ledgered a :=
    List.filter_sublist.countP_le
  rw [ledgered_plan, admitted_plan]
  rcases Nat.eq_zero_or_pos ((r.assignment input now).toCreate.countP (·.algorithm = a))
    with hnone | hstaged
  · apply Nat.le_trans _ (Nat.le_max_right _ _)
    omega
  · have hserved := r.countP_scheduled_of_staged input now hown hstaged
    have hsupply := (r.pools input now).countP_ledger_le_items a
    apply Nat.le_trans _ (Nat.le_max_left _ _)
    omega

end Reconciler

namespace Planning
variable {K : Type} [Powers K] {a : String}

theorem ledgered_after_le {past : List (Planning K)} {c : Planning K}
    (hown : c.input.templates.OwnNames) (h : c.before.ledgered a ≤ peakDemand a past) :
    c.after.ledgered a ≤ peakDemand a (c :: past) := by
  have hplan := c.before.ledgered_plan_le c.input c.now hown a
  rw [peakDemand_cons, after, demand, plan]
  omega

/-- After every cycle of a run the ledger holds no more jobs of an algorithm than requests of it
were admitted in some cycle so far. -/
theorem ledgered_le_peakDemand {r : Reconciler K} (hr : r.Fresh)
    {cycles : List (Snapshot K × Millis)} (hown : ∀ cycle ∈ cycles, cycle.1.templates.OwnNames)
    {before after : List (Planning K)} {c : Planning K}
    (h : r.plannings cycles = before ++ c :: after) (a : String) :
    c.after.ledgered a ≤ peakDemand a (c :: before.reverse) := by
  have hstep : ∀ (past : List (Planning K)) (c : Planning K), (c.input, c.now) ∈ cycles →
      c.before.ledgered a ≤ peakDemand a past → c.after.ledgered a ≤ peakDemand a (c :: past) :=
    fun past c hc hbefore => ledgered_after_le (hown _ hc) hbefore
  have hstart : r.ledgered a ≤ peakDemand (K := K) a [] := Nat.le_of_eq (r.ledgered_fresh hr a)
  obtain ⟨hbefore, hc⟩ := Reconciler.invariant_of_plannings
    (P := fun past (r : Reconciler K) => r.ledgered a ≤ peakDemand a past) hstep hstart h
  rw [List.append_nil] at hbefore
  exact hstep _ c hc hbefore

end Planning

/-- `n` requests of an algorithm that every node has room for. -/
def Snapshot.asking (n : Nat) : Snapshot Float where
  templates := .sample ["a"]
  requests := List.replicate n ⟨"a", false, 0⟩
  workers := []
  jobs := []
  pods := []
  resources := .sample 8 0

/-- The first two jobs are forgotten before the last cycle. -/
def swelling : List (Snapshot Float × Millis) :=
  [(.asking 2, 1000), (.asking 3, 2000), (.asking 1, 16500)]

theorem ledgered_le_peakDemand_swelling : Reconciler.sample.Fresh ∧
    (∀ cycle ∈ swelling, cycle.1.templates.OwnNames) ∧
    ∃ first second third : Planning Float,
      Reconciler.sample.plannings swelling = [first] ++ second :: [third] ∧
      second.after.ledgered "a" ≤ Planning.peakDemand "a" [second, first] ∧
      [first, second, third].map (·.demand "a") = [2, 3, 1] ∧
      [first, second, third].map (·.after.ledgered "a") = [2, 3, 1] := by
  have hfresh : Reconciler.sample.Fresh := .start Reconciler.start?_sample
  have hown : ∀ cycle ∈ swelling, cycle.1.templates.OwnNames := by decide
  have hsplit : Reconciler.sample.plannings swelling = [_] ++ _ :: [_] := rfl
  refine ⟨hfresh, hown, _, _, _, hsplit,
    Planning.ledgered_le_peakDemand hfresh hown hsplit "a", ?_, ?_⟩
  · decide +kernel
  · decide +kernel

end WorkerFleet
