import WorkerFleet.Proofs.Accounts

/-!
# Shortage

A job is staged only for an algorithm of which nothing is left to hand out, and nothing is put
back afterwards. So an algorithm with a skipped job stays short of supply for the rest of the
cycle: the pools from which workers are stopped hold no idle worker of it.

This module does NOT say how much supply an algorithm had, nor who took it.
-/

namespace WorkerFleet

theorem Worker.isIdle_eq_false_of_isActive {w : Worker} (h : w.isActive = true) :
    w.isIdle = false := by
  have hstatus : w.status ≠ .ready := of_decide_eq_true (Bool.and_eq_true_iff.mp h).1
  rw [isIdle, decide_eq_false hstatus, Bool.false_and]

namespace Pools

/-- Nothing of the algorithm is left to hand out. -/
structure Lacks (pools : Pools) (a : String) : Prop where
  idle : ∀ w ∈ pools.idle, w.algorithm ≠ a
  pending : ∀ w ∈ pools.pending, w.algorithm ≠ a
  ledger : ∀ e ∈ pools.ledger, e.algorithm ≠ a
  paused : ∀ w ∈ pools.paused, w.algorithm ≠ a

variable {pools : Pools} {a : String}

theorem lacks_iff_items : pools.Lacks a ↔ ∀ item ∈ pools.items, item.algorithm ≠ a := by
  simp only [items, List.forall_mem_append, List.forall_mem_map, SupplyItem.algorithm]
  constructor
  · intro h
    exact ⟨h.idle, h.pending, h.ledger, h.paused⟩
  · rintro ⟨hidle, hpending, hledger, hpaused⟩
    exact ⟨hidle, hpending, hledger, hpaused⟩

theorem lacks_of_take?_eq_none (h : pools.take? a = none) : pools.Lacks a := by
  have hitems := take?_eq_takeFirst? pools a
  rw [h, Option.map_none] at hitems
  apply lacks_iff_items.mpr
  intro item hitem
  exact of_decide_eq_false (takeFirst?_eq_none_iff.mp hitems.symm item hitem)

theorem Lacks.serve (h : pools.Lacks a) (requests : List Request) :
    (pools.serve requests).2.Lacks a := by
  apply lacks_iff_items.mpr
  intro item hitem
  have hsource := (serve_perm pools requests).subset (List.mem_append_right _ hitem)
  exact lacks_iff_items.mp h item hsource

/-- Where nothing is left, everything was taken. -/
theorem countP_serve_of_lacks {requests : List Request}
    (h : (pools.serve requests).2.Lacks a) :
    (pools.serve requests).1.countP (·.algorithm = a) = pools.items.countP (·.algorithm = a) := by
  have hnone : (pools.serve requests).2.items.countP (·.algorithm = a) = 0 := by
    apply List.countP_eq_zero.mpr
    intro item hitem heq
    exact lacks_iff_items.mp h item hitem (of_decide_eq_true heq)
  rw [← (serve_perm pools requests).countP_eq, List.countP_append, hnone, Nat.add_zero]

end Pools

namespace Assignment
variable {K : Type} [Quantity K] {templates : Templates K} {config : Config K} {now : Millis}

/-- Every staged job was staged for one of the requests, when nothing else could serve it. -/
theorem exists_stage?_of_mem_toCreate {pools : Pools} {factory : JobFactory}
    {requests : List Request} {spec : JobSpec K}
    (h : spec ∈ (assign templates config now pools factory requests).toCreate) :
    ∃ q ∈ requests, (∃ f f', stage? templates config now f q = (some spec, f')) ∧
      (assign templates config now pools factory requests).pools.Lacks q.algorithm := by
  induction requests generalizing pools factory with
  | nil => cases h
  | cons r rest ih =>
    unfold assign at h ⊢
    split at h
    · obtain ⟨q, hq, hstage, hlacks⟩ := ih h
      exact ⟨q, List.mem_cons_of_mem r hq, hstage, hlacks⟩
    · next htake =>
      split at h
      · next first factory' hfirst =>
        rcases List.mem_cons.mp h with rfl | h
        · -- Later requests take from the same pools.
          refine ⟨r, List.mem_cons_self, ⟨factory, factory', hfirst⟩, ?_⟩
          rw [(assign_serve templates config now pools factory' rest).2.2]
          exact (Pools.lacks_of_take?_eq_none htake).serve rest
        · obtain ⟨q, hq, hstage, hlacks⟩ := ih h
          exact ⟨q, List.mem_cons_of_mem r hq, hstage, hlacks⟩
      · obtain ⟨q, hq, hstage, hlacks⟩ := ih h
        exact ⟨q, List.mem_cons_of_mem r hq, hstage, hlacks⟩

theorem hot_of_stage? {factory factory' : JobFactory} {q : Request} {spec : JobSpec K}
    (h : stage? templates config now factory q = (some spec, factory')) : spec.hot = q.hot := by
  obtain ⟨_, _, hbuild⟩ := stage?_eq_some h
  exact (JobFactory.build_ok hbuild).2.2.1

theorem contains_of_stage? {factory factory' : JobFactory} {q : Request} {spec : JobSpec K}
    (h : stage? templates config now factory q = (some spec, factory')) :
    templates.contains q.algorithm = true := by
  obtain ⟨_, htemplate, _⟩ := stage?_eq_some h
  exact Option.isSome_of_mem htemplate

end Assignment

namespace Reconciler
variable {K : Type} [Powers K] (r : Reconciler K) (input : Snapshot K) (now : Millis)

theorem mem_toCreate_of_skipped {s : SkippedJob K}
    (hs : s ∈ (r.placement input now).skipped) : s.spec ∈ (r.assignment input now).toCreate := by
  apply (r.specs_placement_perm input now).subset
  exact List.mem_append_right _ (List.mem_map_of_mem hs)

theorem lacks_of_mem_toCreate (hown : input.templates.OwnNames) {spec : JobSpec K}
    (h : spec ∈ (r.assignment input now).toCreate) :
    (r.assignment input now).pools.Lacks spec.algorithm := by
  obtain ⟨q, _, ⟨f, f', hstage⟩, hlacks⟩ := Assignment.exists_stage?_of_mem_toCreate h
  rw [Assignment.algorithm_of_stage? hown hstage]
  exact hlacks

/-- Of an algorithm that a job is skipped for, no idle worker is stopped: none is left. -/
theorem plan_idle_spared_of_skipped (hown : input.templates.OwnNames) {a : String}
    (hskipped : ∃ s ∈ (r.plan input now).1.skipped, s.algorithm = a) :
    (∀ s ∈ (r.plan input now).1.stops, s.worker.algorithm = a → s.worker.isIdle = false) ∧
      (r.assignment input now).pools.Lacks a := by
  obtain ⟨k, hk, rfl⟩ := hskipped
  rw [skipped_plan] at hk
  have hlacks := r.lacks_of_mem_toCreate input now hown (r.mem_toCreate_of_skipped input now hk)
  refine ⟨?_, hlacks⟩
  intro s hs halgorithm
  rw [stops_plan] at hs
  have hpool := (r.workers_stops_subperm input now).subset (List.mem_map_of_mem hs)
  rcases List.mem_append.mp hpool with hidle | hactive
  · rw [← assignment_pools] at hidle
    exact absurd halgorithm (hlacks.idle _ hidle)
  · rw [active_served] at hactive
    exact Worker.isIdle_eq_false_of_isActive (List.mem_filter.mp hactive).2

end Reconciler

/-- Two requests for `a` meet one idle worker, and only `v` of `b` can make room. -/
def Snapshot.short : Snapshot Float where
  templates := .sample ["a", "b"]
  requests := [⟨"a", false, 0⟩, ⟨"a", false, 0⟩]
  workers := [
    ⟨"w", "a", "pod-w", .ready, false, false, none, none⟩,
    ⟨"v", "b", "pod-v", .ready, false, false, none, none⟩]
  jobs := [⟨"job-w", "a", 0, false, false⟩, ⟨"job-v", "b", 0, false, false⟩]
  pods := [⟨"pod-w", "job-w", none⟩, ⟨"pod-v", "job-v", none⟩]
  resources := .busy 1

theorem idle_spared_short : Snapshot.short.templates.OwnNames ∧
    (∃ s ∈ (Reconciler.sample.plan .short 100000).1.skipped, s.algorithm = "a") ∧
    (Reconciler.sample.plan .short 100000).1.stops.map (·.worker.id) = ["v"] ∧
    (∀ s ∈ (Reconciler.sample.plan .short 100000).1.stops, s.worker.algorithm = "a" →
      s.worker.isIdle = false) ∧
    (Reconciler.sample.assignment .short 100000).pools.Lacks "a" := by
  have hown : Snapshot.short.templates.OwnNames := by decide
  have hskipped : ∃ s ∈ (Reconciler.sample.plan .short 100000).1.skipped, s.algorithm = "a" := by
    decide +kernel
  exact ⟨hown, hskipped, by decide +kernel,
    Reconciler.plan_idle_spared_of_skipped _ _ _ hown hskipped⟩

end WorkerFleet
