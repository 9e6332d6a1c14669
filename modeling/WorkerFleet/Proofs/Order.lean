import Mathlib.Data.List.NodupEquivFin
import WorkerFleet.Proofs.Accounts
import WorkerFleet.Proofs.Commands
import WorkerFleet.Proofs.Stuck
import WorkerFleet.Proofs.Turns

/-!
# Order of the requests

The order of the requests is all that tells their priority, and no stage of a cycle changes it.
The cut drops requests and keeps the others in place. Jobs are staged in the order of the
requests that they stand for, and the numbers in their names grow. Placement parts them into
created and skipped jobs, each part in the order of the numbers, so that merging the two by
number recovers what was staged (`stagedJobs_plan`).
-/

namespace WorkerFleet

section Lists
variable {α β : Type}

theorem mergeSort_eq_of_strict {key : α → Nat} {xs ys : List α} (hperm : xs.Perm ys)
    (hys : ys.Pairwise fun x y => key x < key y) :
    xs.mergeSort (fun x y => key x ≤ key y) = ys := by
  have hkeys : (ys.map key).Nodup := List.pairwise_map.mpr (hys.imp Nat.ne_of_lt)
  have hsame : (xs.mergeSort fun x y => key x ≤ key y).Perm ys :=
    (List.mergeSort_perm _ _).trans hperm
  have hsorted : (xs.mergeSort fun x y => key x ≤ key y).Pairwise
      fun x y => decide (key x ≤ key y) = true := by
    apply List.pairwise_mergeSort
    · intro x y z hxy hyz
      exact decide_eq_true (Nat.le_trans (of_decide_eq_true hxy) (of_decide_eq_true hyz))
    · intro x y
      rw [Bool.or_eq_true, decide_eq_true_iff, decide_eq_true_iff]
      exact Nat.le_total _ _
  apply hsame.eq_of_pairwise ?_ (hsorted.imp of_decide_eq_true) (hys.imp Nat.le_of_lt)
  intro x y hx hy hxy hyx
  exact List.inj_on_of_nodup_map hkeys (hsame.subset hx) hy (Nat.le_antisymm hxy hyx)

/-- What answers a part of a list, item by item, is placed in the list without reordering. -/
theorem exists_orderEmbedding_of_sublist {R : α → β → Prop} {xs : List α} {ys zs : List β}
    (hanswers : List.Forall₂ R xs ys) (hsub : ys.Sublist zs) :
    ∃ place : Fin xs.length ↪o Fin zs.length, ∀ i, R (xs.get i) (zs.get (place i)) := by
  obtain ⟨hlength, hget⟩ := List.forall₂_iff_get.mp hanswers
  obtain ⟨place, hplace⟩ := List.sublist_iff_exists_fin_orderEmbedding_get_eq.mp hsub
  refine ⟨(Fin.castOrderIso hlength).toOrderEmbedding.trans place, ?_⟩
  intro i
  have h := hget i i.isLt (hlength ▸ i.isLt)
  rw [hplace] at h
  exact h

end Lists

structure JobSpec.Answers {K : Type} (spec : JobSpec K) (q : Request) : Prop where
  algorithm : spec.algorithm = q.algorithm
  hot : spec.hot = q.hot

namespace Plan
variable {K : Type}

/-- The staged jobs, created or skipped, in the order of the numbers in their names. -/
def stagedJobs (plan : Plan K) : List (JobSpec K) :=
  (plan.created.map (·.spec) ++ plan.skipped.map (·.spec)).mergeSort
    fun a b => JobFactory.numberOf a.name ≤ JobFactory.numberOf b.name

/-- From the backlog to what is sent, whatever comes first stays first. -/
structure KeepsOrder (plan : Plan K) (input : Snapshot K) : Prop where
  admitted : ∃ n, plan.admitted.Sublist
    (HotWorkers.requests input.templates ++ input.requests.take n)
  numbered : plan.stagedJobs.Pairwise
    fun a b => JobFactory.numberOf a.name < JobFactory.numberOf b.name
  answers : ∃ place : Fin plan.stagedJobs.length ↪o Fin plan.admitted.length,
    ∀ i, (plan.stagedJobs.get i).Answers (plan.admitted.get (place i))
  sent : plan.jobsSent = plan.created.map (·.spec)
  created : (plan.created.map (·.spec)).Sublist plan.stagedJobs
  skipped : (plan.skipped.map (·.spec)).Sublist plan.stagedJobs

end Plan

namespace Assignment
variable {K : Type} [Quantity K] (templates : Templates K) (config : Config K) (now : Millis)

theorem numbers_toCreate (pools : Pools) (factory : JobFactory) (requests : List Request) :
    (assign templates config now pools factory requests).toCreate.Pairwise
      fun a b => JobFactory.numberOf a.name < JobFactory.numberOf b.name := by
  induction requests generalizing pools factory with
  | nil => exact .nil
  | cons r rest ih =>
    cases h : pools.take? r.algorithm with
    | some taken =>
      simp only [assign, h]
      exact ih taken.2 factory
    | none =>
      simp only [assign, h]
      rcases hstage : stage? templates config now factory r with ⟨_ | spec, factory'⟩
      · exact ih pools factory'
      · obtain ⟨template, _, hbuild⟩ := stage?_eq_some hstage
        obtain ⟨hname, _, _, hnext⟩ := JobFactory.build_ok hbuild
        refine .cons ?_ (ih pools factory')
        -- The factory has counted on, so all later numbers are greater.
        intro later hlater
        have hwithin := (names_toCreate templates config now pools factory' rest).numbered
          later.name (List.mem_map_of_mem hlater)
        rw [hname, JobFactory.numberOf_jobName]
        omega

end Assignment

namespace Reconciler
variable {K : Type} [Powers K] (r : Reconciler K) (input : Snapshot K) (now : Millis)

theorem stagedJobs_plan :
    (r.plan input now).1.stagedJobs = (r.assignment input now).toCreate := by
  rw [Plan.stagedJobs, created_plan, skipped_plan]
  apply mergeSort_eq_of_strict
  · exact r.specs_placement_perm input now
  · exact Assignment.numbers_toCreate _ _ _ _ _ _

/-- Every staged job answers an admitted request, and no two answer out of order. -/
theorem exists_place_stagedJobs (hown : input.templates.OwnNames) :
    ∃ place : Fin (r.plan input now).1.stagedJobs.length ↪o
        Fin (r.plan input now).1.admitted.length,
      ∀ i, ((r.plan input now).1.stagedJobs.get i).Answers
        ((r.plan input now).1.admitted.get (place i)) := by
  rw [stagedJobs_plan, admitted_plan]
  obtain ⟨hmade, _, _⟩ := Assignment.assign_staging input.templates r.config now
    (r.pools input now) r.factory (r.cut input now).admitted
  have hsub : (Assignment.staging input.templates r.config (r.pools input now)
      (r.cut input now).admitted).Sublist (r.cut input now).admitted :=
    List.filter_sublist.trans (Pools.unserved_sublist _ _)
  apply exists_orderEmbedding_of_sublist (hmade.imp ?_) hsub
  rintro spec q ⟨factory, factory', hstage⟩
  exact ⟨Assignment.algorithm_of_stage? hown hstage, Assignment.hot_of_stage? hstage⟩

theorem plan_keepsOrder (hown : input.templates.OwnNames) :
    (r.plan input now).1.KeepsOrder input where
  admitted := by
    refine ⟨Quantity.roundNat ((r.estimate input now).value *
      (r.estimate input now).policy.windowFactor), ?_⟩
    rw [admitted_plan]
    exact FairShare.admitted_cut_sublist _ _
  numbered := by
    rw [stagedJobs_plan]
    exact Assignment.numbers_toCreate _ _ _ _ _ _
  answers := r.exists_place_stagedJobs input now hown
  sent := by rw [jobsSent_plan, created_plan]
  created := by
    rw [stagedJobs_plan, created_plan]
    exact Placement.specs_created_sublist now input.resources.nodes _
  skipped := by
    rw [stagedJobs_plan, skipped_plan]
    exact Placement.specs_skipped_sublist now input.resources.nodes _

end Reconciler

/-- Two cpu are free. A hot worker of `a` is wanted, then `b` asks for too much, then `a` again. -/
def Snapshot.mixed : Snapshot Float where
  templates := NameMap.ofList
    [("a", { Template.sample "a" 1 with minHotWorkers := 1 }), ("b", .sample "b" 3)]
  requests := [⟨"b", false, 0⟩, ⟨"a", false, 0⟩]
  workers := []
  jobs := []
  pods := []
  resources := .sample 2 0

theorem plan_mixed_keepsOrder : Snapshot.mixed.templates.OwnNames ∧
    (Reconciler.sample.plan .mixed 1000).1.KeepsOrder .mixed ∧
    (Reconciler.sample.plan .mixed 1000).1.admitted =
      [⟨"a", true, 0⟩, ⟨"b", false, 0⟩, ⟨"a", false, 0⟩] ∧
    (Reconciler.sample.plan .mixed 1000).1.created.map (·.spec.name) = ["a-3e8-0", "a-3e8-2"] ∧
    (Reconciler.sample.plan .mixed 1000).1.skipped.map (·.spec.name) = ["b-3e8-1"] := by
  refine ⟨by decide, Reconciler.plan_keepsOrder _ _ _ (by decide), ?_⟩
  decide +kernel

end WorkerFleet
