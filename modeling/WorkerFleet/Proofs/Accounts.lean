import WorkerFleet.Proofs.JobNames
import WorkerFleet.Proofs.Sample
import WorkerFleet.Proofs.Statistics

/-!
# Accounts of requests

An admitted request takes supply, or a job is staged for it, or its algorithm has no usable
template; a staged job is placed or skipped. The outcomes of a plan are counted anew from
the lists that these stages leave, item after item, so an outcome is what the items of its
algorithm make of nothing. `plan_accountsFor` says that, algorithm by algorithm, the counts come
to what was admitted.
-/

namespace WorkerFleet

namespace Plan
variable {K : Type}

def outcome (plan : Plan K) (algorithm : String) : Outcome :=
  (plan.outcomes.get? algorithm).getD .zero

/-- An algorithm has an outcome only if something is counted for it. -/
def Counted (outcomes : NameMap Outcome) : Prop := ∀ a, outcomes.get? a ≠ some .zero

section NoteAll
variable {α : Type} (name : α → String) (items : List α) (outcomes : NameMap Outcome) (a : String)

theorem getD_get?_noteAll (note : α → Outcome → Outcome) :
    ((noteAll name note items outcomes).get? a).getD .zero =
      (items.filter fun x => name x = a).foldl (fun o x => note x o)
        ((outcomes.get? a).getD .zero) := by
  induction items generalizing outcomes with
  | nil => rfl
  | cons x rest ih =>
    rw [noteAll, List.foldl_cons, ← noteAll, ih, NameMap.get?_upsert]
    by_cases h : name x = a
    · rw [if_pos h, List.filter_cons_of_pos (by simpa using h)]
      rfl
    · rw [if_neg h, List.filter_cons_of_neg (by simpa using h)]

theorem Counted.noteAll {note : α → Outcome → Outcome}
    (hnote : ∀ x ∈ items, ∀ o, note x o ≠ .zero) (h : Counted outcomes) :
    Counted (noteAll name note items outcomes) := by
  induction items generalizing outcomes with
  | nil => exact h
  | cons x rest ih =>
    obtain ⟨hx, hrest⟩ := List.forall_mem_cons.mp hnote
    apply ih _ hrest
    intro a
    rw [NameMap.get?_upsert]
    split
    · intro heq
      exact hx _ (Option.some.inj heq)
    · exact h a

variable {outcomes a} {o : Outcome} (h : (outcomes.get? a).getD .zero = o)
include h

theorem getD_get?_noteAll_add (add : Outcome → Nat → Outcome) (hzero : ∀ o, add o 0 = o)
    (hsucc : ∀ o n, add (add o n) 1 = add o (n + 1)) :
    ((noteAll name (fun _ o => add o 1) items outcomes).get? a).getD .zero =
      add o (items.countP fun x => name x = a) := by
  rw [getD_get?_noteAll, h, List.countP_eq_length_filter]
  induction items.filter fun x => name x = a using List.reverseRecOn with
  | nil => exact (hzero o).symm
  | append_singleton xs x ih =>
    rw [List.foldl_append, ih, List.length_append]
    exact hsucc _ _

theorem getD_get?_noteAll_set {found : Option α}
    (hfound : items.filter (fun x => name x = a) = found.toList) (value : α → Nat)
    (set : Outcome → Nat → Outcome) (hset : set o 0 = o) :
    ((noteAll name (fun x o => set o (value x)) items outcomes).get? a).getD .zero =
      set o ((found.map value).getD 0) := by
  rw [getD_get?_noteAll, h, hfound]
  cases found with
  | none => exact hset.symm
  | some x => rfl

end NoteAll

/-- An algorithm without an entry is one for which every count is zero. -/
theorem getD_get?_outcomesOf (required idle : NameMap Nat) (created : List (PlacedJob K))
    (skipped : List (SkippedJob K)) (unschedulable : List Request) (stops : List (Stop K))
    (resumes discovered : List Worker) (a : String) :
    ((outcomesOf required idle created skipped unschedulable stops resumes
      (.ofWorkers discovered)).get? a).getD .zero = {
        required := (required.get? a).getD 0
        idle := (idle.get? a).getD 0
        paused := stops.countP (·.worker.algorithm = a)
        created := created.countP (·.spec.algorithm = a)
        skipped := skipped.countP (·.algorithm = a) + unschedulable.countP (·.algorithm = a)
        resumed := resumes.countP (·.algorithm = a)
        active := discovered.countP (·.algorithm = a) } := by
  have hactive := (WorkerStats.counts_map_byAlgorithm discovered).getD_get? a
  rw [NameMap.get?_map] at hactive
  have hentries (m : NameMap Nat) :
      m.entries.filter (fun e => e.1 = a) = ((m.get? a).map (a, ·)).toList := by
    rw [NameMap.filter_entries, Option.toList_map]
  have h : ((NameMap.empty : NameMap Outcome).get? a).getD .zero = .zero := rfl
  -- The stages one after the other, in the order in which they note their items.
  replace h := getD_get?_noteAll_set (·.1) required.entries h (hentries required) (·.2)
    (fun o n => { o with required := n }) rfl
  replace h := getD_get?_noteAll_set (·.1) idle.entries h (hentries idle) (·.2)
    (fun o n => { o with idle := n }) rfl
  replace h := getD_get?_noteAll_add (·.spec.algorithm) created h
    (fun o n => { o with created := o.created + n }) (fun _ => rfl) (fun _ _ => rfl)
  replace h := getD_get?_noteAll_add (·.algorithm) skipped h
    (fun o n => { o with skipped := o.skipped + n }) (fun _ => rfl) (fun _ _ => rfl)
  replace h := getD_get?_noteAll_add (·.algorithm) unschedulable h
    (fun o n => { o with skipped := o.skipped + n }) (fun _ => rfl) (fun _ _ => rfl)
  replace h := getD_get?_noteAll_add (·.worker.algorithm) stops h
    (fun o n => { o with paused := o.paused + n }) (fun _ => rfl) (fun _ _ => rfl)
  replace h := getD_get?_noteAll_add (·.algorithm) resumes h
    (fun o n => { o with resumed := o.resumed + n }) (fun _ => rfl) (fun _ _ => rfl)
  replace h := getD_get?_noteAll_set AlgorithmStats.algorithm _ h
    (WorkerStats.filter_stats discovered a) AlgorithmStats.count
    (fun o n => { o with active := n }) rfl
  refine h.trans ?_
  simp only [hactive, Outcome.zero, Nat.zero_add, Option.map_map, Function.comp_def,
    Option.map_id']

/-- Every admitted request of the algorithm is found again once, and so is every staged job. -/
structure AccountsFor (plan : Plan K) (a : String) : Prop where
  admitted : plan.admitted.countP (·.algorithm = a) = plan.scheduled.countP (·.algorithm = a)
    + plan.created.countP (·.spec.algorithm = a) + (plan.outcome a).skipped
  required : (plan.outcome a).required = plan.created.countP (·.spec.algorithm = a)
    + plan.skipped.countP (·.algorithm = a)

end Plan

namespace Assignment
variable {K : Type} [Quantity K] {templates : Templates K} {config : Config K} {now : Millis}

theorem algorithm_of_stage? (hown : templates.OwnNames) {factory factory' : JobFactory}
    {request : Request} {spec : JobSpec K}
    (h : stage? templates config now factory request = (some spec, factory')) :
    spec.algorithm = request.algorithm := by
  obtain ⟨template, htemplate, hbuild⟩ := stage?_eq_some h
  obtain ⟨_, hspec, _⟩ := JobFactory.build_ok hbuild
  exact hspec.trans (hown _ _ htemplate)

variable (config now) in
theorem assign_accounts (hown : templates.OwnNames) (pools : Pools) (factory : JobFactory)
    (requests : List Request) (a : String) :
    let x := assign templates config now pools factory requests
    requests.countP (·.algorithm = a) = x.scheduled.countP (·.algorithm = a)
        + x.toCreate.countP (·.algorithm = a) + x.unschedulable.countP (·.algorithm = a) ∧
      (x.required.get? a).getD 0 = x.toCreate.countP (·.algorithm = a) := by
  induction requests generalizing pools factory with
  | nil => exact ⟨rfl, rfl⟩
  | cons r rest ih =>
    unfold assign
    split
    · next item left _ =>
      obtain ⟨hcount, hrequired⟩ := ih left factory
      refine ⟨?_, hrequired⟩
      simp only [List.countP_cons]
      omega
    · split
      · next spec factory' hstage =>
        obtain ⟨hcount, hrequired⟩ := ih pools factory'
        have halgorithm := algorithm_of_stage? hown hstage
        simp only [List.countP_cons, halgorithm, NameMap.get?_upsert]
        constructor
        · omega
        · by_cases h : r.algorithm = a
          · simp [h, hrequired]
          · simp [h, hrequired]
      · next factory' _ =>
        obtain ⟨hcount, hrequired⟩ := ih pools factory'
        refine ⟨?_, hrequired⟩
        simp only [List.countP_cons]
        omega

end Assignment

namespace Placement
variable {K : Type} [Quantity K]

/-- Every staged job is placed or skipped. -/
theorem specs_place_perm (now : Millis) (nodes : List (Node K)) (specs : List (JobSpec K)) :
    ((place now nodes specs).created.map (·.spec)
      ++ (place now nodes specs).skipped.map (·.spec)).Perm specs := by
  induction specs generalizing nodes with
  | nil => exact .refl _
  | cons spec rest ih =>
    unfold place
    split
    · exact (ih _).cons spec
    · exact List.perm_middle.trans ((ih _).cons spec)

end Placement

namespace Reconciler
variable {K : Type} [Powers K] (r : Reconciler K) (input : Snapshot K) (now : Millis)

theorem outcome_plan (a : String) : (r.plan input now).1.outcome a = {
    required := ((r.assignment input now).required.get? a).getD 0
    idle := ((countByAlgorithm (r.pools input now).idle).get? a).getD 0
    paused := (r.settled input now).1.countP (·.worker.algorithm = a)
    created := (r.placement input now).created.countP (·.spec.algorithm = a)
    skipped := (r.placement input now).skipped.countP (·.algorithm = a)
      + (r.assignment input now).unschedulable.countP (·.algorithm = a)
    resumed := (r.settled input now).2.countP (·.algorithm = a)
    active := (r.fleet input).discovered.countP (·.algorithm = a) } := by
  rw [Plan.outcome, plan_eq]
  exact Plan.getD_get?_outcomesOf _ _ _ _ _ _ _ _ a

theorem specs_placement_perm : ((r.placement input now).created.map (·.spec)
    ++ (r.placement input now).skipped.map (·.spec)).Perm (r.assignment input now).toCreate :=
  Placement.specs_place_perm now input.resources.nodes _

theorem countP_toCreate (a : String) :
    (r.assignment input now).toCreate.countP (·.algorithm = a) =
      (r.placement input now).created.countP (·.spec.algorithm = a)
        + (r.placement input now).skipped.countP (·.algorithm = a) := by
  rw [← (r.specs_placement_perm input now).countP_eq, List.countP_append, List.countP_map,
    List.countP_map]
  rfl

/-- No request is lost and none is counted twice. -/
theorem plan_accountsFor (hown : input.templates.OwnNames) (a : String) :
    (r.plan input now).1.AccountsFor a := by
  have hstaged := r.countP_toCreate input now a
  have haccounts := Assignment.assign_accounts r.config now hown (r.pools input now) r.factory
    (r.cut input now).admitted a
  rw [← assignment] at haccounts
  obtain ⟨hadmitted, hrequired⟩ := haccounts
  constructor
  · rw [outcome_plan, admitted_plan, scheduled_plan, created_plan, hadmitted, hstaged]
    dsimp only
    omega
  · rw [outcome_plan, created_plan, skipped_plan, ← hstaged]
    exact hrequired

end Reconciler

/-- Of three requests for `a` one finds an idle worker and one finds room; nobody knows `b`. -/
def Snapshot.scarce : Snapshot Float where
  templates := .sample ["a"]
  requests := [⟨"a", false, 0⟩, ⟨"b", false, 0⟩, ⟨"a", false, 0⟩, ⟨"a", false, 0⟩]
  workers := [⟨"w", "a", "pod-w", .ready, false, false, none, none⟩]
  jobs := []
  pods := []
  resources := .sample 1 0

theorem plan_scarce_accountsFor : Snapshot.scarce.templates.OwnNames ∧
    (∀ a, (Reconciler.sample.plan .scarce 1000).1.AccountsFor a) ∧
    (Reconciler.sample.plan .scarce 1000).1.admitted.map (·.algorithm) = ["a", "b", "a", "a"] ∧
    (Reconciler.sample.plan .scarce 1000).1.scheduled = [⟨"a", "w", .idle⟩] ∧
    (Reconciler.sample.plan .scarce 1000).1.created.map (·.spec.name) = ["a-3e8-0"] ∧
    ["a", "b"].map (fun a => ((Reconciler.sample.plan .scarce 1000).1.outcome a).skipped) =
      [1, 1] := by
  refine ⟨by decide, fun a => Reconciler.plan_accountsFor _ _ _ (by decide) a, ?_⟩
  decide +kernel

end WorkerFleet
