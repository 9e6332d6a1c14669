import WorkerFleet.Proofs.Outcomes
import WorkerFleet.Proofs.Shortage

/-!
# Well-formed quantities

Templates and defaults write quantities as numbers and as text, and nobody looks at them before a
job is made or a worker is reclaimed. Both go through `ResourceSpec.resolve`, so whatever is
placed, skipped or freed is finite and not below zero. A template that does not resolve gets no
job, and since nobody knows what its workers take up they are not reclaimed either
(`plan_wellFormed`).

This module does NOT say what becomes of such a template's requests that find a worker: they are
served as any others.
-/

namespace WorkerFleet

namespace Resources
variable {K : Type} [Quantity K]

def WellFormed (r : Resources K) : Prop :=
  ∀ d, Quantity.isFinite (r.get d) = true ∧ Quantity.lt (r.get d) Quantity.zero = false

theorem isRequest_iff {r : Resources K} : r.isRequest = true ↔ r.WellFormed := by
  rw [isRequest, List.all_eq_true]
  simp only [Bool.and_eq_true, Bool.not_eq_true']
  constructor
  · intro h d
    exact (h d d.mem_all).symm
  · intro h d _
    exact (h d).symm

end Resources

namespace ResourceSpec
variable {K : Type} [Quantity K] {spec fallback : ResourceSpec K} {r : Resources K}

/-- The quantities that `spec` writes down, gaps filled from `fallback` and then with zero,
whatever they are. -/
structure Writes (spec fallback : ResourceSpec K) (r : Resources K) : Prop where
  cpu : r.cpu = (spec.cpu <|> fallback.cpu).getD Quantity.zero
  gpu : r.gpu = (spec.gpu <|> fallback.gpu).getD Quantity.zero
  noMem : (spec.mem <|> fallback.mem) = none → r.mem = Quantity.zero
  mem : ∀ text, (spec.mem <|> fallback.mem) = some text → Memory.parse text = .ok r.mem

theorem Writes.unique {r' : Resources K} (h : spec.Writes fallback r)
    (h' : spec.Writes fallback r') : r = r' := by
  apply Resources.ext (h.cpu.trans h'.cpu.symm) (h.gpu.trans h'.gpu.symm)
  cases hmem : spec.mem <|> fallback.mem with
  | none => exact (h.noMem hmem).trans (h'.noMem hmem).symm
  | some text => exact Except.ok.inj ((h.mem text hmem).symm.trans (h'.mem text hmem))

/-- Only a memory text that cannot be read leaves a specification without quantities. -/
theorem exists_writes_or_unread (spec fallback : ResourceSpec K) :
    (∃ r, spec.Writes fallback r) ∨
      ∃ text, (spec.mem <|> fallback.mem) = some text ∧ ∀ x : K, Memory.parse text ≠ .ok x := by
  let cpu := (spec.cpu <|> fallback.cpu).getD Quantity.zero
  let gpu := (spec.gpu <|> fallback.gpu).getD Quantity.zero
  cases hmem : spec.mem <|> fallback.mem with
  | none => exact .inl ⟨⟨cpu, gpu, Quantity.zero⟩, rfl, rfl, fun _ => rfl, by simp [hmem]⟩
  | some text =>
    cases hparse : (Memory.parse text : Except (ResourceError K) K) with
    | ok mem =>
      refine .inl ⟨⟨cpu, gpu, mem⟩, rfl, rfl, by simp [hmem], ?_⟩
      intro text' htext
      obtain rfl := Option.some.inj (hmem.symm.trans htext)
      exact hparse
    | error e => exact .inr ⟨text, rfl, fun x hx => nomatch hparse.symm.trans hx⟩

/-- What is resolved is what is written, if that is well-formed; all else is refused. -/
theorem resolve_eq_ok_iff :
    spec.resolve fallback = .ok r ↔ spec.Writes fallback r ∧ r.WellFormed := by
  have hresolve : ∀ r', spec.Writes fallback r' → spec.resolve fallback = check r' := by
    intro r' h
    unfold resolve
    rw [← h.cpu, ← h.gpu]
    cases hmem : spec.mem <|> fallback.mem with
    | none => simp only [← h.noMem hmem]
    | some text => simp only [h.mem text hmem]
  rw [← Resources.isRequest_iff]
  constructor
  · intro h
    rcases exists_writes_or_unread spec fallback with ⟨r', hwrites⟩ | ⟨text, hmem, hunread⟩
    · rw [hresolve r' hwrites] at h
      obtain ⟨rfl, hrequest⟩ := check_eq_ok_iff.mp h
      exact ⟨hwrites, hrequest⟩
    · -- Such a text is refused before anything is checked.
      unfold resolve at h
      rw [hmem] at h
      dsimp only at h
      split at h
      · next mem hparse => exact absurd hparse (hunread mem)
      · cases h
  · rintro ⟨hwrites, hrequest⟩
    rw [hresolve r hwrites]
    exact check_eq_ok_iff.mpr ⟨rfl, hrequest⟩

end ResourceSpec

namespace Template
variable {K : Type} [Quantity K] {t : Template K} {defaults : ResourceSpec K}

/-- The template asks for quantities that are not well-formed, or names a memory that is no
quantity. -/
inductive IllFormed (t : Template K) (defaults : ResourceSpec K) : Prop
  | quantities (r : Resources K) (writes : t.resources.Writes defaults r)
      (unfit : ¬ r.WellFormed) : IllFormed t defaults
  | memory (text : String) (written : (t.resources.mem <|> defaults.mem) = some text)
      (unread : ∀ x : K, Memory.parse text ≠ .ok x) : IllFormed t defaults

theorem illFormed_iff :
    t.IllFormed defaults ↔ (t.resources.resolve defaults).isOk = false := by
  cases hresolve : t.resources.resolve defaults with
  | ok r =>
    obtain ⟨hwrites, hwellFormed⟩ := ResourceSpec.resolve_eq_ok_iff.mp hresolve
    refine iff_of_false ?_ nofun
    intro h
    cases h with
    | quantities r' hwrites' hunfit => exact hunfit (hwrites.unique hwrites' ▸ hwellFormed)
    | memory text hmem hunread => exact hunread r.mem (hwrites.mem text hmem)
  | error e =>
    refine iff_of_true ?_ rfl
    rcases ResourceSpec.exists_writes_or_unread t.resources defaults with
      ⟨r, hwrites⟩ | ⟨text, hmem, hunread⟩
    · apply IllFormed.quantities r hwrites
      intro hwellFormed
      rw [ResourceSpec.resolve_eq_ok_iff.mpr ⟨hwrites, hwellFormed⟩] at hresolve
      cases hresolve
    · exact .memory text hmem hunread

end Template

structure JobSpec.WellFormed {K : Type} [Quantity K] (spec : JobSpec K) : Prop where
  algorithm : spec.algorithmResources.WellFormed
  worker : spec.workerResources.WellFormed

theorem JobFactory.wellFormed_of_build {K : Type} [Quantity K] {factory factory' : JobFactory}
    {template : Template K} {request : Request} {config : Config K} {now : Millis}
    {spec : JobSpec K} (h : factory.build template request config now = (.ok spec, factory')) :
    spec.WellFormed := by
  unfold build at h
  split at h
  · cases h
  · cases h
  · next halgorithm hworker =>
    obtain rfl := Except.ok.inj (Prod.mk.inj h).1
    exact ⟨(ResourceSpec.resolve_eq_ok_iff.mp halgorithm).2,
      (ResourceSpec.resolve_eq_ok_iff.mp hworker).2⟩

namespace Assignment
variable {K : Type} [Quantity K] {templates : Templates K} {config : Config K} {now : Millis}

theorem wellFormed_of_mem_toCreate {pools : Pools} {factory : JobFactory}
    {requests : List Request} {spec : JobSpec K}
    (h : spec ∈ (assign templates config now pools factory requests).toCreate) :
    spec.WellFormed := by
  obtain ⟨q, _, ⟨f, f', hstage⟩, _⟩ := exists_stage?_of_mem_toCreate h
  obtain ⟨template, _, hbuild⟩ := stage?_eq_some hstage
  exact JobFactory.wellFormed_of_build hbuild

end Assignment

/-- All that is reserved on nodes or counted as freed is well-formed. -/
structure Plan.WellFormed {K : Type} [Quantity K] (plan : Plan K) : Prop where
  created : ∀ j ∈ plan.created, j.spec.WellFormed
  skipped : ∀ s ∈ plan.skipped, s.spec.WellFormed
  stops : ∀ s ∈ plan.stops, s.resources.WellFormed

theorem Templates.isUsable_of_illFormed {K : Type} [Quantity K] {templates : Templates K}
    {config : Config K} {a : String} {t : Template K} (ht : templates.get? a = some t)
    (h : t.IllFormed config.defaults) : templates.isUsable config a = false := by
  rw [isUsable, ht, Option.any_some, Template.illFormed_iff.mp h, Bool.false_and]

namespace Reconciler
variable {K : Type} [Powers K] (r : Reconciler K) (input : Snapshot K) (now : Millis)

/-- Requests of the algorithm beyond its supply are refused, and none of its workers is
stopped. -/
structure PassesOver (a : String) : Prop where
  unschedulable : (r.assignment input now).unschedulable.filter (·.algorithm = a) =
    ((r.pools input now).unserved (r.plan input now).1.admitted).filter (·.algorithm = a)
  reported : ((r.plan input now).1.outcome a).skipped =
    (r.plan input now).1.skipped.countP (·.algorithm = a) +
      ((r.pools input now).unserved (r.plan input now).1.admitted).countP (·.algorithm = a)
  spared : ∀ s ∈ (r.plan input now).1.stops, s.worker.algorithm ≠ a

theorem plan_quantities_wellFormed : (r.plan input now).1.WellFormed := by
  refine ⟨?_, ?_, ?_⟩
  · intro j hj
    rw [created_plan] at hj
    apply Assignment.wellFormed_of_mem_toCreate
    apply (r.specs_placement_perm input now).subset
    exact List.mem_append_left _ (List.mem_map_of_mem hj)
  · intro s hs
    rw [skipped_plan] at hs
    exact Assignment.wellFormed_of_mem_toCreate (r.mem_toCreate_of_skipped input now hs)
  · intro s hs
    rw [stops_plan] at hs
    apply Resources.isRequest_iff.mp
    exact Reclaim.isRequest_of_footprint (r.footprint_of_mem_stops input now hs)

theorem passesOver_of_illFormed {a : String} {t : Template K}
    (ht : input.templates.get? a = some t) (h : t.IllFormed r.config.defaults) :
    r.PassesOver input now a := by
  have hunschedulable : (r.assignment input now).unschedulable.filter (·.algorithm = a) =
      ((r.pools input now).unserved (r.plan input now).1.admitted).filter (·.algorithm = a) := by
    obtain ⟨_, hrefused, _⟩ := Assignment.assign_staging input.templates r.config now
      (r.pools input now) r.factory (r.cut input now).admitted
    rw [assignment, hrefused, admitted_plan, List.filter_filter]
    apply List.filter_congr
    intro q _
    by_cases hq : q.algorithm = a
    · rw [hq, Templates.isUsable_of_illFormed ht h, Bool.not_false, Bool.and_true]
    · rw [decide_eq_false hq, Bool.false_and]
  refine ⟨hunschedulable, ?_, ?_⟩
  · rw [outcome_plan, skipped_plan, List.countP_eq_length_filter (l := Assignment.unschedulable _),
      hunschedulable, ← List.countP_eq_length_filter]
  · rintro s hs rfl
    rw [stops_plan] at hs
    have hfootprint := r.footprint_of_mem_stops input now hs
    have hrefused := Template.illFormed_iff.mp h
    rw [Reclaim.footprint, ht] at hfootprint
    dsimp only at hfootprint
    rw [hfootprint] at hrefused
    cases hrefused

/-- Whatever the templates, the defaults and the worker's own resources say, no plan reckons with
a quantity that is below zero or not finite. -/
theorem plan_wellFormed :
    (r.plan input now).1.WellFormed ∧
      ∀ a t, input.templates.get? a = some t → t.IllFormed r.config.defaults →
        r.PassesOver input now a := by
  refine ⟨r.plan_quantities_wellFormed input now, ?_⟩
  intro a t ht h
  exact r.passesOver_of_illFormed input now ht h

end Reconciler

def Template.lots : Template Float :=
  { Template.sample "lots" 1 with resources := ⟨some 1, none, some "lots"⟩ }

/-- The job for `a` finds no room, and no job can be made for `minus` and `lots`. Only of `v` it is
known what stopping it would free. -/
def Snapshot.faulty : Snapshot Float where
  templates := NameMap.ofList [("a", .sample "a" 3), ("b", .sample "b" 1),
    ("lots", .lots), ("minus", .sample "minus" (-1))]
  requests := [⟨"a", false, 0⟩, ⟨"minus", false, 0⟩, ⟨"lots", false, 0⟩]
  workers := [
    ⟨"u", "lots", "pod-u", .working, false, false, none, none⟩,
    ⟨"v", "b", "pod-v", .ready, false, false, none, none⟩]
  jobs := [⟨"job-u", "lots", 0, false, false⟩, ⟨"job-v", "b", 0, false, false⟩]
  pods := [⟨"pod-u", "job-u", none⟩, ⟨"pod-v", "job-v", none⟩]
  resources := .busy 2

theorem wellFormed_faulty :
    (Template.sample "minus" (-1)).IllFormed Reconciler.sample.config.defaults ∧
    Template.lots.IllFormed Reconciler.sample.config.defaults ∧
    (Reconciler.sample.plan .faulty 100000).1.WellFormed ∧
    (Reconciler.sample.PassesOver .faulty 100000 "minus") ∧
    (Reconciler.sample.PassesOver .faulty 100000 "lots") ∧
    (Reconciler.sample.assignment .faulty 100000).unschedulable.map (·.algorithm) =
      ["minus", "lots"] ∧
    (Reconciler.sample.plan .faulty 100000).1.skipped.map (·.algorithm) = ["a"] ∧
    (Reconciler.sample.plan .faulty 100000).1.stops.map (·.worker.id) = ["v"] := by
  have hminus : (Template.sample "minus" (-1)).IllFormed Reconciler.sample.config.defaults :=
    Template.illFormed_iff.mpr (by decide +kernel)
  have hlots : Template.lots.IllFormed Reconciler.sample.config.defaults :=
    Template.illFormed_iff.mpr (by decide +kernel)
  obtain ⟨hwellFormed, hpasses⟩ := Reconciler.sample.plan_wellFormed .faulty 100000
  refine ⟨hminus, hlots, hwellFormed, hpasses _ _ rfl hminus, hpasses _ _ rfl hlots, ?_⟩
  decide +kernel

end WorkerFleet
