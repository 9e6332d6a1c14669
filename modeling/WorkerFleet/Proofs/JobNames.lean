import Mathlib.Data.List.Nodup
import WorkerFleet.Proofs.Run
import WorkerFleet.Proofs.Stages

/-!
# Names of jobs

The number at the end of a job's name can be read back, and a factory uses every number
once. So the names that a run has put into its ledger are distinct, whatever the templates
are called and however the clock moves.
-/

namespace WorkerFleet

namespace JobFactory

theorem dash_notMem_decimalText (n : Nat) : '-' ∉ Nat.toDigits 10 n := by
  intro h
  have hdigit := Nat.isDigit_of_mem_toDigits (by decide) (by decide) h
  revert hdigit
  decide

theorem toList_jobName (template : String) (now : Millis) (number : Nat) :
    (jobName template now number).toList =
      (template.toList ++ '-' :: Nat.toDigits 16 now.toNat) ++ '-' :: Nat.toDigits 10 number := by
  simp [jobName, hexText, decimalText]

/-- The number behind the last dash. -/
def numberOf (name : String) : Nat :=
  Nat.ofDigitChars 10 (name.toList.reverse.takeWhile (· ≠ '-')).reverse 0

theorem numberOf_of_toList {name : String} {front : List Char} {number : Nat}
    (h : name.toList = front ++ '-' :: Nat.toDigits 10 number) : numberOf name = number := by
  have hdigits : ∀ c ∈ (Nat.toDigits 10 number).reverse, decide (c ≠ '-') = true := by
    intro c hc
    refine decide_eq_true ?_
    rintro rfl
    exact dash_notMem_decimalText number (List.mem_reverse.mp hc)
  rw [numberOf, h, List.reverse_append, List.reverse_cons, List.append_assoc,
    List.takeWhile_append_of_pos hdigits, List.singleton_append,
    List.takeWhile_cons_of_neg (by decide), List.append_nil, List.reverse_reverse]
  exact Nat.ofDigitChars_ten_toDigits

@[simp] theorem numberOf_jobName (template : String) (now : Millis) (number : Nat) :
    numberOf (jobName template now number) = number :=
  numberOf_of_toList (toList_jobName template now number)

/-- Distinct names, with numbers from `lo` on and below `hi`. -/
structure NumberedWithin (lo hi : Nat) (names : List String) : Prop where
  le : lo ≤ hi
  nodup : names.Nodup
  numbered : ∀ name ∈ names, lo ≤ numberOf name ∧ numberOf name < hi

namespace NumberedWithin
variable {lo mid hi : Nat} {names later : List String}

theorem nil (h : lo ≤ hi) : NumberedWithin lo hi [] :=
  ⟨h, .nil, fun _ hname => absurd hname List.not_mem_nil⟩

theorem singleton (template : String) (now : Millis) (number : Nat) :
    NumberedWithin number (number + 1) [jobName template now number] := by
  refine ⟨Nat.le_succ _, List.nodup_singleton _, ?_⟩
  intro name hname
  obtain rfl := List.mem_singleton.mp hname
  rw [numberOf_jobName]
  omega

theorem sublist (h : NumberedWithin lo hi names) (hsub : later.Sublist names) :
    NumberedWithin lo hi later :=
  ⟨h.le, h.nodup.sublist hsub, fun name hname => h.numbered name (hsub.subset hname)⟩

theorem append (h : NumberedWithin lo mid names) (hlater : NumberedWithin mid hi later) :
    NumberedWithin lo hi (names ++ later) := by
  refine ⟨Nat.le_trans h.le hlater.le, List.nodup_append'.mpr ⟨h.nodup, hlater.nodup, ?_⟩, ?_⟩
  · intro name hname hname'
    have hlt := (h.numbered name hname).2
    have hge := (hlater.numbered name hname').1
    omega
  · intro name hname
    have hle := h.le
    have hle' := hlater.le
    rcases List.mem_append.mp hname with hname | hname
    · have hnumber := h.numbered name hname
      omega
    · have hnumber := hlater.numbered name hname
      omega

end NumberedWithin

variable {K : Type} [Quantity K]

section Build
variable {factory factory' : JobFactory} {template : Template K} {request : Request}
variable {config : Config K} {now : Millis}

theorem build_ok {spec : JobSpec K}
    (h : factory.build template request config now = (.ok spec, factory')) :
    spec.name = jobName template.name now factory.next ∧ spec.algorithm = template.name ∧
      spec.hot = request.hot ∧ factory'.next = factory.next + 1 := by
  unfold build at h
  split at h
  · cases h
  · cases h
  · obtain ⟨hspec, rfl⟩ := Prod.mk.inj h
    obtain rfl := Except.ok.inj hspec
    exact ⟨rfl, rfl, rfl, rfl⟩

/-- A build that fails uses up no number. -/
theorem build_error {e : TemplateError K}
    (h : factory.build template request config now = (.error e, factory')) :
    factory' = factory := by
  unfold build at h
  split at h
  · exact (Prod.mk.inj h).2.symm
  · exact (Prod.mk.inj h).2.symm
  · cases h

end Build

end JobFactory

namespace Assignment
variable {K : Type} [Quantity K] {templates : Templates K} {config : Config K} {now : Millis}

theorem stage?_eq_some {factory factory' : JobFactory} {request : Request} {spec : JobSpec K}
    (h : stage? templates config now factory request = (some spec, factory')) :
    ∃ template, templates.get? request.algorithm = some template ∧
      factory.build template request config now = (.ok spec, factory') := by
  unfold stage? at h
  split at h
  · cases h
  · next template htemplate =>
    refine ⟨template, htemplate, ?_⟩
    cases hbuild : factory.build template request config now with
    | mk built later =>
      rw [hbuild] at h
      obtain ⟨hbuilt, rfl⟩ := Prod.mk.inj h
      cases built with
      | error e => cases hbuilt
      | ok built =>
        obtain rfl := Option.some.inj hbuilt
        rfl

theorem stage?_eq_none {factory factory' : JobFactory} {request : Request}
    (h : stage? templates config now factory request = (none, factory')) :
    factory' = factory := by
  unfold stage? at h
  split at h
  · exact (Prod.mk.inj h).2.symm
  · next template _ =>
    cases hbuild : factory.build template request config now with
    | mk built later =>
      rw [hbuild] at h
      obtain ⟨hbuilt, rfl⟩ := Prod.mk.inj h
      cases built with
      | error e => exact JobFactory.build_error hbuild
      | ok built => cases hbuilt

variable (templates config now) in
theorem names_toCreate (pools : Pools) (factory : JobFactory) (requests : List Request) :
    let a := assign templates config now pools factory requests
    JobFactory.NumberedWithin factory.next a.factory.next (a.toCreate.map (·.name)) := by
  induction requests generalizing pools factory with
  | nil => exact .nil (Nat.le_refl _)
  | cons r rest ih =>
    unfold assign
    split
    · exact ih _ factory
    · split
      · next spec factory' hstage =>
        obtain ⟨template, _, hbuild⟩ := stage?_eq_some hstage
        obtain ⟨hname, _, _, hnext⟩ := JobFactory.build_ok hbuild
        have hfirst := JobFactory.NumberedWithin.singleton template.name now factory.next
        rw [← hname, ← hnext] at hfirst
        exact hfirst.append (ih pools factory')
      · next factory' hstage =>
        obtain rfl := stage?_eq_none hstage
        exact ih pools factory'

end Assignment

namespace Placement
variable {K : Type} [Quantity K]

theorem specs_created_sublist (now : Millis) (nodes : List (Node K)) (specs : List (JobSpec K)) :
    ((place now nodes specs).created.map (·.spec)).Sublist specs := by
  induction specs generalizing nodes with
  | nil => exact .refl _
  | cons spec rest ih =>
    unfold place
    split
    · exact (ih _).cons_cons spec
    · exact (ih _).cons spec

theorem specs_skipped_sublist (now : Millis) (nodes : List (Node K)) (specs : List (JobSpec K)) :
    ((place now nodes specs).skipped.map (·.spec)).Sublist specs := by
  induction specs generalizing nodes with
  | nil => exact .refl _
  | cons spec rest ih =>
    unfold place
    split
    · exact (ih _).cons spec
    · exact (ih _).cons_cons spec

end Placement

namespace Reconciler
variable {K : Type} [Powers K]

/-- The jobs in the ledger have different names, all of them used up by the factory. -/
def LedgerNumbered (r : Reconciler K) : Prop :=
  JobFactory.NumberedWithin 0 r.factory.next (r.ledger.entries.map (·.jobName))

theorem ledgerNumbered_fresh {r : Reconciler K} (hr : r.Fresh) : r.LedgerNumbered := by
  obtain ⟨hledger, _, _⟩ := hr.memory
  rw [LedgerNumbered, hledger]
  exact .nil (Nat.zero_le _)

theorem LedgerNumbered.expire {r : Reconciler K} (h : r.LedgerNumbered) (now : Millis) :
    JobFactory.NumberedWithin 0 r.factory.next
      ((r.ledger.expire now).entries.map (·.jobName)) :=
  h.sublist (List.filter_sublist.map _)

theorem LedgerNumbered.plan {r : Reconciler K} (h : r.LedgerNumbered) (input : Snapshot K)
    (now : Millis) : (r.plan input now).2.LedgerNumbered := by
  -- Placement skips some of the staged jobs, so their numbers stay unused.
  have hcreated : (((r.placement input now).created.map (Ledger.entryOf now)).map
      (·.jobName)).Sublist ((r.assignment input now).toCreate.map (·.name)) := by
    rw [List.map_map]
    have hspecs := (Placement.specs_created_sublist now input.resources.nodes
      (r.assignment input now).toCreate).map (·.name)
    rw [List.map_map] at hspecs
    exact hspecs
  have hnumbered := Assignment.names_toCreate input.templates r.config now
    (r.pools input now) r.factory (r.cut input now).admitted
  rw [LedgerNumbered, plan_eq]
  change JobFactory.NumberedWithin 0 _ (List.map _ (_ ++ _))
  rw [List.map_append]
  exact (h.expire now).append (hnumbered.sublist hcreated)

theorem ledgerNumbered_of_mem_plannings {r : Reconciler K} (hr : r.Fresh)
    {cycles : List (Snapshot K × Millis)} {c : Planning K} (hc : c ∈ r.plannings cycles) :
    c.before.LedgerNumbered :=
  invariant_of_mem_plannings (fun c h => h.plan c.input c.now) (ledgerNumbered_fresh hr) hc

end Reconciler

end WorkerFleet
