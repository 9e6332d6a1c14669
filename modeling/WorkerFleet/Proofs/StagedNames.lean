import WorkerFleet.Proofs.Accounts
import WorkerFleet.Proofs.Turns

/-!
# Names of staged jobs

A job is staged for a request, and its algorithm is read off the template that is stored under
the requested name. Nothing makes the template bear that name. Where it bears another one, the
job counts for another algorithm than it was required for, and its entry in the ledger is no
supply for the request that it was staged for (`assign_keepsNames_iff`).
-/

namespace WorkerFleet

section Pairs
variable {α β : Type} {R S : α → β → Prop} {xs : List α} {ys : List β}

theorem forall₂_and_iff {p : β → Prop} (hS : ∀ x y, R x y → (S x y ↔ p y))
    (h : List.Forall₂ R xs ys) :
    List.Forall₂ (fun x y => R x y ∧ S x y) xs ys ↔ ∀ y ∈ ys, p y := by
  induction h with
  | nil => simp
  | cons hxy _ ih =>
    rw [List.forall₂_cons, List.forall_mem_cons, ih, hS _ _ hxy, and_iff_right hxy]

theorem countP_eq_of_forall₂ {p : α → Bool} {q : β → Bool}
    (h : List.Forall₂ (fun x y => p x = q y) xs ys) : xs.countP p = ys.countP q := by
  induction h with
  | nil => rfl
  | cons hxy _ ih => rw [List.countP_cons, List.countP_cons, ih, hxy]

end Pairs

/-- The template stored under the name, if there is one, bears it. -/
def Templates.BearsName {K : Type} (templates : Templates K) (a : String) : Prop :=
  ∀ t, templates.get? a = some t → t.name = a

/-- Where the ledger holds the entry, a request for `a` finds supply. -/
def LedgerEntry.Bridges (e : LedgerEntry) (a : String) : Prop :=
  ∀ pools : Pools, e ∈ pools.ledger → (pools.take? a).isSome = true

theorem LedgerEntry.bridges_iff {e : LedgerEntry} {a : String} :
    e.Bridges a ↔ e.algorithm = a := by
  constructor
  · intro h
    have halone := h { Pools.empty with ledger := [e] } List.mem_cons_self
    by_contra hne
    simp [Pools.take?, Pools.empty, takeFirst?, hne] at halone
  · rintro rfl pools he
    by_contra hnone
    have hsupply := Pools.supplyOf_of_take?_eq_none (Option.not_isSome_iff_eq_none.mp hnone)
    have hitem : SupplyItem.ledger e ∈ pools.items := by
      simp [Pools.items, he]
    exact List.filter_eq_nil_iff.mp hsupply _ hitem (decide_eq_true rfl)

namespace Assignment
variable {K : Type} [Quantity K] (templates : Templates K) (config : Config K) (now : Millis)

/-- The staged jobs go by the names that were requested: each by the name of the request it is
made for, so that as many are staged as are required, and the ledger bridges each request until
its job is listed. -/
structure KeepsNames (x : Assignment K) (pools : Pools) (requests : List Request) : Prop where
  carried : List.Forall₂
    (fun spec q => MadeFor templates config now spec q ∧ spec.algorithm = q.algorithm)
    x.toCreate (staging templates config pools requests)
  required : ∀ a, (x.required.get? a).getD 0 = x.toCreate.countP (·.algorithm = a)
  bridged : List.Forall₂
    (fun spec q => ∀ node, (Ledger.entryOf now ⟨spec, node⟩).Bridges q.algorithm)
    x.toCreate (staging templates config pools requests)

variable {templates config now}

/-- A job goes by the requested name just if the template bears it. -/
theorem MadeFor.algorithm_eq_iff {spec : JobSpec K} {q : Request}
    (h : MadeFor templates config now spec q) :
    spec.algorithm = q.algorithm ↔ templates.BearsName q.algorithm := by
  obtain ⟨factory, factory', hstage⟩ := h
  obtain ⟨template, htemplate, hbuild⟩ := stage?_eq_some hstage
  obtain ⟨_, hname, _⟩ := JobFactory.build_ok hbuild
  rw [hname]
  constructor
  · intro heq t ht
    rw [htemplate] at ht
    obtain rfl := Option.some.inj ht
    exact heq
  · intro hbears
    exact hbears template htemplate

variable (templates config now)

theorem assign_keepsNames_iff (pools : Pools) (factory : JobFactory) (requests : List Request) :
    KeepsNames templates config now (assign templates config now pools factory requests) pools
        requests ↔
      ∀ q ∈ staging templates config pools requests, templates.BearsName q.algorithm := by
  obtain ⟨hmade, _, hrequired⟩ := assign_staging templates config now pools factory requests
  have hiff := forall₂_and_iff
    (fun spec q (h : MadeFor templates config now spec q) => h.algorithm_eq_iff) hmade
  constructor
  · intro h
    exact hiff.mp h.carried
  · intro hbears
    have hcarried := hiff.mpr hbears
    refine ⟨hcarried, ?_, hcarried.imp ?_⟩
    · intro a
      rw [hrequired.getD_get?]
      apply (countP_eq_of_forall₂ (hcarried.imp ?_)).symm
      rintro spec q ⟨_, hname⟩
      rw [hname]
    · rintro spec q ⟨_, hname⟩ node
      exact LedgerEntry.bridges_iff.mpr hname

end Assignment

/-- Under the name `k` there is a template that calls itself `t`. -/
def Templates.renamed : Templates Float := NameMap.ofList [("k", .sample "t" 1)]

theorem not_keepsNames_renamed :
    (Assignment.assign .renamed .default 1000 .empty .fresh [⟨"k", false, 0⟩]).toCreate.map
      (·.algorithm) = ["t"] ∧
    ¬ Assignment.KeepsNames .renamed .default 1000
      (Assignment.assign .renamed .default 1000 .empty .fresh [⟨"k", false, 0⟩]) .empty
      [⟨"k", false, 0⟩] := by
  refine ⟨by decide +kernel, ?_⟩
  intro h
  have hk := h.required "k"
  revert hk
  decide +kernel

end WorkerFleet
