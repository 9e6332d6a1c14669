import Mathlib.Data.List.Perm.Subperm
import WorkerFleet.Supply

/-!
# Supply as one list

The pools hand out supply as one list in priority order would: `items` is that list, and
taking from the pools is taking its first fitting item. What the requests of a cycle take
and what is left make up the pools again (`serve_perm`).

This module does NOT say which request takes which item.
-/

namespace WorkerFleet

section Lists
variable {α β : Type} {xs ys : List α}

/-- Two answers, never both, may be collected one after the other. -/
theorem filterMap_or_perm {f g : α → Option β} (h : ∀ x, f x = none ∨ g x = none)
    (xs : List α) :
    (xs.filterMap fun x => f x <|> g x).Perm (xs.filterMap f ++ xs.filterMap g) := by
  induction xs with
  | nil => exact .refl _
  | cons x xs ih =>
    cases hf : f x with
    | some b =>
      have hg : g x = none := (h x).resolve_left (by simp [hf])
      simp only [List.filterMap_cons, hf, hg, List.cons_append]
      exact ih.cons b
    | none =>
      cases hg : g x with
      | none =>
        simp only [List.filterMap_cons, hf, hg]
        exact ih
      | some b =>
        simp only [List.filterMap_cons, hf, hg]
        exact (ih.cons b).trans List.perm_middle.symm

theorem subperm_filterMap (f : α → Option β) (h : xs.Subperm ys) :
    (xs.filterMap f).Subperm (ys.filterMap f) := by
  obtain ⟨l, hperm, hsub⟩ := h
  exact ⟨l.filterMap f, hperm.filterMap f, hsub.filterMap f⟩

theorem subperm_map (f : α → β) (h : xs.Subperm ys) : (xs.map f).Subperm (ys.map f) := by
  obtain ⟨l, hperm, hsub⟩ := h
  exact ⟨l.map f, hperm.map f, hsub.map f⟩

theorem nodup_of_subperm (h : xs.Subperm ys) (hys : ys.Nodup) : xs.Nodup := by
  obtain ⟨l, hperm, hsub⟩ := h
  exact hperm.nodup_iff.mp (hys.sublist hsub)

end Lists

namespace SupplyItem

def algorithm : SupplyItem → String
  | idle w => w.algorithm
  | pending w => w.algorithm
  | ledger e => e.algorithm
  | paused w => w.algorithm

/-- The entry of the plan for the request that takes the item. -/
def schedule (item : SupplyItem) : ScheduledRequest :=
  ⟨item.algorithm, item.workerId, item.supply⟩

def present? : SupplyItem → Option Worker
  | idle w => some w
  | paused w => some w
  | _ => none

def expected? : SupplyItem → Option Worker
  | pending w => some w
  | _ => none

theorem present?_of_supply {item : SupplyItem}
    (h : item.supply = .idle ∨ item.supply = .paused) :
    ∃ w, item.present? = some w ∧ w.id = item.workerId := by
  cases item with
  | idle w => exact ⟨w, rfl, rfl⟩
  | pending w => rcases h with h | h <;> cases h
  | ledger e => rcases h with h | h <;> cases h
  | paused w => exact ⟨w, rfl, rfl⟩

end SupplyItem

namespace Pools

/-- All supply, in the order in which it is handed out. -/
def items (pools : Pools) : List SupplyItem :=
  pools.idle.map .idle ++ (pools.pending.map .pending
    ++ (pools.ledger.map .ledger ++ pools.paused.map .paused))

theorem filterMap_present?_items (pools : Pools) :
    pools.items.filterMap SupplyItem.present? = pools.idle ++ pools.paused := by
  simp only [items, List.filterMap_append, List.filterMap_map, Function.comp_def,
    SupplyItem.present?, List.filterMap_none, List.filterMap_some, List.nil_append]

theorem filterMap_expected?_items (pools : Pools) :
    pools.items.filterMap SupplyItem.expected? = pools.pending := by
  simp only [items, List.filterMap_append, List.filterMap_map, Function.comp_def,
    SupplyItem.expected?, List.filterMap_none, List.filterMap_some, List.nil_append,
    List.append_nil]

/-- No worker is in two pools. -/
theorem workers_subperm (workers : List Worker) :
    (workers.filter (·.isIdle) ++ (workers.filter (·.isPaused)
      ++ workers.filter (·.isActive))).Subperm workers := by
  let ready (w : Worker) : Bool := w.status = .ready
  have hready : (workers.filter (·.isIdle) ++ workers.filter (·.isPaused)).Perm
      (workers.filter ready) := by
    have hidle : ∀ w : Worker, w.isIdle = (!w.paused && ready w) := fun _ => Bool.and_comm _ _
    have hpaused : ∀ w : Worker, w.isPaused = (w.paused && ready w) := fun _ => Bool.and_comm _ _
    have h := List.filter_append_perm (·.paused) (workers.filter ready)
    rw [List.filter_filter, List.filter_filter] at h
    simp only [hidle, hpaused]
    exact List.perm_append_comm.trans h
  have hactive : (workers.filter (·.isActive)).Sublist (workers.filter (!ready ·)) := by
    refine List.monotone_filter_right workers ?_
    intro w hw
    have hstatus := (Bool.and_eq_true_iff.mp hw).1
    simpa [ready] using hstatus
  rw [← List.append_assoc]
  refine (hready.subperm.append hactive.subperm).trans ?_
  exact (List.filter_append_perm ready workers).subperm

theorem take?_eq_takeFirst? (pools : Pools) (algorithm : String) :
    (pools.take? algorithm).map (fun e => (e.1, e.2.items)) =
      takeFirst? (fun item => item.algorithm = algorithm) pools.items := by
  let fits (item : SupplyItem) : Bool := item.algorithm = algorithm
  let ofWorker (w : Worker) : Bool := w.algorithm = algorithm
  let ofEntry (e : LedgerEntry) : Bool := e.algorithm = algorithm
  have hidle : takeFirst? fits (pools.idle.map .idle) = (takeFirst? ofWorker pools.idle).map
      fun e => (.idle e.1, e.2.map .idle) := takeFirst?_map (fun _ => rfl) _
  have hpending : takeFirst? fits (pools.pending.map .pending) =
      (takeFirst? ofWorker pools.pending).map
        fun e => (.pending e.1, e.2.map .pending) := takeFirst?_map (fun _ => rfl) _
  have hledger : takeFirst? fits (pools.ledger.map .ledger) =
      (takeFirst? ofEntry pools.ledger).map
        fun e => (.ledger e.1, e.2.map .ledger) := takeFirst?_map (fun _ => rfl) _
  have hpaused : takeFirst? fits (pools.paused.map .paused) =
      (takeFirst? ofWorker pools.paused).map
        fun e => (.paused e.1, e.2.map .paused) := takeFirst?_map (fun _ => rfl) _
  change _ = takeFirst? fits _
  simp only [items, takeFirst?_append, hidle, hpending, hledger, hpaused]
  unfold take?
  cases takeFirst? ofWorker pools.idle with
  | some e => rfl
  | none =>
    cases takeFirst? ofWorker pools.pending with
    | some e => rfl
    | none =>
      cases takeFirst? ofEntry pools.ledger with
      | some e => rfl
      | none => cases takeFirst? ofWorker pools.paused <;> rfl

section Take
variable {pools rest : Pools} {algorithm : String} {item : SupplyItem}
variable (h : pools.take? algorithm = some (item, rest))
include h

theorem takeFirst?_of_take? :
    takeFirst? (fun item => item.algorithm = algorithm) pools.items = some (item, rest.items) := by
  rw [← take?_eq_takeFirst?, h]
  rfl

theorem algorithm_of_take? : item.algorithm = algorithm := by
  obtain ⟨_, _, _, _, hp, _⟩ := takeFirst?_eq_some_iff.mp (takeFirst?_of_take? h)
  exact of_decide_eq_true hp

theorem items_perm_of_take? : pools.items.Perm (item :: rest.items) :=
  perm_of_takeFirst? (takeFirst?_of_take? h)

theorem active_of_take? : rest.active = pools.active := by
  unfold take? at h
  repeat' split at h
  all_goals cases h <;> rfl

end Take

/-- What the requests take in turn, and the pools left. -/
def serve : Pools → List Request → List SupplyItem × Pools
  | pools, [] => ([], pools)
  | pools, r :: rest =>
    match pools.take? r.algorithm with
    | some (item, left) => (item :: (serve left rest).1, (serve left rest).2)
    | none => serve pools rest

theorem serve_perm (pools : Pools) (requests : List Request) :
    ((pools.serve requests).1 ++ (pools.serve requests).2.items).Perm pools.items := by
  induction requests generalizing pools with
  | nil => exact .refl _
  | cons r rest ih =>
    unfold serve
    split
    · next item left h =>
      exact ((ih left).cons item).trans (items_perm_of_take? h).symm
    · exact ih pools

@[simp] theorem active_serve (pools : Pools) (requests : List Request) :
    (pools.serve requests).2.active = pools.active := by
  induction requests generalizing pools with
  | nil => rfl
  | cons r rest ih =>
    unfold serve
    split
    · next item left h => exact (ih left).trans (active_of_take? h)
    · exact ih pools

end Pools

namespace Assignment
variable {K : Type} [Quantity K] (templates : Templates K) (config : Config K) (now : Millis)

/-- What is staged does not matter to what is handed out. -/
theorem assign_serve (pools : Pools) (factory : JobFactory) (requests : List Request) :
    let a := assign templates config now pools factory requests
    a.scheduled = (pools.serve requests).1.map SupplyItem.schedule ∧
      a.toResume = (pools.serve requests).1.filterMap SupplyItem.resumed? ∧
      a.pools = (pools.serve requests).2 := by
  induction requests generalizing pools factory with
  | nil => exact ⟨rfl, rfl, rfl⟩
  | cons r rest ih =>
    cases h : pools.take? r.algorithm with
    | some taken =>
      obtain ⟨item, left⟩ := taken
      obtain ⟨hscheduled, hresume, hpools⟩ := ih left factory
      simp only [assign, Pools.serve, h]
      refine ⟨?_, ?_, hpools⟩
      · rw [hscheduled, List.map_cons, SupplyItem.schedule, Pools.algorithm_of_take? h]
      · rw [hresume]
        cases item <;> rfl
    | none =>
      simp only [assign, Pools.serve, h]
      split
      · exact ih pools _
      · exact ih pools _

end Assignment

end WorkerFleet
