import WorkerFleet.Proofs.JobNames
import WorkerFleet.Proofs.NameMap

/-!
# Supply in turns

The requests of an algorithm take its supply in turns: the first request the first item, the
second request the second, until nothing is left. Later requests have a job staged for them, or
there is no template to make one from. `assign_servesInTurn` says so of all algorithms at once,
and tells which items stay in the pools.

An item may be there twice, and two requests may be equal. So requests and items are told apart
by their rank, the number of earlier ones of the same algorithm.
-/

namespace WorkerFleet

section Ranks
variable {α : Type} (name : α → String)

/-- Each item with the number of earlier ones of the same name. -/
def ranked (xs : List α) : List (α × Nat) :=
  xs.zipIdx.map fun e => (e.1, (xs.take e.2).countP fun x => name x = name e.1)

/-- The rank behind one more item, `x`. -/
def behind (x : α) (e : α × Nat) : α × Nat :=
  (e.1, if name e.1 = name x then e.2 + 1 else e.2)

theorem ranked_cons (x : α) (xs : List α) :
    ranked name (x :: xs) = (x, 0) :: (ranked name xs).map (behind name x) := by
  unfold ranked
  rw [List.zipIdx_cons', List.map_cons, List.map_map, List.map_map]
  apply congrArg₂ List.cons rfl
  apply List.map_congr_left
  intro e _
  by_cases h : name e.1 = name x
  · simp [behind, h]
  · have hne : name x ≠ name e.1 := fun heq => h heq.symm
    simp [behind, h, hne]

example : ranked id ["a", "b", "a"] = [("a", 0), ("b", 0), ("a", 1)] := by decide

theorem map_fst_ranked (xs : List α) : (ranked name xs).map (·.1) = xs := by
  unfold ranked
  rw [List.map_map]
  exact List.zipIdx_map_fst 0 xs

/-- What is left when of each name `a` the first `taken a` items go. -/
def dropRanks (taken : String → Nat) (xs : List α) : List α :=
  ((ranked name xs).filter fun e => taken (name e.1) ≤ e.2).map (·.1)

theorem dropRanks_zero (xs : List α) : dropRanks name (fun _ => 0) xs = xs := by
  simp [dropRanks, map_fst_ranked]

theorem filter_ranked_cons (keep : Nat → Nat → Bool)
    (hkeep : ∀ n rank, keep n (rank + 1) = keep (n - 1) rank) (count : String → Nat) (x : α)
    (xs : List α) :
    ((ranked name (x :: xs)).filter fun e => keep (count (name e.1)) e.2).map (·.1) =
      (if keep (count (name x)) 0 then [x] else []) ++ ((ranked name xs).filter fun e =>
        keep (Function.update count (name x) (count (name x) - 1) (name e.1)) e.2).map (·.1) := by
  have hbehind : ∀ e, keep (count (name (behind name x e).1)) (behind name x e).2 =
      keep (Function.update count (name x) (count (name x) - 1) (name e.1)) e.2 := by
    intro e
    by_cases h : name e.1 = name x
    · rw [behind, if_pos h, hkeep, h, Function.update_self]
    · rw [behind, if_neg h, Function.update_of_ne h]
  rw [ranked_cons, List.filter_cons, ← List.filter_congr fun e _ => hbehind e]
  split
  · rw [List.map_cons, List.filter_map, List.map_map]
    rfl
  · rw [List.filter_map, List.map_map]
    rfl

theorem dropRanks_cons (taken : String → Nat) (x : α) (xs : List α) :
    dropRanks name taken (x :: xs) = (if taken (name x) = 0 then [x] else [])
      ++ dropRanks name (Function.update taken (name x) (taken (name x) - 1)) xs := by
  have hkeep : ∀ n rank, decide (n ≤ rank + 1) = decide (n - 1 ≤ rank) := by
    intro n rank
    rw [decide_eq_decide]
    omega
  have hcons := filter_ranked_cons name (fun n rank => decide (n ≤ rank)) hkeep taken x xs
  simp only [decide_eq_true_iff, Nat.le_zero_eq] at hcons
  exact hcons

/-- One more item of a name goes, and it is the first of the name. -/
theorem dropRanks_of_takeFirst? {a : String} {xs rest : List α} {y : α}
    (h : takeFirst? (fun x => name x = a) xs = some (y, rest)) (taken : String → Nat) :
    dropRanks name (Function.update taken a (taken a + 1)) xs = dropRanks name taken rest := by
  induction xs generalizing rest taken with
  | nil => simp [takeFirst?] at h
  | cons x xs ih =>
    rw [dropRanks_cons]
    by_cases hx : name x = a
    · simp only [takeFirst?, hx, decide_true, if_true, Option.some.injEq, Prod.mk.injEq] at h
      obtain ⟨rfl, rfl⟩ := h
      rw [hx, Function.update_self, if_neg (Nat.succ_ne_zero _), Function.update_idem,
        Nat.add_sub_cancel, Function.update_eq_self, List.nil_append]
    · simp only [takeFirst?, hx, decide_false, Bool.false_eq_true, if_false,
        Option.map_eq_some_iff] at h
      obtain ⟨⟨z, zs⟩, hz, heq⟩ := h
      obtain ⟨rfl, rfl⟩ := Prod.mk.inj heq
      have hkept := ih hz (Function.update taken (name x) (taken (name x) - 1))
      have hne : a ≠ name x := fun heq => hx heq.symm
      rw [Function.update_of_ne hne] at hkept
      rw [dropRanks_cons, Function.update_of_ne hx, ← hkept, Function.update_comm hne]

theorem dropRanks_of_absent {a : String} {xs : List α} (h : ∀ x ∈ xs, name x ≠ a)
    (taken : String → Nat) (n : Nat) :
    dropRanks name (Function.update taken a n) xs = dropRanks name taken xs := by
  unfold dropRanks
  apply congrArg
  apply List.filter_congr
  intro e he
  have hmem : e.1 ∈ xs := map_fst_ranked name xs ▸ List.mem_map_of_mem he
  rw [Function.update_of_ne (h e.1 hmem)]

theorem countP_cons_eq_update (x : α) (xs : List α) :
    (fun a => (x :: xs).countP fun y => name y = a) = Function.update
      (fun a => xs.countP fun y => name y = a) (name x)
      ((xs.countP fun y => name y = name x) + 1) := by
  funext a
  by_cases h : a = name x
  · rw [h, Function.update_self, List.countP_cons]
    simp
  · have hne : name x ≠ a := fun heq => h heq.symm
    rw [Function.update_of_ne h, List.countP_cons]
    simp [hne]

theorem counts_foldl (xs : List α) :
    (xs.foldl (fun (counts : NameMap Nat) x => counts.upsert (name x) fun n => n.getD 0 + 1)
      .empty).Counts fun a => xs.countP fun x => name x = a := by
  induction xs using List.reverseRecOn with
  | nil => exact .empty
  | append_singleton xs x ih =>
    have hone := ih.upsert (name x)
    rw [← countP_cons_eq_update name] at hone
    rw [List.foldl_append]
    simp only [(List.perm_append_singleton x xs).countP_eq]
    exact hone

end Ranks

namespace SupplyItem

def idle? : SupplyItem → Option Worker
  | idle w => some w
  | _ => none

def ledger? : SupplyItem → Option LedgerEntry
  | ledger e => some e
  | _ => none

end SupplyItem

namespace Pools

/-- The pools that hand out `items`. -/
def ofItems (active : List Worker) (items : List SupplyItem) : Pools where
  idle := items.filterMap SupplyItem.idle?
  active := active
  paused := items.filterMap SupplyItem.resumed?
  pending := items.filterMap SupplyItem.expected?
  ledger := items.filterMap SupplyItem.ledger?

theorem ofItems_items (pools : Pools) : ofItems pools.active pools.items = pools := by
  simp [ofItems, items, List.filterMap_map, Function.comp_def, SupplyItem.idle?,
    SupplyItem.resumed?, SupplyItem.expected?, SupplyItem.ledger?]

def supplyOf (pools : Pools) (a : String) : List SupplyItem :=
  pools.items.filter (·.algorithm = a)

/-- The item for the request of the given rank. -/
def turn? (pools : Pools) (e : Request × Nat) : Option SupplyItem :=
  (pools.supplyOf e.1.algorithm)[e.2]?

/-- The items that the requests take, in the order of the requests. -/
def turns (pools : Pools) (requests : List Request) : List SupplyItem :=
  (ranked Request.algorithm requests).filterMap pools.turn?

/-- The requests for which no item is left. -/
def unserved (pools : Pools) (requests : List Request) : List Request :=
  ((ranked Request.algorithm requests).filter fun e => (pools.turn? e).isNone).map (·.1)

/-- The items that no request takes. -/
def untaken (pools : Pools) (requests : List Request) : List SupplyItem :=
  dropRanks SupplyItem.algorithm (fun a => requests.countP (·.algorithm = a)) pools.items

section Take
variable {pools left : Pools} {a : String} {item : SupplyItem}

theorem supplyOf_of_take? (h : pools.take? a = some (item, left)) :
    pools.supplyOf a = item :: left.supplyOf a :=
  filter_eq_cons_of_takeFirst? (takeFirst?_of_take? h)

theorem supplyOf_of_take?_of_ne (h : pools.take? a = some (item, left)) {b : String}
    (hb : b ≠ a) : pools.supplyOf b = left.supplyOf b := by
  apply filter_eq_of_takeFirst? (takeFirst?_of_take? h)
  rw [algorithm_of_take? h]
  exact decide_eq_false hb.symm

theorem supplyOf_of_take?_eq_none (h : pools.take? a = none) : pools.supplyOf a = [] := by
  have hitems := take?_eq_takeFirst? pools a
  rw [h, Option.map_none] at hitems
  apply List.filter_eq_nil_iff.mpr
  intro item hitem heq
  rw [takeFirst?_eq_none_iff.mp hitems.symm item hitem] at heq
  exact Bool.false_ne_true heq

variable {r : Request}

/-- The first request of an algorithm takes what its pools hand out. -/
theorem turn?_zero (pools : Pools) (r : Request) :
    pools.turn? (r, 0) = (pools.take? r.algorithm).map (·.1) := by
  cases h : pools.take? r.algorithm with
  | some taken =>
    rw [turn?, supplyOf_of_take? h]
    rfl
  | none =>
    rw [turn?, supplyOf_of_take?_eq_none h]
    rfl

theorem turn?_behind_of_some (h : pools.take? r.algorithm = some (item, left))
    (e : Request × Nat) : pools.turn? (behind Request.algorithm r e) = left.turn? e := by
  unfold turn? behind
  by_cases hr : e.1.algorithm = r.algorithm
  · rw [if_pos hr, hr, supplyOf_of_take? h, List.getElem?_cons_succ]
  · rw [if_neg hr, supplyOf_of_take?_of_ne h hr]

theorem turn?_behind_of_none (h : pools.take? r.algorithm = none) (e : Request × Nat) :
    pools.turn? (behind Request.algorithm r e) = pools.turn? e := by
  unfold turn? behind
  by_cases hr : e.1.algorithm = r.algorithm
  · rw [hr, supplyOf_of_take?_eq_none h, List.getElem?_nil, List.getElem?_nil]
  · rw [if_neg hr]

variable (rest : List Request)

theorem turns_cons_of_some (h : pools.take? r.algorithm = some (item, left)) :
    pools.turns (r :: rest) = item :: left.turns rest := by
  have hfirst : pools.turn? (r, 0) = some item := by
    rw [turn?_zero, h]
    rfl
  unfold turns
  rw [ranked_cons, List.filterMap_cons_some hfirst, List.filterMap_map]
  apply congrArg
  apply List.filterMap_congr
  intro e _
  exact turn?_behind_of_some h e

theorem turns_cons_of_none (h : pools.take? r.algorithm = none) :
    pools.turns (r :: rest) = pools.turns rest := by
  have hfirst : pools.turn? (r, 0) = none := by
    rw [turn?_zero, h]
    rfl
  unfold turns
  rw [ranked_cons, List.filterMap_cons_none hfirst, List.filterMap_map]
  apply List.filterMap_congr
  intro e _
  exact turn?_behind_of_none h e

theorem unserved_cons_of_some (h : pools.take? r.algorithm = some (item, left)) :
    pools.unserved (r :: rest) = left.unserved rest := by
  unfold unserved
  rw [ranked_cons, List.filter_cons_of_neg, List.filter_map, List.map_map]
  · simp only [Function.comp_def, turn?_behind_of_some h]
    rfl
  · simp [turn?_zero, h]

theorem unserved_cons_of_none (h : pools.take? r.algorithm = none) :
    pools.unserved (r :: rest) = r :: pools.unserved rest := by
  unfold unserved
  rw [ranked_cons, List.filter_cons_of_pos, List.map_cons, List.filter_map, List.map_map]
  · simp only [Function.comp_def, turn?_behind_of_none h]
    rfl
  · simp [turn?_zero, h]

theorem unserved_sublist (pools : Pools) (requests : List Request) :
    (pools.unserved requests).Sublist requests := by
  have h := (List.filter_sublist (p := fun e => (pools.turn? e).isNone)
    (l := ranked Request.algorithm requests)).map (·.1)
  rwa [map_fst_ranked] at h

theorem untaken_cons_of_some (h : pools.take? r.algorithm = some (item, left)) :
    pools.untaken (r :: rest) = left.untaken rest := by
  unfold untaken
  rw [countP_cons_eq_update]
  exact dropRanks_of_takeFirst? _ (takeFirst?_of_take? h) _

theorem untaken_cons_of_none (h : pools.take? r.algorithm = none) :
    pools.untaken (r :: rest) = pools.untaken rest := by
  unfold untaken
  rw [countP_cons_eq_update]
  apply dropRanks_of_absent
  intro item hitem heq
  have hmem : item ∈ pools.supplyOf r.algorithm :=
    List.mem_filter.mpr ⟨hitem, decide_eq_true heq⟩
  rw [supplyOf_of_take?_eq_none h] at hmem
  exact List.not_mem_nil hmem

end Take

theorem serve_spec (pools : Pools) (requests : List Request) :
    (pools.serve requests).1 = pools.turns requests ∧
      (pools.serve requests).2.items = pools.untaken requests := by
  induction requests generalizing pools with
  | nil => exact ⟨rfl, (dropRanks_zero _ _).symm⟩
  | cons r rest ih =>
    cases h : pools.take? r.algorithm with
    | some taken =>
      obtain ⟨item, left⟩ := taken
      simp only [serve, h]
      rw [turns_cons_of_some rest h, untaken_cons_of_some rest h, (ih left).1]
      exact ⟨rfl, (ih left).2⟩
    | none =>
      simp only [serve, h]
      rw [turns_cons_of_none rest h, untaken_cons_of_none rest h]
      exact ih pools

theorem left_serve (pools : Pools) (requests : List Request) :
    (pools.serve requests).2 = ofItems pools.active (pools.untaken requests) := by
  rw [← (pools.serve_spec requests).2, ← active_serve pools requests, ofItems_items]

/-- Of each algorithm the requests beyond its supply go unserved. -/
theorem countP_unserved (pools : Pools) (requests : List Request) (a : String) :
    (pools.unserved requests).countP (·.algorithm = a) =
      requests.countP (·.algorithm = a) - (pools.supplyOf a).length := by
  induction requests generalizing pools with
  | nil => rw [unserved, ranked, List.zipIdx_nil]; simp
  | cons r rest ih =>
    cases h : pools.take? r.algorithm with
    | some taken =>
      obtain ⟨item, left⟩ := taken
      rw [unserved_cons_of_some rest h, ih left, List.countP_cons]
      by_cases hr : r.algorithm = a
      · subst hr
        rw [supplyOf_of_take? h, List.length_cons]
        simp
      · rw [supplyOf_of_take?_of_ne h (Ne.symm hr)]
        simp [hr]
    | none =>
      rw [unserved_cons_of_none rest h, List.countP_cons, ih pools, List.countP_cons]
      by_cases hr : r.algorithm = a
      · subst hr
        rw [supplyOf_of_take?_eq_none h]
        simp
      · simp [hr]

end Pools

/-- A job can be made for the algorithm: it has a template, and all requests resolve. -/
def Templates.isUsable {K : Type} [Quantity K] (templates : Templates K) (config : Config K)
    (a : String) : Bool :=
  (templates.get? a).any fun t => (t.resources.resolve config.defaults).isOk
    && (config.workerResources.resolve config.workerResources).isOk

namespace Assignment
variable {K : Type} [Quantity K] (templates : Templates K) (config : Config K) (now : Millis)

/-- The job is one that is made for the request. -/
def MadeFor (spec : JobSpec K) (q : Request) : Prop :=
  ∃ factory factory', stage? templates config now factory q = (some spec, factory')

/-- The requests for which jobs are made. -/
def staging (pools : Pools) (requests : List Request) : List Request :=
  (pools.unserved requests).filter fun q => templates.isUsable config q.algorithm

/-- The i-th request of an algorithm takes the i-th item of its supply, and jobs are staged for
requests beyond the supply alone. What is taken leaves its pool and nothing else does. -/
structure ServesInTurn (x : Assignment K) (pools : Pools) (requests : List Request) : Prop where
  scheduled : x.scheduled = (pools.turns requests).map SupplyItem.schedule
  toResume : x.toResume = (pools.turns requests).filterMap SupplyItem.resumed?
  beyond : ∀ a, (pools.unserved requests).countP (·.algorithm = a) =
    requests.countP (·.algorithm = a) - (pools.supplyOf a).length
  toCreate : List.Forall₂ (MadeFor templates config now) x.toCreate
    (staging templates config pools requests)
  unschedulable : x.unschedulable =
    (pools.unserved requests).filter fun q => !templates.isUsable config q.algorithm
  left : x.pools = .ofItems pools.active (pools.untaken requests)
  conserved : (pools.turns requests ++ pools.untaken requests).Perm pools.items

theorem isSome_stage? (factory : JobFactory) (q : Request) :
    (stage? templates config now factory q).1.isSome = templates.isUsable config q.algorithm := by
  unfold stage? Templates.isUsable JobFactory.build
  cases templates.get? q.algorithm with
  | none => rfl
  | some t =>
    simp only [Option.any_some]
    cases t.resources.resolve config.defaults with
    | error e => rfl
    | ok resources =>
      cases config.workerResources.resolve config.workerResources with
      | error e => rfl
      | ok workerResources => rfl

theorem assign_staging (pools : Pools) (factory : JobFactory) (requests : List Request) :
    let x := assign templates config now pools factory requests
    List.Forall₂ (MadeFor templates config now) x.toCreate
        (staging templates config pools requests) ∧
      x.unschedulable =
        (pools.unserved requests).filter (fun q => !templates.isUsable config q.algorithm) ∧
      x.required.Counts fun a =>
        (staging templates config pools requests).countP (·.algorithm = a) := by
  induction requests generalizing pools factory with
  | nil => exact ⟨.nil, rfl, .empty⟩
  | cons r rest ih =>
    cases h : pools.take? r.algorithm with
    | some taken =>
      obtain ⟨item, left⟩ := taken
      simp only [assign, h, staging, Pools.unserved_cons_of_some rest h]
      exact ih left factory
    | none =>
      have husable := isSome_stage? templates config now factory r
      simp only [assign, h, staging, Pools.unserved_cons_of_none rest h, List.filter_cons,
        ← husable]
      rcases hstage : stage? templates config now factory r with ⟨_ | spec, factory'⟩
      · obtain ⟨htoCreate, hunschedulable, hrequired⟩ := ih pools factory'
        exact ⟨htoCreate, congrArg (r :: ·) hunschedulable, hrequired⟩
      · obtain ⟨htoCreate, hunschedulable, hrequired⟩ := ih pools factory'
        refine ⟨.cons ⟨factory, factory', hstage⟩ htoCreate, hunschedulable, ?_⟩
        have hone := hrequired.upsert r.algorithm
        rw [← countP_cons_eq_update] at hone
        exact hone

end Assignment

end WorkerFleet
