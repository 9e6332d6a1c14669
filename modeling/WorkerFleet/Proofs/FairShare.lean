import Mathlib.Data.Nat.Find
import Mathlib.Order.Bounds.Basic
import WorkerFleet.Proofs.Stuck
import WorkerFleet.Proofs.Turns

/-!
# Fair cuts

A share has room until as many are admitted as are required. So of each algorithm the first
requests are admitted, up to its quota, and none after one that was cut. No law of the numbers is
used, so the capacity may as well be infinite, below zero, or no number.
-/

namespace WorkerFleet

section TakeRanks
variable {α : Type} (name : α → String)

/-- Of each name `a` the first `quota a` items. -/
def takeRanks (quota : String → Nat) (xs : List α) : List α :=
  ((ranked name xs).filter fun e => e.2 < quota (name e.1)).map (·.1)

theorem takeRanks_cons (quota : String → Nat) (x : α) (xs : List α) :
    takeRanks name quota (x :: xs) = (if 0 < quota (name x) then [x] else [])
      ++ takeRanks name (Function.update quota (name x) (quota (name x) - 1)) xs := by
  have hkeep : ∀ n rank, decide (rank + 1 < n) = decide (rank < n - 1) := by
    intro n rank
    rw [decide_eq_decide]
    omega
  have hcons := filter_ranked_cons name (fun n rank => decide (rank < n)) hkeep quota x xs
  simp only [decide_eq_true_iff] at hcons
  exact hcons

theorem takeRanks_cons_of_pos {quota : String → Nat} {x : α} (h : 0 < quota (name x))
    (xs : List α) : takeRanks name quota (x :: xs) =
      x :: takeRanks name (Function.update quota (name x) (quota (name x) - 1)) xs := by
  rw [takeRanks_cons, if_pos h]
  rfl

theorem takeRanks_cons_of_zero {quota : String → Nat} {x : α} (h : quota (name x) = 0)
    (xs : List α) : takeRanks name quota (x :: xs) = takeRanks name quota xs := by
  rw [takeRanks_cons, h, if_neg (Nat.lt_irrefl 0), Nat.zero_sub, List.nil_append, ← h,
    Function.update_eq_self]

theorem filter_takeRanks (quota : String → Nat) (xs : List α) (a : String) :
    (takeRanks name quota xs).filter (name · = a) = (xs.filter (name · = a)).take (quota a) := by
  induction xs generalizing quota with
  | nil => rw [List.filter_nil, List.take_nil]; rfl
  | cons x xs ih =>
    rcases Nat.eq_zero_or_pos (quota (name x)) with hzero | hpos
    · rw [takeRanks_cons_of_zero name hzero, ih]
      by_cases h : name x = a
      · rw [← h, hzero, List.take_zero, List.take_zero]
      · rw [List.filter_cons_of_neg (by simpa using h)]
    · rw [takeRanks_cons_of_pos name hpos]
      by_cases h : name x = a
      · rw [List.filter_cons_of_pos (by simpa using h), List.filter_cons_of_pos (by simpa using h),
          ih, ← h, Function.update_self, List.take_cons hpos]
      · rw [List.filter_cons_of_neg (by simpa using h), List.filter_cons_of_neg (by simpa using h),
          ih, Function.update_of_ne (Ne.symm h)]

end TakeRanks

namespace FairShare
variable {K : Type} [Quantity K]

/-- With `admitted` requests in, there is room for `k` more. -/
def Fits (required : K) (admitted k : Nat) : Prop :=
  ∀ j < k, Quantity.lt (Quantity.ofNat (admitted + j)) required = true

instance (required : K) (admitted : Nat) : DecidablePred (Fits required admitted) := fun k =>
  inferInstanceAs (Decidable (∀ j < k, _))

/-- How many of `waiting` requests there is room for. -/
def room (required : K) (admitted waiting : Nat) : Nat :=
  Nat.findGreatest (Fits required admitted) waiting

theorem isGreatest_room (required : K) (admitted waiting : Nat) :
    IsGreatest {k | k ≤ waiting ∧ Fits required admitted k} (room required admitted waiting) := by
  have hnone : Fits required admitted 0 := fun j hj => absurd hj (Nat.not_lt_zero j)
  refine ⟨⟨Nat.findGreatest_le waiting, Nat.findGreatest_spec (Nat.zero_le waiting) hnone⟩, ?_⟩
  rintro k ⟨hle, hfits⟩
  exact Nat.le_findGreatest hle hfits

theorem fits_succ_iff {required : K} {admitted k : Nat} : Fits required admitted (k + 1) ↔
    Quantity.lt (Quantity.ofNat admitted) required = true ∧ Fits required (admitted + 1) k := by
  unfold Fits
  rw [Nat.forall_lt_succ_left']
  simp only [Nat.add_zero, Nat.add_right_comm, Nat.add_assoc]

theorem room_eq_zero {required : K} {admitted : Nat}
    (h : ¬ Quantity.lt (Quantity.ofNat admitted) required = true) (waiting : Nat) :
    room required admitted waiting = 0 := by
  apply Nat.findGreatest_eq_zero_iff.mpr
  intro k hpos _ hfits
  exact h (hfits 0 hpos)

theorem room_succ {required : K} {admitted : Nat}
    (h : Quantity.lt (Quantity.ofNat admitted) required = true) (waiting : Nat) :
    room required admitted (waiting + 1) = room required (admitted + 1) waiting + 1 := by
  apply (isGreatest_room required admitted (waiting + 1)).unique
  obtain ⟨⟨hle, hfits⟩, hmax⟩ := isGreatest_room required (admitted + 1) waiting
  refine ⟨⟨Nat.succ_le_succ hle, fits_succ_iff.mpr ⟨h, hfits⟩⟩, ?_⟩
  rintro k ⟨hk, hkfits⟩
  cases k with
  | zero => exact Nat.zero_le _
  | succ k =>
    exact Nat.succ_le_succ (hmax ⟨Nat.le_of_succ_le_succ hk, (fits_succ_iff.mp hkfits).2⟩)

/-- How many of the requests of an algorithm the shares admit. -/
def rooms (shares : NameMap (Share K)) (requests : List Request) (a : String) : Nat :=
  (shares.get? a).elim 0 fun s => room s.required s.admitted (requests.countP (·.algorithm = a))

section Step
variable {shares : NameMap (Share K)} {r : Request} {s : Share K} (rest : List Request)

theorem rooms_eq_zero {a : String}
    (h : ∀ s, shares.get? a = some s → ¬ Share.hasRoom s = true) (requests : List Request) :
    rooms shares requests a = 0 := by
  unfold rooms
  cases hget : shares.get? a with
  | none => rfl
  | some s => exact room_eq_zero (h s hget) _

theorem rooms_cons_of_ne {a : String} (h : a ≠ r.algorithm) :
    rooms shares (r :: rest) a = rooms shares rest a := by
  unfold rooms
  rw [List.countP_cons_of_neg (by simpa using h.symm)]

theorem rooms_cons_of_full
    (h : ∀ s, shares.get? r.algorithm = some s → ¬ Share.hasRoom s = true) :
    rooms shares (r :: rest) = rooms shares rest := by
  funext a
  by_cases ha : a = r.algorithm
  · rw [ha, rooms_eq_zero h, rooms_eq_zero h]
  · exact rooms_cons_of_ne rest ha

theorem rooms_cons_of_hasRoom (h : shares.get? r.algorithm = some s)
    (hroom : Share.hasRoom s = true) :
    let next := shares.insert r.algorithm { s with admitted := s.admitted + 1 }
    rooms shares (r :: rest) =
      Function.update (rooms next rest) r.algorithm (rooms next rest r.algorithm + 1) := by
  intro next
  funext a
  by_cases ha : a = r.algorithm
  · subst ha
    rw [Function.update_self, rooms, rooms, h, NameMap.get?_insert, if_pos rfl, Option.elim_some,
      Option.elim_some, List.countP_cons_of_pos (by simp)]
    exact room_succ hroom _
  · rw [Function.update_of_ne ha, rooms_cons_of_ne rest ha, rooms, rooms, NameMap.get?_insert,
      if_neg (Ne.symm ha)]

end Step

/-- Of each algorithm the first requests are admitted, as many as its share has room for. -/
theorem fill_spec (shares : NameMap (Share K)) (requests : List Request) :
    (fill shares requests).1 = takeRanks Request.algorithm (rooms shares requests) requests ∧
      ∀ a, (fill shares requests).2.get? a = (shares.get? a).map fun s =>
        { s with admitted := s.admitted + rooms shares requests a } := by
  induction requests generalizing shares with
  | nil =>
    refine ⟨rfl, ?_⟩
    intro a
    cases h : shares.get? a with
    | none => rw [fill, h]; rfl
    | some s => rw [fill, rooms, h]; rfl
  | cons r rest ih =>
    by_cases hfull : ∀ s, shares.get? r.algorithm = some s → ¬ Share.hasRoom s = true
    · have hskip : fill shares (r :: rest) = fill shares rest := by
        rw [fill]
        cases h : shares.get? r.algorithm with
        | none => rfl
        | some s => exact if_neg (hfull s h)
      rw [hskip, rooms_cons_of_full rest hfull,
        takeRanks_cons_of_zero Request.algorithm (rooms_eq_zero hfull rest)]
      exact ih shares
    -- One more is in, and the share has room for one less.
    · push Not at hfull
      obtain ⟨s, h, hroom⟩ := hfull
      have hrooms := rooms_cons_of_hasRoom rest h hroom
      obtain ⟨hadmitted, hshares⟩ :=
        ih (shares.insert r.algorithm { s with admitted := s.admitted + 1 })
      rw [fill, h]
      dsimp only at hrooms ⊢
      rw [if_pos hroom]
      constructor
      · rw [takeRanks_cons_of_pos, hrooms, Function.update_self, Nat.add_sub_cancel,
          Function.update_idem, Function.update_eq_self, hadmitted]
        rw [hrooms, Function.update_self]
        exact Nat.succ_pos _
      · intro a
        rw [hshares, hrooms, NameMap.get?_insert]
        by_cases ha : r.algorithm = a
        · rw [if_pos ha, ← ha, h, Function.update_self, Option.map_some, Option.map_some,
            Nat.add_right_comm]
          rfl
        · rw [if_neg ha, Function.update_of_ne (Ne.symm ha)]

section Cut
variable (requests : List Request) (capacity : K)

def required (a : String) : K :=
  Quantity.ofNat (requests.countP (·.algorithm = a)) / Quantity.ofNat requests.length * capacity

def quota (a : String) : Nat :=
  room (required requests capacity a) 0 (requests.countP (·.algorithm = a))

/-- The share of an algorithm when so many of its requests are in. -/
def account (a : String) (admitted : Nat) : Share K where
  count := requests.countP (·.algorithm = a)
  ratio := Quantity.ofNat (requests.countP (·.algorithm = a)) / Quantity.ofNat requests.length
  required := required requests capacity a
  admitted := admitted

/-- Of each algorithm the first requests are admitted, as many as are below what it requires. -/
structure CutsByQuota (c : FairCut K) : Prop where
  greatest : ∀ a, IsGreatest {k | k ≤ requests.countP (·.algorithm = a) ∧
    ∀ j < k, Quantity.lt (Quantity.ofNat j) (required requests capacity a) = true}
      (quota requests capacity a)
  byRank : c.admitted = takeRanks Request.algorithm (quota requests capacity) requests
  firstOnes : ∀ a, c.admitted.filter (·.algorithm = a) =
    (requests.filter (·.algorithm = a)).take (quota requests capacity a)
  inOrder : c.admitted.Sublist requests
  shares : ∀ a, c.shares.get? a = if requests.countP (·.algorithm = a) = 0 then none
    else some (account requests capacity a (quota requests capacity a))
  dropped : c.admitted.length + c.dropped = requests.length

theorem get?_shares (a : String) : (shares requests capacity).get? a =
    if requests.countP (·.algorithm = a) = 0 then none
    else some (account requests capacity a 0) := by
  have htally : (tally requests).Counts fun a => requests.countP (·.algorithm = a) :=
    counts_foldl Request.algorithm requests
  rw [shares, NameMap.get?_map, htally a]
  by_cases h : requests.countP (·.algorithm = a) = 0
  · rw [if_pos h, if_pos h]
    rfl
  · rw [if_neg h, if_neg h]
    rfl

theorem rooms_shares : rooms (shares requests capacity) requests = quota requests capacity := by
  funext a
  rw [rooms, get?_shares, quota]
  by_cases h : requests.countP (·.algorithm = a) = 0
  · rw [if_pos h, h]
    rfl
  · rw [if_neg h]
    rfl

theorem get?_shares_cut (a : String) : (cut requests capacity).shares.get? a =
    if requests.countP (·.algorithm = a) = 0 then none
    else some (account requests capacity a (quota requests capacity a)) := by
  have hshares := (fill_spec (shares requests capacity) requests).2 a
  rw [rooms_shares, get?_shares] at hshares
  apply hshares.trans
  by_cases h : requests.countP (·.algorithm = a) = 0
  · rw [if_pos h, if_pos h]
    rfl
  · rw [if_neg h, if_neg h, Option.map_some, account, Nat.zero_add]
    rfl

theorem cut_cutsByQuota : CutsByQuota requests capacity (cut requests capacity) := by
  have hrooms := (fill_spec (shares requests capacity) requests).1
  rw [rooms_shares] at hrooms
  have hadmitted : (cut requests capacity).admitted =
      takeRanks Request.algorithm (quota requests capacity) requests := hrooms
  have hsublist := admitted_cut_sublist requests capacity
  refine {
    greatest := ?_
    byRank := hadmitted
    firstOnes := ?_
    inOrder := hsublist
    shares := get?_shares_cut requests capacity
    dropped := Nat.add_sub_of_le hsublist.length_le }
  · intro a
    have hgreatest := isGreatest_room (required requests capacity a) 0
      (requests.countP (·.algorithm = a))
    simp only [Fits, Nat.zero_add] at hgreatest
    exact hgreatest
  · intro a
    rw [hadmitted]
    exact filter_takeRanks Request.algorithm _ requests a

end Cut

/-- Of two workers `b` requires half a one, so its request is admitted. -/
example : ((cut (["a", "b", "a", "a"].map fun name => ⟨name, false, 0⟩) (2 : Rat)).admitted.map
    (·.algorithm)) = ["a", "b", "a"] := by decide +kernel

end FairShare

end WorkerFleet
