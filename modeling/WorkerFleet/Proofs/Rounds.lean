import Mathlib.Algebra.Order.BigOperators.Group.List
import Mathlib.Data.List.FinRange
import WorkerFleet.Proofs.Exact
import WorkerFleet.Proofs.Reclaimed
import WorkerFleet.Proofs.Stops

/-!
# Rounds of reclaiming

Each deficit has its round. Again and again it takes the first worker of the pool that is still
there and frees something outstanding, until there is none. Workers may be equal, so a round is
told by positions of the pool. `findStops_reclaims` says that the stops are those of such rounds,
one for each deficit in order. A round is a finite list, so its loop has ended.

The definitions pass over the pool once where a round looks from its start after every worker. The
two agree since no worker takes up less than nothing: what did not help does not help later.
-/

namespace WorkerFleet

namespace Reclaim

section Pool
variable {K : Type} [Quantity K]

/-- The worker may be stopped for the sake of others. -/
structure MayStop (templates : Templates K) (minAge now : Millis) (w : Worker) : Prop where
  notHot : w.hot = false
  notDebug : ∀ t, templates.get? w.algorithm = some t → t.options.debug = false
  oldEnough : ∀ age, w.age? now = some age → minAge.toNat ≤ age
  notIdle : w.age? now = none → w.isIdle = false

omit [Quantity K] in
theorem mayStop_iff {templates : Templates K} {minAge now : Millis} {w : Worker} :
    MayStop templates minAge now w ↔
      (isEligible w now minAge && !isDebug w.algorithm templates) = true := by
  rw [Bool.and_eq_true, Bool.not_eq_true', isDebug, Option.any_eq_false]
  constructor
  · intro h
    refine ⟨?_, ?_⟩
    · rw [isEligible, if_neg (by simp [h.notHot])]
      cases hage : w.age? now with
      | some age => exact decide_eq_true (h.oldEnough age hage)
      | none => exact (Bool.not_eq_true' _).mpr (h.notIdle hage)
    · intro t ht
      simp [h.notDebug t ht]
  · rintro ⟨heligible, hdebug⟩
    have hhot := not_hot_of_isEligible heligible
    rw [isEligible, if_neg (by simp [hhot])] at heligible
    refine ⟨hhot, ?_, ?_, ?_⟩
    · intro t ht
      simpa using hdebug t ht
    · intro age hage
      rw [hage] at heligible
      exact of_decide_eq_true heligible
    · intro hage
      rw [hage] at heligible
      exact (Bool.not_eq_true' _).mp heligible

instance (templates : Templates K) (minAge now : Millis) (w : Worker) :
    Decidable (MayStop templates minAge now w) := decidable_of_iff _ mayStop_iff.symm

/-- The idle workers come first, then the active ones of algorithms without skips, then the other
active ones. Of these the pool has all that may be stopped and take up a known amount. -/
structure IsPool (skipped : List (SkippedJob K)) (idle active : List Worker)
    (templates : Templates K) (defaults : ResourceSpec K) (minAge now : Millis)
    (candidates : List (Worker × Resources K)) : Prop where
  workers : candidates.map (·.1) =
    (idle ++ active.filter (fun w => w.algorithm ∉ skipped.map (·.algorithm))
      ++ active.filter (fun w => w.algorithm ∈ skipped.map (·.algorithm))).filter fun w =>
        MayStop templates minAge now w ∧ (footprint w.algorithm templates defaults).isOk
  footprints : ∀ c ∈ candidates, footprint c.1.algorithm templates defaults = .ok c.2

theorem map_fst_filterMap_toOption {α β ε : Type} (f : α → Except ε β) (xs : List α) :
    (xs.filterMap fun x => (f x).toOption.map (x, ·)).map (·.1) =
      xs.filter fun x => (f x).isOk := by
  induction xs with
  | nil => rfl
  | cons x xs ih =>
    rw [List.filterMap_cons, List.filter_cons]
    cases f x with
    | error e => exact ih
    | ok y => exact congrArg (x :: ·) ih

theorem isPool_pool (skipped : List (SkippedJob K)) (idle active : List Worker)
    (templates : Templates K) (defaults : ResourceSpec K) (minAge now : Millis) :
    IsPool skipped idle active templates defaults minAge now
      (pool (fun a => decide (a ∈ skipped.map (·.algorithm))) idle active templates defaults
        minAge now) := by
  constructor
  · have hmay : ∀ w, decide (MayStop templates minAge now w ∧
        (footprint w.algorithm templates defaults).isOk) =
          ((footprint w.algorithm templates defaults).isOk &&
            (isEligible w now minAge && !isDebug w.algorithm templates)) := by
      intro w
      rw [Bool.and_comm, Bool.eq_iff_iff, decide_eq_true_iff, mayStop_iff]
      exact Bool.and_eq_true_iff.symm
    have hcomm : ∀ x y z : Bool, (x && y && z) = (x && (z && y)) := by decide
    rw [pool, map_fst_filterMap_toOption]
    simp only [hmay, List.filter_append, List.filter_filter, decide_not, hcomm]
  · exact fun _ hc => footprint_of_mem_pool _ _ _ _ _ _ _ hc

end Pool

section Exact

theorem helps_rat_iff {freed needed : Resources Rat} :
    helps freed needed = true ↔ ∃ d, 0 < needed.get d ∧ 0 < freed.get d := by
  rw [helps, List.any_eq_true]
  simp only [Bool.and_eq_true, Quantity.isPositive_rat_iff]
  constructor
  · rintro ⟨d, _, h⟩
    exact ⟨d, h⟩
  · rintro ⟨d, h⟩
    exact ⟨d, d.mem_all, h⟩

theorem nonneg_of_footprint {a : String} {templates : Templates Rat} {defaults : ResourceSpec Rat}
    {r : Resources Rat} (h : footprint a templates defaults = .ok r) (d : Dimension) :
    0 ≤ r.get d := by
  have hd := List.all_eq_true.mp (isRequest_of_footprint h) d d.mem_all
  apply not_lt.mp
  intro hlt
  have hbelow : Quantity.lt (r.get d) Quantity.zero = true := Quantity.lt_rat_iff.mpr hlt
  rw [hbelow] at hd
  cases hd

end Exact

section Positions
variable {candidates : List (Worker × Resources Rat)}

/-- What is left of a need when the workers at the positions `before` have been taken. -/
def remaining (needed : Resources Rat) (before : List (Fin candidates.length)) (d : Dimension) :
    Rat :=
  needed.get d - (before.map fun i => (candidates.get i).2.get d).sum

/-- The worker takes up some of what is outstanding then. -/
def Frees (needed : Resources Rat) (before : List (Fin candidates.length))
    (i : Fin candidates.length) : Prop :=
  ∃ d, 0 < remaining needed before d ∧ 0 < (candidates.get i).2.get d

/-- With the positions `gone` out of the pool, `taken` are taken one by one, each as the first one
left that frees something outstanding, until none that is left does. -/
structure IsGreedy (needed : Resources Rat) (gone taken : List (Fin candidates.length)) :
    Prop where
  inOrder : taken.Pairwise (· < ·)
  frees : ∀ before i after, taken = before ++ i :: after → Frees needed before i
  first : ∀ before i after, taken = before ++ i :: after →
    ∀ j < i, j ∉ gone → j ∉ before → ¬ Frees needed before j
  exhausted : ∀ j, j ∉ gone → j ∉ taken → ¬ Frees needed taken j

structure Round (candidates : List (Worker × Resources Rat)) where
  deficit : Deficit Rat
  taken : List (Fin candidates.length)

def Round.stops (r : Round candidates) : List (Stop Rat) :=
  r.taken.map fun i => ⟨(candidates.get i).1, (candidates.get i).2, r.deficit.algorithm⟩

/-- The stops are those of greedy rounds, one for each deficit, that share no position. -/
structure Reclaims (candidates : List (Worker × Resources Rat)) (ds : List (Deficit Rat))
    (stops : List (Stop Rat)) (rounds : List (Round candidates)) : Prop where
  deficits : rounds.map (·.deficit) = ds
  stops : stops = rounds.flatMap Round.stops
  distinct : (rounds.flatMap (·.taken)).Nodup
  greedy : ∀ earlier r later, rounds = earlier ++ r :: later →
    IsGreedy r.deficit.resources (earlier.flatMap (·.taken)) r.taken

theorem remaining_cons (needed : Resources Rat) (c : Fin candidates.length)
    (before : List (Fin candidates.length)) (d : Dimension) :
    remaining needed (c :: before) d = remaining (needed - (candidates.get c).2) before d := by
  rw [remaining, remaining, List.map_cons, List.sum_cons, Resources.get_sub, sub_sub]

theorem frees_cons_iff {needed : Resources Rat} {c : Fin candidates.length}
    {before : List (Fin candidates.length)} {i : Fin candidates.length} :
    Frees needed (c :: before) i ↔ Frees (needed - (candidates.get c).2) before i := by
  simp only [Frees, remaining_cons]

theorem frees_nil_iff {needed : Resources Rat} {i : Fin candidates.length} :
    Frees needed [] i ↔ helps (candidates.get i).2 needed = true := by
  simp only [Frees, remaining, List.map_nil, List.sum_nil, sub_zero, helps_rat_iff]

/-- What is outstanding only shrinks. -/
theorem Frees.nil (hnonneg : ∀ c ∈ candidates, ∀ d, 0 ≤ c.2.get d) {needed : Resources Rat}
    {before : List (Fin candidates.length)} {i : Fin candidates.length}
    (h : Frees needed before i) : Frees needed [] i := by
  obtain ⟨d, hneeded, hfreed⟩ := h
  refine ⟨d, ?_, hfreed⟩
  have hsum : 0 ≤ (before.map fun i => (candidates.get i).2.get d).sum := by
    apply List.sum_nonneg
    intro x hx
    obtain ⟨j, _, rfl⟩ := List.mem_map.mp hx
    exact hnonneg _ (List.get_mem candidates j) d
  rw [remaining] at hneeded
  rw [remaining, List.map_nil, List.sum_nil, sub_zero]
  linarith

/-- One round over the positions `free`, which parts them into taken ones and left ones. -/
structure Covers (needed : Resources Rat) (free taken left : List (Fin candidates.length)) :
    Prop where
  cover : cover needed (free.map candidates.get) =
    (taken.map candidates.get, left.map candidates.get)
  taken_sublist : taken.Sublist free
  left_sublist : left.Sublist free
  perm : (taken ++ left).Perm free
  frees : ∀ before i after, taken = before ++ i :: after → Frees needed before i
  first : ∀ before i after, taken = before ++ i :: after →
    ∀ j ∈ free, j < i → j ∉ before → ¬ Frees needed before j
  exhausted : ∀ j ∈ left, ¬ Frees needed taken j

theorem Covers.cons_taken {needed : Resources Rat} {c : Fin candidates.length}
    {free taken left : List (Fin candidates.length)} (hc : ∀ j ∈ free, c < j)
    (hhelps : helps (candidates.get c).2 needed = true)
    (h : Covers (needed - (candidates.get c).2) free taken left) :
    Covers needed (c :: free) (c :: taken) left where
  cover := by
    rw [List.map_cons, Reclaim.cover, if_pos hhelps, h.cover]
    rfl
  taken_sublist := h.taken_sublist.cons_cons c
  left_sublist := h.left_sublist.cons c
  perm := h.perm.cons c
  frees := by
    intro before i after hsplit
    cases before with
    | nil =>
      obtain ⟨rfl, _⟩ := List.cons.inj hsplit
      exact frees_nil_iff.mpr hhelps
    | cons b before =>
      obtain ⟨rfl, hlater⟩ := List.cons.inj hsplit
      exact frees_cons_iff.mpr (h.frees before i after hlater)
  first := by
    intro before i after hsplit j hj hlt hbefore
    cases before with
    | nil =>
      obtain ⟨rfl, _⟩ := List.cons.inj hsplit
      rcases List.mem_cons.mp hj with rfl | hj
      · exact absurd hlt (lt_irrefl j)
      · exact absurd hlt (hc j hj).asymm
    | cons b before =>
      obtain ⟨rfl, hlater⟩ := List.cons.inj hsplit
      rw [List.mem_cons, not_or] at hbefore
      rw [frees_cons_iff]
      exact h.first before i after hlater j (List.mem_of_ne_of_mem hbefore.1 hj) hlt hbefore.2
  exhausted := by
    intro j hj
    rw [frees_cons_iff]
    exact h.exhausted j hj

theorem Covers.cons_left (hnonneg : ∀ c ∈ candidates, ∀ d, 0 ≤ c.2.get d)
    {needed : Resources Rat} {c : Fin candidates.length}
    {free taken left : List (Fin candidates.length)}
    (hhelps : ¬ helps (candidates.get c).2 needed = true) (h : Covers needed free taken left) :
    Covers needed (c :: free) taken (c :: left) where
  cover := by
    rw [List.map_cons, Reclaim.cover, if_neg hhelps, h.cover]
    rfl
  taken_sublist := h.taken_sublist.cons c
  left_sublist := h.left_sublist.cons_cons c
  perm := List.perm_middle.trans (h.perm.cons c)
  frees := h.frees
  first := by
    intro before i after hsplit j hj hlt hbefore
    -- It was passed over at the start, when more was outstanding.
    rcases List.mem_cons.mp hj with rfl | hj
    · exact fun hfrees => hhelps (frees_nil_iff.mp (hfrees.nil hnonneg))
    · exact h.first before i after hsplit j hj hlt hbefore
  exhausted := by
    intro j hj
    rcases List.mem_cons.mp hj with rfl | hj
    · exact fun hfrees => hhelps (frees_nil_iff.mp (hfrees.nil hnonneg))
    · exact h.exhausted j hj

theorem exists_covers (hnonneg : ∀ c ∈ candidates, ∀ d, 0 ≤ c.2.get d)
    {free : List (Fin candidates.length)} (hsorted : free.Pairwise (· < ·))
    (needed : Resources Rat) : ∃ taken left, Covers needed free taken left := by
  induction free generalizing needed with
  | nil => exact ⟨[], [], rfl, .refl _, .refl _, .refl _, by simp, by simp, by simp⟩
  | cons c free ih =>
    obtain ⟨hc, hsorted⟩ := List.pairwise_cons.mp hsorted
    by_cases hhelps : helps (candidates.get c).2 needed = true
    · obtain ⟨taken, left, h⟩ := ih hsorted (needed - (candidates.get c).2)
      exact ⟨c :: taken, left, h.cons_taken hc hhelps⟩
    · obtain ⟨taken, left, h⟩ := ih hsorted needed
      exact ⟨taken, c :: left, h.cons_left hnonneg hhelps⟩

theorem Covers.mem_left_iff {needed : Resources Rat}
    {free taken left gone : List (Fin candidates.length)} (h : Covers needed free taken left)
    (hsorted : free.Pairwise (· < ·)) (hfree : ∀ j, j ∈ free ↔ j ∉ gone)
    (j : Fin candidates.length) : j ∈ left ↔ j ∉ gone ++ taken := by
  have hnodup : (taken ++ left).Nodup :=
    h.perm.nodup_iff.mpr (hsorted.imp fun hlt => ne_of_lt hlt)
  rw [List.mem_append, not_or, ← hfree, ← h.perm.mem_iff, List.mem_append]
  constructor
  · intro hj
    exact ⟨.inr hj, fun htaken => (List.nodup_append'.mp hnodup).2.2 htaken hj⟩
  · rintro ⟨hj, hnew⟩
    exact hj.resolve_left hnew

theorem Covers.isGreedy {needed : Resources Rat}
    {free taken left gone : List (Fin candidates.length)} (h : Covers needed free taken left)
    (hsorted : free.Pairwise (· < ·)) (hfree : ∀ j, j ∈ free ↔ j ∉ gone) :
    IsGreedy needed gone taken where
  inOrder := hsorted.sublist h.taken_sublist
  frees := h.frees
  first := by
    intro before i after hsplit j hlt hgone
    exact h.first before i after hsplit j ((hfree j).mpr hgone) hlt
  exhausted := by
    intro j hgone htaken
    apply h.exhausted j
    rw [h.mem_left_iff hsorted hfree, List.mem_append, not_or]
    exact ⟨hgone, htaken⟩

-- By induction over every pool, since a round leaves the pool of the next one.
theorem exists_rounds (hnonneg : ∀ c ∈ candidates, ∀ d, 0 ≤ c.2.get d) (ds : List (Deficit Rat))
    {free gone : List (Fin candidates.length)} (hsorted : free.Pairwise (· < ·))
    (hfree : ∀ j, j ∈ free ↔ j ∉ gone) :
    ∃ rounds : List (Round candidates), rounds.map (·.deficit) = ds ∧
      serve ds (free.map candidates.get) = rounds.flatMap Round.stops ∧
      (rounds.flatMap (·.taken)).Subperm free ∧
      ∀ earlier r later, rounds = earlier ++ r :: later →
        IsGreedy r.deficit.resources (gone ++ earlier.flatMap (·.taken)) r.taken := by
  induction ds generalizing free gone with
  | nil => exact ⟨[], rfl, rfl, List.nil_subperm, by simp⟩
  | cons d ds ih =>
    obtain ⟨taken, left, h⟩ := exists_covers hnonneg hsorted d.resources
    obtain ⟨rounds, hdeficits, hstops, hdistinct, hgreedy⟩ :=
      ih (hsorted.sublist h.left_sublist) (h.mem_left_iff hsorted hfree)
    refine ⟨⟨d, taken⟩ :: rounds, congrArg (d :: ·) hdeficits, ?_, ?_, ?_⟩
    · rw [serve, h.cover, List.flatMap_cons, ← hstops, Round.stops]
      dsimp only
      rw [List.map_map]
      rfl
    · exact ((List.Subperm.refl taken).append hdistinct).trans h.perm.subperm
    · intro earlier r later hsplit
      cases earlier with
      | nil =>
        obtain ⟨rfl, _⟩ := List.cons.inj hsplit
        rw [List.flatMap_nil, List.append_nil]
        exact h.isGreedy hsorted hfree
      | cons e earlier =>
        obtain ⟨rfl, hlater⟩ := List.cons.inj hsplit
        rw [List.flatMap_cons, ← List.append_assoc]
        exact hgreedy earlier r later hlater

theorem Reclaims.mem_candidates {ds : List (Deficit Rat)} {stops : List (Stop Rat)}
    {rounds : List (Round candidates)} (h : Reclaims candidates ds stops rounds) {s : Stop Rat}
    (hs : s ∈ stops) : (s.worker, s.resources) ∈ candidates := by
  rw [h.stops] at hs
  obtain ⟨r, _, hs⟩ := List.mem_flatMap.mp hs
  obtain ⟨i, _, rfl⟩ := List.mem_map.mp hs
  exact List.get_mem candidates i

theorem exists_reclaims (hnonneg : ∀ c ∈ candidates, ∀ d, 0 ≤ c.2.get d)
    (ds : List (Deficit Rat)) :
    ∃ rounds, Reclaims candidates ds (serve ds candidates) rounds := by
  have hfree : ∀ j, j ∈ List.finRange candidates.length ↔ j ∉ [] := by simp
  obtain ⟨rounds, hdeficits, hstops, hdistinct, hgreedy⟩ :=
    exists_rounds hnonneg ds (List.pairwise_lt_finRange candidates.length) hfree
  rw [List.map_get_finRange] at hstops
  refine ⟨rounds, hdeficits, hstops, ?_, hgreedy⟩
  exact nodup_of_subperm hdistinct (List.nodup_finRange candidates.length)

end Positions

end Reclaim

end WorkerFleet
