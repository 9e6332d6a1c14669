import WorkerFleet.Proofs.Deficits
import WorkerFleet.Proofs.Sample
import WorkerFleet.Proofs.Stages

/-!
# For whom workers are stopped

A worker is stopped for an algorithm that had jobs skipped, and only where it takes up some of
what that algorithm was still short of: the skipped jobs' needs, less what the workers stopped
for it before take up.

Whether the skipped jobs could ever be placed is not looked at. Workers are stopped also for
jobs that no node would hold if it were empty.
-/

namespace WorkerFleet

theorem split_append {α : Type} {xs ys before after : List α} {x : α}
    (h : xs ++ ys = before ++ x :: after) :
    (∃ rest, xs = before ++ x :: rest) ∨
      ∃ rest, before = xs ++ rest ∧ ys = rest ++ x :: after := by
  rcases List.append_eq_append_iff.mp h with ⟨rest, rfl, hys⟩ | ⟨rest, rfl, hrest⟩
  · exact .inr ⟨rest, rfl, hys⟩
  · cases rest with
    | nil => exact .inr ⟨[], by simp, hrest.symm⟩
    | cons y rest =>
      obtain ⟨rfl, _⟩ := List.cons.inj hrest
      exact .inl ⟨rest, rfl⟩

namespace Reclaim
variable {K : Type} [Quantity K]

/-- What the skipped jobs of an algorithm need together; nothing if it has none. -/
def need? (a : String) (skipped : List (SkippedJob K)) : Option (Resources K) :=
  match (skipped.filter (·.algorithm = a)).map (·.resources) with
  | [] => none
  | first :: rest => some (rest.foldl (· + ·) first)

/-- What is left of a need after the workers that were stopped for the algorithm. -/
def outstanding (a : String) (stopped : List (Stop K)) (needed : Resources K) : Resources K :=
  ((stopped.filter (·.reclaimedFor = a)).map (·.resources)).foldl (· - ·) needed

/-- When the stop was found, it took up some of what its algorithm was still short of. -/
def Helped (skipped : List (SkippedJob K)) (found : List (Stop K)) (s : Stop K) : Prop :=
  ∃ needed before after, need? s.reclaimedFor skipped = some needed ∧
    found = before ++ s :: after ∧
    helps s.resources (outstanding s.reclaimedFor before needed) = true

theorem need?_eq_total? (a : String) (skipped : List (SkippedJob K)) :
    need? a skipped = total? (needs a skipped) := by
  rw [need?, needs]
  cases (skipped.filter (·.algorithm = a)).map (·.resources) with
  | nil => rfl
  | cons first rest => rfl

theorem need?_eq_none_iff {a : String} {skipped : List (SkippedJob K)} :
    need? a skipped = none ↔ a ∉ skipped.map (·.algorithm) := by
  rw [need?_eq_total?, ← needs_eq_nil_iff]
  cases needs a skipped <;> simp [total?]

theorem exists_skipped_of_need? {a : String} {skipped : List (SkippedJob K)} {needed : Resources K}
    (h : need? a skipped = some needed) : ∃ k ∈ skipped, k.algorithm = a := by
  apply List.mem_map.mp
  by_contra hnone
  rw [need?_eq_none_iff.mpr hnone] at h
  cases h

theorem Helped.exists_skipped {skipped : List (SkippedJob K)} {found : List (Stop K)} {s : Stop K}
    (h : Helped skipped found s) : ∃ k ∈ skipped, k.algorithm = s.reclaimedFor := by
  obtain ⟨_, _, _, hneed, _, _⟩ := h
  exact exists_skipped_of_need? hneed

theorem need?_of_mem_deficits {weigh : Nat → K} {skipped : List (SkippedJob K)} {d : Deficit K}
    (hd : d ∈ deficits weigh skipped) : need? d.algorithm skipped = some d.resources :=
  (need?_eq_total? _ _).trans ((deficits_gathersAll weigh skipped).gathers d hd).resources

/-- What is taken helped with what was left after the earlier ones. -/
theorem helps_of_cover {needed : Resources K}
    {candidates before after : List (Worker × Resources K)} {c : Worker × Resources K}
    (h : (cover needed candidates).1 = before ++ c :: after) :
    helps c.2 ((before.map (·.2)).foldl (· - ·) needed) = true := by
  induction candidates generalizing needed before with
  | nil =>
    have hlength := congrArg List.length h
    simp [cover] at hlength
  | cons x rest ih =>
    unfold cover at h
    split at h
    · next hhelps =>
      cases before with
      | nil =>
        obtain ⟨rfl, _⟩ := List.cons.inj h
        exact hhelps
      | cons y before =>
        obtain ⟨rfl, htaken⟩ := List.cons.inj h
        have hlater := ih htaken
        exact hlater
    · exact ih h

theorem outstanding_append_of_ne {a b : String} (hne : b ≠ a)
    (taken : List (Worker × Resources K)) (stopped : List (Stop K)) (needed : Resources K) :
    outstanding a (taken.map (fun c => ⟨c.1, c.2, b⟩) ++ stopped) needed =
      outstanding a stopped needed := by
  have hnone : (taken.map (fun c => (⟨c.1, c.2, b⟩ : Stop K))).filter
      (·.reclaimedFor = a) = [] := by
    apply List.filter_eq_nil_iff.mpr
    intro s hs
    obtain ⟨c, _, rfl⟩ := List.mem_map.mp hs
    simpa using hne
  rw [outstanding, List.filter_append, hnone, List.nil_append, outstanding]

theorem outstanding_taken (a : String) (taken : List (Worker × Resources K))
    (needed : Resources K) :
    outstanding a (taken.map fun c => ⟨c.1, c.2, a⟩) needed =
      (taken.map (·.2)).foldl (· - ·) needed := by
  have hall : (taken.map (fun c => (⟨c.1, c.2, a⟩ : Stop K))).filter (·.reclaimedFor = a) =
      taken.map fun c => ⟨c.1, c.2, a⟩ := by
    apply List.filter_eq_self.mpr
    intro s hs
    obtain ⟨c, _, rfl⟩ := List.mem_map.mp hs
    exact decide_eq_true rfl
  rw [outstanding, hall, List.map_map]
  rfl

theorem helps_of_serve {ds : List (Deficit K)} (hnodup : (ds.map (·.algorithm)).Nodup)
    {candidates : List (Worker × Resources K)} {before after : List (Stop K)} {s : Stop K}
    (h : serve ds candidates = before ++ s :: after) :
    ∃ d ∈ ds, d.algorithm = s.reclaimedFor ∧
      helps s.resources (outstanding s.reclaimedFor before d.resources) = true := by
  induction ds generalizing candidates before with
  | nil =>
    have hlength := congrArg List.length h
    simp [serve] at hlength
  | cons d ds ih =>
    rw [List.map_cons, List.nodup_cons] at hnodup
    rw [serve] at h
    -- The worker is stopped for the first deficit or for a later one.
    rcases split_append h with ⟨_, htaken⟩ | ⟨rest, rfl, hlater⟩
    · obtain ⟨earlier, later, hcover, rfl, hlast⟩ := List.map_eq_append_iff.mp htaken
      obtain ⟨c, _, rfl, rfl, _⟩ := List.map_eq_cons_iff.mp hlast
      refine ⟨d, List.mem_cons_self, rfl, ?_⟩
      rw [outstanding_taken]
      exact helps_of_cover hcover
    · obtain ⟨e, he, halgorithm, hhelps⟩ := ih hnodup.2 hlater
      refine ⟨e, List.mem_cons_of_mem d he, halgorithm, ?_⟩
      have hne : d.algorithm ≠ s.reclaimedFor := by
        intro heq
        rw [heq, ← halgorithm] at hnodup
        exact hnodup.1 (List.mem_map_of_mem he)
      rw [outstanding_append_of_ne hne]
      exact hhelps

theorem helped_of_mem_findStops {skipped : List (SkippedJob K)} {idle active : List Worker}
    {templates : Templates K} {defaults : ResourceSpec K} {weigh : Nat → K}
    {minAge now : Millis} {s : Stop K}
    (h : s ∈ findStops skipped idle active templates defaults weigh minAge now) :
    Helped skipped (findStops skipped idle active templates defaults weigh minAge now) s := by
  obtain ⟨before, after, hsplit⟩ := List.append_of_mem h
  obtain ⟨d, hd, halgorithm, hhelps⟩ :=
    helps_of_serve (nodup_algorithms_deficits weigh skipped) hsplit
  have hneed := need?_of_mem_deficits hd
  rw [halgorithm] at hneed
  exact ⟨d.resources, before, after, hneed, hsplit, hhelps⟩

end Reclaim

/-- Every stop is for an algorithm with a skipped job that some node would hold if it were empty. -/
def Plan.StopsForFitting {K : Type} (plan : Plan K) : Prop :=
  ∀ s ∈ plan.stops, ∃ k ∈ plan.skipped, k.algorithm = s.reclaimedFor ∧
    k.warning.hasMaxCapacity = false

namespace Reconciler
variable {K : Type} [Powers K] {r : Reconciler K} {input : Snapshot K} {now : Millis}

/-- Every worker is stopped for an algorithm with skipped jobs, and takes up some of what that
algorithm was still short of. -/
theorem plan_stops_helped {s : Stop K} (hs : s ∈ (r.plan input now).1.stops) :
    (∃ k ∈ (r.plan input now).1.skipped, k.algorithm = s.reclaimedFor) ∧
      Reclaim.Helped (r.plan input now).1.skipped (r.foundStops input now) s := by
  rw [stops_plan] at hs
  rw [skipped_plan]
  have hhelped : Reclaim.Helped (r.placement input now).skipped (r.foundStops input now) s :=
    Reclaim.helped_of_mem_findStops ((r.stops_sublist input now).subset hs)
  exact ⟨hhelped.exists_skipped, hhelped⟩

end Reconciler

/-- A request for `a`, which asks for more than the only node has, and two workers of `b`. -/
def Snapshot.oversized : Snapshot Float where
  templates := NameMap.ofList [("a", .sample "a" 3), ("b", .sample "b" 1)]
  requests := [⟨"a", false, 0⟩]
  workers := [
    ⟨"u", "b", "pod-u", .ready, false, false, none, none⟩,
    ⟨"v", "b", "pod-v", .ready, false, false, none, none⟩]
  jobs := [⟨"job-u", "b", 0, false, false⟩, ⟨"job-v", "b", 0, false, false⟩]
  pods := [⟨"pod-u", "job-u", none⟩, ⟨"pod-v", "job-v", none⟩]
  resources := .busy 2

theorem stops_helped_oversized :
    (Reconciler.sample.plan .oversized 100000).1.stops.map (·.worker.id) = ["u", "v"] ∧
    ∃ s ∈ (Reconciler.sample.plan .oversized 100000).1.stops, s.worker.id = "v" ∧
      (∃ k ∈ (Reconciler.sample.plan .oversized 100000).1.skipped,
        k.algorithm = s.reclaimedFor) ∧
      Reclaim.Helped (Reconciler.sample.plan .oversized 100000).1.skipped
        (Reconciler.sample.foundStops .oversized 100000) s := by
  have hstops : (Reconciler.sample.plan .oversized 100000).1.stops.map (·.worker.id) =
      ["u", "v"] := by decide +kernel
  have hlater : "v" ∈ (Reconciler.sample.plan .oversized 100000).1.stops.map (·.worker.id) := by
    rw [hstops]
    exact List.mem_cons_of_mem _ List.mem_cons_self
  obtain ⟨s, hs, hid⟩ := List.mem_map.mp hlater
  exact ⟨hstops, s, hs, hid, Reconciler.plan_stops_helped hs⟩

theorem not_stopsForFitting_oversized :
    ¬ (Reconciler.sample.plan .oversized 100000).1.StopsForFitting := by
  unfold Plan.StopsForFitting
  decide +kernel

end WorkerFleet
