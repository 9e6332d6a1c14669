import Mathlib.Data.List.Induction
import WorkerFleet.Proofs.Exact
import WorkerFleet.Proofs.Sample

/-!
# Skipped jobs

A job is skipped at its turn, in view of the nodes as the jobs before it have left them. What a
skip says holds beyond that turn. No node has room for the job at the end either, if no job
requests less than nothing (`place_skips_final`). And whether the job is called hopeless is
settled by the job and by the nodes without their workers (`hasMaxCapacity_iff_skippedAlone`).
-/

namespace WorkerFleet

namespace Node

/-- The node as its workers leave it: only what the others request is requested. -/
def idle {K : Type} (n : Node K) : Node K := { n with requests := n.other }

/-- The idle node with nothing counted as requested by workers: nothing is left of who they were. -/
def vacated {K : Type} [Quantity K] (n : Node K) : Node K :=
  { n.idle with workersTotal := Resources.zero }

end Node

namespace Placement
variable {K : Type} [Quantity K]

theorem reserveFirst?_eq_none_iff {spec : JobSpec K} {nodes : List (Node K)} :
    reserveFirst? spec nodes = none ↔ ∀ n ∈ nodes, accepts spec n = false := by
  induction nodes with
  | nil => simp [reserveFirst?]
  | cons n rest ih =>
    rw [List.forall_mem_cons, ← ih]
    cases h : accepts spec n with
    | true => simp [reserveFirst?, h]
    | false => simp [reserveFirst?, h]

theorem reserveFirst?_eq_some {spec : JobSpec K} {nodes after : List (Node K)} {name : String}
    (h : reserveFirst? spec nodes = some (name, after)) :
    ∃ before n rest, nodes = before ++ n :: rest ∧ (∀ m ∈ before, accepts spec m = false) ∧
      accepts spec n = true ∧ name = n.name ∧
      after = before ++ n.reserve spec.algorithmResources :: rest := by
  induction nodes generalizing name after with
  | nil => simp [reserveFirst?] at h
  | cons n rest ih =>
    unfold reserveFirst? at h
    split at h
    · next hn =>
      obtain ⟨rfl, rfl⟩ := Prod.mk.inj (Option.some.inj h)
      exact ⟨[], n, rest, rfl, by simp, hn, rfl, rfl⟩
    · next hn =>
      obtain ⟨⟨name', after'⟩, hrest, heq⟩ := Option.map_eq_some_iff.mp h
      obtain ⟨rfl, rfl⟩ := Prod.mk.inj heq
      obtain ⟨before, m, behind, rfl, hbefore, hm, hname, rfl⟩ := ih hrest
      refine ⟨n :: before, m, behind, rfl, ?_, hm, hname, rfl⟩
      exact List.forall_mem_cons.mpr ⟨Bool.eq_false_iff.mpr hn, hbefore⟩

section Run
variable (now : Millis)

theorem place_append (nodes : List (Node K)) (xs ys : List (JobSpec K)) :
    place now nodes (xs ++ ys) = {
      created := (place now nodes xs).created ++ (place now (place now nodes xs).nodes ys).created
      skipped := (place now nodes xs).skipped ++ (place now (place now nodes xs).nodes ys).skipped
      nodes := (place now (place now nodes xs).nodes ys).nodes } := by
  induction xs generalizing nodes with
  | nil => rfl
  | cons spec rest ih =>
    rw [List.cons_append]
    cases h : reserveFirst? spec nodes with
    | some taken => simp only [place, h, ih, List.cons_append]
    | none => simp only [place, h, ih, List.cons_append]

/-- The last job goes to the first node with room that the others have left, or is skipped. -/
theorem place_append_singleton (nodes : List (Node K)) (jobs : List (JobSpec K))
    (spec : JobSpec K) : place now nodes (jobs ++ [spec]) =
      match reserveFirst? spec (place now nodes jobs).nodes with
      | some (name, after) =>
        ⟨(place now nodes jobs).created ++ [⟨spec, name⟩], (place now nodes jobs).skipped, after⟩
      | none =>
        ⟨(place now nodes jobs).created, (place now nodes jobs).skipped ++
          [⟨spec, warn spec (place now nodes jobs).nodes now⟩], (place now nodes jobs).nodes⟩ := by
  rw [place_append]
  cases h : reserveFirst? spec (place now nodes jobs).nodes with
  | some taken => simp [place, h]
  | none => simp [place, h]

/-- What is true of every node and stays so when a job is placed is true in the end. -/
theorem forall_nodes_place {P : Node K → Prop} {jobs : List (JobSpec K)}
    (hreserve : ∀ spec ∈ jobs, ∀ n, P n → P (n.reserve spec.algorithmResources))
    {nodes : List (Node K)} (hnodes : ∀ n ∈ nodes, P n) :
    ∀ n ∈ (place now nodes jobs).nodes, P n := by
  induction jobs generalizing nodes with
  | nil => exact hnodes
  | cons spec rest ih =>
    obtain ⟨hspec, hrest⟩ := List.forall_mem_cons.mp hreserve
    unfold place
    split
    · next name after hres =>
      obtain ⟨before, n, behind, rfl, _, _, _, rfl⟩ := reserveFirst?_eq_some hres
      apply ih hrest
      rw [List.forall_mem_append, List.forall_mem_cons] at hnodes ⊢
      obtain ⟨hbefore, hn, hbehind⟩ := hnodes
      exact ⟨hbefore, hspec n hn, hbehind⟩
    · exact ih hrest hnodes

theorem map_nodes_place {β : Type} {f : Node K → β} (hf : ∀ n r, f (n.reserve r) = f n)
    (nodes : List (Node K)) (jobs : List (JobSpec K)) :
    (place now nodes jobs).nodes.map f = nodes.map f := by
  induction jobs generalizing nodes with
  | nil => rfl
  | cons spec rest ih =>
    unfold place
    split
    · next name after hres =>
      obtain ⟨before, n, behind, rfl, _, _, _, rfl⟩ := reserveFirst?_eq_some hres
      rw [ih, List.map_append, List.map_cons, hf, List.map_append, List.map_cons]
    · exact ih nodes

end Run

section Turns
variable {now : Millis} {nodes : List (Node K)} {earlier : List (JobSpec K)} {s : SkippedJob K}

/-- With the jobs `earlier` placed, the job of `s` is the next one, and `s` is what comes of it. -/
def SkippedAfter (now : Millis) (nodes : List (Node K)) (earlier : List (JobSpec K))
    (s : SkippedJob K) : Prop :=
  (place now nodes (earlier ++ [s.spec])).skipped = (place now nodes earlier).skipped ++ [s]

theorem skippedAfter_iff : SkippedAfter now nodes earlier s ↔
    (∀ n ∈ (place now nodes earlier).nodes, accepts s.spec n = false) ∧
      s.warning = warn s.spec (place now nodes earlier).nodes now := by
  rw [SkippedAfter, place_append_singleton, ← reserveFirst?_eq_none_iff]
  obtain ⟨spec, warning⟩ := s
  cases h : reserveFirst? spec (place now nodes earlier).nodes with
  | some taken => simp
  | none => simp [eq_comm]

theorem mem_skipped_place_iff {jobs : List (JobSpec K)} : s ∈ (place now nodes jobs).skipped ↔
    ∃ earlier later, jobs = earlier ++ s.spec :: later ∧ SkippedAfter now nodes earlier s := by
  constructor
  · intro hs
    induction jobs using List.reverseRecOn with
    | nil => cases hs
    | append_singleton jobs spec ih =>
      have hbefore (h : s ∈ (place now nodes jobs).skipped) : ∃ earlier later,
          jobs ++ [spec] = earlier ++ s.spec :: later ∧ SkippedAfter now nodes earlier s := by
        obtain ⟨earlier, later, rfl, hskip⟩ := ih h
        exact ⟨earlier, later ++ [spec], by simp, hskip⟩
      rw [place_append_singleton] at hs
      cases h : reserveFirst? spec (place now nodes jobs).nodes with
      | some taken =>
        rw [h] at hs
        exact hbefore hs
      | none =>
        rw [h] at hs
        rcases List.mem_append.mp hs with hs | hs
        · exact hbefore hs
        · obtain rfl := List.mem_singleton.mp hs
          exact ⟨jobs, [], rfl, skippedAfter_iff.mpr ⟨reserveFirst?_eq_none_iff.mp h, rfl⟩⟩
  · rintro ⟨earlier, later, rfl, hskip⟩
    rw [← List.singleton_append, ← List.append_assoc, place_append, hskip]
    simp

end Turns

section Exact

theorem accepts_reserve {spec : JobSpec Rat} {n : Node Rat} {r : Resources Rat}
    (hr : ∀ d, 0 ≤ r.get d) (h : accepts spec n = false) : accepts spec (n.reserve r) = false := by
  rw [Bool.eq_false_iff] at h ⊢
  intro hafter
  apply h
  obtain ⟨hlabels, hfits⟩ := Bool.and_eq_true_iff.mp hafter
  refine Bool.and_eq_true_iff.mpr ⟨hlabels, Resources.fitsWithin_rat_iff.mpr ?_⟩
  intro d
  apply (Resources.fitsWithin_rat_iff.mp hfits d).trans
  have hfree : (n.reserve r).free.get d =
      max 0 (n.total.get d - (n.requests.get d + r.get d)) := by
    rw [Node.free, Resources.get_leftAfter_rat]
    exact congrArg (fun x => max 0 (n.total.get d - x)) (Resources.get_add n.requests r d)
  rw [hfree, Node.free, Resources.get_leftAfter_rat]
  have hrd := hr d
  exact max_le_max le_rfl (by linarith)

/-- What is skipped at its turn has no room at the end of the cycle either. -/
theorem place_skips_final (now : Millis) (nodes : List (Node Rat)) (jobs : List (JobSpec Rat))
    (hjobs : ∀ spec ∈ jobs, ∀ d, 0 ≤ spec.algorithmResources.get d) :
    ∀ s ∈ (place now nodes jobs).skipped, ∀ n ∈ (place now nodes jobs).nodes,
      n.matchesSelector s.spec.nodeSelector = true →
        ∃ d, n.free.get d < s.spec.algorithmResources.get d := by
  intro s hs n hn hlabels
  obtain ⟨earlier, later, rfl, hskip⟩ := mem_skipped_place_iff.mp hs
  rw [place_append] at hn
  -- The jobs from its turn on, the skipped one included, leave refusing nodes refusing.
  have hrefuses : accepts s.spec n = false := by
    apply forall_nodes_place now ?_ (skippedAfter_iff.mp hskip).1 n hn
    intro spec hspec m
    exact accepts_reserve (hjobs spec (List.mem_append_right _ hspec))
  rw [accepts, hlabels, Bool.true_and, Bool.eq_false_iff, ne_eq,
    Resources.fitsWithin_rat_iff] at hrefuses
  obtain ⟨d, hd⟩ := not_forall.mp hrefuses
  exact ⟨d, not_le.mp hd⟩

/-- Only the middle job finds no room: one cpu is left at its turn, none at the end. -/
def crowdedJobs : List (JobSpec Rat) :=
  [.sample "a" ⟨1, 0, 0⟩, .sample "b" ⟨2, 0, 0⟩, .sample "c" ⟨1, 0, 0⟩]

def crowdedNodes : List (Node Rat) := [.sample "node" ⟨2, 0, 4096⟩ Resources.zero Resources.zero]

theorem skips_final_crowded : (∀ spec ∈ crowdedJobs, ∀ d, 0 ≤ spec.algorithmResources.get d) ∧
    (place 1000 crowdedNodes crowdedJobs).created.map (·.spec.algorithm) = ["a", "c"] ∧
    ∃ s ∈ (place 1000 crowdedNodes crowdedJobs).skipped,
      ∃ n ∈ (place 1000 crowdedNodes crowdedJobs).nodes,
        s.spec.algorithm = "b" ∧ ∃ d, n.free.get d < s.spec.algorithmResources.get d := by
  have hjobs : ∀ spec ∈ crowdedJobs, ∀ d, 0 ≤ spec.algorithmResources.get d := by
    simp only [crowdedJobs, List.forall_mem_cons]
    refine ⟨?_, ?_, ?_, by simp⟩ <;> intro d <;> cases d <;> decide
  have hmiddle : ∃ s ∈ (place 1000 crowdedNodes crowdedJobs).skipped,
      ∃ n ∈ (place 1000 crowdedNodes crowdedJobs).nodes,
        s.spec.algorithm = "b" ∧ n.matchesSelector s.spec.nodeSelector = true := by
    decide +kernel
  obtain ⟨s, hs, n, hn, hname, hlabels⟩ := hmiddle
  exact ⟨hjobs, by decide +kernel, s, hs, n, hn, hname,
    place_skips_final 1000 crowdedNodes crowdedJobs hjobs s hs n hn hlabels⟩

end Exact

section Alone

def candidates (spec : JobSpec K) (nodes : List (Node K)) : List (Node K) :=
  nodes.filter (·.matchesSelector spec.nodeSelector)

theorem hasMaxCapacity_warn (spec : JobSpec K) (nodes : List (Node K)) (now : Millis) :
    (warn spec nodes now).hasMaxCapacity = (candidates spec nodes).all
      fun n => !spec.algorithmResources.fitsWithin n.maxForWorkers := by
  change (if (candidates spec nodes).isEmpty then (true, _)
    else if _ then (true, _) else (false, _)).1 = _
  split
  · next h => rw [List.isEmpty_iff.mp h]; rfl
  · split
    · next h => exact h.symm
    · next h => exact (Bool.eq_false_iff.mpr h).symm

theorem hasMaxCapacity_warn_iff {spec : JobSpec K} {nodes : List (Node K)} {now : Millis} :
    (warn spec nodes now).hasMaxCapacity = true ↔
      ∀ n ∈ nodes.map Node.vacated, accepts spec n = false := by
  rw [hasMaxCapacity_warn, candidates, List.all_filter, List.all_eq_true, List.forall_mem_map]
  apply forall₂_congr
  intro n _
  rw [← Bool.not_and, Bool.not_eq_true']
  rfl

/-- No reservation is seen once the workers are gone, so the flag can be read off the nodes that
the cycle started with. -/
theorem SkippedAfter.hasMaxCapacity_iff {now : Millis} {nodes : List (Node K)}
    {earlier : List (JobSpec K)} {s : SkippedJob K} (h : SkippedAfter now nodes earlier s) :
    s.warning.hasMaxCapacity = true ↔
      ∀ n ∈ nodes.map Node.vacated, accepts s.spec n = false := by
  rw [(skippedAfter_iff.mp h).2, hasMaxCapacity_warn_iff, map_nodes_place now (fun _ _ => rfl)]

/-- Placed alone, on nodes without their workers, the job is skipped. -/
def SkippedAlone (now : Millis) (nodes : List (Node K)) (spec : JobSpec K) : Prop :=
  (place now (nodes.map Node.idle) [spec]).skipped.map (·.spec) = [spec]

theorem skippedAlone_iff {now : Millis} {nodes : List (Node K)} {spec : JobSpec K} :
    SkippedAlone now nodes spec ↔ ∀ n ∈ nodes.map Node.vacated, accepts spec n = false := by
  have hidle : reserveFirst? spec (nodes.map Node.idle) = none ↔
      ∀ n ∈ nodes.map Node.vacated, accepts spec n = false := by
    rw [reserveFirst?_eq_none_iff, List.forall_mem_map, List.forall_mem_map]
    rfl
  rw [SkippedAlone, ← hidle]
  cases h : reserveFirst? spec (nodes.map Node.idle) with
  | some taken => simp [place, h]
  | none => simp [place, h]

/-- The flag tells what would become of the job alone on the nodes without their workers. It is the
same in every cycle whose nodes differ only in what workers request. -/
theorem hasMaxCapacity_iff_skippedAlone (now later : Millis) (nodes : List (Node K))
    (jobs : List (JobSpec K)) : ∀ s ∈ (place now nodes jobs).skipped,
      (s.warning.hasMaxCapacity = true ↔ SkippedAlone later nodes s.spec) ∧
      ∀ otherNodes otherJobs, otherNodes.map Node.vacated = nodes.map Node.vacated →
        ∀ t ∈ (place later otherNodes otherJobs).skipped, t.spec = s.spec →
          t.warning.hasMaxCapacity = s.warning.hasMaxCapacity := by
  intro s hs
  obtain ⟨earlier, _, _, hskip⟩ := mem_skipped_place_iff.mp hs
  refine ⟨hskip.hasMaxCapacity_iff.trans skippedAlone_iff.symm, ?_⟩
  intro otherNodes otherJobs hvacated t ht hspec
  obtain ⟨others, _, _, hother⟩ := mem_skipped_place_iff.mp ht
  rw [Bool.eq_iff_iff, hother.hasMaxCapacity_iff, hskip.hasMaxCapacity_iff, hvacated, hspec]

/-- Of four cpu one is taken for good, and `used` are in use by workers. -/
def sharedNodes (used : Float) : List (Node Float) :=
  [.sample "node" ⟨4, 0, 4096⟩ ⟨1, 0, 0⟩ ⟨used, 0, 0⟩]

def wideJobs : List (JobSpec Float) := [.sample "wide" ⟨2, 0, 0⟩, .sample "wider" ⟨3.5, 0, 0⟩]

theorem hasMaxCapacity_wide :
    (place 1000 (sharedNodes 2) wideJobs).skipped.map (fun s =>
      (s.spec.algorithm, s.warning.hasMaxCapacity)) = [("wide", false), ("wider", true)] ∧
    ∃ s ∈ (place 1000 (sharedNodes 2) wideJobs).skipped, s.spec.algorithm = "wider" ∧
      SkippedAlone 2000 (sharedNodes 2) s.spec ∧
      ∃ t ∈ (place 2000 (sharedNodes 0) wideJobs.reverse).skipped, t.spec = s.spec ∧
        t.warning.hasMaxCapacity = true := by
  have hwider : ∃ s ∈ (place 1000 (sharedNodes 2) wideJobs).skipped,
      s.spec.algorithm = "wider" ∧ s.warning.hasMaxCapacity = true ∧
        ∃ t ∈ (place 2000 (sharedNodes 0) wideJobs.reverse).skipped, t.spec = s.spec := by
    decide +kernel
  obtain ⟨s, hs, hname, hflag, t, ht, hspec⟩ := hwider
  obtain ⟨halone, hsame⟩ :=
    hasMaxCapacity_iff_skippedAlone 1000 2000 (sharedNodes 2) wideJobs s hs
  refine ⟨by decide +kernel, s, hs, hname, halone.mp hflag, t, ht, hspec, ?_⟩
  exact (hsame (sharedNodes 0) wideJobs.reverse (by decide +kernel) t ht hspec).trans hflag

end Alone

end Placement

end WorkerFleet
