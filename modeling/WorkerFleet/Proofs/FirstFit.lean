import WorkerFleet.Proofs.Skips

/-!
# First fit

The nodes change while jobs are placed. Here they stay as they were at the start, and what is
requested of a node is read off the jobs placed so far: its own requests and, one after the other,
those of the jobs that went to it. In these terms each job goes to the first node that accepts it
(`place_isFirstFit`).

The placed jobs name their nodes, so the nodes need different names.
-/

namespace WorkerFleet

namespace Node
variable {K : Type} [Quantity K]

/-- What those of the placed jobs request that went to the node, in the order of placing. -/
def requestsOf (n : Node K) (placed : List (PlacedJob K)) : List (Resources K) :=
  (placed.filter (·.nodeName = n.name)).map (·.spec.algorithmResources)

/-- The node with the placed jobs on it, added one after the other. -/
def holding (n : Node K) (placed : List (PlacedJob K)) : Node K :=
  { n with
    requests := (n.requestsOf placed).foldl (· + ·) n.requests
    workersTotal := (n.requestsOf placed).foldl (· + ·) n.workersTotal }

theorem holding_append_of_eq {n : Node K} {p : PlacedJob K} (h : p.nodeName = n.name)
    (placed : List (PlacedJob K)) :
    n.holding (placed ++ [p]) = (n.holding placed).reserve p.spec.algorithmResources := by
  have hlast : n.requestsOf (placed ++ [p]) =
      n.requestsOf placed ++ [p.spec.algorithmResources] := by
    simp [requestsOf, h]
  simp only [holding, reserve, hlast, List.foldl_append, List.foldl_cons, List.foldl_nil]

theorem holding_append_of_ne {n : Node K} {p : PlacedJob K} (h : p.nodeName ≠ n.name)
    (placed : List (PlacedJob K)) : n.holding (placed ++ [p]) = n.holding placed := by
  have hlast : n.requestsOf (placed ++ [p]) = n.requestsOf placed := by
    simp [requestsOf, h]
  simp only [holding, hlast]

end Node

namespace Placement
variable {K : Type} [Quantity K]

/-- What becomes of a job: the name of the node it is placed on, if it is. -/
structure Verdict (K : Type) where
  spec : JobSpec K
  node? : Option String

namespace Verdict

def placed? (v : Verdict K) : Option (PlacedJob K) := v.node?.map fun name => ⟨v.spec, name⟩

def skipped? (v : Verdict K) : Option (JobSpec K) := if v.node?.isSome then none else some v.spec

end Verdict

def hasRoom (placed : List (PlacedJob K)) (spec : JobSpec K) (n : Node K) : Bool :=
  n.matchesSelector spec.nodeSelector &&
    spec.algorithmResources.fitsWithin (n.holding placed).free

theorem accepts_holding (placed : List (PlacedJob K)) (spec : JobSpec K) (n : Node K) :
    accepts spec (n.holding placed) = hasRoom placed spec n := rfl

def firstNode? (nodes : List (Node K)) (placed : List (PlacedJob K)) (spec : JobSpec K) :
    Option (Node K) :=
  nodes.find? (hasRoom placed spec)

/-- Every verdict looks at the jobs placed before, and names the first node with room. -/
def Decided (nodes : List (Node K)) (verdicts : List (Verdict K)) : Prop :=
  ∀ earlier v later, verdicts = earlier ++ v :: later →
    v.node? = (firstNode? nodes (earlier.filterMap Verdict.placed?) v.spec).map (·.name)

/-- Each job has one verdict, in the order of the jobs, and goes by it to one of the two lists. -/
structure FirstFit (nodes : List (Node K)) (jobs : List (JobSpec K)) (p : Placement K)
    (verdicts : List (Verdict K)) : Prop where
  staged : verdicts.map (·.spec) = jobs
  created : p.created = verdicts.filterMap Verdict.placed?
  skipped : p.skipped.map (·.spec) = verdicts.filterMap Verdict.skipped?
  decided : Decided nodes verdicts
  nodes : p.nodes = nodes.map (·.holding p.created)

theorem Decided.append_singleton {nodes : List (Node K)} {verdicts : List (Verdict K)}
    (h : Decided nodes verdicts) {v : Verdict K} (hv : v.node? =
      (firstNode? nodes (verdicts.filterMap Verdict.placed?) v.spec).map (·.name)) :
    Decided nodes (verdicts ++ [v]) := by
  intro earlier w later hsplit
  rcases List.eq_nil_or_concat later with rfl | ⟨later, last, rfl⟩
  · obtain ⟨rfl, heq⟩ := List.append_inj' hsplit rfl
    obtain rfl := List.singleton_inj.mp heq
    exact hv
  · have hinit : verdicts ++ [v] = (earlier ++ w :: later) ++ [last] := by simpa using hsplit
    exact h earlier w later (List.append_inj' hinit rfl).1

theorem reserveFirst?_holding {nodes : List (Node K)} (hnames : (nodes.map (·.name)).Nodup)
    (placed : List (PlacedJob K)) (spec : JobSpec K) :
    reserveFirst? spec (nodes.map (·.holding placed)) =
      (firstNode? nodes placed spec).map fun n =>
        (n.name, nodes.map (·.holding (placed ++ [⟨spec, n.name⟩]))) := by
  induction nodes with
  | nil => rfl
  | cons n rest ih =>
    obtain ⟨hfresh, hrest⟩ := List.nodup_cons.mp hnames
    have hne : ∀ m ∈ rest, m.name ≠ n.name := by
      intro m hm heq
      exact hfresh (List.mem_map.mpr ⟨m, hm, heq⟩)
    rw [List.map_cons, reserveFirst?, accepts_holding, firstNode?, List.find?_cons]
    cases hasRoom placed spec n with
    | true =>
      have hothers : rest.map (·.holding (placed ++ [⟨spec, n.name⟩])) =
          rest.map (·.holding placed) := by
        apply List.map_congr_left
        intro m hm
        exact Node.holding_append_of_ne (hne m hm).symm placed
      rw [Option.map_some, List.map_cons, hothers, Node.holding_append_of_eq rfl]
      rfl
    | false =>
      rw [ih hrest]
      change ((firstNode? rest placed spec).map _).map _ = (firstNode? rest placed spec).map _
      cases hfound : firstNode? rest placed spec with
      | none => rfl
      | some m =>
        have hm : m ∈ rest := List.mem_of_find?_eq_some hfound
        have hhead : n.holding (placed ++ [⟨spec, m.name⟩]) = n.holding placed :=
          Node.holding_append_of_ne (hne m hm) placed
        simp only [Option.map_some, List.map_cons, hhead]

/-- The verdicts are made one by one, each from those before it. -/
theorem place_isFirstFit (now : Millis) {nodes : List (Node K)}
    (hnames : (nodes.map (·.name)).Nodup) (jobs : List (JobSpec K)) :
    ∃ verdicts, FirstFit nodes jobs (place now nodes jobs) verdicts := by
  induction jobs using List.reverseRecOn with
  | nil =>
    refine ⟨[], rfl, rfl, rfl, ?_, (List.map_id' nodes).symm⟩
    intro earlier v later h
    simp at h
  | append_singleton jobs spec ih =>
    obtain ⟨verdicts, h⟩ := ih
    have hstep := reserveFirst?_holding hnames (place now nodes jobs).created spec
    have hdecided : Decided nodes (verdicts ++
        [⟨spec, (firstNode? nodes (place now nodes jobs).created spec).map (·.name)⟩]) := by
      apply h.decided.append_singleton
      rw [← h.created]
    rw [← h.nodes] at hstep
    rw [place_append_singleton, hstep]
    cases hfound : firstNode? nodes (place now nodes jobs).created spec with
    | some n =>
      rw [hfound] at hdecided
      refine ⟨verdicts ++ [⟨spec, some n.name⟩], ?_, ?_, ?_, hdecided, rfl⟩
      · simp [h.staged]
      · simp [h.created, Verdict.placed?]
      · simp [h.skipped, Verdict.skipped?]
    | none =>
      rw [hfound] at hdecided
      refine ⟨verdicts ++ [⟨spec, none⟩], ?_, ?_, ?_, hdecided, h.nodes⟩
      · simp [h.staged]
      · simp [h.created, Verdict.placed?]
      · simp [h.skipped, Verdict.skipped?]

/-- The second node is the only one in zone `z`. -/
def zonedNodes : List (Node Float) :=
  [.sample "n" ⟨2, 0, 4096⟩ Resources.zero Resources.zero,
    { Node.sample "m" ⟨4, 0, 4096⟩ Resources.zero Resources.zero with
      labels := NameMap.ofList [("zone", "z")] }]

/-- The third job may only go to zone `z`, and the last one finds its cpu on neither node. -/
def zonedJobs : List (JobSpec Float) :=
  [.sample "a" ⟨1, 0, 0⟩, .sample "b" ⟨2, 0, 0⟩,
    { JobSpec.sample "c" ⟨1, 0, 0⟩ with nodeSelector := NameMap.ofList [("zone", "z")] },
    .sample "d" ⟨1, 0, 0⟩, .sample "e" ⟨2, 0, 0⟩]

theorem isFirstFit_zoned : (zonedNodes.map (·.name)).Nodup ∧
    (∃ verdicts, FirstFit zonedNodes zonedJobs (place 1000 zonedNodes zonedJobs) verdicts) ∧
    (place 1000 zonedNodes zonedJobs).created.map (fun p => (p.spec.algorithm, p.nodeName)) =
      [("a", "n"), ("b", "m"), ("c", "m"), ("d", "n")] ∧
    (place 1000 zonedNodes zonedJobs).skipped.map (·.spec.algorithm) = ["e"] := by
  have hnames : (zonedNodes.map (·.name)).Nodup := by decide +kernel
  exact ⟨hnames, place_isFirstFit 1000 hnames zonedJobs, by decide +kernel, by decide +kernel⟩

end Placement

end WorkerFleet
