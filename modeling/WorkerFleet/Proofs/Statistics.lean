import WorkerFleet.Proofs.Exact
import WorkerFleet.Proofs.HotCounts
import WorkerFleet.Proofs.Turns
import WorkerFleet.Statistics

/-!
# Workers counted

The statistics count the same workers by algorithm, within an algorithm by status, and once more
by node. Each count is read off the workers it stands for, which are not put in order first, so
sums of counts are numbers of workers and the order of the workers is lost
(`ofCluster_conservesWorkers`).

A status counts under its text, also one that is none of the known stages.
-/

namespace WorkerFleet

theorem NameMap.Counts.unique {m n : NameMap Nat} {count : String → Nat} (hm : m.Counts count)
    (hn : n.Counts count) : m = n :=
  NameMap.ext fun a => (hm a).trans (hn a).symm

/-- Counts of all names make up the number of items. -/
theorem NameMap.Counts.sum_values {α : Type} {name : α → String} {xs : List α} {m : NameMap Nat}
    (h : m.Counts fun a => xs.countP (name · = a)) : m.values.sum = xs.length := by
  have hvalues : m.values = m.keys.map fun a => xs.countP (name · = a) := by
    rw [values, keys, List.map_map]
    apply List.map_congr_left
    intro e he
    have hcount := h.getD_get? e.1
    rw [mem_entries.mp he] at hcount
    exact hcount
  have hnames : ∀ x ∈ xs, name x ∈ m.keys := by
    intro x hx
    by_contra hno
    have hcount := h.getD_get? (name x)
    rw [get?_eq_none_of_notMem_keys hno, Option.getD_none, eq_comm, List.countP_eq_zero] at hcount
    exact hcount x hx (decide_eq_true rfl)
  have hsum := sum_filter_names name (fun _ => 1) m.nodup_keys hnames
  simp only [List.map_const', List.sum_replicate_nat, Nat.mul_one,
    ← List.countP_eq_length_filter] at hsum
  rw [hvalues, hsum]

namespace AlgorithmStats

/-- The entry of an algorithm whose workers are those given. -/
def ofGroup (a : String) (group : List Worker) : AlgorithmStats where
  algorithm := a
  count := group.length
  byStatus := group.foldl (fun m w => m.upsert w.status.text fun n => n.getD 0 + 1) .empty
  hot := group.countP (·.hot)

theorem add_ofGroup (a : String) (group : List Worker) (w : Worker) :
    (ofGroup a group).add w = ofGroup a (group ++ [w]) := by
  rw [ofGroup, ofGroup, add, List.foldl_append, List.length_append, List.countP_append,
    List.countP_singleton]
  cases w.hot <;> rfl

theorem counts_byStatus (a : String) (group : List Worker) :
    (ofGroup a group).byStatus.Counts fun text => group.countP (·.status.text = text) :=
  counts_foldl (fun w : Worker => w.status.text) group

theorem ofGroup_perm (a : String) {group others : List Worker} (h : group.Perm others) :
    ofGroup a group = ofGroup a others := by
  have hstatus : (ofGroup a group).byStatus = (ofGroup a others).byStatus := by
    have hcounts := counts_byStatus a group
    simp only [h.countP_eq] at hcounts
    exact hcounts.unique (counts_byStatus a others)
  rw [ofGroup, ofGroup, AlgorithmStats.mk.injEq]
  exact ⟨rfl, h.length_eq, hstatus, h.countP_eq _⟩

end AlgorithmStats

namespace WorkerStats
open HotWorkers (ofAlgorithm mem_ofAlgorithm)

theorem ofAlgorithm_append_singleton (workers : List Worker) (w : Worker) (a : String) :
    ofAlgorithm (workers ++ [w]) a =
      if w.algorithm = a then ofAlgorithm workers a ++ [w] else ofAlgorithm workers a := by
  rw [ofAlgorithm, List.filter_append]
  by_cases h : w.algorithm = a
  · rw [if_pos h, List.filter_cons_of_pos (by simpa using h)]
    rfl
  · rw [if_neg h, List.filter_cons_of_neg (by simpa using h)]
    exact List.append_nil _

/-- An algorithm has an entry if it has workers, and the entry counts these. -/
theorem get?_byAlgorithm (workers : List Worker) (a : String) :
    (byAlgorithm workers).get? a = if ofAlgorithm workers a = [] then none
      else some (.ofGroup a (ofAlgorithm workers a)) := by
  induction workers using List.reverseRecOn with
  | nil => rfl
  | append_singleton workers w ih =>
    rw [byAlgorithm, List.foldl_append, List.foldl_cons, List.foldl_nil, ← byAlgorithm,
      NameMap.get?_upsert, ofAlgorithm_append_singleton]
    by_cases h : w.algorithm = a
    · have hnone : AlgorithmStats.none a = .ofGroup a [] := rfl
      rw [if_pos h, if_pos h, if_neg (List.append_ne_nil_of_right_ne_nil _ (by simp)),
        ← AlgorithmStats.add_ofGroup, ih, h]
      split
      · next hempty => rw [hempty, Option.getD_none, hnone]
      · rfl
    · rw [if_neg h, if_neg h, ih]

/-- Each algorithm has one entry, which counts its workers, and nothing is counted besides. -/
structure Describes (s : WorkerStats) (workers : List Worker) : Prop where
  algorithms : ∀ a, a ∈ s.stats.map (·.algorithm) ↔ a ∈ workers.map (·.algorithm)
  ascending : (s.stats.map (·.algorithm)).Pairwise (· < ·)
  total : s.total = workers.length
  counts : (s.stats.map (·.count)).sum = s.total
  count : ∀ e ∈ s.stats, e.count = (ofAlgorithm workers e.algorithm).length
  statuses : ∀ e ∈ s.stats, e.byStatus.values.sum = e.count
  byStatus : ∀ e ∈ s.stats, e.byStatus.Counts fun text =>
    (ofAlgorithm workers e.algorithm).countP (·.status.text = text)
  hot : ∀ e ∈ s.stats, e.hot = HotWorkers.hotCount workers e.algorithm

section Entries
variable {workers : List Worker} {e : AlgorithmStats}

theorem get?_byAlgorithm_eq_some_iff {a : String} : (byAlgorithm workers).get? a = some e ↔
    ofAlgorithm workers a ≠ [] ∧ e = .ofGroup a (ofAlgorithm workers a) := by
  rw [get?_byAlgorithm]
  split
  · next hempty => simp [hempty]
  · next hsome => simp [hsome, eq_comm]

theorem algorithm_of_get? {a : String} (h : (byAlgorithm workers).get? a = some e) :
    e.algorithm = a := by
  obtain ⟨_, rfl⟩ := get?_byAlgorithm_eq_some_iff.mp h
  rfl

theorem mem_stats_iff : e ∈ (ofWorkers workers).stats ↔ ofAlgorithm workers e.algorithm ≠ [] ∧
    e = .ofGroup e.algorithm (ofAlgorithm workers e.algorithm) := by
  rw [← get?_byAlgorithm_eq_some_iff, ← NameMap.mem_entries]
  constructor
  · intro h
    obtain ⟨⟨a, _⟩, hentry, rfl⟩ := List.mem_map.mp h
    rw [algorithm_of_get? (NameMap.mem_entries.mp hentry)]
    exact hentry
  · intro h
    exact List.mem_map.mpr ⟨_, h, rfl⟩

theorem filter_stats (workers : List Worker) (a : String) :
    (ofWorkers workers).stats.filter (fun e => e.algorithm = a) =
      ((byAlgorithm workers).get? a).toList := by
  have hname : ∀ e ∈ (byAlgorithm workers).entries, ∀ s, some e.2 = some s →
      s.algorithm = e.1 := by
    rintro ⟨name, e⟩ he s hs
    obtain rfl := Option.some.inj hs
    exact algorithm_of_get? (NameMap.mem_entries.mp he)
  have hfilter := NameMap.filter_filterMap_entries (byAlgorithm workers) (fun _ s => some s)
    AlgorithmStats.algorithm hname a
  rw [List.filterMap_eq_map', Option.bind_fun_some] at hfilter
  exact hfilter

theorem count_ne_zero_of_mem_stats (h : e ∈ (ofWorkers workers).stats) : e.count ≠ 0 := by
  obtain ⟨hsome, he⟩ := mem_stats_iff.mp h
  rw [he]
  exact mt List.length_eq_zero_iff.mp hsome

end Entries

/-- The counts of the entries are those of the names of the workers. -/
theorem counts_map_byAlgorithm (workers : List Worker) :
    ((byAlgorithm workers).map (·.count)).Counts fun a => workers.countP (·.algorithm = a) := by
  intro a
  have hcount : workers.countP (·.algorithm = a) = (ofAlgorithm workers a).length :=
    List.countP_eq_length_filter
  have hzero : workers.countP (·.algorithm = a) = 0 ↔ ofAlgorithm workers a = [] := by
    rw [hcount, List.length_eq_zero_iff]
  rw [NameMap.get?_map, get?_byAlgorithm]
  by_cases h : ofAlgorithm workers a = []
  · rw [if_pos h, if_pos (hzero.mpr h)]
    rfl
  · rw [if_neg h, if_neg (mt hzero.mp h)]
    exact congrArg some hcount.symm

theorem ofWorkers_describes (workers : List Worker) : (ofWorkers workers).Describes workers where
  algorithms := by
    intro a
    rw [List.mem_map, List.mem_map]
    constructor
    · rintro ⟨e, he, rfl⟩
      obtain ⟨w, hw⟩ := List.exists_mem_of_ne_nil _ (mem_stats_iff.mp he).1
      exact ⟨w, mem_ofAlgorithm _ |>.mp hw⟩
    · rintro ⟨w, hw, rfl⟩
      have hmem := (mem_ofAlgorithm w.algorithm).mpr ⟨hw, rfl⟩
      exact ⟨.ofGroup w.algorithm (ofAlgorithm workers w.algorithm),
        mem_stats_iff.mpr ⟨List.ne_nil_of_mem hmem, rfl⟩, rfl⟩
  ascending := List.pairwise_map.mpr (NameMap.pairwise_values fun _ _ h => algorithm_of_get? h)
  total := rfl
  counts := by
    have hsum := (counts_map_byAlgorithm workers).sum_values
    rw [NameMap.values_map] at hsum
    exact hsum
  count := by
    intro e he
    rw [(mem_stats_iff.mp he).2]
    rfl
  statuses := by
    intro e he
    rw [(mem_stats_iff.mp he).2]
    exact (AlgorithmStats.counts_byStatus _ _).sum_values
  byStatus := by
    intro e he
    have hcounts := AlgorithmStats.counts_byStatus e.algorithm (ofAlgorithm workers e.algorithm)
    rw [← (mem_stats_iff.mp he).2] at hcounts
    exact hcounts
  hot := by
    intro e he
    rw [(mem_stats_iff.mp he).2]
    rfl

theorem ofWorkers_perm {workers others : List Worker} (h : workers.Perm others) :
    ofWorkers workers = ofWorkers others := by
  have hgroup : ∀ a, (ofAlgorithm workers a).Perm (ofAlgorithm others a) := fun a => h.filter _
  have hmap : byAlgorithm workers = byAlgorithm others := by
    apply NameMap.ext
    intro a
    have hempty : ofAlgorithm workers a = [] ↔ ofAlgorithm others a = [] := by
      rw [← List.length_eq_zero_iff, (hgroup a).length_eq, List.length_eq_zero_iff]
    rw [get?_byAlgorithm, get?_byAlgorithm, AlgorithmStats.ofGroup_perm a (hgroup a)]
    simp only [hempty]
  rw [ofWorkers, ofWorkers, hmap, h.length_eq]

end WorkerStats

namespace NodeStats
variable {K : Type}

/-- No worker is lost from the statistics of the fleet or of the nodes, and none is counted
twice. -/
structure ConservesWorkers (cluster : Cluster K) (workers : List Worker) : Prop where
  fleet : (WorkerStats.ofWorkers workers).Describes workers
  anyOrder : ∀ others, workers.Perm others →
    WorkerStats.ofWorkers workers = .ofWorkers others ∧
      ofCluster cluster workers = ofCluster cluster others
  located : ((ofCluster cluster workers).map (·.workers.total)).sum =
    workers.countP fun w => ∃ n ∈ cluster.nodes, w.nodeName? = some n.name

theorem ofCluster_perm (cluster : Cluster K) {workers others : List Worker}
    (h : workers.Perm others) : ofCluster cluster workers = ofCluster cluster others := by
  apply List.map_congr_left
  intro n _
  rw [ofNode, WorkerStats.ofWorkers_perm (h.filter _)]
  rfl

/-- On nodes of distinct names each worker is counted at most once. -/
theorem sum_total_ofCluster {cluster : Cluster K} (hnames : (cluster.nodes.map (·.name)).Nodup)
    (workers : List Worker) : ((ofCluster cluster workers).map (·.workers.total)).sum =
      workers.countP fun w => ∃ n ∈ cluster.nodes, w.nodeName? = some n.name := by
  let located (w : Worker) : Bool := ∃ n ∈ cluster.nodes, w.nodeName? = some n.name
  have hkeys : (cluster.nodes.map fun n => some n.name).Nodup := by
    have hsome := hnames.map (Option.some_injective String)
    rwa [List.map_map] at hsome
  have hmem : ∀ w ∈ workers.filter located,
      w.nodeName? ∈ cluster.nodes.map fun n => some n.name := by
    intro w hw
    obtain ⟨n, hn, hname⟩ := of_decide_eq_true (List.mem_filter.mp hw).2
    exact List.mem_map.mpr ⟨n, hn, hname.symm⟩
  have hnode : ∀ n ∈ cluster.nodes, ((workers.filter located).filter fun w =>
      w.nodeName? = some n.name) = workers.filter fun w => w.nodeName? = some n.name := by
    intro n hn
    rw [List.filter_filter]
    apply List.filter_congr
    intro w _
    by_cases h : w.nodeName? = some n.name
    · rw [decide_eq_true h, Bool.true_and]
      exact decide_eq_true ⟨n, hn, h⟩
    · rw [decide_eq_false h, Bool.false_and]
  have hsum := sum_filter_names Worker.nodeName? (fun _ => 1) hkeys hmem
  simp only [List.map_const', List.sum_replicate_nat, Nat.mul_one, List.map_map,
    Function.comp_def] at hsum
  rw [List.countP_eq_length_filter, ← hsum, ofCluster, List.map_map]
  apply congrArg
  apply List.map_congr_left
  intro n hn
  rw [hnode n hn]
  rfl

theorem ofCluster_conservesWorkers {cluster : Cluster K}
    (hnames : (cluster.nodes.map (·.name)).Nodup) (workers : List Worker) :
    ConservesWorkers cluster workers where
  fleet := WorkerStats.ofWorkers_describes workers
  anyOrder := fun _ h => ⟨WorkerStats.ofWorkers_perm h, ofCluster_perm cluster h⟩
  located := sum_total_ofCluster hnames workers

def twoNodes : Cluster Rat where
  nodes := ["n1", "n2"].map fun name => .sample name Resources.zero Resources.zero Resources.zero

/-- Workers on both nodes, on one that is gone, and on none that is known. -/
def scatteredWorkers : List Worker :=
  [("u", "green", .ready, true, some "n1"), ("v", "green", .working, false, some "n1"),
    ("w", "blue", .starting, false, some "n2"), ("x", "green", .other "busy", false, some "n3"),
    ("y", "green", .working, true, none)].map fun (id, algorithm, status, hot, node) =>
      { Worker.ofReport ⟨id, algorithm, id, status, false, hot, none, none⟩ with
        job := some ⟨id, some id, node, 0⟩ }

theorem conservesWorkers_scattered : (twoNodes.nodes.map (·.name)).Nodup ∧
    (WorkerStats.ofWorkers scatteredWorkers).stats.map (fun e =>
      (e.algorithm, e.count, e.byStatus.entries, e.hot)) =
        [("blue", 1, [("init", 1)], 0),
          ("green", 4, [("busy", 1), ("ready", 1), ("working", 2)], 2)] ∧
    (ofCluster twoNodes scatteredWorkers).map (·.workers.total) = [2, 1] ∧
    ConservesWorkers twoNodes scatteredWorkers := by
  have hnames : (twoNodes.nodes.map (·.name)).Nodup := by decide
  exact ⟨hnames, by decide +kernel, by decide +kernel,
    ofCluster_conservesWorkers hnames scatteredWorkers⟩

end NodeStats

end WorkerFleet
