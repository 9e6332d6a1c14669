import WorkerFleet.Node
import WorkerFleet.Worker

/-!
# Statistics

Counts of workers by algorithm and status, over the fleet and over each node.
-/

namespace WorkerFleet

/-- As with outcomes, words of 32 bits hold the same counts while none reaches `2 ^ 32`. -/
structure AlgorithmStats where
  algorithm : String
  count : Nat
  byStatus : NameMap Nat
  hot : Nat
deriving DecidableEq

structure WorkerStats where
  /-- In the order of algorithm names. -/
  stats : List AlgorithmStats
  total : Nat
deriving DecidableEq

structure NodeStats (K : Type) where
  name : String
  total : Resources K
  requests : Resources K
  other : Resources K
  workersTotal : Resources K
  labels : NameMap String
  workers : WorkerStats
deriving DecidableEq

namespace AlgorithmStats

def none (algorithm : String) : AlgorithmStats := ⟨algorithm, 0, .empty, 0⟩

def add (s : AlgorithmStats) (w : Worker) : AlgorithmStats :=
  { s with
    count := s.count + 1
    byStatus := s.byStatus.upsert w.status.text fun n => n.getD 0 + 1
    hot := if w.hot then s.hot + 1 else s.hot }

end AlgorithmStats

namespace WorkerStats

def byAlgorithm (workers : List Worker) : NameMap AlgorithmStats :=
  workers.foldl
    (fun m w => m.upsert w.algorithm fun s => (s.getD (.none w.algorithm)).add w) .empty

def ofWorkers (workers : List Worker) : WorkerStats :=
  ⟨(byAlgorithm workers).values, workers.length⟩

end WorkerStats

def NodeStats.ofNode {K : Type} (workers : List Worker) (n : Node K) : NodeStats K where
  name := n.name
  total := n.total
  requests := n.requests
  other := n.other
  workersTotal := n.workersTotal
  labels := n.labels
  workers := .ofWorkers (workers.filter fun w => w.nodeName? = some n.name)

def NodeStats.ofCluster {K : Type} (cluster : Cluster K) (workers : List Worker) :
    List (NodeStats K) :=
  cluster.nodes.map (NodeStats.ofNode workers)

end WorkerFleet
