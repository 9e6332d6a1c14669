import WorkerFleet.Template

/-!
# Nodes

Where workers run: what a node offers, what is taken of it, and which jobs may go there.
-/

namespace WorkerFleet

structure Node (K : Type) where
  name : String
  /-- What can be allocated. -/
  total : Resources K
  /-- Requests of all that is scheduled on the node. -/
  requests : Resources K
  /-- Requests of what is not a worker. -/
  other : Resources K
  workersTotal : Resources K
  labels : NameMap String
deriving DecidableEq

namespace Node
variable {K : Type}

def matchesSelector (n : Node K) (selector : NameMap String) : Bool :=
  selector.entries.all fun e => n.labels.get? e.1 = some e.2

variable [Quantity K]

def free (n : Node K) : Resources K := n.total.leftAfter n.requests

/-- What would be left if no worker ran on the node. -/
def maxForWorkers (n : Node K) : Resources K := n.total.leftAfter n.other

def reserve (n : Node K) (r : Resources K) : Node K :=
  { n with requests := n.requests + r, workersTotal := n.workersTotal + r }

end Node

structure Pressure (K : Type) where
  cpu : K
  gpu : K
  memory : K
deriving DecidableEq, Repr

structure Cluster (K : Type) where
  nodes : List (Node K)
deriving DecidableEq

namespace Cluster
variable {K : Type} [Quantity K]

/-- Requested over total, taken over all nodes; nothing of nothing is zero. -/
def pressure (c : Cluster K) : Pressure K :=
  let total := Resources.sum (c.nodes.map (·.total))
  let requests := Resources.sum (c.nodes.map (·.requests))
  let ratio (d : Dimension) : K :=
    if Quantity.isPositive (total.get d) then requests.get d / total.get d else Quantity.zero
  ⟨ratio .cpu, ratio .gpu, ratio .mem⟩

end Cluster

end WorkerFleet
