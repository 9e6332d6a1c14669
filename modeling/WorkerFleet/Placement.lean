import WorkerFleet.Job
import WorkerFleet.Node

/-!
# Placement

Staged jobs are placed in order, each on the first node that matches its selector and has
room for it. A placed job's requests are set aside at once, so later jobs see less room. A
job that finds no node is skipped with a warning.
-/

namespace WorkerFleet

structure SkipWarning (K : Type) where
  algorithm : String
  reason : String
  message : String
  timestamp : Millis
  /-- The job would find no room even without any worker in the cluster. -/
  hasMaxCapacity : Bool
  required : Resources K
  /-- The nodes that match the job's selector. -/
  candidateNodes : Nat
deriving DecidableEq, Repr

structure PlacedJob (K : Type) where
  spec : JobSpec K
  nodeName : String
deriving DecidableEq

structure SkippedJob (K : Type) where
  spec : JobSpec K
  warning : SkipWarning K
deriving DecidableEq

namespace SkippedJob
variable {K : Type}

def algorithm (s : SkippedJob K) : String := s.spec.algorithm

def resources (s : SkippedJob K) : Resources K := s.spec.algorithmResources

end SkippedJob

/-- Staged jobs by whether they found room, and the nodes with what was set aside. -/
structure Placement (K : Type) where
  created : List (PlacedJob K)
  skipped : List (SkippedJob K)
  nodes : List (Node K)
deriving DecidableEq

namespace Placement
variable {K : Type} [Quantity K]

def accepts (spec : JobSpec K) (n : Node K) : Bool :=
  n.matchesSelector spec.nodeSelector && spec.algorithmResources.fitsWithin n.free

def reserveFirst? (spec : JobSpec K) : List (Node K) → Option (String × List (Node K))
  | [] => none
  | n :: rest =>
    if accepts spec n then some (n.name, n.reserve spec.algorithmResources :: rest)
    else (reserveFirst? spec rest).map fun (name, rest) => (name, n :: rest)

/-- How many of `nodes` lack each dimension against their `room`, for dimensions that some
lack. -/
def shortfalls (required : Resources K) (room : Node K → Resources K) (nodes : List (Node K)) :
    List (Dimension × Nat) :=
  let counts := Dimension.all.map fun d =>
    (d, nodes.countP fun n => decide (d ∈ required.lacking (room n)))
  counts.filter fun e => 0 < e.2

def shortfallText (es : List (Dimension × Nat)) : String :=
  String.intercalate ", " (es.map fun e => e.1.name ++ " (" ++ JobFactory.decimalText e.2 ++ ")")

/-- The pairs `k=v` of a selector, in order of their texts. -/
def selectorText (selector : NameMap String) : String :=
  let pairs := selector.entries.map fun e => e.1 ++ "=" ++ e.2
  String.intercalate "," (pairs.mergeSort fun a b => !decide (b < a))

def warn (spec : JobSpec K) (nodes : List (Node K)) (now : Millis) : SkipWarning K :=
  let required := spec.algorithmResources
  let candidates := nodes.filter (·.matchesSelector spec.nodeSelector)
  let (hasMaxCapacity, message) :=
    if candidates.isEmpty then
      (true, "no nodes match node selector " ++ selectorText spec.nodeSelector)
    else if candidates.all fun n => !required.fitsWithin n.maxForWorkers then
      (true, "maximum capacity exceeded "
        ++ shortfallText (shortfalls required Node.maxForWorkers candidates))
    else (false, "insufficient " ++ shortfallText (shortfalls required Node.free candidates))
  { algorithm := spec.algorithm
    reason := "failedScheduling"
    message
    timestamp := now
    hasMaxCapacity
    required
    candidateNodes := candidates.length }

def place (now : Millis) : List (Node K) → List (JobSpec K) → Placement K
  | nodes, [] => ⟨[], [], nodes⟩
  | nodes, spec :: rest =>
    match reserveFirst? spec nodes with
    | some (nodeName, nodes) =>
      let p := place now nodes rest
      { p with created := ⟨spec, nodeName⟩ :: p.created }
    | none =>
      let p := place now nodes rest
      { p with skipped := ⟨spec, warn spec nodes now⟩ :: p.skipped }

end Placement

end WorkerFleet
