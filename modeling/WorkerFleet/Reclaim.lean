import WorkerFleet.Placement
import WorkerFleet.Selection
import WorkerFleet.Worker

/-!
# Reclaim

Workers are stopped so that skipped jobs find room in a later cycle. Every skipped
algorithm has a deficit, weighted by the positions of its skips; the heaviest deficit is
served first, from one pool of workers that may be stopped: idle ones, then active ones of
algorithms that were not skipped, then the other active ones.

Weights come from a function of positions, so that statements can be made for any such
function; `ReclaimPolicy.weigh` is the one in use.
-/

namespace WorkerFleet

structure Deficit (K : Type) where
  algorithm : String
  weight : K
  resources : Resources K
  /-- The position of the algorithm's first skip. -/
  firstIndex : Nat
deriving DecidableEq, Repr

structure Stop (K : Type) where
  worker : Worker
  resources : Resources K
  /-- The skipped algorithm it is stopped for. -/
  reclaimedFor : String
deriving DecidableEq, Repr

def ReclaimPolicy.weigh {K : Type} [Powers K] (policy : ReclaimPolicy K) (position : Nat) : K :=
  Powers.pow (Quantity.ofNat position) policy.weightExponent

namespace Reclaim
variable {K : Type} [Quantity K]

def resourcesToFree (skipped : List (SkippedJob K)) : Resources K :=
  Resources.sum (skipped.map (·.resources))

def addSkip (s : SkippedJob K) (weight : K) (index : Nat) : List (Deficit K) → List (Deficit K)
  | [] => [⟨s.algorithm, weight, s.resources, index⟩]
  | d :: ds =>
    if d.algorithm = s.algorithm then
      { d with weight := d.weight + weight, resources := d.resources + s.resources } :: ds
    else d :: addSkip s weight index ds

def gather (weigh : Nat → K) (skipped : List (SkippedJob K)) : List (Deficit K) :=
  skipped.zipIdx.foldl
    (fun ds e => addSkip e.1 (weigh (skipped.length - e.2)) e.2 ds) []

/-- The heavier deficit comes first; of deficits without a heavier one, the earlier. -/
def Deficit.precedes (a b : Deficit K) : Bool :=
  if Quantity.lt b.weight a.weight then true
  else if Quantity.lt a.weight b.weight then false
  else a.firstIndex < b.firstIndex

/-- Puts `d` into a list that is kept last item first: in front of the items it does not
precede. -/
def insertBackward (d : Deficit K) : List (Deficit K) → List (Deficit K)
  | [] => [d]
  | e :: es => if Deficit.precedes d e then e :: insertBackward d es else d :: e :: es

def deficits (weigh : Nat → K) (skipped : List (SkippedJob K)) : List (Deficit K) :=
  ((gather weigh skipped).foldl (fun sorted d => insertBackward d sorted) []).reverse

/-- The worker may be stopped without being asked for by hand. Of an idle worker the age
has to be known. -/
def isEligible (w : Worker) (now minAge : Millis) : Bool :=
  if w.hot then false
  else match w.age? now with
    | some age => minAge.toNat ≤ age
    | none => !w.isIdle

def footprint (algorithm : String) (templates : Templates K) (defaults : ResourceSpec K) :
    Except (ResourceError K) (Resources K) :=
  match templates.get? algorithm with
  | some template => template.resources.resolve defaults
  | none => ResourceSpec.empty.resolve defaults

def isDebug (algorithm : String) (templates : Templates K) : Bool :=
  (templates.get? algorithm).any (·.options.debug)

def pool (isSkipped : String → Bool) (idle active : List Worker) (templates : Templates K)
    (defaults : ResourceSpec K) (minAge now : Millis) : List (Worker × Resources K) :=
  let eligible (w : Worker) := isEligible w now minAge && !isDebug w.algorithm templates
  let active := active.filter eligible
  let ordered := idle.filter eligible
    ++ active.filter (fun w => !isSkipped w.algorithm)
    ++ active.filter (fun w => isSkipped w.algorithm)
  ordered.filterMap fun w => (footprint w.algorithm templates defaults).toOption.map (w, ·)

def helps (freed outstanding : Resources K) : Bool :=
  Dimension.all.any fun d =>
    Quantity.isPositive (outstanding.get d) && Quantity.isPositive (freed.get d)

/-- Takes workers that help until nothing is outstanding: those taken, and those left. What
does not help now cannot help later, since what is outstanding only shrinks. -/
def cover (outstanding : Resources K) :
    List (Worker × Resources K) → List (Worker × Resources K) × List (Worker × Resources K)
  | [] => ([], [])
  | c :: rest =>
    if helps c.2 outstanding then
      let (taken, left) := cover (outstanding - c.2) rest
      (c :: taken, left)
    else
      let (taken, left) := cover outstanding rest
      (taken, c :: left)

def serve : List (Deficit K) → List (Worker × Resources K) → List (Stop K)
  | [], _ => []
  | d :: ds, candidates =>
    let (taken, left) := cover d.resources candidates
    taken.map (fun c => ⟨c.1, c.2, d.algorithm⟩) ++ serve ds left

def findStops (skipped : List (SkippedJob K)) (idle active : List Worker)
    (templates : Templates K) (defaults : ResourceSpec K) (weigh : Nat → K)
    (minAge now : Millis) : List (Stop K) :=
  let ds := deficits weigh skipped
  let isSkipped (algorithm : String) := ds.any (·.algorithm = algorithm)
  serve ds (pool isSkipped idle active templates defaults minAge now)

def trimToBudget (budget : Resources K) : List (Stop K) → List (Stop K)
  | [] => []
  | s :: rest =>
    if budget.isPositive then s :: trimToBudget (budget - s.resources) rest else []

/-- Drops each stop together with one resume of its algorithm, where there is one: the
stops kept and the resumes left. -/
def cancelAgainst (resumes : List Worker) : List (Stop K) → List (Stop K) × List Worker
  | [] => ([], resumes)
  | s :: rest =>
    match takeFirst? (fun r => r.algorithm = s.worker.algorithm) resumes with
    | some (_, resumes) => cancelAgainst resumes rest
    | none =>
      let (kept, left) := cancelAgainst resumes rest
      (s :: kept, left)

end Reclaim

end WorkerFleet
