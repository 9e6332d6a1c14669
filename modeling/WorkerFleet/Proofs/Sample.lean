import WorkerFleet.Plan

/-!
# Sample values

Templates, nodes and a reconciler with nothing set but what a run needs. The concrete runs
beside the general theorems are built from these.
-/

namespace WorkerFleet

/-- An algorithm that asks for `cpu` and runs the image of its own name. -/
def Template.sample (name : String) (cpu : Float) : Template Float where
  name := name
  algorithmImage := name
  workerImage := none
  resources := ⟨some cpu, none, none⟩
  algorithmEnv := .empty
  workerEnv := .empty
  nodeSelector := .empty
  mounts := []
  entryPoint := none
  options := ⟨false⟩
  minHotWorkers := 0

def Templates.sample (names : List String) : Templates Float :=
  NameMap.ofList (names.map fun name => (name, .sample name 1))

def JobSpec.sample {K : Type} [Quantity K] (algorithm : String) (requests : Resources K) :
    JobSpec K where
  name := algorithm
  algorithm := algorithm
  algorithmImage := algorithm
  workerImage := "worker"
  algorithmEnv := .empty
  workerEnv := .empty
  entryPoint := none
  nodeSelector := .empty
  mounts := []
  algorithmResources := requests
  workerResources := Resources.zero
  hot := false
  debug := false
  cluster := Config.defaultCluster

def SkippedJob.sample {K : Type} [Quantity K] (algorithm : String) : SkippedJob K :=
  let spec := JobSpec.sample algorithm ⟨Quantity.ofNat 1, Quantity.zero, Quantity.zero⟩
  ⟨spec, Placement.warn spec [] 1000⟩

@[simp] theorem SkippedJob.algorithm_sample {K : Type} [Quantity K] (algorithm : String) :
    (sample algorithm : SkippedJob K).algorithm = algorithm := rfl

/-- A node of which `other` is requested by what is not a worker, and `used` by workers. -/
def Node.sample {K : Type} [Quantity K] (name : String) (total other used : Resources K) :
    Node K where
  name := name
  total := total
  requests := other + used
  other := other
  workersTotal := used
  labels := .empty

def Cluster.sample (total used : Float) : Cluster Float where
  nodes := [{
    name := "node"
    total := ⟨total, 0, 4096⟩
    requests := ⟨used, 0, 0⟩
    other := ⟨used, 0, 0⟩
    workersTotal := Resources.zero
    labels := .empty }]

/-- One node whose `total` cpu is all requested by workers. -/
def Cluster.busy (total : Float) : Cluster Float where
  nodes := (Cluster.sample total total).nodes.map fun n => { n with other := Resources.zero }

def Reconciler.sample : Reconciler Float :=
  (start? Config.default).get (by decide +kernel)

theorem Reconciler.start?_sample : start? Config.default = some sample :=
  (Option.some_get _).symm

end WorkerFleet
