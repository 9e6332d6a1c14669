import WorkerFleet.Config

/-!
# Jobs

The specification of a worker's cluster job: the images it runs, the resources it asks
for, and its name, which no other job of the same factory has.
-/

namespace WorkerFleet

namespace Image

def firstSegment? (image : List Char) : Option (List Char) :=
  if image.contains '/' then some (image.takeWhile (· != '/')) else none

/-- A first segment names a registry host if it holds a point or a colon, or is
`localhost`. -/
def isHost (segment : List Char) : Bool :=
  segment.contains '.' || segment.contains ':' || segment = "localhost".toList

def namesHost (image : List Char) : Bool := (firstSegment? image).any isHost

def dropTrailingSlashes (registry : List Char) : List Char :=
  (registry.reverse.dropWhile (· == '/')).reverse

/-- Puts the registry, if one is given, in front of an image that names no host. -/
def resolve (image : String) (registry : Option String) : String :=
  match registry with
  | none => image
  | some registry =>
    if registry.isEmpty || namesHost image.toList then image
    else String.ofList (dropTrailingSlashes registry.toList ++ '/' :: image.toList)

end Image

def defaultWorkerRepository : String := "taskgrid/worker"

namespace Config
variable {K : Type}

def algorithmImage (config : Config K) (template : Template K) : String :=
  Image.resolve template.algorithmImage config.registry

def workerImage (config : Config K) (template : Template K) : String :=
  Image.resolve
    (template.workerImage.getD (defaultWorkerRepository ++ ":" ++ config.versions.worker))
    config.registry

end Config

structure JobSpec (K : Type) where
  name : String
  algorithm : String
  algorithmImage : String
  workerImage : String
  algorithmEnv : NameMap String
  workerEnv : NameMap String
  entryPoint : Option String
  nodeSelector : NameMap String
  mounts : List Mount
  /-- Requests of the algorithm's container; nodes are chosen by these. -/
  algorithmResources : Resources K
  /-- Requests of the worker's own container. -/
  workerResources : Resources K
  hot : Bool
  debug : Bool
  cluster : ClusterOptions
deriving DecidableEq

structure TemplateError (K : Type) where
  algorithm : String
  cause : ResourceError K
deriving DecidableEq, Repr

def TemplateError.message (e : TemplateError Float) : String :=
  "invalid template for " ++ e.algorithm ++ ": " ++ e.cause.message

/-- Makes jobs and numbers them. The numbers have no bound here; a word of 64 bits counts the same
for the first `2 ^ 64` jobs. -/
structure JobFactory where
  next : Nat
deriving DecidableEq, Repr

namespace JobFactory

def fresh : JobFactory := ⟨0⟩

def hexText (n : Nat) : String := String.ofList (Nat.toDigits 16 n)

def decimalText (n : Nat) : String := String.ofList (Nat.toDigits 10 n)

def jobName (template : String) (now : Millis) (number : Nat) : String :=
  template ++ "-" ++ hexText now.toNat ++ "-" ++ decimalText number

variable {K : Type} [Quantity K]

/-- The job of one new worker for `request`, and the factory afterwards. -/
def build (factory : JobFactory) (template : Template K) (request : Request)
    (config : Config K) (now : Millis) : Except (TemplateError K) (JobSpec K) × JobFactory :=
  match template.resources.resolve config.defaults,
      config.workerResources.resolve config.workerResources with
  | .error cause, _ => (.error ⟨template.name, cause⟩, factory)
  | .ok _, .error cause => (.error ⟨template.name, cause⟩, factory)
  | .ok algorithmResources, .ok workerResources =>
    (.ok {
      name := jobName template.name now factory.next
      algorithm := template.name
      algorithmImage := config.algorithmImage template
      workerImage := config.workerImage template
      algorithmEnv := template.algorithmEnv
      workerEnv := template.workerEnv
      entryPoint := template.entryPoint
      nodeSelector := template.nodeSelector
      mounts := template.mounts
      algorithmResources
      workerResources
      hot := request.hot
      debug := template.options.debug
      cluster := config.cluster }, ⟨factory.next + 1⟩)

end JobFactory

end WorkerFleet
