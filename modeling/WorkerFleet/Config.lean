import WorkerFleet.Template

/-!
# Configuration

Every setting has a default, so a configuration may name any part of them.
-/

namespace WorkerFleet

structure CapacityPolicy (K : Type) where
  /-- The estimate a fresh start has. -/
  seed : K
  /-- The weight of the previous estimate. -/
  alpha : K
  min : K
  max : K
  /-- How many times the capacity is looked at in the backlog. -/
  windowFactor : K
deriving DecidableEq, Repr

structure ReclaimPolicy (K : Type) where
  /-- The power to which positions of skipped jobs are raised. -/
  weightExponent : K
  /-- Younger workers are never stopped. -/
  minAgeForStop : Millis
deriving DecidableEq, Repr

/-- Shares of the cluster above which it counts as under pressure. -/
structure PressureThresholds (K : Type) where
  cpu : K
  gpu : K
  memory : K
deriving DecidableEq, Repr

/-- Image tags for templates that name none. -/
structure Versions where
  worker : String
deriving DecidableEq, Repr

/-- Cluster options copied into every job. -/
structure ClusterOptions where
  «namespace» : String
  imagePullSecret : Option String
deriving DecidableEq, Repr

structure Config (K : Type) where
  /-- The time between two cycles. -/
  interval : Millis
  /-- How long a created job counts as supply before the cluster lists it. -/
  createdJobsTtl : Millis
  /-- How long an algorithm may go unscheduled before an alert. -/
  warningTimeout : Millis
  capacity : CapacityPolicy K
  reclaim : ReclaimPolicy K
  pressure : PressureThresholds K
  /-- Goes in front of images that name no registry. -/
  registry : Option String
  versions : Versions
  /-- Requests of the worker's own container. -/
  workerResources : ResourceSpec K
  /-- Requests of an algorithm whose template leaves them out. -/
  defaults : ResourceSpec K
  cluster : ClusterOptions
deriving DecidableEq

namespace Config
variable {K : Type} [Quantity K]

def tenths (n : Nat) : K := Quantity.ofDecimal n (-1)

def defaultCapacity : CapacityPolicy K where
  seed := Quantity.ofNat 10
  alpha := tenths 9
  min := Quantity.ofNat 2
  max := Quantity.ofNat 50
  windowFactor := Quantity.ofNat 3

def defaultReclaim : ReclaimPolicy K := ⟨tenths 7, 10000⟩

def defaultPressure : PressureThresholds K := ⟨tenths 8, tenths 8, tenths 8⟩

def defaultVersions : Versions := ⟨"latest"⟩

def defaultCluster : ClusterOptions := ⟨"default", none⟩

def default : Config K where
  interval := 1000
  createdJobsTtl := 15000
  warningTimeout := 20000
  capacity := defaultCapacity
  reclaim := defaultReclaim
  pressure := defaultPressure
  registry := none
  versions := defaultVersions
  workerResources := ⟨some (tenths 1), some Quantity.zero, some "512Mi"⟩
  defaults := ⟨some (tenths 1), some Quantity.zero, some "256Mi"⟩
  cluster := defaultCluster

end Config

end WorkerFleet
