import WorkerFleet.Codec.Template
import WorkerFleet.Config

/-!
# Records of the configuration

What a configuration leaves out keeps its default. The codecs take a flag for the reading
of arrays, as `Fields.slots?` explains.
-/

namespace WorkerFleet.Codec

open Fields

variable {K : Type}

def versions (loose : Bool) : Codec K Versions :=
  (Versions.mk <$> defaulted "worker" Config.defaultVersions.worker text (·.worker)
    : Fields K _ _).codecWith loose

def clusterOptions (loose : Bool) : Codec K ClusterOptions :=
  (ClusterOptions.mk
    <$> defaulted "namespace" Config.defaultCluster.namespace text (·.namespace)
    <*> defaulted "image_pull_secret" Config.defaultCluster.imagePullSecret (option text)
      (·.imagePullSecret) : Fields K _ _).codecWith loose

variable [Quantity K]

def capacityPolicy (loose : Bool) : Codec K (CapacityPolicy K) :=
  let d : CapacityPolicy K := Config.defaultCapacity
  (CapacityPolicy.mk
    <$> defaulted "seed" d.seed amount (·.seed)
    <*> defaulted "alpha" d.alpha amount (·.alpha)
    <*> defaulted "min" d.min amount (·.min)
    <*> defaulted "max" d.max amount (·.max)
    <*> defaulted "window_factor" d.windowFactor amount (·.windowFactor)
    : Fields K _ _).codecWith loose

def reclaimPolicy (loose : Bool) : Codec K (ReclaimPolicy K) :=
  let d : ReclaimPolicy K := Config.defaultReclaim
  (ReclaimPolicy.mk
    <$> defaulted "weight_exponent" d.weightExponent amount (·.weightExponent)
    <*> defaulted "min_age_for_stop_ms" d.minAgeForStop millis (·.minAgeForStop)
    : Fields K _ _).codecWith loose

def pressureThresholds (loose : Bool) : Codec K (PressureThresholds K) :=
  let d : PressureThresholds K := Config.defaultPressure
  (PressureThresholds.mk
    <$> defaulted "cpu" d.cpu amount (·.cpu)
    <*> defaulted "gpu" d.gpu amount (·.gpu)
    <*> defaulted "memory" d.memory amount (·.memory) : Fields K _ _).codecWith loose

def config (loose : Bool) : Codec K (Config K) :=
  let d : Config K := Config.default
  (Config.mk
    <$> defaulted "interval_ms" d.interval millis (·.interval)
    <*> defaulted "created_jobs_ttl_ms" d.createdJobsTtl millis (·.createdJobsTtl)
    <*> defaulted "scheduling_warning_timeout_ms" d.warningTimeout millis (·.warningTimeout)
    <*> defaulted "capacity" d.capacity (capacityPolicy loose) (·.capacity)
    <*> defaulted "reclaim" d.reclaim (reclaimPolicy loose) (·.reclaim)
    <*> defaulted "pressure" d.pressure (pressureThresholds loose) (·.pressure)
    <*> defaulted "registry" d.registry (option text) (·.registry)
    <*> defaulted "versions" d.versions (versions loose) (·.versions)
    <*> defaulted "worker_resources" d.workerResources (resourceSpec loose) (·.workerResources)
    <*> defaulted "defaults" d.defaults (resourceSpec loose) (·.defaults)
    <*> defaulted "cluster" d.cluster (clusterOptions loose) (·.cluster)
    : Fields K _ _).codecWith loose

end WorkerFleet.Codec
