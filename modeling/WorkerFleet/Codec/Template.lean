import WorkerFleet.Codec.Fields

/-!
# Records of templates and requests
-/

namespace WorkerFleet.Codec

open Fields

variable {K : Type}

def request : Codec K Request :=
  (Request.mk
    <$> required "algorithm_name" text (·.algorithm)
    <*> defaulted "hot_worker" false flag (·.hot)
    <*> defaulted "enqueued_at" 0 millis (·.enqueuedAt) : Fields K _ _).codec

def mount : Codec K Mount :=
  (Mount.mk
    <$> required "name" text (·.name)
    <*> required "path" text (·.path) : Fields K _ _).codec

def templateOptions : Codec K TemplateOptions :=
  (TemplateOptions.mk <$> defaulted "debug" false flag (·.debug) : Fields K _ _).codec

variable [Quantity K]

def resources : Codec K (Resources K) :=
  (Resources.mk
    <$> defaulted "cpu" Quantity.zero amount (·.cpu)
    <*> defaulted "gpu" Quantity.zero amount (·.gpu)
    <*> defaulted "mem" Quantity.zero amount (·.mem) : Fields K _ _).codec

def resourceSpec (loose : Bool) : Codec K (ResourceSpec K) :=
  (ResourceSpec.mk
    <$> defaulted "cpu" none (option amount) (·.cpu)
    <*> defaulted "gpu" none (option amount) (·.gpu)
    <*> defaulted "mem" none (option text) (·.mem) : Fields K _ _).codecWith loose

def template : Codec K (Template K) :=
  (Template.mk
    <$> required "name" text (·.name)
    <*> required "algorithm_image" text (·.algorithmImage)
    <*> defaulted "worker_image" none (option text) (·.workerImage)
    <*> defaulted "resources" .empty (resourceSpec false) (·.resources)
    <*> defaulted "algorithm_env" .empty (nameMap text) (·.algorithmEnv)
    <*> defaulted "worker_env" .empty (nameMap text) (·.workerEnv)
    <*> defaulted "node_selector" .empty (nameMap text) (·.nodeSelector)
    <*> defaulted "mounts" [] (list mount) (·.mounts)
    <*> defaulted "entry_point" none (option text) (·.entryPoint)
    <*> defaulted "options" ⟨false⟩ templateOptions (·.options)
    <*> defaulted "min_hot_workers" 0 word32 (·.minHotWorkers) : Fields K _ _).codec

end WorkerFleet.Codec
