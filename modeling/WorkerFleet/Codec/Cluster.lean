import WorkerFleet.Codec.Template
import WorkerFleet.Node
import WorkerFleet.Worker

/-!
# Records of workers, jobs, pods and nodes
-/

namespace WorkerFleet.Codec

open Fields

variable {K : Type}

def workerStatus : Codec K WorkerStatus where
  write s := .string s.text
  read? d := (text.read? d).map WorkerStatus.ofText

def workerReport : Codec K WorkerReport :=
  (WorkerReport.mk
    <$> required "worker_id" text (·.id)
    <*> required "algorithm_name" text (·.algorithm)
    <*> required "pod_name" text (·.podName)
    <*> required "worker_status" workerStatus (·.status)
    <*> defaulted "worker_paused" false flag (·.paused)
    <*> defaulted "hot_worker" false flag (·.hot)
    <*> defaulted "algorithm_image" none (option text) (·.algorithmImage)
    <*> defaulted "worker_image" none (option text) (·.workerImage) : Fields K _ _).codec

def clusterJob : Codec K ClusterJob :=
  (ClusterJob.mk
    <$> required "name" text (·.name)
    <*> required "algorithm_name" text (·.algorithm)
    <*> defaulted "start_time" 0 millis (·.startTime)
    <*> defaulted "succeeded" false flag (·.succeeded)
    <*> defaulted "failed" false flag (·.failed) : Fields K _ _).codec

def pod : Codec K Pod :=
  (Pod.mk
    <$> required "name" text (·.name)
    <*> required "job_name" text (·.jobName)
    <*> defaulted "node_name" none (option text) (·.nodeName) : Fields K _ _).codec

def backingJob : Codec K BackingJob :=
  (BackingJob.mk
    <$> required "job_name" text (·.jobName)
    <*> optional "pod_name" text (·.podName)
    <*> optional "node_name" text (·.nodeName)
    <*> required "start_time" millis (·.startTime) : Fields K _ _).codec

def worker : Codec K Worker :=
  (Worker.mk
    <$> required "id" text (·.id)
    <*> required "algorithm_name" text (·.algorithm)
    <*> required "status" workerStatus (·.status)
    <*> required "paused" flag (·.paused)
    <*> required "hot" flag (·.hot)
    <*> optional "job" backingJob (·.job)
    <*> optional "pod_name" text (·.podName)
    <*> optional "algorithm_image" text (·.algorithmImage)
    <*> optional "worker_image" text (·.workerImage) : Fields K _ _).codec

variable [Quantity K]

def node : Codec K (Node K) :=
  (Node.mk
    <$> required "name" text (·.name)
    <*> required "total" resources (·.total)
    <*> defaulted "requests" .zero resources (·.requests)
    <*> defaulted "other" .zero resources (·.other)
    <*> defaulted "workers_total" .zero resources (·.workersTotal)
    <*> defaulted "labels" .empty (nameMap text) (·.labels) : Fields K _ _).codec

def cluster : Codec K (Cluster K) :=
  (Cluster.mk <$> required "nodes" (list node) (·.nodes) : Fields K _ _).codec

def pressure : Codec K (Pressure K) :=
  (Pressure.mk
    <$> required "cpu" amount (·.cpu)
    <*> required "gpu" amount (·.gpu)
    <*> required "memory" amount (·.memory) : Fields K _ _).codec

end WorkerFleet.Codec
