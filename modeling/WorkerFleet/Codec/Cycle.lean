import WorkerFleet.Codec.Cluster
import WorkerFleet.Codec.Config
import WorkerFleet.Cycle

/-!
# Records of a cycle

The snapshot a cycle is planned from, what it sends, what it remembers, and what it
publishes.
-/

namespace WorkerFleet.Codec

open Fields

variable {K : Type}

def command : Codec K Command where
  write c := .string c.name
  read?
    | .string s => Command.ofName? s
    | .object [(s, .null)] => Command.ofName? s
    | _ => none

def workerCommand : Codec K WorkerCommand :=
  (WorkerCommand.mk
    <$> required "worker_id" text (·.workerId)
    <*> required "algorithm_name" text (·.algorithm)
    <*> optional "pod_name" text (·.podName)
    <*> required "command" command (·.command)
    <*> optional "message" text (·.message) : Fields K _ _).codec

def scheduledRequest (r : ScheduledRequest) : Document K :=
  .object [("algorithm_name", .string r.algorithm), ("worker_id", .string r.workerId),
    ("supply", .string r.supply.name)]

def ledgerEntry : Codec K LedgerEntry :=
  (LedgerEntry.mk
    <$> required "job_name" text (·.jobName)
    <*> required "algorithm_name" text (·.algorithm)
    <*> required "created_time" millis (·.createdAt) : Fields K _ _).codec

def eventRemoval : Codec K EventRemoval :=
  (EventRemoval.mk
    <$> required "algorithm_name" text (·.algorithm)
    <*> required "event_id" text (·.eventId) : Fields K _ _).codec

def outcome : Codec K Outcome :=
  (Outcome.mk
    <$> required "required" count32 (·.required)
    <*> required "idle" count32 (·.idle)
    <*> required "paused" count32 (·.paused)
    <*> required "created" count32 (·.created)
    <*> required "skipped" count32 (·.skipped)
    <*> required "resumed" count32 (·.resumed)
    <*> required "active" count32 (·.active) : Fields K _ _).codec

def outcomes : Codec K (NameMap Outcome) := nameMap outcome

def algorithmStats : Codec K AlgorithmStats :=
  (AlgorithmStats.mk
    <$> required "algorithm_name" text (·.algorithm)
    <*> required "count" count32 (·.count)
    <*> required "by_status" (nameMap count32) (·.byStatus)
    <*> required "hot" count32 (·.hot) : Fields K _ _).codec

def workerStats : Codec K WorkerStats :=
  (WorkerStats.mk
    <$> required "stats" (list algorithmStats) (·.stats)
    <*> required "total" count32 (·.total) : Fields K _ _).codec

variable [Quantity K]

def jobSpec : Codec K (JobSpec K) :=
  (JobSpec.mk
    <$> required "name" text (·.name)
    <*> required "algorithm_name" text (·.algorithm)
    <*> required "algorithm_image" text (·.algorithmImage)
    <*> required "worker_image" text (·.workerImage)
    <*> required "algorithm_env" (nameMap text) (·.algorithmEnv)
    <*> required "worker_env" (nameMap text) (·.workerEnv)
    <*> optional "entry_point" text (·.entryPoint)
    <*> required "node_selector" (nameMap text) (·.nodeSelector)
    <*> required "mounts" (list mount) (·.mounts)
    <*> required "algorithm_resources" resources (·.algorithmResources)
    <*> required "worker_resources" resources (·.workerResources)
    <*> required "hot_worker" flag (·.hot)
    <*> required "debug" flag (·.debug)
    <*> required "cluster" (clusterOptions false) (·.cluster) : Fields K _ _).codec

def skipWarning : Codec K (SkipWarning K) :=
  (SkipWarning.mk
    <$> required "algorithm_name" text (·.algorithm)
    <*> required "reason" text (·.reason)
    <*> required "message" text (·.message)
    <*> required "timestamp" millis (·.timestamp)
    <*> required "has_max_capacity" flag (·.hasMaxCapacity)
    <*> required "required" resources (·.required)
    <*> required "candidate_nodes" count64 (·.candidateNodes) : Fields K _ _).codec

def unscheduled : Codec K (Unscheduled K) :=
  (Unscheduled.mk
    <$> required "algorithm_name" text (·.algorithm)
    <*> required "first_seen_at" millis (·.firstSeenAt)
    <*> required "is_notified" flag (·.isNotified)
    <*> required "has_max_capacity" flag (·.hasMaxCapacity)
    <*> optional "event_id" text (·.eventId)
    <*> required "warning" skipWarning (·.warning) : Fields K _ _).codec

def alertDelta : Codec K (AlertDelta K) :=
  (AlertDelta.mk
    <$> required "added" (list unscheduled) (·.added)
    <*> required "removed" (list eventRemoval) (·.removed) : Fields K _ _).codec

def nodeStats : Codec K (NodeStats K) :=
  (NodeStats.mk
    <$> required "name" text (·.name)
    <*> required "total" resources (·.total)
    <*> required "requests" resources (·.requests)
    <*> required "other" resources (·.other)
    <*> required "workers_total" resources (·.workersTotal)
    <*> required "labels" (nameMap text) (·.labels)
    <*> required "workers" workerStats (·.workers) : Fields K _ _).codec

def discovery : Codec K (Discovery K) :=
  (Discovery.mk
    <$> required "reconcile_result" outcomes (·.outcomes)
    <*> required "actual" workerStats (·.actual)
    <*> required "resource_pressure" (pressureThresholds false) (·.thresholds)
    <*> required "nodes" (list nodeStats) (·.nodes)
    <*> required "unscheduled" alertDelta (·.unscheduled)
    <*> required "capacity" amount (·.capacity)
    <*> required "resources_to_free" resources (·.resourcesToFree)
    <*> required "timestamp" millis (·.timestamp) : Fields K _ _).codec

def snapshot : Codec K (Snapshot K) :=
  (Snapshot.mk
    <$> defaulted "templates" .empty (nameMap template) (·.templates)
    <*> defaulted "requests" [] (list request) (·.requests)
    <*> defaulted "workers" [] (list workerReport) (·.workers)
    <*> defaulted "jobs" [] (list clusterJob) (·.jobs)
    <*> defaulted "pods" [] (list pod) (·.pods)
    <*> defaulted "resources" ⟨[]⟩ cluster (·.resources) : Fields K _ _).codec

end WorkerFleet.Codec
