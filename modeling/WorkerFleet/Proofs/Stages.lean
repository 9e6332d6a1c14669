import WorkerFleet.Proofs.Fleet
import WorkerFleet.Proofs.Stops
import WorkerFleet.Proofs.Supply

/-!
# Stages of a cycle

`Reconciler.plan` computes stage after stage; here each stage has a name, and `plan_eq` is
the plan in these names. The lemmas after it say where the decisions come from: what is
scheduled was in the pools, what is resumed was paused and handed out, what is stopped was
left idle or is active.
-/

namespace WorkerFleet

namespace Reconciler
variable {K : Type} [Powers K] (r : Reconciler K) (input : Snapshot K) (now : Millis)

def fleet : Fleet := Fleet.ofSnapshot r.config input

/-- What there is to serve requests when the cycle starts. -/
def pools : Pools :=
  .ofWorkers (r.fleet input).live (r.fleet input).roster.pending (r.ledger.expire now).entries

def estimate : Capacity K :=
  r.capacity.update ((r.pools input now).idle.length + (r.pools input now).active.length
    + (r.ledger.expire now).entries.length)

def cut : FairCut K :=
  FairShare.cut (HotWorkers.requests input.templates ++ FairShare.window input.requests
    (r.estimate input now).value (r.estimate input now).policy.windowFactor)
    (r.estimate input now).value

def assignment : Assignment K :=
  Assignment.assign input.templates r.config now (r.pools input now) r.factory
    (r.cut input now).admitted

def placement : Placement K :=
  Placement.place now input.resources.nodes (r.assignment input now).toCreate

def tracked : AlertDelta K × Tracker K :=
  r.tracker.update (r.placement input now).created (r.placement input now).skipped
    input.requests input.templates now

/-- The stops found for what is skipped, before any is dropped. -/
def foundStops : List (Stop K) :=
  Reclaim.findStops (r.placement input now).skipped (r.assignment input now).pools.idle
    (r.assignment input now).pools.active input.templates r.config.defaults
    r.config.reclaim.weigh r.config.reclaim.minAgeForStop now

/-- The stops and the resumes that are sent. -/
def settled : List (Stop K) × List Worker :=
  Reclaim.cancelAgainst (r.assignment input now).toResume
    (Reclaim.trimToBudget (Reclaim.resourcesToFree (r.placement input now).skipped)
      (r.foundStops input now))

theorem plan_eq : r.plan input now =
    ({ outcomes := Plan.outcomesOf (r.assignment input now).required
        (countByAlgorithm (r.pools input now).idle) (r.placement input now).created
        (r.placement input now).skipped (r.assignment input now).unschedulable
        (r.settled input now).1 (r.settled input now).2 (.ofWorkers (r.fleet input).discovered)
       capacity := (r.estimate input now).value
       pressure := input.resources.pressure
       admitted := (r.cut input now).admitted
       scheduled := (r.assignment input now).scheduled
       created := (r.placement input now).created
       skipped := (r.placement input now).skipped
       resourcesToFree := Reclaim.resourcesToFree (r.placement input now).skipped
       stops := (r.settled input now).1
       resumes := (r.settled input now).2
       exits := (r.fleet input).exits
       warmUp := (r.fleet input).warmUp
       coolDown := (r.fleet input).coolDown
       unscheduled := (r.tracked input now).1
       outbound := Plan.outboundOf (r.placement input now).created (r.fleet input).exits
        (r.fleet input).warmUp (r.fleet input).coolDown (r.settled input now).1
        (r.settled input now).2
       actual := .ofWorkers (r.fleet input).discovered
       nodes := NodeStats.ofCluster input.resources (r.fleet input).roster.workers },
     { r with
       capacity := r.estimate input now
       tracker := (r.tracked input now).2
       ledger := (r.ledger.expire now).record (r.placement input now).created now
       factory := (r.assignment input now).factory }) := rfl

theorem admitted_plan : (r.plan input now).1.admitted = (r.cut input now).admitted := by
  rw [plan_eq]

theorem scheduled_plan :
    (r.plan input now).1.scheduled = (r.assignment input now).scheduled := by
  rw [plan_eq]

theorem created_plan : (r.plan input now).1.created = (r.placement input now).created := by
  rw [plan_eq]

theorem skipped_plan : (r.plan input now).1.skipped = (r.placement input now).skipped := by
  rw [plan_eq]

theorem stops_plan : (r.plan input now).1.stops = (r.settled input now).1 := by
  rw [plan_eq]

theorem resumes_plan : (r.plan input now).1.resumes = (r.settled input now).2 := by
  rw [plan_eq]

theorem unscheduled_plan : (r.plan input now).1.unscheduled = (r.tracked input now).1 := by
  rw [plan_eq]

theorem tracker_plan : (r.plan input now).2.tracker = (r.tracked input now).2 := by
  rw [plan_eq]

theorem ledger_plan : (r.plan input now).2.ledger =
    (r.ledger.expire now).record (r.placement input now).created now := by
  rw [plan_eq]

/-- What the admitted requests take, and the pools left. -/
def served : List SupplyItem × Pools :=
  (r.pools input now).serve (r.cut input now).admitted

theorem served_perm :
    ((r.served input now).1 ++ (r.served input now).2.items).Perm (r.pools input now).items :=
  Pools.serve_perm _ _

theorem filterMap_served_subperm {β : Type} (f : SupplyItem → Option β) :
    ((r.served input now).1.filterMap f).Subperm ((r.pools input now).items.filterMap f) :=
  subperm_filterMap f
    ((List.sublist_append_left _ _).subperm.trans (r.served_perm input now).subperm)

theorem active_served : (r.served input now).2.active =
    (r.fleet input).live.filter (·.isActive) :=
  Pools.active_serve _ _

theorem assignment_scheduled : (r.assignment input now).scheduled =
    (r.served input now).1.map SupplyItem.schedule :=
  (Assignment.assign_serve input.templates r.config now (r.pools input now) r.factory _).1

theorem assignment_toResume : (r.assignment input now).toResume =
    (r.served input now).1.filterMap SupplyItem.resumed? :=
  (Assignment.assign_serve input.templates r.config now (r.pools input now) r.factory _).2.1

theorem assignment_pools : (r.assignment input now).pools = (r.served input now).2 :=
  (Assignment.assign_serve input.templates r.config now (r.pools input now) r.factory _).2.2

theorem resumes_sublist : (r.settled input now).2.Sublist
    ((r.served input now).1.filterMap SupplyItem.resumed?) := by
  rw [← assignment_toResume]
  exact (Reclaim.cancelAgainst_sublist _ _).2

theorem stops_sublist : (r.settled input now).1.Sublist (r.foundStops input now) :=
  (Reclaim.cancelAgainst_sublist _ _).1.trans (Reclaim.trimToBudget_sublist _ _)

theorem workers_stops_subperm : ((r.settled input now).1.map (·.worker)).Subperm
    ((r.served input now).2.idle ++ (r.served input now).2.active) := by
  rw [← assignment_pools]
  exact ((r.stops_sublist input now).map _).subperm.trans
    (Reclaim.workers_findStops_subperm _ _ _ _ _ _ _ _)

theorem isEligible_of_mem_stops {s : Stop K} (hs : s ∈ (r.settled input now).1) :
    Reclaim.isEligible s.worker now r.config.reclaim.minAgeForStop = true :=
  Reclaim.isEligible_of_mem_findStops _ _ _ _ _ _ _ _ ((r.stops_sublist input now).subset hs)

theorem footprint_of_mem_stops {s : Stop K} (hs : s ∈ (r.settled input now).1) :
    Reclaim.footprint s.worker.algorithm input.templates r.config.defaults = .ok s.resources :=
  Reclaim.footprint_of_mem_findStops _ _ _ _ _ _ _ _ ((r.stops_sublist input now).subset hs)

/-- No worker both serves a request and is stopped, nor does either twice. -/
theorem present_stopped_subperm :
    ((r.served input now).1.filterMap SupplyItem.present?
      ++ (r.settled input now).1.map (·.worker)).Subperm (r.fleet input).live := by
  -- An idle worker is taken or left, and one that is left may be stopped; paused workers
  -- are never stopped, and active ones never taken.
  let taken := (r.served input now).1.filterMap SupplyItem.present?
  let left := (r.served input now).2
  have htaken : (taken ++ (left.idle ++ left.paused)).Perm
      ((r.pools input now).idle ++ (r.pools input now).paused) := by
    have h := (r.served_perm input now).filterMap SupplyItem.present?
    rwa [List.filterMap_append, Pools.filterMap_present?_items,
      Pools.filterMap_present?_items] at h
  have hidle : (taken ++ left.idle).Subperm
      ((r.pools input now).idle ++ (r.pools input now).paused) := by
    refine List.Subperm.trans ?_ htaken.subperm
    exact ((List.sublist_append_left _ _).append_left taken).subperm
  have hlive := Pools.workers_subperm (r.fleet input).live
  rw [← List.append_assoc] at hlive
  refine List.Subperm.trans ?_ hlive
  rw [← active_served]
  refine List.Subperm.trans ?_ (hidle.append (.refl _))
  rw [List.append_assoc]
  exact (List.Subperm.refl taken).append (r.workers_stops_subperm input now)

theorem mem_live_of_mem_stops {s : Stop K} (hs : s ∈ (r.settled input now).1) :
    s.worker ∈ (r.fleet input).live :=
  (r.present_stopped_subperm input now).subset
    (List.mem_append_right _ (List.mem_map_of_mem hs))

theorem mem_live_of_present {item : SupplyItem} {w : Worker}
    (hitem : item ∈ (r.served input now).1) (hw : item.present? = some w) :
    w ∈ (r.fleet input).live :=
  (r.present_stopped_subperm input now).subset
    (List.mem_append_left _ (List.mem_filterMap.mpr ⟨item, hitem, hw⟩))

end Reconciler

end WorkerFleet
