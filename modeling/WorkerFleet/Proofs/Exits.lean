import Mathlib.Data.List.Nodup
import WorkerFleet.Proofs.Stages

/-!
# Cycles without the workers that exit

A worker that has to exit takes part in putting the roster together, where it keeps its job
from being waited for, and in nothing that is decided later. `plan_withoutExits` compares two
cycles: had the workers that exit not been reported, nor the jobs attached to them been
listed, the cycle would have decided the same and sent the same, exit commands apart.

Nothing keeps two listed jobs from being equal, so the job that is attached to a worker is
told by its place in the list. `distribute` is `attach` over items of any kind, and with it
over jobs that carry their place.
-/

namespace WorkerFleet

section Taking
variable {α : Type} {p q : α → Bool} {xs rest : List α} {y : α}

/-- Dropping other items leaves the first that fits the first. -/
theorem takeFirst?_filter_of_some (h : takeFirst? p xs = some (y, rest)) (hy : q y = true) :
    takeFirst? p (xs.filter q) = some (y, rest.filter q) := by
  obtain ⟨before, after, rfl, rfl, hp, hbefore⟩ := takeFirst?_eq_some_iff.mp h
  refine takeFirst?_eq_some_iff.mpr ⟨before.filter q, after.filter q, ?_, ?_, hp, ?_⟩
  · rw [List.filter_append, List.filter_cons_of_pos hy]
  · rw [List.filter_append]
  · exact fun x hx => hbefore x (List.mem_filter.mp hx).1

theorem takeFirst?_filter_of_none (h : takeFirst? p xs = none) :
    takeFirst? p (xs.filter q) = none :=
  takeFirst?_eq_none_iff.mpr fun x hx =>
    takeFirst?_eq_none_iff.mp h x (List.mem_filter.mp hx).1

/-- An item that is there once is dropped by taking it. -/
theorem filter_notMem_of_takeFirst? [BEq α] [LawfulBEq α]
    (h : takeFirst? p xs = some (y, rest)) (hy : y ∉ rest) (ys : List α) :
    xs.filter (fun x => x ∉ y :: ys) = rest.filter fun x => x ∉ ys := by
  obtain ⟨before, after, rfl, rfl, -, -⟩ := takeFirst?_eq_some_iff.mp h
  rw [List.filter_append, List.filter_cons_of_neg (by simp), ← List.filter_append]
  refine List.filter_congr fun x hx => ?_
  have hne : x ≠ y := fun heq => hy (heq ▸ hx)
  simp [hne]

end Taking

namespace Roster
variable {α : Type} (fits : Worker → α → Bool)

/-- Hands to each worker in turn the first item that fits it: the workers with their items,
and the items left. -/
def distribute : List α → List Worker → List (Worker × Option α) × List α
  | items, [] => ([], items)
  | items, w :: rest =>
    match takeFirst? (fits w) items with
    | some (x, items) =>
      let (handed, left) := distribute items rest
      ((w, some x) :: handed, left)
    | none =>
      let (handed, left) := distribute items rest
      ((w, none) :: handed, left)

theorem distribute_cons_of_some {w : Worker} {items rest : List α} {x : α}
    (h : takeFirst? (fits w) items = some (x, rest)) (ws : List Worker) :
    distribute fits items (w :: ws) =
      ((w, some x) :: (distribute fits rest ws).1, (distribute fits rest ws).2) := by
  simp only [distribute, h]

theorem distribute_cons_of_none {w : Worker} {items : List α}
    (h : takeFirst? (fits w) items = none) (ws : List Worker) :
    distribute fits items (w :: ws) =
      ((w, none) :: (distribute fits items ws).1, (distribute fits items ws).2) := by
  simp only [distribute, h]

def seat (handed : Worker × Option LiveJob) : Worker :=
  match handed.2 with
  | some j => { handed.1 with job := some j.job }
  | none => handed.1

@[simp] theorem id_seat (handed : Worker × Option LiveJob) : (seat handed).id = handed.1.id := by
  obtain ⟨w, _ | j⟩ := handed <;> rfl

theorem attach_map (f : α → LiveJob) (items : List α) (ws : List Worker) :
    attach (items.map f) ws =
      ((distribute (fun w x => runsIn w (f x)) items ws).1.map fun e => seat (e.1, e.2.map f),
       (distribute (fun w x => runsIn w (f x)) items ws).2.map f) := by
  induction ws generalizing items with
  | nil => rfl
  | cons w ws ih =>
    have htake := takeFirst?_map (q := runsIn w) (f := f) (fun _ => rfl) items
    cases h : takeFirst? (fun x => runsIn w (f x)) items with
    | none =>
      rw [h] at htake
      rw [attach_cons_of_none htake, distribute_cons_of_none _ h, ih]
      rfl
    | some e =>
      rw [h] at htake
      rw [attach_cons_of_some htake, distribute_cons_of_some _ h, ih]
      rfl

section Leaving
variable (leaves : Worker → Bool)

/-- What was handed to the workers that leave. -/
def taken (handed : List (Worker × Option α)) : List α :=
  (handed.filter fun e => leaves e.1).filterMap (·.2)

@[simp] theorem taken_cons_none (w : Worker) (handed : List (Worker × Option α)) :
    taken leaves ((w, none) :: handed) = taken leaves handed := by
  cases hw : leaves w <;> simp [taken, hw]

theorem taken_cons_of_leaves {w : Worker} (hw : leaves w = true) (x : α)
    (handed : List (Worker × Option α)) :
    taken leaves ((w, some x) :: handed) = x :: taken leaves handed := by
  simp [taken, hw]

theorem taken_cons_of_stays {w : Worker} (hw : leaves w = false) (x : α)
    (handed : List (Worker × Option α)) :
    taken leaves ((w, some x) :: handed) = taken leaves handed := by
  simp [taken, hw]

theorem taken_subset (items : List α) (ws : List Worker) :
    taken leaves (distribute fits items ws).1 ⊆ items := by
  have hhanded : ∀ e ∈ (distribute fits items ws).1, ∀ x ∈ e.2, x ∈ items := by
    induction ws generalizing items with
    | nil => exact fun e he => absurd he List.not_mem_nil
    | cons w ws ih =>
      cases h : takeFirst? (fits w) items with
      | none =>
        rw [distribute_cons_of_none _ h, List.forall_mem_cons]
        exact ⟨fun _ hx => (nomatch hx), ih items⟩
      | some e =>
        have hsubset := (perm_of_takeFirst? h).symm.subset
        rw [distribute_cons_of_some _ h, List.forall_mem_cons]
        refine ⟨?_, fun e' he x hx => hsubset (List.mem_cons_of_mem _ (ih e.2 e' he x hx))⟩
        rintro x ⟨⟩
        exact hsubset List.mem_cons_self
  intro x hx
  obtain ⟨e, he, hex⟩ := List.mem_filterMap.mp hx
  exact hhanded e (List.mem_filter.mp he).1 x hex

variable [BEq α] [LawfulBEq α]

/-- A worker that stays is handed the same item if the workers that leave, and what was handed
to them, are not there. -/
theorem distribute_without {items : List α} (hnodup : items.Nodup) (ws : List Worker) :
    distribute fits
        (items.filter fun x => x ∉ taken leaves (distribute fits items ws).1)
        (ws.filter fun w => !leaves w) =
      ((distribute fits items ws).1.filter fun e => !leaves e.1, (distribute fits items ws).2) := by
  induction ws generalizing items with
  | nil =>
    have hall : items.filter (fun x => x ∉ ([] : List α)) = items :=
      List.filter_eq_self.mpr fun _ _ => decide_eq_true List.not_mem_nil
    exact congrArg (Prod.mk []) hall
  | cons w ws ih =>
    cases h : takeFirst? (fits w) items with
    | none =>
      have ih := ih hnodup
      rw [distribute_cons_of_none _ h, taken_cons_none]
      cases hw : leaves w with
      | true =>
        rw [List.filter_cons_of_neg (by simp [hw]), List.filter_cons_of_neg (by simp [hw]), ih]
      | false =>
        rw [List.filter_cons_of_pos (by simp [hw]), List.filter_cons_of_pos (by simp [hw]),
          distribute_cons_of_none _ (takeFirst?_filter_of_none h), ih]
    | some e =>
      obtain ⟨x, rest⟩ := e
      have hperm := perm_of_takeFirst? h
      obtain ⟨hx, hrest⟩ := List.nodup_cons.mp (hperm.nodup_iff.mp hnodup)
      have ih := ih hrest
      rw [distribute_cons_of_some _ h]
      cases hw : leaves w with
      | true =>
        -- The item leaves with its worker, and what is left is what the others choose from.
        rw [taken_cons_of_leaves _ hw, filter_notMem_of_takeFirst? h hx,
          List.filter_cons_of_neg (by simp [hw]), List.filter_cons_of_neg (by simp [hw]), ih]
      | false =>
        have hfree : x ∉ taken leaves (distribute fits rest ws).1 :=
          fun hmem => hx (taken_subset fits leaves rest ws hmem)
        rw [taken_cons_of_stays _ hw, List.filter_cons_of_pos (by simp [hw]),
          List.filter_cons_of_pos (by simp [hw]),
          distribute_cons_of_some _ (takeFirst?_filter_of_some h (decide_eq_true hfree)), ih]

end Leaving

end Roster

namespace ExitOrder

/-- The worker goes by the id of one that has to exit. -/
def leaves (exits : List ExitOrder) (w : Worker) : Bool := exits.any (·.worker.id = w.id)

@[simp] theorem leaves_seat (exits : List ExitOrder) (handed : Worker × Option LiveJob) :
    leaves exits (Roster.seat handed) = leaves exits handed.1 := by
  simp only [leaves, Roster.id_seat]

end ExitOrder

namespace Snapshot
variable {K : Type}

def liveRecords (input : Snapshot K) : List (ClusterJob × Nat) :=
  input.jobs.zipIdx.filter (·.1.isLive)

def joinedRecord (input : Snapshot K) (record : ClusterJob × Nat) : LiveJob :=
  Roster.joined input.pods record.1

/-- The listed jobs as they are attached to the reported workers, and the jobs left. -/
def attached (input : Snapshot K) :
    List (Worker × Option (ClusterJob × Nat)) × List (ClusterJob × Nat) :=
  Roster.distribute (fun w record => Roster.runsIn w (input.joinedRecord record))
    input.liveRecords (input.workers.map .ofReport)

/-- The snapshot without the workers that exit and the jobs attached to them. -/
def without (input : Snapshot K) (exits : List ExitOrder) : Snapshot K :=
  let gone := Roster.taken (ExitOrder.leaves exits) input.attached.1
  { input with
    workers := input.workers.filter fun report => !ExitOrder.leaves exits (.ofReport report)
    jobs := (input.jobs.zipIdx.filter fun record => record ∉ gone).map (·.1) }

variable (input : Snapshot K) (exits : List ExitOrder)

theorem nodup_liveRecords : input.liveRecords.Nodup := by
  have hplaces : (input.jobs.zipIdx.map (·.2)).Nodup := by
    rw [List.zipIdx_map_snd]
    exact List.nodup_range'
  exact hplaces.of_map.filter _

theorem liveJobs_eq_map_liveRecords :
    Roster.liveJobs input.jobs input.pods = input.liveRecords.map input.joinedRecord := by
  have hjobs : input.jobs.filter (·.isLive) = input.liveRecords.map (·.1) := by
    calc input.jobs.filter (·.isLive)
        = (input.jobs.zipIdx.map (·.1)).filter (·.isLive) := by rw [List.zipIdx_map_fst]
      _ = input.liveRecords.map (·.1) := List.filter_map
  rw [Roster.liveJobs_eq, hjobs, List.map_map]
  rfl

theorem liveJobs_without :
    Roster.liveJobs (input.without exits).jobs (input.without exits).pods =
      (input.liveRecords.filter fun record =>
        record ∉ Roster.taken (ExitOrder.leaves exits) input.attached.1).map
          input.joinedRecord := by
  rw [Roster.liveJobs_eq, without, List.filter_map, List.map_map, List.filter_filter,
    liveRecords, List.filter_filter]
  exact congrArg _ (List.filter_congr fun _ _ => Bool.and_comm _ _)

def roster (input : Snapshot K) : Roster :=
  .ofRecords input.workers input.jobs input.pods

theorem roster_eq_attached : input.roster =
    ⟨input.attached.1.map fun e => Roster.seat (e.1, e.2.map input.joinedRecord),
     (input.attached.2.map input.joinedRecord).map fun j => .expectedOf j.algorithm j.job⟩ := by
  rw [roster, Roster.ofRecords, Roster.merge, liveJobs_eq_map_liveRecords, Roster.attach_map]
  rfl

/-- The workers that exit leave the roster, and take their jobs with them. -/
theorem roster_without : (input.without exits).roster =
    ⟨input.roster.workers.filter fun w => !ExitOrder.leaves exits w, input.roster.pending⟩ := by
  have hworkers : (input.without exits).workers.map Worker.ofReport =
      (input.workers.map Worker.ofReport).filter fun w => !ExitOrder.leaves exits w := by
    rw [List.filter_map]
    rfl
  have hattached : Roster.distribute
      (fun w record => Roster.runsIn w (input.joinedRecord record))
      (input.liveRecords.filter fun record =>
        record ∉ Roster.taken (ExitOrder.leaves exits) input.attached.1)
      ((input.workers.map .ofReport).filter fun w => !ExitOrder.leaves exits w) =
        (input.attached.1.filter fun e => !ExitOrder.leaves exits e.1, input.attached.2) :=
    Roster.distribute_without _ _ input.nodup_liveRecords _
  rw [roster_eq_attached input, List.filter_map, roster, Roster.ofRecords, hworkers,
    liveJobs_without, Roster.merge, Roster.attach_map, hattached]
  simp only [Function.comp_def, ExitOrder.leaves_seat]

-- Of two equal jobs only the one that is attached goes.
example :
    let w : WorkerReport := ⟨"w", "a", "pod", .ready, false, false, some "old", none⟩
    let j : ClusterJob := ⟨"job", "a", 0, false, false⟩
    let input : Snapshot Rat := ⟨.empty, [], [w], [j, j], [⟨"pod", "job", none⟩], ⟨[]⟩⟩
    (input.without [⟨.ofReport w, .algorithm⟩]).jobs = [j] := by
  decide

end Snapshot

namespace Fleet
variable {K : Type} (config : Config K) (input : Snapshot K)

/-- What becomes of the workers of a roster of which none has to exit. -/
def ofSettled (templates : Templates K) (discovered : List Worker) (roster : Roster) : Fleet :=
  let warmUp := HotWorkers.warmUp templates roster.workers
  let coolDown := HotWorkers.coolDown templates roster.workers
  { discovered, roster, exits := [], warmUp, coolDown
    live := HotWorkers.apply warmUp coolDown roster.workers }

theorem ofSnapshot_eq_ofSettled : ofSnapshot config input =
    { ofSettled input.templates (input.workers.map .ofReport)
        ⟨(ofSnapshot config input).staying, input.roster.pending⟩ with
      roster := input.roster
      exits := (ofSnapshot config input).exits } := rfl

theorem ofSnapshot_of_noExits
    (h : ExitOrder.ofWorkers config input.templates input.roster.workers = []) :
    ofSnapshot config input =
      ofSettled input.templates (input.workers.map .ofReport) input.roster := by
  have hexits : (ofSnapshot config input).exits = [] := h
  have hstaying : (ofSnapshot config input).staying = input.roster.workers := by
    rw [staying, hexits]
    exact List.filter_eq_self.mpr fun _ _ => rfl
  rw [ofSnapshot_eq_ofSettled, hstaying, hexits]
  rfl

theorem exits_staying :
    ExitOrder.ofWorkers config input.templates (ofSnapshot config input).staying = [] := by
  refine List.eq_nil_iff_forall_not_mem.mpr fun order horder => ?_
  obtain ⟨w, hw, hstale⟩ := List.mem_filterMap.mp horder
  obtain ⟨hmem, hstays⟩ := List.mem_filter.mp hw
  have hexits : order ∈ (ofSnapshot config input).exits :=
    List.mem_filterMap.mpr ⟨w, hmem, hstale⟩
  obtain ⟨template, _, hreason⟩ := Option.bind_eq_some_iff.mp hstale
  obtain ⟨reason, _, rfl⟩ := Option.map_eq_some_iff.mp hreason
  rw [Bool.not_eq_true', List.any_eq_false] at hstays
  exact hstays _ hexits (decide_eq_true rfl)

/-- Without the workers that exit, the fleet is what stays of it. -/
theorem ofSnapshot_without :
    ofSnapshot config (input.without (ofSnapshot config input).exits) =
      ofSettled input.templates
        ((input.without (ofSnapshot config input).exits).workers.map .ofReport)
        ⟨(ofSnapshot config input).staying, input.roster.pending⟩ := by
  have hroster := input.roster_without (ofSnapshot config input).exits
  have hexits : ExitOrder.ofWorkers config input.templates
      (input.without (ofSnapshot config input).exits).roster.workers = [] := by
    rw [hroster]
    exact exits_staying config input
  rw [ofSnapshot_of_noExits config _ hexits, hroster]
  rfl

end Fleet

namespace Outbound
variable {K : Type}

def isExit : Outbound K → Bool
  | createJob _ => false
  | command c => c.command = .exit

end Outbound

namespace Plan
variable {K : Type}

/-- All that is decided of the requests and of the workers that stay is the same, and so is
what is sent, exit commands apart. -/
structure SameButExits (plan other : Plan K) : Prop where
  capacity : other.capacity = plan.capacity
  pressure : other.pressure = plan.pressure
  admitted : other.admitted = plan.admitted
  scheduled : other.scheduled = plan.scheduled
  created : other.created = plan.created
  skipped : other.skipped = plan.skipped
  resourcesToFree : other.resourcesToFree = plan.resourcesToFree
  stops : other.stops = plan.stops
  resumes : other.resumes = plan.resumes
  exits : other.exits = []
  warmUp : other.warmUp = plan.warmUp
  coolDown : other.coolDown = plan.coolDown
  unscheduled : other.unscheduled = plan.unscheduled
  outbound : other.outbound = plan.outbound.filter fun o => !o.isExit

theorem outboundOf_without_exits (created : List (PlacedJob K)) (exits : List ExitOrder)
    (warmUp coolDown : List Worker) (stops : List (Stop K)) (resumes : List Worker) :
    (outboundOf created exits warmUp coolDown stops resumes).filter (fun o => !o.isExit) =
      outboundOf created [] warmUp coolDown stops resumes := by
  simp [outboundOf, List.filter_map, Function.comp_def, Outbound.isExit, WorkerCommand.ofExit,
    WorkerCommand.withMessage, WorkerCommand.ofWorker]

end Plan

namespace Reconciler
variable {K : Type} [Powers K] (r : Reconciler K) (input : Snapshot K) (now : Millis)

def withoutExits : Snapshot K := input.without (r.plan input now).1.exits

theorem exits_plan : (r.plan input now).1.exits = (r.fleet input).exits := by
  rw [plan_eq]

theorem fleet_withoutExits : r.fleet (r.withoutExits input now) =
    .ofSettled input.templates ((r.withoutExits input now).workers.map .ofReport)
      ⟨(r.fleet input).staying, (r.fleet input).roster.pending⟩ := by
  rw [withoutExits, exits_plan]
  exact Fleet.ofSnapshot_without r.config input

theorem pools_withoutExits :
    r.pools (r.withoutExits input now) now = r.pools input now := by
  rw [pools, fleet_withoutExits]
  rfl

theorem estimate_withoutExits :
    r.estimate (r.withoutExits input now) now = r.estimate input now := by
  rw [estimate, pools_withoutExits, estimate]

theorem cut_withoutExits : r.cut (r.withoutExits input now) now = r.cut input now := by
  rw [cut, estimate_withoutExits]
  rfl

theorem assignment_withoutExits :
    r.assignment (r.withoutExits input now) now = r.assignment input now := by
  rw [assignment, pools_withoutExits, cut_withoutExits]
  rfl

theorem placement_withoutExits :
    r.placement (r.withoutExits input now) now = r.placement input now := by
  rw [placement, assignment_withoutExits]
  rfl

theorem tracked_withoutExits :
    r.tracked (r.withoutExits input now) now = r.tracked input now := by
  rw [tracked, placement_withoutExits]
  rfl

theorem settled_withoutExits :
    r.settled (r.withoutExits input now) now = r.settled input now := by
  rw [settled, foundStops, assignment_withoutExits, placement_withoutExits]
  rfl

/-- The workers that exit have no influence on any other decision, nor on later cycles. -/
theorem plan_withoutExits :
    (r.plan input now).1.SameButExits (r.plan (r.withoutExits input now) now).1 ∧
      (r.plan (r.withoutExits input now) now).2 = (r.plan input now).2 := by
  rw [plan_eq r (r.withoutExits input now), estimate_withoutExits, cut_withoutExits,
    assignment_withoutExits, placement_withoutExits, tracked_withoutExits, settled_withoutExits,
    fleet_withoutExits, plan_eq r input]
  refine ⟨?_, rfl⟩
  exact {
    capacity := rfl
    pressure := rfl
    admitted := rfl
    scheduled := rfl
    created := rfl
    skipped := rfl
    resourcesToFree := rfl
    stops := rfl
    resumes := rfl
    exits := rfl
    warmUp := rfl
    coolDown := rfl
    unscheduled := rfl
    outbound := (Plan.outboundOf_without_exits _ _ _ _ _ _).symm }

end Reconciler

end WorkerFleet
