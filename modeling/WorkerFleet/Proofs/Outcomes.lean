import WorkerFleet.Proofs.Accounts
import WorkerFleet.Proofs.Commands
import WorkerFleet.Proofs.Turns

/-!
# Outcomes and what is sent

The outcomes of a plan are what is published of it, and the outbound items are what is done. Both
are put together from the lists of decisions, which the stages of the cycle leave one by one.
`plan_agrees` says that outcomes, decisions and outbound items tell the same.
-/

namespace WorkerFleet

theorem countP_eq_of_map_eq {α β : Type} {f : α → Bool} {g : β → Bool} {xs : List α} {ys : List β}
    (h : xs.map f = ys.map g) : xs.countP f = ys.countP g := by
  have hcount := congrArg (List.countP id) h
  rwa [List.countP_map, List.countP_map] at hcount

theorem counts_countByAlgorithm (workers : List Worker) :
    (countByAlgorithm workers).Counts fun a => workers.countP (·.algorithm = a) :=
  counts_foldl Worker.algorithm workers

namespace Plan
variable {K : Type}

/-- The commands of one kind among what is sent. -/
def commandsOf (plan : Plan K) (c : Command) : List WorkerCommand :=
  plan.commands.filter (·.command = c)

/-- The outcomes, the decisions and the outbound items of a plan tell the same. -/
structure Agrees (plan : Plan K) (input : Snapshot K) : Prop where
  created : ∀ a, (plan.outcome a).created = plan.jobsSent.countP (·.algorithm = a)
  paused : ∀ a, (plan.outcome a).paused =
    (plan.commandsOf .stopProcessing).countP (·.algorithm = a)
  resumed : ∀ a, (plan.outcome a).resumed =
    (plan.commandsOf .startProcessing).countP (·.algorithm = a)
  exits : plan.commandsOf .exit = plan.exits.map .ofExit
  warmUp : plan.commandsOf .warmUp = plan.warmUp.map (.ofWorker .warmUp)
  coolDown : plan.commandsOf .coolDown = plan.coolDown.map (.ofWorker .coolDown)
  idle : ∀ a, (plan.outcome a).idle = input.workers.countP fun w =>
    w.algorithm = a && w.status = .ready && !w.paused && !plan.exits.any (·.worker.id = w.id)
  active : ∀ a, (plan.outcome a).active = input.workers.countP (·.algorithm = a)
  counted : ∀ a, plan.outcomes.get? a ≠ some .zero

theorem counted_outcomesOf {required idle : NameMap Nat} {wanted there : String → Nat}
    {actual : WorkerStats} (hrequired : required.Counts wanted) (hidle : idle.Counts there)
    (hactual : ∀ s ∈ actual.stats, s.count ≠ 0) (created : List (PlacedJob K))
    (skipped : List (SkippedJob K)) (unschedulable : List Request) (stops : List (Stop K))
    (resumes : List Worker) :
    Counted (outcomesOf required idle created skipped unschedulable stops resumes actual) := by
  apply Counted.noteAll _ _ _ fun s hs _ h => hactual s hs (congrArg Outcome.active h)
  apply Counted.noteAll _ _ _ fun _ _ _ h => Nat.succ_ne_zero _ (congrArg Outcome.resumed h)
  apply Counted.noteAll _ _ _ fun _ _ _ h => Nat.succ_ne_zero _ (congrArg Outcome.paused h)
  apply Counted.noteAll _ _ _ fun _ _ _ h => Nat.succ_ne_zero _ (congrArg Outcome.skipped h)
  apply Counted.noteAll _ _ _ fun _ _ _ h => Nat.succ_ne_zero _ (congrArg Outcome.skipped h)
  apply Counted.noteAll _ _ _ fun _ _ _ h => Nat.succ_ne_zero _ (congrArg Outcome.created h)
  apply Counted.noteAll _ _ _ fun _ he _ h => hidle.ne_zero_of_mem he (congrArg Outcome.idle h)
  apply Counted.noteAll _ _ _ fun _ he _ h =>
    hrequired.ne_zero_of_mem he (congrArg Outcome.required h)
  intro a h
  cases h

end Plan

namespace Fleet
variable {K : Type} (config : Config K) (input : Snapshot K)

/-- Counting the workers that stay is counting the reports, if neither the hot flag nor the job
matters. -/
theorem countP_live (p : Worker → Bool) (hhot : ∀ w hot, p { w with hot } = p w)
    (hjob : ∀ w job, p { w with job } = p w) :
    (ofSnapshot config input).live.countP p = input.workers.countP fun w =>
      p (.ofReport w) && !(ofSnapshot config input).exits.any (·.worker.id = w.id) := by
  let stays (w : Worker) : Bool := !(ofSnapshot config input).exits.any (·.worker.id = w.id)
  have hroster : (ofSnapshot config input).roster.workers.map (fun w => p w && stays w) =
      input.workers.map fun w => p (.ofReport w) && stays (.ofReport w) := by
    have h := Roster.map_attach (fun w => p w && stays w) (fun w job => by rw [hjob])
      (Roster.liveJobs input.jobs input.pods) (input.workers.map Worker.ofReport)
    rw [List.map_map] at h
    exact h
  calc (ofSnapshot config input).live.countP p
      = (ofSnapshot config input).staying.countP p := by
        rw [live_ofSnapshot]
        exact countP_eq_of_map_eq (HotWorkers.map_apply p hhot)
    _ = (ofSnapshot config input).roster.workers.countP fun w => p w && stays w :=
        List.countP_filter
    _ = input.workers.countP fun w => p (.ofReport w) && stays (.ofReport w) :=
        countP_eq_of_map_eq hroster

end Fleet

namespace Reconciler
variable {K : Type} [Powers K] (r : Reconciler K) (input : Snapshot K) (now : Millis)

theorem commandsOf_plan (c : Command) : (r.plan input now).1.commandsOf c =
    match c with
    | .exit => (r.fleet input).exits.map .ofExit
    | c => (r.told input now c).map (.ofWorker c) := by
  rw [plan_eq]
  cases c <;> simp [Plan.commandsOf, Plan.commands, Plan.outboundOf, List.filterMap_map, told,
    List.filter_map, Function.comp_def, WorkerCommand.ofExit, WorkerCommand.ofWorker,
    WorkerCommand.withMessage]

theorem countP_commandsOf {c : Command} (hc : c ≠ .exit) (a : String) :
    ((r.plan input now).1.commandsOf c).countP (·.algorithm = a) =
      (r.told input now c).countP (·.algorithm = a) := by
  rw [commandsOf_plan]
  cases c with
  | exit => exact absurd rfl hc
  | _ => exact List.countP_map

/-- The idle workers are counted after the hot flags are set, and without those that exit. -/
theorem countP_idle (a : String) : (r.pools input now).idle.countP (·.algorithm = a) =
    input.workers.countP fun w => w.algorithm = a && w.status = .ready && !w.paused
      && !(r.fleet input).exits.any (·.worker.id = w.id) := by
  have hcount := Fleet.countP_live r.config input (fun w => w.algorithm = a && w.isIdle)
    (fun _ _ => rfl) (fun _ _ => rfl)
  calc (r.pools input now).idle.countP (·.algorithm = a)
      = (r.fleet input).live.countP fun w => w.algorithm = a && w.isIdle := List.countP_filter
    _ = input.workers.countP fun w => w.algorithm = a && w.status = .ready && !w.paused
        && !(r.fleet input).exits.any (·.worker.id = w.id) := by
      rw [fleet, hcount]
      simp only [Worker.isIdle, Bool.and_assoc]
      rfl

end Reconciler

end WorkerFleet
