import WorkerFleet.Proofs.Sample
import WorkerFleet.Proofs.Stages

/-!
# Commands of one plan

The commands of a plan do not contradict each other, in whatever order they arrive: this is
`CompatibleCommands`, and every plan has it as long as no two workers report the same id.
Nothing is assumed of the reconciler's memory.
-/

namespace WorkerFleet

namespace Plan
variable {K : Type}

def commands (plan : Plan K) : List WorkerCommand :=
  plan.outbound.filterMap fun
    | .command c => some c
    | .createJob _ => none

def jobsSent (plan : Plan K) : List (JobSpec K) :=
  plan.outbound.filterMap fun
    | .createJob spec => some spec
    | .command _ => none

def Sends (plan : Plan K) (id : String) (command : Command) : Prop :=
  ∃ c ∈ plan.commands, c.workerId = id ∧ c.command = command

/-- The worker with this id serves a request, as an idle or as a paused worker. -/
def Serves (plan : Plan K) (id : String) : Prop :=
  ∃ s ∈ plan.scheduled, s.workerId = id ∧ (s.supply = .idle ∨ s.supply = .paused)

structure CompatibleCommands (plan : Plan K) : Prop where
  once : (plan.commands.map fun c => (c.workerId, c.command)).Nodup
  exit_alone : ∀ id c, plan.Sends id .exit → plan.Sends id c → c = .exit
  exit_serves_nothing : ∀ id, plan.Sends id .exit → ¬ plan.Serves id
  stop_not_start : ∀ id, plan.Sends id .stopProcessing → ¬ plan.Sends id .startProcessing
  warm_not_cool : ∀ id, plan.Sends id .warmUp → ¬ plan.Sends id .coolDown
  warm_not_stop : ∀ id, plan.Sends id .warmUp → ¬ plan.Sends id .stopProcessing
  stop_serves_nothing : ∀ id, plan.Sends id .stopProcessing → ¬ plan.Serves id

end Plan

namespace Reconciler
variable {K : Type} [Powers K] (r : Reconciler K) (input : Snapshot K) (now : Millis)

def told : Command → List Worker
  | .exit => (r.fleet input).exits.map (·.worker)
  | .warmUp => (r.fleet input).warmUp
  | .coolDown => (r.fleet input).coolDown
  | .stopProcessing => (r.settled input now).1.map (·.worker)
  | .startProcessing => (r.settled input now).2

/-- The commands in the order in which a plan sends them. -/
def sendOrder : List Command := [.exit, .warmUp, .coolDown, .stopProcessing, .startProcessing]

theorem jobsSent_plan :
    (r.plan input now).1.jobsSent = (r.placement input now).created.map (·.spec) := by
  rw [plan_eq]
  simp [Plan.jobsSent, Plan.outboundOf, List.filterMap_map]

theorem commands_plan :
    (r.plan input now).1.commands.map (fun c => (c.workerId, c.command)) =
      sendOrder.flatMap fun c => (r.told input now c).map fun w => (w.id, c) := by
  rw [plan_eq]
  simp only [Plan.commands, Plan.outboundOf, List.filterMap_append, List.filterMap_map,
    Function.comp_def, List.filterMap_none, List.filterMap_eq_map', List.map_append, List.map_map,
    List.nil_append, List.append_assoc, sendOrder, told, List.flatMap_cons, List.flatMap_nil,
    List.append_nil]
  rfl

theorem sends_plan_iff {id : String} {c : Command} :
    (r.plan input now).1.Sends id c ↔ id ∈ (r.told input now c).map (·.id) := by
  have hsends : (r.plan input now).1.Sends id c ↔
      (id, c) ∈ (r.plan input now).1.commands.map fun c => (c.workerId, c.command) := by
    simp only [Plan.Sends, List.mem_map, Prod.mk.injEq]
  rw [hsends, commands_plan, List.mem_flatMap]
  constructor
  · rintro ⟨c', _, hmem⟩
    obtain ⟨w, hw, heq⟩ := List.mem_map.mp hmem
    obtain ⟨rfl, rfl⟩ := Prod.mk.inj heq
    exact List.mem_map_of_mem hw
  · intro hmem
    obtain ⟨w, hw, rfl⟩ := List.mem_map.mp hmem
    refine ⟨c, ?_, List.mem_map.mpr ⟨w, hw, rfl⟩⟩
    cases c <;> simp [sendOrder]

/-- A worker that serves is one of those that stay. -/
theorem exists_present_of_serves {id : String} (h : (r.plan input now).1.Serves id) :
    ∃ w ∈ (r.served input now).1.filterMap SupplyItem.present?, w.id = id := by
  obtain ⟨s, hs, hid, hsupply⟩ := h
  rw [scheduled_plan, assignment_scheduled] at hs
  obtain ⟨item, hitem, rfl⟩ := List.mem_map.mp hs
  obtain ⟨w, hw, hwid⟩ := SupplyItem.present?_of_supply hsupply
  exact ⟨w, List.mem_filterMap.mpr ⟨item, hitem, hw⟩, hwid.trans hid⟩

theorem resumes_sublist_present : (r.settled input now).2.Sublist
    ((r.served input now).1.filterMap SupplyItem.present?) := by
  have h : ∀ items : List SupplyItem, (items.filterMap SupplyItem.resumed?).Sublist
      (items.filterMap SupplyItem.present?) := by
    intro items
    induction items with
    | nil => exact .refl _
    | cons item items ih =>
      cases item with
      | paused w => exact ih.cons_cons w
      | idle w => exact ih.cons w
      | pending w => exact ih
      | ledger e => exact ih
  exact (r.resumes_sublist input now).trans (h _)

/-- Only a worker that has to exit does not stay. -/
theorem exists_live_of_told {c : Command} (hc : c ≠ .exit) {w : Worker}
    (hw : w ∈ r.told input now c) : ∃ v ∈ (r.fleet input).live, v.id = w.id := by
  have hstaying : w ∈ (r.fleet input).staying → ∃ v ∈ (r.fleet input).live, v.id = w.id := by
    intro hmem
    have hid := List.mem_map_of_mem (f := Worker.id) hmem
    rw [fleet, ← Fleet.ids_live] at hid
    exact List.mem_map.mp hid
  cases c with
  | exit => exact absurd rfl hc
  | warmUp => exact hstaying (HotWorkers.mem_of_mem_warmUp hw).1
  | coolDown => exact hstaying (HotWorkers.mem_of_mem_coolDown hw).1
  | stopProcessing =>
    obtain ⟨s, hs, rfl⟩ := List.mem_map.mp hw
    exact ⟨s.worker, r.mem_live_of_mem_stops input now hs, rfl⟩
  | startProcessing =>
    obtain ⟨item, hitem, hpresent⟩ :=
      List.mem_filterMap.mp ((r.resumes_sublist_present input now).subset hw)
    exact ⟨w, r.mem_live_of_present input now hitem hpresent, rfl⟩

theorem id_not_live_of_sends_exit {id : String} (h : (r.plan input now).1.Sends id .exit)
    {w : Worker} (hw : w ∈ (r.fleet input).live) : w.id ≠ id := by
  rw [sends_plan_iff] at h
  obtain ⟨w', hw', rfl⟩ := List.mem_map.mp h
  obtain ⟨e, he, rfl⟩ := List.mem_map.mp hw'
  exact (Fleet.id_ne_of_live r.config input hw he).symm

section DistinctIds
variable {input} (hids : (input.workers.map (·.id)).Nodup)
include hids

theorem nodup_ids_staying : ((r.fleet input).staying.map (·.id)).Nodup :=
  hids.sublist (Fleet.ids_staying_sublist r.config input)

theorem nodup_ids_present_stopped :
    (((r.served input now).1.filterMap SupplyItem.present?).map (·.id)
      ++ ((r.settled input now).1.map (·.worker)).map (·.id)).Nodup := by
  have hlive : ((r.fleet input).live.map (·.id)).Nodup := by
    rw [fleet, Fleet.ids_live]
    exact nodup_ids_staying r hids
  rw [← List.map_append]
  exact nodup_of_subperm (subperm_map _ (r.present_stopped_subperm input now)) hlive

theorem nodup_ids_told (c : Command) : ((r.told input now c).map (·.id)).Nodup := by
  have hused := nodup_ids_present_stopped r now hids
  cases c with
  | exit =>
    have hexits := (Fleet.workers_exits_sublist r.config input).map (·.id)
    rw [Fleet.ids_roster] at hexits
    exact hids.sublist hexits
  | warmUp => exact HotWorkers.nodup_ids_warmUp (nodup_ids_staying r hids)
  | coolDown => exact HotWorkers.nodup_ids_coolDown (nodup_ids_staying r hids)
  | stopProcessing => exact (List.nodup_append'.mp hused).2.1
  | startProcessing =>
    exact (List.nodup_append'.mp hused).1.sublist ((r.resumes_sublist_present input now).map _)

/-- A worker that stays is told at most one of warming up and cooling down. -/
theorem disjoint_warmUp_coolDown :
    (((r.fleet input).warmUp).map (·.id)).Disjoint (((r.fleet input).coolDown).map (·.id)) := by
  intro id hwarm hcool
  obtain ⟨w, hw, hwid⟩ := List.mem_map.mp hwarm
  obtain ⟨v, hv, hvid⟩ := List.mem_map.mp hcool
  obtain ⟨hwstay, hwhot⟩ := HotWorkers.mem_of_mem_warmUp hw
  obtain ⟨hvstay, hvhot⟩ := HotWorkers.mem_of_mem_coolDown hv
  have heq : w = v :=
    List.inj_on_of_nodup_map (nodup_ids_staying r hids) hwstay hvstay (hwid.trans hvid.symm)
  rw [heq, hvhot] at hwhot
  cases hwhot

end DistinctIds

theorem plan_compatibleCommands (hids : (input.workers.map (·.id)).Nodup) :
    (r.plan input now).1.CompatibleCommands where
  once := by
    rw [commands_plan, List.nodup_flatMap]
    constructor
    · intro c _
      have h := nodup_ids_told r now hids c
      rw [List.Nodup, List.pairwise_map] at h ⊢
      exact h.imp fun hne heq => hne (Prod.mk.inj heq).1
    · have horder : sendOrder.Nodup := by decide
      refine List.Pairwise.imp ?_ horder
      intro c c' hne p hp hp'
      obtain ⟨_, _, rfl⟩ := List.mem_map.mp hp
      obtain ⟨_, _, heq⟩ := List.mem_map.mp hp'
      exact hne (Prod.mk.inj heq).2.symm
  exit_alone := by
    intro id c hexit hc
    by_contra hne
    rw [sends_plan_iff] at hc
    obtain ⟨w, hw, rfl⟩ := List.mem_map.mp hc
    obtain ⟨v, hv, hid⟩ := r.exists_live_of_told input now hne hw
    exact r.id_not_live_of_sends_exit input now hexit hv hid
  exit_serves_nothing := by
    intro id hexit hserves
    obtain ⟨w, hw, hid⟩ := r.exists_present_of_serves input now hserves
    obtain ⟨item, hitem, hpresent⟩ := List.mem_filterMap.mp hw
    have hlive := r.mem_live_of_present input now hitem hpresent
    exact r.id_not_live_of_sends_exit input now hexit hlive hid
  stop_not_start := by
    intro id hstop hstart
    rw [sends_plan_iff] at hstop hstart
    have hserved := ((r.resumes_sublist_present input now).map _).subset hstart
    exact List.disjoint_of_nodup_append (nodup_ids_present_stopped r now hids) hserved hstop
  warm_not_cool := by
    intro id hwarm hcool
    rw [sends_plan_iff] at hwarm hcool
    exact disjoint_warmUp_coolDown r hids hwarm hcool
  warm_not_stop := by
    -- The hot flag is set before workers are picked to stop, and hot workers are spared.
    intro id hwarm hstop
    rw [sends_plan_iff] at hwarm hstop
    obtain ⟨w, hw, rfl⟩ := List.mem_map.mp hstop
    obtain ⟨s, hs, rfl⟩ := List.mem_map.mp hw
    have hlive := r.mem_live_of_mem_stops input now hs
    have hhot : s.worker.hot = true := HotWorkers.hot_of_warm hlive hwarm
    rw [Reclaim.not_hot_of_isEligible (r.isEligible_of_mem_stops input now hs)] at hhot
    cases hhot
  stop_serves_nothing := by
    intro id hstop hserves
    rw [sends_plan_iff] at hstop
    obtain ⟨w, hw, rfl⟩ := r.exists_present_of_serves input now hserves
    have hserved := List.mem_map_of_mem (f := Worker.id) hw
    exact List.disjoint_of_nodup_append (nodup_ids_present_stopped r now hids) hserved hstop

end Reconciler

/-- The node has no cpu left: `v` is outdated, `w` is paused and asked for, and `u` can make
room for the algorithm `b`. -/
def Snapshot.crowded : Snapshot Float where
  templates := .sample ["a", "b", "c"]
  requests := [⟨"a", false, 0⟩, ⟨"b", false, 0⟩]
  workers := [
    ⟨"w", "a", "pod-w", .ready, true, false, none, none⟩,
    ⟨"v", "a", "pod-v", .working, false, false, some "outdated", none⟩,
    ⟨"u", "c", "pod-u", .ready, false, false, none, none⟩]
  jobs := [⟨"job-u", "c", 0, false, false⟩]
  pods := [⟨"pod-u", "job-u", none⟩]
  resources := .sample 4 4

theorem plan_crowded_compatibleCommands :
    (Snapshot.crowded.workers.map (·.id)).Nodup ∧
      (Reconciler.sample.plan .crowded 100000).1.CompatibleCommands ∧
      (Reconciler.sample.plan .crowded 100000).1.commands.map
        (fun c => (c.workerId, c.command)) =
        [("v", .exit), ("u", .stopProcessing), ("w", .startProcessing)] :=
  ⟨by decide, Reconciler.plan_compatibleCommands _ _ _ (by decide), by decide +kernel⟩

end WorkerFleet
