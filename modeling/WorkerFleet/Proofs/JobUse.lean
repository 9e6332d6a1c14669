import WorkerFleet.Proofs.JobNames
import WorkerFleet.Proofs.Sample

/-!
# Jobs as supply

A plan should use no cluster job twice. What workers and the cluster report is used once
(`nodup_listedJobs`), and so is what the ledger remembers (`nodup_ledgerJobs`). One job may
be known from both sides, though: the ledger keeps an entry for its whole time to live and
does not look at what the cluster lists by then. Where both hand it out, it is used twice.
-/

namespace WorkerFleet

namespace ScheduledRequest

/-- The cluster job that serves the request, where one is known; `workers` have their jobs. -/
def job? (workers : List Worker) (s : ScheduledRequest) : Option String :=
  match s.supply with
  | .pending | .ledger => some s.workerId
  | .idle | .paused => (workers.find? (·.id = s.workerId)).bind (·.jobName?)

end ScheduledRequest

namespace Planning
variable {K : Type} [Powers K] (c : Planning K)

/-- The workers that report themselves, with their jobs. -/
def workers : List Worker := (c.before.fleet c.input).roster.workers

def usedJobs : List String := c.plan.scheduled.filterMap (·.job? c.workers)

def stoppedJobs : List String := c.plan.stops.filterMap (·.worker.jobName?)

/-- No job serves two requests, and none that serves one is stopped. -/
structure UsesJobsOnce : Prop where
  supply : c.usedJobs.Nodup
  stops : ∀ job ∈ c.stoppedJobs, job ∉ c.usedJobs

/-- The jobs that the plan uses or stops and that did not come from the ledger. -/
def listedJobs : List String :=
  (c.plan.scheduled.filter (·.supply ≠ .ledger)).filterMap (·.job? c.workers) ++ c.stoppedJobs

end Planning

namespace SupplyItem

def listedJob? : SupplyItem → Option String
  | idle w => w.jobName?
  | pending w => some w.id
  | ledger _ => none
  | paused w => w.jobName?

def ledgerJob? : SupplyItem → Option String
  | ledger e => some e.jobName
  | _ => none

def job? (item : SupplyItem) : Option String := item.ledgerJob? <|> item.listedJob?

theorem jobs_perm (items : List SupplyItem) : (items.filterMap job?).Perm
    (items.filterMap ledgerJob? ++ items.filterMap listedJob?) := by
  refine filterMap_or_perm ?_ items
  intro item
  cases item with
  | ledger e => exact .inr rfl
  | _ => exact .inl rfl

theorem listedJobs_perm (items : List SupplyItem) : (items.filterMap listedJob?).Perm
    ((items.filterMap present?).filterMap (·.jobName?)
      ++ (items.filterMap expected?).map (·.id)) := by
  have hsplit : items.filterMap listedJob? = items.filterMap fun item =>
      item.present?.bind (·.jobName?) <|> item.expected?.map (·.id) := by
    refine List.filterMap_congr ?_
    intro item _
    cases item with
    | idle w | paused w =>
      change w.jobName? = (w.jobName? <|> none)
      cases w.jobName? <;> rfl
    | pending w => rfl
    | ledger e => rfl
  rw [hsplit, List.filterMap_filterMap, List.map_filterMap]
  refine filterMap_or_perm ?_ items
  intro item
  cases item with
  | pending w => exact .inl rfl
  | _ => exact .inr rfl

end SupplyItem

namespace Pools

theorem filterMap_ledgerJob?_items (pools : Pools) :
    pools.items.filterMap SupplyItem.ledgerJob? = pools.ledger.map (·.jobName) := by
  simp only [items, List.filterMap_append, List.filterMap_map, Function.comp_def,
    SupplyItem.ledgerJob?, List.filterMap_none, List.filterMap_eq_map', List.nil_append,
    List.append_nil]

end Pools

namespace Planning
variable {K : Type} [Powers K] {c : Planning K}

def items (c : Planning K) : List SupplyItem := (c.before.served c.input c.now).1

theorem scheduled_eq : c.plan.scheduled = c.items.map SupplyItem.schedule := by
  rw [plan, Reconciler.scheduled_plan]
  exact c.before.assignment_scheduled c.input c.now

theorem stoppedJobs_eq : c.stoppedJobs =
    ((c.before.settled c.input c.now).1.map (·.worker)).filterMap (·.jobName?) := by
  rw [stoppedJobs, plan, Reconciler.stops_plan, List.filterMap_map]
  rfl

/-- Distinct ids tell which worker, and so which job, an entry of the plan means. -/
theorem job?_schedule (hids : (c.input.workers.map (·.id)).Nodup) {item : SupplyItem}
    (hitem : item ∈ c.items) : item.schedule.job? c.workers = item.job? := by
  have hpresent : ∀ w, item.present? = some w →
      (c.workers.find? (·.id = w.id)).bind (·.jobName?) = w.jobName? := by
    intro w hw
    have hlive := c.before.mem_live_of_present c.input c.now hitem hw
    obtain ⟨v, hv, hvw⟩ := Fleet.exists_staying_of_live c.before.config c.input hlive
    have hmem : v ∈ c.workers := (List.mem_filter.mp hv).1
    have hnodup : (c.workers.map (·.id)).Nodup := by
      rw [workers, Reconciler.fleet, Fleet.ids_roster]
      exact hids
    have hid : v.id = w.id := by rw [← hvw]
    have hjob : v.jobName? = w.jobName? := by rw [← hvw]; rfl
    rw [← hid, find?_key_of_mem hnodup hmem, Option.bind_some, hjob]
  cases item with
  | idle w => exact (hpresent w rfl).trans (Option.none_or).symm
  | paused w => exact (hpresent w rfl).trans (Option.none_or).symm
  | pending w => rfl
  | ledger e => rfl

theorem usedJobs_eq (hids : (c.input.workers.map (·.id)).Nodup) :
    c.usedJobs = c.items.filterMap SupplyItem.job? := by
  rw [usedJobs, scheduled_eq, List.filterMap_map]
  exact List.filterMap_congr fun item hitem => job?_schedule hids hitem

theorem listedJobs_eq (hids : (c.input.workers.map (·.id)).Nodup) :
    c.listedJobs = c.items.filterMap SupplyItem.listedJob? ++ c.stoppedJobs := by
  rw [listedJobs, scheduled_eq, List.filter_map, List.filterMap_map, List.filterMap_filter]
  refine congrArg (· ++ c.stoppedJobs) (List.filterMap_congr fun item hitem => ?_)
  have hjob := job?_schedule hids hitem
  cases item with
  | ledger e => rfl
  | idle w | paused w | pending w => exact hjob.trans Option.none_or

theorem ledgerJobs_subperm (c : Planning K) :
    (c.items.filterMap SupplyItem.ledgerJob?).Subperm
      ((c.before.ledger.expire c.now).entries.map (·.jobName)) := by
  have h := c.before.filterMap_served_subperm c.input c.now SupplyItem.ledgerJob?
  rw [Pools.filterMap_ledgerJob?_items] at h
  exact h

theorem nodup_ledgerJobs (hledger : c.before.LedgerNumbered) :
    (c.items.filterMap SupplyItem.ledgerJob?).Nodup :=
  nodup_of_subperm (ledgerJobs_subperm c) (hledger.expire c.now).nodup

/-- What does not come from the ledger is a job that the cluster lists, and none is used or
stopped twice. -/
theorem listedJobs_subperm (hids : (c.input.workers.map (·.id)).Nodup) :
    c.listedJobs.Subperm (c.before.fleet c.input).roster.jobNames := by
  have hpresent : ((c.items.filterMap SupplyItem.present?).filterMap (·.jobName?)
      ++ c.stoppedJobs).Subperm (c.workers.filterMap (·.jobName?)) := by
    rw [stoppedJobs_eq, ← List.filterMap_append]
    refine (subperm_filterMap _ (c.before.present_stopped_subperm c.input c.now)).trans ?_
    exact (Fleet.jobNames_live_sublist c.before.config c.input).subperm
  have hexpected : ((c.items.filterMap SupplyItem.expected?).map (·.id)).Subperm
      ((c.before.fleet c.input).roster.pending.map (·.id)) := by
    have h := c.before.filterMap_served_subperm c.input c.now SupplyItem.expected?
    rw [Pools.filterMap_expected?_items] at h
    exact subperm_map _ h
  rw [listedJobs_eq hids]
  refine ((SupplyItem.listedJobs_perm c.items).append_right _).subperm.trans ?_
  rw [List.append_assoc]
  refine (List.perm_append_comm.append_left _).subperm.trans ?_
  rw [← List.append_assoc]
  exact hpresent.append hexpected

theorem nodup_listedJobs (hnames : c.input.DistinctNames) : c.listedJobs.Nodup := by
  obtain ⟨names, hsub, hperm⟩ := Fleet.jobNames_roster_sublist c.before.config c.input
  have hroster : (c.before.fleet c.input).roster.jobNames.Nodup :=
    hperm.nodup_iff.mpr (hnames.jobs.sublist hsub)
  exact nodup_of_subperm (listedJobs_subperm hnames.workers) hroster

theorem mem_ledgerJobs_iff {job : String} :
    job ∈ c.items.filterMap SupplyItem.ledgerJob? ↔
      ∃ s ∈ c.plan.scheduled, s.supply = .ledger ∧ s.workerId = job := by
  rw [scheduled_eq]
  constructor
  · intro hjob
    obtain ⟨item, hitem, hledger⟩ := List.mem_filterMap.mp hjob
    refine ⟨item.schedule, List.mem_map_of_mem hitem, ?_⟩
    cases item with
    | ledger e => exact ⟨rfl, Option.some.inj hledger⟩
    | _ => cases hledger
  · rintro ⟨s, hs, hsupply, rfl⟩
    obtain ⟨item, hitem, rfl⟩ := List.mem_map.mp hs
    refine List.mem_filterMap.mpr ⟨item, hitem, ?_⟩
    cases item with
    | ledger e => rfl
    | _ => cases hsupply

/-- A cycle uses jobs once as long as the ledger and the cluster do not supply the same. -/
theorem usesJobsOnce_iff_disjoint (hnames : c.input.DistinctNames)
    (hledger : c.before.LedgerNumbered) : c.UsesJobsOnce ↔
      ∀ s ∈ c.plan.scheduled, s.supply = .ledger → s.workerId ∉ c.listedJobs := by
  -- The used jobs are those of the ledger and listed ones; either part has no doubles, so
  -- only a job of both can be used twice.
  have hlisted := nodup_listedJobs hnames
  have hused := SupplyItem.jobs_perm c.items
  rw [← usedJobs_eq hnames.workers] at hused
  have hsplit := listedJobs_eq hnames.workers
  constructor
  · intro honce s hs hsupply hmem
    have hjob : s.workerId ∈ c.items.filterMap SupplyItem.ledgerJob? :=
      mem_ledgerJobs_iff.mpr ⟨s, hs, hsupply, rfl⟩
    rw [hsplit] at hmem
    rcases List.mem_append.mp hmem with hmem | hmem
    · have hnodup := hused.nodup_iff.mp honce.supply
      exact List.disjoint_of_nodup_append hnodup hjob hmem
    · exact honce.stops _ hmem (hused.mem_iff.mpr (List.mem_append_left _ hjob))
  · intro hapart
    have hdisjoint : (c.items.filterMap SupplyItem.ledgerJob?).Disjoint c.listedJobs := by
      intro job hjob hmem
      obtain ⟨s, hs, hsupply, rfl⟩ := mem_ledgerJobs_iff.mp hjob
      exact hapart s hs hsupply hmem
    rw [hsplit] at hlisted hdisjoint
    obtain ⟨hwithout, _, hstopped⟩ := List.nodup_append'.mp hlisted
    constructor
    · refine hused.nodup_iff.mpr (List.nodup_append'.mpr ⟨nodup_ledgerJobs hledger, hwithout, ?_⟩)
      exact fun job hjob hmem => hdisjoint hjob (List.mem_append_left _ hmem)
    · intro job hstop hmem
      rcases List.mem_append.mp (hused.mem_iff.mp hmem) with hmem | hmem
      · exact hdisjoint hmem (List.mem_append_right _ hstop)
      · exact hstopped hmem hstop

/-- In every cycle of every run, jobs are used once exactly as long as no ledger entry that
serves is a job that the cycle also uses, or stops, as the cluster lists it. -/
theorem usesJobsOnce_iff {r : Reconciler K} (hr : r.Fresh) {cycles : List (Snapshot K × Millis)}
    (hc : c ∈ r.plannings cycles) (hnames : c.input.DistinctNames) : c.UsesJobsOnce ↔
      ∀ s ∈ c.plan.scheduled, s.supply = .ledger → s.workerId ∉ c.listedJobs :=
  usesJobsOnce_iff_disjoint hnames (Reconciler.ledgerNumbered_of_mem_plannings hr hc)

/-- A ledger that holds only jobs the cluster does not list yet is on the safe side. -/
theorem usesJobsOnce_of_unlisted {r : Reconciler K} (hr : r.Fresh)
    {cycles : List (Snapshot K × Millis)} (hc : c ∈ r.plannings cycles)
    (hnames : c.input.DistinctNames)
    (hunlisted : ∀ e ∈ (c.before.ledger.expire c.now).entries,
      e.jobName ∉ c.input.jobs.map (·.name)) : c.UsesJobsOnce := by
  have hledger := Reconciler.ledgerNumbered_of_mem_plannings hr hc
  refine (usesJobsOnce_iff_disjoint hnames hledger).mpr ?_
  intro s hs hsupply hmem
  have hentry := (ledgerJobs_subperm c).subset (mem_ledgerJobs_iff.mpr ⟨s, hs, hsupply, rfl⟩)
  obtain ⟨e, he, heq⟩ := List.mem_map.mp hentry
  obtain ⟨names, hsub, hperm⟩ := Fleet.jobNames_roster_sublist c.before.config c.input
  have hlisted := hsub.subset (hperm.subset ((listedJobs_subperm hnames.workers).subset hmem))
  rw [← heq] at hlisted
  exact hunlisted e he hlisted

end Planning

/-- One request of an algorithm that every node has room for. -/
def Snapshot.calm : Snapshot Float where
  templates := .sample ["a"]
  requests := [⟨"a", false, 0⟩]
  workers := []
  jobs := []
  pods := []
  resources := .sample 8 0

/-- The job of an earlier calm cycle is listed by now, and there are two requests. -/
def Snapshot.rush : Snapshot Float :=
  { Snapshot.calm with
    requests := [⟨"a", false, 0⟩, ⟨"a", false, 0⟩]
    jobs := [⟨"a-3e8-0", "a", 1500, false, false⟩] }

theorem Snapshot.distinctNames_calm : calm.DistinctNames := by constructor <;> decide

theorem Snapshot.distinctNames_rush : rush.DistinctNames := by constructor <;> decide

namespace Planning

def afterCalm (input : Snapshot Float) : Planning Float :=
  ⟨(Reconciler.sample.plan .calm 1000).2, input, 2000⟩

theorem afterCalm_mem_plannings (input : Snapshot Float) :
    afterCalm input ∈ Reconciler.sample.plannings [(.calm, 1000), (input, 2000)] :=
  .tail _ (.head _)

theorem usesJobsOnce_calm : Reconciler.sample.Fresh ∧ Snapshot.calm.DistinctNames ∧
    (afterCalm .calm).plan.scheduled = [⟨"a", "a-3e8-0", .ledger⟩] ∧
    (afterCalm .calm).UsesJobsOnce := by
  have hfresh : Reconciler.sample.Fresh := .start Reconciler.start?_sample
  refine ⟨hfresh, Snapshot.distinctNames_calm, by decide +kernel, ?_⟩
  refine (usesJobsOnce_iff hfresh (afterCalm_mem_plannings _) Snapshot.distinctNames_calm).mpr ?_
  decide +kernel

/-- The pending job and its ledger entry serve one request each. -/
theorem not_usesJobsOnce_rush : ∃ (r : Reconciler Float) (cycles : List (Snapshot Float × Millis)),
    r.Fresh ∧ (∀ cycle ∈ cycles, cycle.1.DistinctNames) ∧
      ∃ c ∈ r.plannings cycles, c.usedJobs = ["a-3e8-0", "a-3e8-0"] ∧ ¬ c.UsesJobsOnce := by
  have hused : (afterCalm .rush).usedJobs = ["a-3e8-0", "a-3e8-0"] := by decide +kernel
  refine ⟨_, _, .start Reconciler.start?_sample, ?_, _, afterCalm_mem_plannings .rush, hused, ?_⟩
  · intro cycle hcycle
    rcases List.mem_pair.mp hcycle with rfl | rfl
    · exact Snapshot.distinctNames_calm
    · exact Snapshot.distinctNames_rush
  · intro honce
    have hnodup := honce.supply
    rw [hused] at hnodup
    revert hnodup
    decide

end Planning

end WorkerFleet
