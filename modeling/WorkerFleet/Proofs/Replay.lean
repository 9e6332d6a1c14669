import WorkerFleet.Codec.Cycle
import WorkerFleet.Proofs.JsonLayouts

/-!
# Snapshots and discoveries read back

What a cycle is planned from and what it publishes can be written down and read again without a
change. For each record it is said which of its parts a text could lose: amounts, which have to be
finite, counts, which have to fit the words they are kept in, and the stages of workers, as a
stage written like one of the four known ones is read as that one.
-/

namespace WorkerFleet

/-- Not one of the four known stages, written as another. -/
def WorkerStatus.IsPlain : WorkerStatus → Prop
  | other text => text ∉ ["init", "ready", "working", "exit"]
  | _ => True

instance (s : WorkerStatus) : Decidable s.IsPlain :=
  match s with
  | .other text => inferInstanceAs (Decidable (text ∉ _))
  | .starting | .ready | .working | .exiting => isTrue trivial

/-- Just the plain stages are read as they were written. -/
theorem WorkerStatus.ofText_text_iff {s : WorkerStatus} : ofText s.text = s ↔ s.IsPlain := by
  cases s with
  | other text =>
    unfold ofText WorkerStatus.text IsPlain
    split_ifs <;> simp_all
  | _ => exact ⟨fun _ => trivial, fun _ => rfl⟩

section Parts
variable {K : Type}

def Resources.amounts (r : Resources K) : List K := [r.cpu, r.gpu, r.mem]

def ResourceSpec.amounts (spec : ResourceSpec K) : List K := spec.cpu.toList ++ spec.gpu.toList

def Node.amounts (n : Node K) : List K :=
  [n.total, n.requests, n.other, n.workersTotal].flatMap Resources.amounts

def NodeStats.amounts (n : NodeStats K) : List K :=
  [n.total, n.requests, n.other, n.workersTotal].flatMap Resources.amounts

def PressureThresholds.amounts (t : PressureThresholds K) : List K := [t.cpu, t.gpu, t.memory]

def Snapshot.amounts (s : Snapshot K) : List K :=
  s.templates.values.flatMap (·.resources.amounts) ++ s.resources.nodes.flatMap Node.amounts

def Discovery.amounts (d : Discovery K) : List K :=
  d.capacity :: (d.thresholds.amounts ++ d.resourcesToFree.amounts
    ++ d.nodes.flatMap NodeStats.amounts
    ++ d.unscheduled.added.flatMap (·.warning.required.amounts))

def Outcome.counts (o : Outcome) : List Nat :=
  [o.required, o.idle, o.paused, o.created, o.skipped, o.resumed, o.active]

def AlgorithmStats.counts (s : AlgorithmStats) : List Nat := s.count :: s.hot :: s.byStatus.values

def WorkerStats.counts (s : WorkerStats) : List Nat :=
  s.total :: s.stats.flatMap AlgorithmStats.counts

def Discovery.counts (d : Discovery K) : List Nat :=
  d.outcomes.values.flatMap Outcome.counts ++ d.actual.counts ++ d.nodes.flatMap (·.workers.counts)

end Parts

namespace Codec
variable {K : Type} {p : K → Prop} {depth : Nat}

theorem carries_optionalText (value : Option String) : text.option.Carries p depth value :=
  carries_option rfl fun s _ => carries_text s

theorem carries_texts (m : NameMap String) : text.nameMap.Carries p (depth + 1) m :=
  carries_nameMap fun s _ => carries_text s

theorem carries_workerStatus {s : WorkerStatus} (h : s.IsPlain) : workerStatus.Carries p depth s :=
  ⟨congrArg some (WorkerStatus.ofText_text_iff.mpr h), .string _⟩

theorem carries_request (r : Request) : request.Carries p (depth + 1) r :=
  carries_record (by simp) <|
    Fields.Carries.map Request.mk (.required (carries_text _))
      |>.seq (.defaulted (carries_flag _))
      |>.seq (.defaulted (carries_millis _))

theorem carries_workerReport {r : WorkerReport} (h : r.status.IsPlain) :
    workerReport.Carries p (depth + 1) r :=
  carries_record (by simp) <|
    Fields.Carries.map WorkerReport.mk (.required (carries_text _))
      |>.seq (.required (carries_text _))
      |>.seq (.required (carries_text _))
      |>.seq (.required (carries_workerStatus h))
      |>.seq (.defaulted (carries_flag _))
      |>.seq (.defaulted (carries_flag _))
      |>.seq (.defaulted (carries_optionalText _))
      |>.seq (.defaulted (carries_optionalText _))

theorem carries_clusterJob (j : ClusterJob) : clusterJob.Carries p (depth + 1) j :=
  carries_record (by simp) <|
    Fields.Carries.map ClusterJob.mk (.required (carries_text _))
      |>.seq (.required (carries_text _))
      |>.seq (.defaulted (carries_millis _))
      |>.seq (.defaulted (carries_flag _))
      |>.seq (.defaulted (carries_flag _))

theorem carries_pod (pod : Pod) : Codec.pod.Carries p (depth + 1) pod :=
  carries_record (by simp) <|
    Fields.Carries.map Pod.mk (.required (carries_text _))
      |>.seq (.required (carries_text _))
      |>.seq (.defaulted (carries_optionalText _))

theorem carries_mount (m : Mount) : mount.Carries p (depth + 1) m :=
  carries_record (by simp) <|
    Fields.Carries.map Mount.mk (.required (carries_text _))
      |>.seq (.required (carries_text _))

theorem carries_templateOptions (o : TemplateOptions) : templateOptions.Carries p (depth + 1) o :=
  carries_record (by simp) <|
    Fields.Carries.map TemplateOptions.mk (.defaulted (carries_flag _))

theorem carries_outcome {o : Outcome} (h : ∀ n ∈ o.counts, n < Nat.pow 2 32) :
    outcome.Carries p (depth + 1) o := by
  have hcount : ∀ n ∈ o.counts, count32.Carries p depth n := fun n hn => carries_count32 (h n hn)
  exact carries_record (by simp) <|
    Fields.Carries.map Outcome.mk (.required (hcount _ (by simp [Outcome.counts])))
      |>.seq (.required (hcount _ (by simp [Outcome.counts])))
      |>.seq (.required (hcount _ (by simp [Outcome.counts])))
      |>.seq (.required (hcount _ (by simp [Outcome.counts])))
      |>.seq (.required (hcount _ (by simp [Outcome.counts])))
      |>.seq (.required (hcount _ (by simp [Outcome.counts])))
      |>.seq (.required (hcount _ (by simp [Outcome.counts])))

theorem carries_algorithmStats {s : AlgorithmStats} (h : ∀ n ∈ s.counts, n < Nat.pow 2 32) :
    algorithmStats.Carries p (depth + 2) s := by
  have hstatus : ∀ n ∈ s.byStatus.values, count32.Carries p depth n := fun n hn =>
    carries_count32 (h n (List.mem_cons_of_mem _ (List.mem_cons_of_mem _ hn)))
  exact carries_record (by simp) <|
    Fields.Carries.map AlgorithmStats.mk (.required (carries_text _))
      |>.seq (.required (carries_count32 (h _ List.mem_cons_self)))
      |>.seq (.required (carries_nameMap hstatus))
      |>.seq (.required (carries_count32 (h _ (List.mem_cons_of_mem _ List.mem_cons_self))))

theorem carries_workerStats {s : WorkerStats} (h : ∀ n ∈ s.counts, n < Nat.pow 2 32) :
    workerStats.Carries p (depth + 4) s := by
  have hstats : ∀ a ∈ s.stats, algorithmStats.Carries p (depth + 2) a := fun a ha =>
    carries_algorithmStats fun n hn =>
      h n (List.mem_cons_of_mem _ (List.mem_flatMap.mpr ⟨a, ha, hn⟩))
  exact carries_record (by simp) <|
    Fields.Carries.map WorkerStats.mk (.required (carries_list hstats))
      |>.seq (.required (carries_count32 (h _ List.mem_cons_self)))

theorem carries_eventRemoval (e : EventRemoval) : eventRemoval.Carries p (depth + 1) e :=
  carries_record (by simp) <|
    Fields.Carries.map EventRemoval.mk (.required (carries_text _))
      |>.seq (.required (carries_text _))

variable [Quantity K]

theorem carries_resources {r : Resources K}
    (h : ∀ x ∈ r.amounts, Quantity.isFinite x = true ∧ p x) :
    resources.Carries p (depth + 1) r := by
  have hamount : ∀ x ∈ r.amounts, amount.Carries p depth x := fun x hx => carries_amount (h x hx)
  exact carries_record (by simp) <|
    Fields.Carries.map Resources.mk (.defaulted (hamount _ (by simp [Resources.amounts])))
      |>.seq (.defaulted (hamount _ (by simp [Resources.amounts])))
      |>.seq (.defaulted (hamount _ (by simp [Resources.amounts])))

theorem carries_resources_of_mem {rs : List (Resources K)}
    (h : ∀ x ∈ rs.flatMap Resources.amounts, Quantity.isFinite x = true ∧ p x) :
    ∀ r ∈ rs, resources.Carries p (depth + 1) r := by
  intro r hr
  apply carries_resources
  exact fun x hx => h x (List.mem_flatMap.mpr ⟨r, hr, hx⟩)

theorem carries_optionalAmount {value : Option K}
    (h : ∀ x ∈ value, Quantity.isFinite x = true ∧ p x) : amount.option.Carries p depth value :=
  carries_option rfl fun x hx => carries_amount (h x hx)

theorem carries_resourceSpec {spec : ResourceSpec K} {loose : Bool}
    (h : ∀ x ∈ spec.amounts, Quantity.isFinite x = true ∧ p x) :
    (resourceSpec loose).Carries p (depth + 1) spec :=
  carries_record (by simp) <|
    Fields.Carries.map ResourceSpec.mk (.defaulted (carries_optionalAmount
        fun x hx => h x (List.mem_append_left _ (Option.mem_toList.mpr hx))))
      |>.seq (.defaulted (carries_optionalAmount
        fun x hx => h x (List.mem_append_right _ (Option.mem_toList.mpr hx))))
      |>.seq (.defaulted (carries_optionalText _))

theorem carries_template {t : Template K}
    (h : ∀ x ∈ t.resources.amounts, Quantity.isFinite x = true ∧ p x) :
    template.Carries p (depth + 3) t :=
  carries_record (by simp) <|
    Fields.Carries.map Template.mk (.required (carries_text _))
      |>.seq (.required (carries_text _))
      |>.seq (.defaulted (carries_optionalText _))
      |>.seq (.defaulted (carries_resourceSpec h))
      |>.seq (.defaulted (carries_texts _))
      |>.seq (.defaulted (carries_texts _))
      |>.seq (.defaulted (carries_texts _))
      |>.seq (.defaulted (carries_list fun m _ => carries_mount m))
      |>.seq (.defaulted (carries_optionalText _))
      |>.seq (.defaulted (carries_templateOptions _))
      |>.seq (.defaulted (carries_word32 _))

theorem carries_node {n : Node K}
    (h : ∀ x ∈ n.amounts, Quantity.isFinite x = true ∧ p x) : node.Carries p (depth + 2) n := by
  have hresources : ∀ r ∈ [n.total, n.requests, n.other, n.workersTotal],
      resources.Carries p (depth + 1) r := carries_resources_of_mem h
  exact carries_record (by simp) <|
    Fields.Carries.map Node.mk (.required (carries_text _))
      |>.seq (.required (hresources _ (by simp)))
      |>.seq (.defaulted (hresources _ (by simp)))
      |>.seq (.defaulted (hresources _ (by simp)))
      |>.seq (.defaulted (hresources _ (by simp)))
      |>.seq (.defaulted (carries_texts _))

theorem carries_cluster {c : Cluster K}
    (h : ∀ n ∈ c.nodes, node.Carries p (depth + 2) n) : cluster.Carries p (depth + 4) c :=
  carries_record (by simp) <| Fields.Carries.map Cluster.mk (.required (carries_list h))

theorem carries_snapshot {s : Snapshot K}
    (hamounts : ∀ x ∈ s.amounts, Quantity.isFinite x = true ∧ p x)
    (hstages : ∀ w ∈ s.workers, w.status.IsPlain) : snapshot.Carries p (depth + 5) s := by
  have htemplates : ∀ t ∈ s.templates.values, template.Carries p (depth + 3) t := fun t ht =>
    carries_template fun x hx =>
      hamounts x (List.mem_append_left _ (List.mem_flatMap.mpr ⟨t, ht, hx⟩))
  have hnodes : ∀ n ∈ s.resources.nodes, node.Carries p (depth + 2) n := fun n hn =>
    carries_node fun x hx =>
      hamounts x (List.mem_append_right _ (List.mem_flatMap.mpr ⟨n, hn, hx⟩))
  exact carries_record (by simp) <|
    Fields.Carries.map Snapshot.mk (.defaulted (carries_nameMap htemplates))
      |>.seq (.defaulted (carries_list fun r _ => carries_request r))
      |>.seq (.defaulted (carries_list fun w hw => carries_workerReport (hstages w hw)))
      |>.seq (.defaulted (carries_list fun j _ => carries_clusterJob j))
      |>.seq (.defaulted (carries_list fun pod _ => carries_pod pod))
      |>.seq (.defaulted (carries_cluster hnodes))

theorem carries_pressureThresholds {t : PressureThresholds K} {loose : Bool}
    (h : ∀ x ∈ t.amounts, Quantity.isFinite x = true ∧ p x) :
    (pressureThresholds loose).Carries p (depth + 1) t := by
  have hamount : ∀ x ∈ t.amounts, amount.Carries p depth x := fun x hx => carries_amount (h x hx)
  exact carries_record (by simp) <|
    Fields.Carries.map PressureThresholds.mk
        (.defaulted (hamount _ (by simp [PressureThresholds.amounts])))
      |>.seq (.defaulted (hamount _ (by simp [PressureThresholds.amounts])))
      |>.seq (.defaulted (hamount _ (by simp [PressureThresholds.amounts])))

theorem carries_nodeStats {n : NodeStats K}
    (hamounts : ∀ x ∈ n.amounts, Quantity.isFinite x = true ∧ p x)
    (hcounts : ∀ k ∈ n.workers.counts, k < Nat.pow 2 32) : nodeStats.Carries p (depth + 5) n := by
  have hresources : ∀ r ∈ [n.total, n.requests, n.other, n.workersTotal],
      resources.Carries p (depth + 4) r := carries_resources_of_mem hamounts
  exact carries_record (by simp) <|
    Fields.Carries.map NodeStats.mk (.required (carries_text _))
      |>.seq (.required (hresources _ (by simp)))
      |>.seq (.required (hresources _ (by simp)))
      |>.seq (.required (hresources _ (by simp)))
      |>.seq (.required (hresources _ (by simp)))
      |>.seq (.required (carries_texts _))
      |>.seq (.required (carries_workerStats hcounts))

theorem carries_skipWarning {w : SkipWarning K}
    (hamounts : ∀ x ∈ w.required.amounts, Quantity.isFinite x = true ∧ p x)
    (hnodes : w.candidateNodes < Nat.pow 2 64) : skipWarning.Carries p (depth + 2) w :=
  carries_record (by simp) <|
    Fields.Carries.map SkipWarning.mk (.required (carries_text _))
      |>.seq (.required (carries_text _))
      |>.seq (.required (carries_text _))
      |>.seq (.required (carries_millis _))
      |>.seq (.required (carries_flag _))
      |>.seq (.required (carries_resources hamounts))
      |>.seq (.required (carries_count64 hnodes))

theorem carries_unscheduled {u : Unscheduled K} (h : skipWarning.Carries p (depth + 2) u.warning) :
    unscheduled.Carries p (depth + 3) u :=
  carries_record (by simp) <|
    Fields.Carries.map Unscheduled.mk (.required (carries_text _))
      |>.seq (.required (carries_millis _))
      |>.seq (.required (carries_flag _))
      |>.seq (.required (carries_flag _))
      |>.seq (.optional (carries_optionalText _))
      |>.seq (.required h)

theorem carries_alertDelta {delta : AlertDelta K}
    (h : ∀ u ∈ delta.added, skipWarning.Carries p (depth + 2) u.warning) :
    alertDelta.Carries p (depth + 5) delta :=
  carries_record (by simp) <|
    Fields.Carries.map AlertDelta.mk
        (.required (carries_list fun u hu => carries_unscheduled (h u hu)))
      |>.seq (.required (carries_list fun e _ => carries_eventRemoval e))

theorem carries_discovery {d : Discovery K}
    (hamounts : ∀ x ∈ d.amounts, Quantity.isFinite x = true ∧ p x)
    (hcounts : ∀ n ∈ d.counts, n < Nat.pow 2 32)
    (hnodes : ∀ u ∈ d.unscheduled.added, u.warning.candidateNodes < Nat.pow 2 64) :
    discovery.Carries p (depth + 7) d := by
  simp only [Discovery.amounts, Discovery.counts, List.mem_cons, List.mem_append,
    List.mem_flatMap] at hamounts hcounts
  have houtcomes : ∀ o ∈ d.outcomes.values, outcome.Carries p (depth + 5) o := fun o ho =>
    carries_outcome fun n hn => hcounts n (.inl (.inl ⟨o, ho, hn⟩))
  have hstats : ∀ n ∈ d.nodes, nodeStats.Carries p (depth + 5) n := fun n hn =>
    carries_nodeStats (fun x hx => hamounts x (.inr (.inl (.inr ⟨n, hn, hx⟩))))
      fun k hk => hcounts k (.inr ⟨n, hn, hk⟩)
  have hwarnings : ∀ u ∈ d.unscheduled.added,
      skipWarning.Carries p (depth + 3) u.warning := fun u hu =>
    carries_skipWarning (fun x hx => hamounts x (.inr (.inr ⟨u, hu, hx⟩))) (hnodes u hu)
  exact carries_record (by simp) <|
    Fields.Carries.map Discovery.mk (.required (carries_nameMap houtcomes))
      |>.seq (.required (carries_workerStats fun n hn => hcounts n (.inl (.inr hn))))
      |>.seq (.required (carries_pressureThresholds
        fun x hx => hamounts x (.inr (.inl (.inl (.inl hx))))))
      |>.seq (.required (carries_list hstats))
      |>.seq (.required (carries_alertDelta hwarnings))
      |>.seq (.required (carries_amount (hamounts _ (.inl rfl))))
      |>.seq (.required (carries_resources
        fun x hx => hamounts x (.inr (.inl (.inl (.inr hx))))))
      |>.seq (.required (carries_millis _))

/-- In every format that reads documents back, snapshots and discoveries are read as they were
written, given that the text of each amount in them is read as that amount. -/
theorem snapshot_discovery_replay {format : TextFormat K} (hformat : format.ReadsDocuments) :
    (∀ s : Snapshot K,
      (∀ x ∈ s.amounts, Quantity.isFinite x = true) →
      (∀ x ∈ s.amounts, Quantity.isFinite x = true → format.ReadsBack x) →
      (∀ w ∈ s.workers, w.status.IsPlain) → snapshot.Replays format s) ∧
    (∀ d : Discovery K,
      (∀ x ∈ d.amounts, Quantity.isFinite x = true) →
      (∀ x ∈ d.amounts, Quantity.isFinite x = true → format.ReadsBack x) →
      (∀ n ∈ d.counts, n < Nat.pow 2 32) →
      (∀ u ∈ d.unscheduled.added, u.warning.candidateNodes < Nat.pow 2 64) →
      discovery.Replays format d) := by
  constructor
  · intro s hfinite hreads hstages
    have hamounts : ∀ x ∈ s.amounts, Quantity.isFinite x = true ∧ format.ReadsBack x :=
      fun x hx => ⟨hfinite x hx, hreads x hx (hfinite x hx)⟩
    exact (carries_snapshot hamounts hstages).replays hformat
  · intro d hfinite hreads hcounts hnodes
    have hamounts : ∀ x ∈ d.amounts, Quantity.isFinite x = true ∧ format.ReadsBack x :=
      fun x hx => ⟨hfinite x hx, hreads x hx (hfinite x hx)⟩
    exact (carries_discovery hamounts hcounts hnodes).replays hformat

end Codec

/-- A cluster of one node, with a worker in a stage of its own and one in a known stage. -/
def Snapshot.recorded : Snapshot Float where
  templates := NameMap.empty.insert "green" {
    name := "green"
    algorithmImage := "algos/green:2"
    workerImage := none
    resources := ⟨some 0.1, none, some "256Mi"⟩
    algorithmEnv := NameMap.empty.insert "GREETING" "say \"hi\"\n"
    workerEnv := .empty
    nodeSelector := .empty
    mounts := [⟨"data", "/data"⟩]
    entryPoint := none
    options := ⟨false⟩
    minHotWorkers := 1 }
  requests := [⟨"green", false, 1700000000000⟩]
  workers := [⟨"w-1", "green", "p-1", .other "draining", false, true, none, none⟩,
    ⟨"w-2", "green", "p-2", .ready, true, false, some "algos/green:2", none⟩]
  jobs := [⟨"green-1", "green", 1700000000000, false, false⟩]
  pods := [⟨"p-1", "green-1", none⟩]
  resources := ⟨[⟨"n1", ⟨8, 0, 8192⟩, ⟨0.1, 0, 256⟩, ⟨0, 0, 0⟩, ⟨0.1, 0, 256⟩, .empty⟩]⟩

def Discovery.recorded : Discovery Float where
  outcomes := NameMap.empty.insert "green" ⟨1, 0, 0, 1, 1, 0, 2⟩
  actual := ⟨[⟨"green", 1, NameMap.empty.insert "draining" 1, 1⟩], 1⟩
  thresholds := ⟨0.75, 1, 0.5⟩
  nodes := [⟨"n1", ⟨8, 0, 8192⟩, ⟨0.1, 0, 256⟩, ⟨0, 0, 0⟩, ⟨0.1, 0, 256⟩,
    NameMap.empty.insert "zone" "b", ⟨[⟨"green", 1, NameMap.empty.insert "draining" 1, 1⟩], 1⟩⟩]
  unscheduled := ⟨[⟨"green", 1700000000000, true, false, none,
    ⟨"green", "failedScheduling", "insufficient cpu (1)", 1700000000000, false,
      ⟨0.1, 0, 256⟩, 1⟩⟩], [⟨"blue", "event-1"⟩]⟩
  capacity := 0.5
  resourcesToFree := ⟨0.1, 0, 256⟩
  timestamp := 1700000000000

namespace Codec

/-- Both layouts of JSON will do. -/
theorem snapshot_recorded_replays :
    (Json.oneLine.ReadsDocuments ∧ snapshot.Replays Json.oneLine .recorded ∧
      discovery.Replays Json.oneLine .recorded) ∧
    Json.severalLines.ReadsDocuments ∧ snapshot.Replays Json.severalLines .recorded ∧
      discovery.Replays Json.severalLines .recorded := by
  have hreads : ∀ x ∈ ([0, 0.1, 0.5, 0.75, 1, 8, 256, 8192] : List Float), Json.ReadsBack x := by
    intro x hx
    simp only [List.mem_cons, List.not_mem_nil, or_false] at hx
    rcases hx with rfl | rfl | rfl | rfl | rfl | rfl | rfl | rfl <;>
      exact Json.readsBack_of_next? rfl
  have hsnapshot : Snapshot.recorded.amounts ⊆ [0, 0.1, 0.5, 0.75, 1, 8, 256, 8192] := by decide
  have hdiscovery : Discovery.recorded.amounts ⊆ [0, 0.1, 0.5, 0.75, 1, 8, 256, 8192] := by decide
  have hreplays : ∀ format : TextFormat Float, format.ReadsDocuments →
      format.ReadsBack = Json.ReadsBack → format.ReadsDocuments ∧
        snapshot.Replays format .recorded ∧ discovery.Replays format .recorded := by
    intro format hformat hback
    obtain ⟨hs, hd⟩ := snapshot_discovery_replay hformat
    rw [hback] at hs hd
    refine ⟨hformat, ?_, ?_⟩
    · exact hs .recorded (by decide) (fun x hx _ => hreads x (hsnapshot hx)) (by decide)
    · exact hd .recorded (by decide) (fun x hx _ => hreads x (hdiscovery hx)) (by decide)
        (by decide)
  exact ⟨hreplays _ Json.readsDocuments_oneLine Json.readsBack_oneLine,
    hreplays _ Json.readsDocuments_severalLines Json.readsBack_severalLines⟩

end Codec

end WorkerFleet
