import WorkerFleet.Proofs.Binary64
import WorkerFleet.Proofs.Skips

/-!
# Shortfalls

The message of a skip counts, for each dimension, the nodes that are short of it. Whether a node
accepts a job is found by asking if the request is at most the room, and what the node is short of
by asking if the room is less than the request. The two agree where both are numbers
(`Resources.exists_lt_of_not_fitsWithin`). Room always is one, so a job whose requests are numbers
is never skipped without a reason (`skips_nameCause`).
-/

namespace WorkerFleet

section Counts
variable {α β : Type}

theorem countP_or_le (p q : α → Bool) (xs : List α) :
    (xs.countP fun x => p x || q x) ≤ xs.countP p + xs.countP q := by
  induction xs with
  | nil => exact Nat.zero_le _
  | cons x xs ih =>
    rw [List.countP_cons, List.countP_cons, List.countP_cons]
    cases p x <;> cases q x <;> simp <;> omega

theorem countP_any_le (p : β → α → Bool) (ds : List β) (xs : List α) :
    (xs.countP fun x => ds.any fun d => p d x) ≤ (ds.map fun d => xs.countP (p d)).sum := by
  induction ds with
  | nil => simp
  | cons d ds ih =>
    rw [List.map_cons, List.sum_cons]
    exact (countP_or_le (p d) _ xs).trans (Nat.add_le_add_left ih _)

theorem sum_filter_pos (es : List (β × Nat)) :
    ((es.filter fun e => 0 < e.2).map (·.2)).sum = (es.map (·.2)).sum := by
  induction es with
  | nil => rfl
  | cons e es ih =>
    by_cases h : 0 < e.2
    · rw [List.filter_cons_of_pos (by simpa using h), List.map_cons, List.sum_cons, ih,
        List.map_cons, List.sum_cons]
    · rw [List.filter_cons_of_neg (by simpa using h), ih, List.map_cons, List.sum_cons]
      omega

end Counts

namespace Resources

theorem decide_mem_lacking {K : Type} [Quantity K] (r room : Resources K) (d : Dimension) :
    decide (d ∈ r.lacking room) = Quantity.lt (room.get d) (r.get d) := by
  rw [Bool.eq_iff_iff, decide_eq_true_iff, mem_lacking]

/-- Among numbers, what does not fit is too much in some dimension. -/
theorem exists_lt_of_not_fitsWithin {r room : Resources Float}
    (hr : ∀ d, (r.get d).isNaN = false) (hroom : ∀ d, (room.get d).isNaN = false)
    (h : r.fitsWithin room = false) : ∃ d, Quantity.lt (room.get d) (r.get d) = true := by
  rw [Bool.eq_false_iff, ne_eq, fitsWithin_iff] at h
  obtain ⟨d, hd⟩ := not_forall.mp h
  exact ⟨d, Binary64.lt_of_not_le (hr d) (hroom d) (Bool.eq_false_iff.mpr hd)⟩

end Resources

namespace SkipWarning
variable {K : Type} [Quantity K]

/-- The room that the message speaks of: what nodes have without their workers, if not even that
is enough, and otherwise what they have left. -/
def room (w : SkipWarning K) : Node K → Resources K :=
  if w.hasMaxCapacity then Node.maxForWorkers else Node.free

def opening (w : SkipWarning K) : String :=
  if w.hasMaxCapacity then "maximum capacity exceeded " else "insufficient "

theorem isNaN_room (w : SkipWarning Float) (n : Node Float) (d : Dimension) :
    ((w.room n).get d).isNaN = false := by
  unfold room
  split
  · rw [Node.maxForWorkers, Resources.get_leftAfter]
    exact Binary64.isNaN_positivePart _
  · rw [Node.free, Resources.get_leftAfter]
    exact Binary64.isNaN_positivePart _

end SkipWarning

namespace SkippedJob
variable {K : Type} [Quantity K]

/-- The job requests more in the dimension than the node has room for, as the warning takes it. -/
def exceeds (s : SkippedJob K) (d : Dimension) (n : Node K) : Bool :=
  Quantity.lt ((s.warning.room n).get d) (s.spec.algorithmResources.get d)

/-- Every one of the candidate nodes is short of something, and the message of the skip lists how
many are short of what. -/
structure NamesCause (s : SkippedJob K) (candidates : List (Node K))
    (listed : List (Dimension × Nat)) : Prop where
  candidateNodes : s.warning.candidateNodes = candidates.length
  short : ∀ n ∈ candidates, ∃ d, s.exceeds d n = true
  message : s.warning.message = s.warning.opening ++ Placement.shortfallText listed
  nonempty : listed ≠ []
  dimensions : (listed.map (·.1)).Sublist Dimension.all
  complete : ∀ d, d ∈ listed.map (·.1) ↔ ∃ n ∈ candidates, s.exceeds d n = true
  counts : ∀ e ∈ listed, 1 ≤ e.2 ∧ e.2 ≤ s.warning.candidateNodes ∧
    e.2 = candidates.countP (s.exceeds e.1)
  covers : s.warning.candidateNodes ≤ (listed.map (·.2)).sum

end SkippedJob

namespace Placement
variable {K : Type} [Quantity K]

section Texts
variable {required : Resources K} {room : Node K → Resources K} {nodes : List (Node K)}

theorem shortfalls_eq : shortfalls required room nodes =
    (Dimension.all.map fun d =>
      (d, nodes.countP fun n => Quantity.lt ((room n).get d) (required.get d))).filter
        fun e => 0 < e.2 := by
  simp only [shortfalls, Resources.decide_mem_lacking]

theorem mem_shortfalls {d : Dimension} {k : Nat} : (d, k) ∈ shortfalls required room nodes ↔
    k = nodes.countP (fun n => Quantity.lt ((room n).get d) (required.get d)) ∧ 0 < k := by
  rw [shortfalls_eq, List.mem_filter, List.mem_map, decide_eq_true_iff]
  constructor
  · rintro ⟨⟨_, _, heq⟩, hpos⟩
    obtain ⟨rfl, rfl⟩ := Prod.mk.inj heq
    exact ⟨rfl, hpos⟩
  · rintro ⟨rfl, hpos⟩
    exact ⟨⟨d, d.mem_all, rfl⟩, hpos⟩

theorem mem_dimensions_shortfalls {d : Dimension} :
    d ∈ (shortfalls required room nodes).map (·.1) ↔
      ∃ n ∈ nodes, Quantity.lt ((room n).get d) (required.get d) = true := by
  rw [← List.countP_pos_iff, List.mem_map]
  constructor
  · rintro ⟨⟨_, k⟩, he, rfl⟩
    obtain ⟨rfl, hpos⟩ := mem_shortfalls.mp he
    exact hpos
  · intro hpos
    exact ⟨(d, _), mem_shortfalls.mpr ⟨rfl, hpos⟩, rfl⟩

theorem dimensions_shortfalls_sublist :
    ((shortfalls required room nodes).map (·.1)).Sublist Dimension.all := by
  have hall : (Dimension.all.map fun d =>
      (d, nodes.countP fun n => Quantity.lt ((room n).get d) (required.get d))).map (·.1) =
      Dimension.all := by
    rw [List.map_map]
    exact List.map_id _
  rw [shortfalls_eq]
  exact hall ▸ List.filter_sublist.map _

/-- Nodes that are each short of something are counted at least once each. -/
theorem length_le_sum_shortfalls
    (h : ∀ n ∈ nodes, ∃ d, Quantity.lt ((room n).get d) (required.get d) = true) :
    nodes.length ≤ ((shortfalls required room nodes).map (·.2)).sum := by
  have hall : (nodes.countP fun n => Dimension.all.any fun d =>
      Quantity.lt ((room n).get d) (required.get d)) = nodes.length := by
    rw [List.countP_eq_length]
    intro n hn
    obtain ⟨d, hd⟩ := h n hn
    exact List.any_eq_true.mpr ⟨d, d.mem_all, hd⟩
  rw [shortfalls_eq, sum_filter_pos, List.map_map, ← hall]
  exact countP_any_le _ _ _

theorem message_warn {spec : JobSpec K} (now : Millis) (h : candidates spec nodes ≠ []) :
    (warn spec nodes now).message = (warn spec nodes now).opening ++ shortfallText
      (shortfalls spec.algorithmResources (warn spec nodes now).room (candidates spec nodes)) := by
  have hsome : (candidates spec nodes).isEmpty = false := List.isEmpty_eq_false_iff.mpr h
  rw [SkipWarning.opening, SkipWarning.room, hasMaxCapacity_warn]
  change (if (candidates spec nodes).isEmpty then (true, _)
    else if (candidates spec nodes).all _ then (true, _) else (false, _)).2 = _
  rw [hsome]
  cases (candidates spec nodes).all
      fun n => !spec.algorithmResources.fitsWithin n.maxForWorkers with
  | true => rfl
  | false => rfl

end Texts

section Turns
variable {now : Millis} {nodes : List (Node K)} {earlier : List (JobSpec K)} {s : SkippedJob K}

/-- A job is skipped for want of the room that its warning speaks of. -/
theorem SkippedAfter.not_fitsWithin_room (h : SkippedAfter now nodes earlier s) :
    ∀ n ∈ candidates s.spec (place now nodes earlier).nodes,
      s.spec.algorithmResources.fitsWithin (s.warning.room n) = false := by
  intro n hn
  obtain ⟨hrefused, hwarning⟩ := skippedAfter_iff.mp h
  rw [SkipWarning.room]
  split
  · next hflag =>
    rw [hwarning, hasMaxCapacity_warn, List.all_eq_true] at hflag
    exact (Bool.not_eq_true' _).mp (hflag n hn)
  · obtain ⟨hmem, hlabels⟩ := List.mem_filter.mp hn
    have hrefuses := hrefused n hmem
    rwa [accepts, hlabels, Bool.true_and] at hrefuses

/-- The message comes from the same view of the nodes as the list of what they are short of. -/
theorem namesCause_of_warn {seen : List (Node K)} (hwarning : s.warning = warn s.spec seen now)
    (hsome : candidates s.spec seen ≠ [])
    (hshort : ∀ n ∈ candidates s.spec seen, ∃ d, s.exceeds d n = true) :
    s.NamesCause (candidates s.spec seen)
      (shortfalls s.spec.algorithmResources s.warning.room (candidates s.spec seen)) := by
  have hlength : s.warning.candidateNodes = (candidates s.spec seen).length := by
    rw [hwarning]
    rfl
  have hcovers := length_le_sum_shortfalls hshort
  refine ⟨hlength, hshort, ?_, ?_, dimensions_shortfalls_sublist, ?_, ?_, ?_⟩
  · rw [hwarning]
    exact message_warn now hsome
  · intro hnil
    rw [hnil] at hcovers
    exact hsome (List.length_eq_zero_iff.mp (Nat.le_zero.mp hcovers))
  · intro d
    exact mem_dimensions_shortfalls
  · rintro ⟨d, k⟩ he
    obtain ⟨rfl, hpos⟩ := mem_shortfalls.mp he
    refine ⟨hpos, ?_, rfl⟩
    rw [hlength]
    exact List.countP_le_length
  · rw [hlength]
    exact hcovers

end Turns

/-- Every skip with candidate nodes says what they were short of at its turn. -/
theorem skips_nameCause (now : Millis) (nodes : List (Node Float)) (jobs : List (JobSpec Float)) :
    ∀ s ∈ (place now nodes jobs).skipped,
      (∀ d, (s.spec.algorithmResources.get d).isNaN = false) → 0 < s.warning.candidateNodes →
        ∃ earlier later, jobs = earlier ++ s.spec :: later ∧ SkippedAfter now nodes earlier s ∧
          ∃ listed, s.NamesCause (candidates s.spec (place now nodes earlier).nodes) listed := by
  intro s hs hnumbers hpos
  obtain ⟨earlier, later, hjobs, hskip⟩ := mem_skipped_place_iff.mp hs
  have hwarning := (skippedAfter_iff.mp hskip).2
  refine ⟨earlier, later, hjobs, hskip, _, namesCause_of_warn hwarning ?_ ?_⟩
  · rw [hwarning] at hpos
    exact List.ne_nil_of_length_pos hpos
  · intro n hn
    exact Resources.exists_lt_of_not_fitsWithin hnumbers (s.warning.isNaN_room n)
      (hskip.not_fitsWithin_room n hn)

/-- The first node has little cpu, the second little memory. -/
def scantNodes : List (Node Float) :=
  [.sample "n" ⟨1, 0, 4096⟩ Resources.zero Resources.zero,
    .sample "m" ⟨4, 0, 1024⟩ Resources.zero Resources.zero]

/-- No node has what the first job requests, even without workers. The second one leaves too little
for the third. -/
def scantJobs : List (JobSpec Float) :=
  [.sample "a" ⟨2, 0, 2048⟩, .sample "b" ⟨3, 0, 512⟩, .sample "c" ⟨2, 0, 1024⟩]

theorem skips_nameCause_scant :
    (place 1000 scantNodes scantJobs).skipped.map (·.warning.message) =
      ["maximum capacity exceeded cpu (1), mem (1)", "insufficient cpu (2), mem (1)"] ∧
    ∃ s ∈ (place 1000 scantNodes scantJobs).skipped, s.spec.algorithm = "c" ∧
      (∀ d, (s.spec.algorithmResources.get d).isNaN = false) ∧ s.warning.candidateNodes = 2 ∧
      ∃ earlier later, scantJobs = earlier ++ s.spec :: later ∧
        SkippedAfter 1000 scantNodes earlier s ∧
        ∃ listed,
          s.NamesCause (candidates s.spec (place 1000 scantNodes earlier).nodes) listed := by
  have hlast : ∃ s ∈ (place 1000 scantNodes scantJobs).skipped,
      s.spec.algorithm = "c" ∧ s.warning.candidateNodes = 2 ∧
        ∀ d ∈ Dimension.all, (s.spec.algorithmResources.get d).isNaN = false := by
    decide +kernel
  obtain ⟨s, hs, hname, htwo, hall⟩ := hlast
  have hnumbers : ∀ d, (s.spec.algorithmResources.get d).isNaN = false :=
    fun d => hall d d.mem_all
  refine ⟨by decide +kernel, s, hs, hname, hnumbers, htwo, ?_⟩
  exact skips_nameCause 1000 scantNodes scantJobs s hs hnumbers (by rw [htwo]; decide)

end Placement

end WorkerFleet
