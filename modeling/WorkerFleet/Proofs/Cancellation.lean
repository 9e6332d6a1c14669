import Mathlib.Data.List.DropRight
import WorkerFleet.Proofs.Resumes
import WorkerFleet.Proofs.Turns

/-!
# Stops and resumes in pairs

Within an algorithm the first stop goes with the first resume, the second stop with the second
resume, until one side has nothing left. Stops may be equal and resumes too, so what survives is
told by its rank: an item stays if the other side has no item of its algorithm at that rank.
-/

namespace WorkerFleet

theorem drop_eq_rtake {α : Type} (xs : List α) (n : Nat) :
    xs.drop n = xs.rtake (xs.length - n) := by
  rw [List.rtake]
  rcases Nat.le_total n xs.length with h | h
  · rw [Nat.sub_sub_self h]
  · rw [Nat.sub_eq_zero_of_le h, Nat.sub_zero, List.drop_length, List.drop_of_length_le h]

namespace Reclaim
variable {K : Type}

/-- A stop and a resume of one algorithm are dropped together, as long as there are both. -/
structure CancelsPairs (stops : List (Stop K)) (resumes : List Worker) (kept : List (Stop K))
    (left : List Worker) : Prop where
  stopsByRank : kept = dropRanks (fun s => s.worker.algorithm)
    (fun a => resumes.countP (·.algorithm = a)) stops
  resumesByRank : left = dropRanks Worker.algorithm
    (fun a => stops.countP (·.worker.algorithm = a)) resumes
  lastStops : ∀ a, kept.filter (·.worker.algorithm = a) =
    (stops.filter (·.worker.algorithm = a)).rtake
      (stops.countP (·.worker.algorithm = a) - resumes.countP (·.algorithm = a))
  lastResumes : ∀ a, left.filter (·.algorithm = a) =
    (resumes.filter (·.algorithm = a)).rtake
      (resumes.countP (·.algorithm = a) - stops.countP (·.worker.algorithm = a))
  stopsInOrder : kept.Sublist stops
  resumesInOrder : left.Sublist resumes
  apart : ∀ s ∈ kept, ∀ w ∈ left, s.worker.algorithm ≠ w.algorithm

theorem cancelAgainst_eq_dropRanks (resumes : List Worker) (stops : List (Stop K)) :
    cancelAgainst resumes stops =
      (dropRanks (fun s => s.worker.algorithm) (fun a => resumes.countP (·.algorithm = a)) stops,
        dropRanks Worker.algorithm (fun a => stops.countP (·.worker.algorithm = a)) resumes) := by
  induction stops generalizing resumes with
  | nil =>
    rw [cancelAgainst]
    exact congrArg (Prod.mk []) (dropRanks_zero Worker.algorithm resumes).symm
  | cons s rest ih =>
    rw [dropRanks_cons, countP_cons_eq_update fun s : Stop K => s.worker.algorithm]
    cases htake : takeFirst? (fun r => decide (r.algorithm = s.worker.algorithm)) resumes with
    -- Stop and resume go together, so the counts of their algorithm fall by one on both sides.
    | some taken =>
      obtain ⟨w, left⟩ := taken
      have hw : w.algorithm = s.worker.algorithm := by
        obtain ⟨_, _, _, _, hw, _⟩ := takeFirst?_eq_some_iff.mp htake
        exact of_decide_eq_true hw
      have hcounts : (fun a => resumes.countP (·.algorithm = a)) = Function.update
          (fun a => left.countP (·.algorithm = a)) s.worker.algorithm
          (left.countP (·.algorithm = s.worker.algorithm) + 1) := by
        rw [← hw, ← countP_cons_eq_update Worker.algorithm]
        funext a
        exact (perm_of_takeFirst? htake).countP_eq _
      have hone : resumes.countP (·.algorithm = s.worker.algorithm) =
          left.countP (·.algorithm = s.worker.algorithm) + 1 := by
        have hself := congrFun hcounts s.worker.algorithm
        rwa [Function.update_self] at hself
      simp only [cancelAgainst, htake]
      rw [dropRanks_of_takeFirst? Worker.algorithm htake, hone, if_neg (Nat.succ_ne_zero _),
        Nat.add_sub_cancel, hcounts, Function.update_idem, Function.update_eq_self,
        List.nil_append, ih left]
    | none =>
      have habsent : ∀ r ∈ resumes, r.algorithm ≠ s.worker.algorithm := by
        intro r hr
        exact of_decide_eq_false (takeFirst?_eq_none_iff.mp htake r hr)
      have hzero : resumes.countP (·.algorithm = s.worker.algorithm) = 0 := by
        rw [List.countP_eq_zero]
        intro r hr
        simpa using habsent r hr
      have hcounts : Function.update (fun a => resumes.countP (·.algorithm = a))
          s.worker.algorithm 0 = fun a => resumes.countP (·.algorithm = a) := by
        rw [← hzero, Function.update_eq_self]
      simp only [cancelAgainst, htake]
      rw [dropRanks_of_absent Worker.algorithm habsent, hzero, if_pos rfl, Nat.zero_sub, hcounts,
        ih resumes]
      rfl

theorem cancelAgainst_cancelsPairs (stops : List (Stop K)) (resumes : List Worker) :
    CancelsPairs stops resumes (cancelAgainst resumes stops).1
      (cancelAgainst resumes stops).2 := by
  have hfilter := filter_cancelAgainst resumes stops
  have hstops : ∀ a, (stops.filter (·.worker.algorithm = a)).length =
      stops.countP (·.worker.algorithm = a) := fun a => List.countP_eq_length_filter.symm
  have hresumes : ∀ a, (resumes.filter (·.algorithm = a)).length =
      resumes.countP (·.algorithm = a) := fun a => List.countP_eq_length_filter.symm
  obtain ⟨hstopsInOrder, hresumesInOrder⟩ := cancelAgainst_sublist resumes stops
  refine {
    stopsByRank := by rw [cancelAgainst_eq_dropRanks]
    resumesByRank := by rw [cancelAgainst_eq_dropRanks]
    lastStops := ?_
    lastResumes := ?_
    stopsInOrder := hstopsInOrder
    resumesInOrder := hresumesInOrder
    apart := ?_ }
  · intro a
    rw [(hfilter a).1, drop_eq_rtake, hstops, hresumes]
  · intro a
    rw [(hfilter a).2, drop_eq_rtake, hstops, hresumes]
  · intro s hs w hw heq
    obtain ⟨hkept, hleft⟩ := hfilter s.worker.algorithm
    have hmoreStops : 0 < ((cancelAgainst resumes stops).1.filter
        (·.worker.algorithm = s.worker.algorithm)).length :=
      List.length_pos_of_mem (List.mem_filter.mpr ⟨hs, decide_eq_true rfl⟩)
    have hmoreResumes : 0 < ((cancelAgainst resumes stops).2.filter
        (·.algorithm = s.worker.algorithm)).length :=
      List.length_pos_of_mem (List.mem_filter.mpr ⟨hw, decide_eq_true heq.symm⟩)
    rw [hkept, List.length_drop] at hmoreStops
    rw [hleft, List.length_drop] at hmoreResumes
    omega

end Reclaim

end WorkerFleet
