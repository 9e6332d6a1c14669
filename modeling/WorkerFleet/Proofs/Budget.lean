import WorkerFleet.Proofs.Reclaimed

/-!
# Stops within the budget

Stops are found for one deficit after the other, and then kept only until they cover what all
skipped jobs need together. A worker may free more than its own deficit, so a stop found for a
later deficit may be dropped although that deficit needed it. Of the sum nothing is missing: over
exact numbers the deficits add up to the budget (`sum_deficits`), so stops that meet every deficit
cover the budget, and so do those that are kept.
-/

namespace WorkerFleet

namespace Reclaim

def freed (stops : List (Stop Rat)) (d : Dimension) : Rat :=
  (stops.map (·.resources.get d)).sum

theorem freed_cons (s : Stop Rat) (stops : List (Stop Rat)) (d : Dimension) :
    freed (s :: stops) d = s.resources.get d + freed stops d := by
  rw [freed, List.map_cons, List.sum_cons, freed]

section Trim

/-- The first stops are kept, none of them after the budget is covered. -/
structure TrimsTo (budget : Resources Rat) (stops kept : List (Stop Rat)) : Prop where
  initial : kept <+: stops
  needed : ∀ earlier, earlier <+: kept → earlier ≠ kept →
    ∃ d, freed earlier d < budget.get d

theorem trimToBudget_trimsTo (budget : Resources Rat) (stops : List (Stop Rat)) :
    TrimsTo budget stops (trimToBudget budget stops) := by
  induction stops generalizing budget with
  | nil =>
    refine ⟨List.prefix_rfl, ?_⟩
    intro earlier hearlier hne
    exact absurd (List.prefix_nil.mp hearlier) hne
  | cons s rest ih =>
    unfold trimToBudget
    split
    · next hpositive =>
      obtain ⟨hinitial, hneeded⟩ := ih (budget - s.resources)
      refine ⟨(List.prefix_cons_inj s).mpr hinitial, ?_⟩
      intro earlier hearlier hne
      cases earlier with
      | nil =>
        obtain ⟨d, hd⟩ := Resources.isPositive_rat_iff.mp hpositive
        exact ⟨d, hd⟩
      | cons e earlier =>
        obtain ⟨rfl, hearlier⟩ := List.cons_prefix_cons.mp hearlier
        obtain ⟨d, hd⟩ := hneeded earlier hearlier fun heq => hne (congrArg (e :: ·) heq)
        refine ⟨d, ?_⟩
        rw [Resources.get_sub] at hd
        rw [freed_cons]
        linarith
    · refine ⟨List.nil_prefix, ?_⟩
      intro earlier hearlier hne
      exact absurd (List.prefix_nil.mp hearlier) hne

theorem trimToBudget_covers {budget : Resources Rat} {stops : List (Stop Rat)}
    (h : ∀ d, budget.get d ≤ freed stops d) (d : Dimension) :
    budget.get d ≤ freed (trimToBudget budget stops) d := by
  induction stops generalizing budget with
  | nil => exact h d
  | cons s rest ih =>
    unfold trimToBudget
    split
    · have hrest : ∀ d, (budget - s.resources).get d ≤ freed rest d := by
        intro d
        have hd := h d
        rw [freed_cons] at hd
        rw [Resources.get_sub]
        linarith
      have hd := ih hrest
      rw [Resources.get_sub] at hd
      rw [freed_cons]
      linarith
    · next hpositive =>
      rw [Resources.isPositive_rat_iff, not_exists] at hpositive
      exact not_lt.mp (hpositive d)

end Trim

theorem sum_deficits (weigh : Nat → Rat) (skipped : List (SkippedJob Rat)) (d : Dimension) :
    ((deficits weigh skipped).map (·.resources.get d)).sum = (resourcesToFree skipped).get d := by
  have hsum := congrArg (·.get d) (sum_resources_deficits weigh skipped)
  rw [Resources.get_sum_rat, List.map_map] at hsum
  exact hsum

section FindStops
variable (skipped : List (SkippedJob Rat)) (idle active : List Worker) (templates : Templates Rat)
variable (defaults : ResourceSpec Rat) (weigh : Nat → Rat) (minAge now : Millis)

/-- The stops for an algorithm free all that its skipped jobs need. -/
def Meets (stops : List (Stop Rat)) (e : Deficit Rat) : Prop :=
  ∀ d, e.resources.get d ≤ freed (stops.filter (·.reclaimedFor = e.algorithm)) d

theorem budget_le_freed
    (hmet : ∀ e ∈ deficits weigh skipped,
      Meets (findStops skipped idle active templates defaults weigh minAge now) e)
    (d : Dimension) : (resourcesToFree skipped).get d ≤
      freed (findStops skipped idle active templates defaults weigh minAge now) d := by
  have hfor : ∀ s ∈ findStops skipped idle active templates defaults weigh minAge now,
      s.reclaimedFor ∈ (deficits weigh skipped).map (·.algorithm) := by
    intro s hs
    rw [mem_algorithms_deficits]
    exact List.mem_map.mpr (helped_of_mem_findStops hs).exists_skipped
  have hsum := sum_filter_names Stop.reclaimedFor (·.resources.get d)
    (nodup_algorithms_deficits weigh skipped) hfor
  rw [List.map_map] at hsum
  calc (resourcesToFree skipped).get d
      = ((deficits weigh skipped).map (·.resources.get d)).sum :=
        (sum_deficits weigh skipped d).symm
    _ ≤ _ := List.sum_le_sum fun e he => hmet e he d
    _ = freed (findStops skipped idle active templates defaults weigh minAge now) d := hsum

theorem findStops_trimsTo :
    TrimsTo (resourcesToFree skipped)
      (findStops skipped idle active templates defaults weigh minAge now)
      (trimToBudget (resourcesToFree skipped)
        (findStops skipped idle active templates defaults weigh minAge now)) ∧
    ((∀ e ∈ deficits weigh skipped,
        Meets (findStops skipped idle active templates defaults weigh minAge now) e) →
      ∀ d, (resourcesToFree skipped).get d ≤ freed (trimToBudget (resourcesToFree skipped)
        (findStops skipped idle active templates defaults weigh minAge now)) d) := by
  refine ⟨trimToBudget_trimsTo _ _, ?_⟩
  intro hmet
  exact trimToBudget_covers (budget_le_freed skipped idle active templates defaults weigh minAge
    now hmet)

end FindStops

/-- The jobs of `a` and `b` need one cpu each. -/
def slightSkips : List (SkippedJob Rat) :=
  ["a", "b"].map fun name =>
    ⟨.sample name ⟨1, 0, 0⟩, Placement.warn (.sample name ⟨1, 0, 0⟩) [] 1000⟩

/-- Each worker takes up the default of two cpu. -/
def wideWorkers : List Worker :=
  ["u", "v", "w"].map fun id => .ofReport ⟨id, "c", id, .working, false, false, none, none⟩

def slightStops : List (Stop Rat) :=
  findStops slightSkips [] wideWorkers .empty ⟨some 2, none, none⟩ (fun n => n) 0 1000

instance (stops : List (Stop Rat)) (e : Deficit Rat) : Decidable (Meets stops e) :=
  decidable_of_iff (∀ d ∈ Dimension.all,
    e.resources.get d ≤ freed (stops.filter (·.reclaimedFor = e.algorithm)) d)
    ⟨fun h d => h d d.mem_all, fun h d _ => h d⟩

/-- The first stop alone covers the budget, and the one for `b` is dropped. -/
theorem trimsTo_slight : slightStops.map (·.worker.id) = ["u", "v"] ∧
    (trimToBudget (resourcesToFree slightSkips) slightStops).map (·.worker.id) = ["u"] ∧
    (∀ e ∈ deficits (fun n => (n : Rat)) slightSkips, Meets slightStops e) ∧
    ∀ d, (resourcesToFree slightSkips).get d ≤
      freed (trimToBudget (resourcesToFree slightSkips) slightStops) d := by
  have hmet : ∀ e ∈ deficits (fun n => (n : Rat)) slightSkips, Meets slightStops e := by
    decide +kernel
  exact ⟨by decide +kernel, by decide +kernel, hmet,
    (findStops_trimsTo slightSkips [] wideWorkers .empty ⟨some 2, none, none⟩ (fun n => n) 0
      1000).2 hmet⟩

end Reclaim

end WorkerFleet
