import Mathlib.Data.List.Forall2
import WorkerFleet.Placement
import WorkerFleet.Proofs.Exact

/-!
# Headroom of nodes

Placing jobs never requests more of a node than the node has, read over exact numbers. A
node may be requested beyond its total from the start, in some dimensions only; there it is
not requested further. Requests below zero are allowed.
-/

namespace WorkerFleet

namespace Node

/-- `after` is the same node, and in no dimension more is requested of it than its total or
what was requested of `before`. -/
def WithinHeadroom (before after : Node Rat) : Prop :=
  after.name = before.name ∧ after.total = before.total ∧
    ∀ d, after.requests.get d ≤ max (before.total.get d) (before.requests.get d)

namespace WithinHeadroom
variable {a b c : Node Rat}

theorem refl (a : Node Rat) : WithinHeadroom a a := ⟨rfl, rfl, fun _ => le_max_right _ _⟩

theorem trans (hab : WithinHeadroom a b) (hbc : WithinHeadroom b c) : WithinHeadroom a c := by
  obtain ⟨hname, htotal, hreq⟩ := hab
  obtain ⟨hname', htotal', hreq'⟩ := hbc
  refine ⟨hname'.trans hname, htotal'.trans htotal, ?_⟩
  intro d
  have h := hreq' d
  rw [htotal] at h
  exact h.trans (max_le (le_max_left _ _) (hreq d))

end WithinHeadroom

/-- What is left of a dimension that is requested beyond its total is zero, so only what
asks for nothing there still fits. -/
theorem withinHeadroom_reserve {n : Node Rat} {r : Resources Rat}
    (hfits : r.fitsWithin n.free = true) : WithinHeadroom n (n.reserve r) := by
  refine ⟨rfl, rfl, ?_⟩
  intro d
  have hfree : r.get d ≤ max 0 (n.total.get d - n.requests.get d) := by
    rw [← Resources.get_leftAfter_rat]
    exact Resources.fitsWithin_rat_iff.mp hfits d
  have hreq : (n.reserve r).requests.get d = n.requests.get d + r.get d :=
    Resources.get_add n.requests r d
  rw [hreq]
  -- Where nothing is free, only a request of at most zero fits.
  rcases le_max_iff.mp hfree with h | h
  · exact le_max_of_le_right (by linarith)
  · exact le_max_of_le_left (by linarith)

end Node

namespace Placement
open Node

theorem reserveFirst?_withinHeadroom {spec : JobSpec Rat} {nodes after : List (Node Rat)}
    {name : String} (h : reserveFirst? spec nodes = some (name, after)) :
    List.Forall₂ WithinHeadroom nodes after := by
  induction nodes generalizing name after with
  | nil => simp [reserveFirst?] at h
  | cons n rest ih =>
    unfold reserveFirst? at h
    split at h
    · next hacc =>
      obtain ⟨-, rfl⟩ := Prod.mk.inj (Option.some.inj h)
      have hfits := (Bool.and_eq_true_iff.mp hacc).2
      exact .cons (withinHeadroom_reserve hfits)
        (List.forall₂_same.mpr fun m _ => WithinHeadroom.refl m)
    · obtain ⟨⟨name', after'⟩, hrest, heq⟩ := Option.map_eq_some_iff.mp h
      obtain ⟨-, rfl⟩ := Prod.mk.inj heq
      exact .cons (WithinHeadroom.refl n) (ih hrest)

theorem forall₂_withinHeadroom_trans {xs ys zs : List (Node Rat)}
    (hxy : List.Forall₂ WithinHeadroom xs ys) (hyz : List.Forall₂ WithinHeadroom ys zs) :
    List.Forall₂ WithinHeadroom xs zs := by
  induction hxy generalizing zs with
  | nil => exact hyz
  | cons hab _ ih =>
    cases hyz with
    | cons hbc htail => exact .cons (hab.trans hbc) (ih htail)

/-- No node is overcommitted by the jobs of one cycle. -/
theorem place_nodes_withinHeadroom (now : Millis) (nodes : List (Node Rat))
    (jobs : List (JobSpec Rat)) :
    List.Forall₂ WithinHeadroom nodes (place now nodes jobs).nodes := by
  induction jobs generalizing nodes with
  | nil => exact List.forall₂_same.mpr fun n _ => WithinHeadroom.refl n
  | cons spec rest ih =>
    unfold place
    split
    · next name after hres =>
      exact forall₂_withinHeadroom_trans (reserveFirst?_withinHeadroom hres) (ih after)
    · exact ih nodes

end Placement

end WorkerFleet
