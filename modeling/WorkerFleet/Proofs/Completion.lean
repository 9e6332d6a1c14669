import WorkerFleet.Codec.Config
import WorkerFleet.Proofs.Binary64
import WorkerFleet.Proofs.Reclaimed
import WorkerFleet.Proofs.Run
import WorkerFleet.Proofs.Stuck

/-!
# Runs that complete

Three things in a run need more than numbers of any kind. An estimate can be moved between two
bounds only where they are in order, a window is cut to a count, and deficits can be sorted
only by a relation that orders them. The bounds need not be in order: one may be set and meet
the default of the other. With the rest nothing goes wrong, whatever numbers the configuration
gives: `completesWith_iff` says that the bounds decide alone.

Of powers only what is documented is used (`PowerLaw`), since they are not computed here.
-/

namespace WorkerFleet

namespace Reclaim

section Weights
variable {weigh : Nat → Float} {skipped : List (SkippedJob Float)}

theorem orders_gather_of_nonneg (h : ∀ n ≥ 1, Binary64.Nonneg (weigh n)) :
    Orders Deficit.precedes (gather weigh skipped) := by
  have hnonneg : ∀ d ∈ gather weigh skipped, Binary64.Nonneg d.weight := by
    intro d hd
    have hgathers := (gather_gathersAll weigh skipped).gathers d hd
    have hplaces : ∀ i ∈ positions d.algorithm skipped,
        Binary64.Nonneg (weigh (skipped.length - i)) :=
      fun i hi => h _ (Nat.sub_pos_of_lt (lt_length_of_mem_positions hi))
    exact hgathers.weight_induction (hplaces _ hgathers.firstIndex_mem)
      fun _ i hi hx => hx.add (hplaces i hi)
  exact orders_precedes (fun w => Binary64.place w.toModel.unpack)
    (fun a ha b hb => Binary64.lt_iff (hnonneg a ha).isNaN (hnonneg b hb).isNaN)
    nodup_firstIndexes_gather

/-- Only the last place has a weight, so no weight compares with that of another deficit. -/
theorem orders_gather_of_isNaN (h : ∀ n ≥ 2, (weigh n).isNaN = true) :
    Orders Deficit.precedes (gather weigh skipped) := by
  have hweights : ∀ d ∈ gather weigh skipped, d.firstIndex < skipped.length ∧
      (d.firstIndex + 1 < skipped.length → d.weight.isNaN = true) := by
    intro d hd
    have hgathers := (gather_gathersAll weigh skipped).gathers d hd
    refine ⟨lt_length_of_mem_positions hgathers.firstIndex_mem, fun hlast => ?_⟩
    exact hgathers.weight_induction (P := fun x => x.isNaN = true) (h _ (by omega))
      fun _ _ _ hx => Binary64.isNaN_add (.inl hx)
  have hlt : ∀ a ∈ gather weigh skipped, ∀ b ∈ gather weigh skipped,
      Quantity.lt a.weight b.weight = false := by
    intro a ha b hb
    obtain ⟨haindex, hanan⟩ := hweights a ha
    obtain ⟨hbindex, hbnan⟩ := hweights b hb
    by_cases haLast : a.firstIndex + 1 < skipped.length
    · exact Binary64.lt_of_isNaN (.inl (hanan haLast))
    by_cases hbLast : b.firstIndex + 1 < skipped.length
    · exact Binary64.lt_of_isNaN (.inr (hbnan hbLast))
    -- Both are the deficit of the last skip.
    obtain rfl := List.inj_on_of_nodup_map nodup_firstIndexes_gather ha hb (by omega)
    exact Binary64.lt_self _
  refine orders_precedes (fun _ => 0) ?_ nodup_firstIndexes_gather
  intro a ha b hb
  simp [hlt a ha b hb]

end Weights

end Reclaim

/-- What is documented of raising counts to a power. A power of a number from one up is a
number that is not negative, and where the exponent is not a number, no power is one, but
perhaps the power of one. -/
structure PowerLaw (pow : Float → Float → Float) : Prop where
  nonneg : ∀ y, y.isNaN = false → ∀ n ≥ 1,
    Quantity.le Quantity.zero (pow (Quantity.ofNat n) y) = true
  isNaN : ∀ y, y.isNaN = true → ∀ n ≥ 2, (pow (Quantity.ofNat n) y).isNaN = true

section Powers
variable {K : Type} [Powers K]

/-- Whatever can go wrong in planning a cycle does not: the estimate moves between bounds that
are in order, the window ends at a count, and the deficits are sorted by a relation that orders
them. -/
structure Planning.Completes (c : Planning K) : Prop where
  bounds : Quantity.le c.before.capacity.policy.min c.before.capacity.policy.max = true
  window : Quantity.roundNat ((c.before.estimate c.input c.now).value
    * (c.before.estimate c.input c.now).policy.windowFactor) ≤ Quantity.maxCount
  sorts : Reclaim.Orders Reclaim.Deficit.precedes
    (Reclaim.gather c.before.config.reclaim.weigh c.plan.skipped)

def Reconciler.startFrom? (config : Config K) (value : Option K) : Option (Reconciler K) :=
  (start? config).map fun r => value.elim r r.withCapacity

/-- The start and all cycles after it complete. -/
def Config.Completes (config : Config K) (value : Option K)
    (cycles : List (Snapshot K × Millis)) : Prop :=
  ∃ r, Reconciler.startFrom? config value = some r ∧ ∀ c ∈ r.plannings cycles, c.Completes

end Powers

def Config.CompletesWith (pow : Float → Float → Float) (config : Config Float)
    (value : Option Float) (cycles : List (Snapshot Float × Millis)) : Prop :=
  @Config.Completes Float ⟨pow⟩ config value cycles

theorem PowerLaw.orders_gather {pow : Float → Float → Float} (hpow : PowerLaw pow)
    (policy : ReclaimPolicy Float) (skipped : List (SkippedJob Float)) :
    Reclaim.Orders Reclaim.Deficit.precedes
      (Reclaim.gather (@ReclaimPolicy.weigh Float ⟨pow⟩ policy) skipped) := by
  cases h : policy.weightExponent.isNaN with
  | false =>
    exact Reclaim.orders_gather_of_nonneg fun n hn =>
      Binary64.nonneg_iff.mpr (hpow.nonneg _ h n hn)
  | true => exact Reclaim.orders_gather_of_isNaN (hpow.isNaN _ h)

namespace Config

theorem isSome_startFrom? {K : Type} [Powers K] (config : Config K) (value : Option K) :
    (Reconciler.startFrom? config value).isSome = true ↔
      Quantity.le config.capacity.min config.capacity.max = true := by
  rw [Reconciler.startFrom?, Option.isSome_map, Reconciler.start?, Option.isSome_map,
    Capacity.start?, Capacity.startAt?]
  split
  · next h => exact iff_of_true rfl h
  · next h => exact iff_of_false Bool.false_ne_true h

/-- A run completes just if the bounds of the capacity are in order, whatever else the
configuration says, the value to start from is and the snapshots are. -/
theorem completesWith_iff {pow : Float → Float → Float} (hpow : PowerLaw pow)
    (config : Config Float) (value : Option Float) (cycles : List (Snapshot Float × Millis)) :
    config.CompletesWith pow value cycles ↔
      Quantity.le config.capacity.min config.capacity.max = true := by
  let _ : Powers Float := ⟨pow⟩
  rw [← isSome_startFrom? config value, Option.isSome_iff_exists]
  constructor
  · rintro ⟨r, hr, _⟩
    exact ⟨r, hr⟩
  · rintro ⟨r, hr⟩
    refine ⟨r, hr, fun c _ => ⟨c.before.capacity.bounds_ordered, Binary64.roundNat_le _, ?_⟩⟩
    exact hpow.orders_gather c.before.config.reclaim c.plan.skipped

def even : Config Float := { default with reclaim := ⟨0, 10000⟩ }

def zerothPower (_ y : Float) : Float := if y.isNaN then y else 1

theorem powerLaw_zerothPower : PowerLaw zerothPower where
  nonneg y hy n _ := by
    rw [zerothPower, hy, if_neg Bool.false_ne_true]
    decide +kernel
  isNaN y hy n _ := by
    rw [zerothPower, if_pos hy]
    exact hy

/-- Two algorithms have a job skipped, and both deficits weigh the same. -/
theorem completesWith_even : PowerLaw zerothPower ∧
    even.CompletesWith zerothPower (some 7) [(.cold, 1000), (.cold, 500)] := by
  refine ⟨powerLaw_zerothPower, ?_⟩
  exact (completesWith_iff powerLaw_zerothPower even (some 7) _).mpr (by decide +kernel)

/-- The least capacity is set to 60, above the greatest, which is left at its default. -/
theorem not_completes_highMin : ¬ ∀ (d : Document Float) (config : Config Float) (value : Float)
    (cycles : List (Snapshot Float × Millis)), (Codec.config true).read? d = some config →
      Quantity.isFinite value = true → config.Completes (some value) cycles := by
  intro hcompletes
  let d : Document Float := .object [("capacity", .object [("min", .real 60)])]
  have hread : ((Codec.config true).read? d).map (·.capacity) =
      some { defaultCapacity (K := Float) with min := 60 } := by decide +kernel
  obtain ⟨config, hconfig, hcapacity⟩ := Option.map_eq_some_iff.mp hread
  obtain ⟨r, hr, _⟩ := hcompletes d config 10 [] hconfig (by decide +kernel)
  have hbounds := (isSome_startFrom? config _).mp (Option.isSome_of_mem hr)
  rw [hcapacity] at hbounds
  revert hbounds
  decide +kernel

end Config

end WorkerFleet
