import WorkerFleet.Config

/-!
# Capacity

An exponentially smoothed estimate of how many workers to aim for, kept inside the
interval that the policy gives.

`Capacity.start?` refuses a policy whose bounds are not in order, so every estimate carries
a proof that they are.
-/

namespace WorkerFleet

structure Capacity (K : Type) [Quantity K] where
  policy : CapacityPolicy K
  value : K
  bounds_ordered : Quantity.le policy.min policy.max = true

namespace Capacity
variable {K : Type} [Quantity K]

/-- Starts at `value`, moved into the policy's bounds. -/
def startAt? (policy : CapacityPolicy K) (value : K) : Option (Capacity K) :=
  if h : Quantity.le policy.min policy.max = true then
    some ⟨policy, Quantity.clamp policy.min policy.max value, h⟩
  else none

def start? (policy : CapacityPolicy K) : Option (Capacity K) := startAt? policy policy.seed

def restartAt (c : Capacity K) (value : K) : Capacity K :=
  { c with value := Quantity.clamp c.policy.min c.policy.max value }

def update (c : Capacity K) (observed : Nat) : Capacity K :=
  let alpha := c.policy.alpha
  let next := c.value * alpha + Quantity.ofNat observed * (Quantity.ofNat 1 - alpha)
  { c with value := Quantity.clamp c.policy.min c.policy.max next }

end Capacity

end WorkerFleet
