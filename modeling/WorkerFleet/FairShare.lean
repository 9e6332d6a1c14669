import WorkerFleet.Template

/-!
# Fair share

The head of the backlog is cut so that each algorithm gets at most its share of the
capacity. Requests are taken in order; a request that is cut waits for a later cycle.
-/

namespace WorkerFleet

structure Share (K : Type) where
  count : Nat
  /-- Its part of the window. -/
  ratio : K
  /-- Its part of the capacity; requests are admitted until this is reached. -/
  required : K
  admitted : Nat
deriving DecidableEq, Repr

structure FairCut (K : Type) where
  /-- What is admitted, in the order of the window. -/
  admitted : List Request
  dropped : Nat
  shares : NameMap (Share K)
deriving DecidableEq

namespace FairShare
variable {K : Type} [Quantity K]

/-- The head of the backlog: `factor` times the capacity, to the nearest count. -/
def window (backlog : List Request) (capacity factor : K) : List Request :=
  backlog.take (Quantity.roundNat (capacity * factor))

def tally (requests : List Request) : NameMap Nat :=
  requests.foldl (fun counts r => counts.upsert r.algorithm fun n => n.getD 0 + 1) .empty

def shares (requests : List Request) (capacity : K) : NameMap (Share K) :=
  (tally requests).map fun count =>
    let ratio : K := Quantity.ofNat count / Quantity.ofNat requests.length
    ⟨count, ratio, ratio * capacity, 0⟩

def Share.hasRoom (s : Share K) : Bool := Quantity.lt (Quantity.ofNat s.admitted) s.required

/-- Admits each request for which its algorithm's share has room. -/
def fill (shares : NameMap (Share K)) : List Request → List Request × NameMap (Share K)
  | [] => ([], shares)
  | r :: rest =>
    match shares.get? r.algorithm with
    | none => fill shares rest
    | some s =>
      if Share.hasRoom s then
        let (admitted, shares) :=
          fill (shares.insert r.algorithm { s with admitted := s.admitted + 1 }) rest
        (r :: admitted, shares)
      else fill shares rest

def cut (requests : List Request) (capacity : K) : FairCut K :=
  let (admitted, shares) := fill (shares requests capacity) requests
  ⟨admitted, requests.length - admitted.length, shares⟩

end FairShare

end WorkerFleet
