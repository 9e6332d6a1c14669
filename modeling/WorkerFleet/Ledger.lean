import WorkerFleet.Placement

/-!
# Ledger of created jobs

A job that was just created takes a while to be listed by the cluster. Until then, and for
no longer than the ledger's time to live, its entry counts as supply.
-/

namespace WorkerFleet

structure LedgerEntry where
  jobName : String
  algorithm : String
  createdAt : Millis
deriving DecidableEq, Repr

structure Ledger where
  entries : List LedgerEntry
  ttl : Millis
deriving DecidableEq, Repr

namespace Ledger
variable {K : Type}

def empty (ttl : Millis) : Ledger := ⟨[], ttl⟩

/-- Entries younger than the time to live. -/
def isFresh (ledger : Ledger) (now : Millis) (e : LedgerEntry) : Bool :=
  Millis.since now e.createdAt < ledger.ttl.toNat

def expire (ledger : Ledger) (now : Millis) : Ledger :=
  { ledger with entries := ledger.entries.filter (ledger.isFresh now) }

def expired (ledger : Ledger) (now : Millis) : Nat :=
  ledger.entries.length - (ledger.expire now).entries.length

def entryOf (now : Millis) (job : PlacedJob K) : LedgerEntry :=
  ⟨job.spec.name, job.spec.algorithm, now⟩

def record (ledger : Ledger) (created : List (PlacedJob K)) (now : Millis) : Ledger :=
  { ledger with entries := ledger.entries ++ created.map (entryOf now) }

end Ledger

end WorkerFleet
