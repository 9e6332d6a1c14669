import WorkerFleet.Ledger
import WorkerFleet.Proofs.Sample

/-!
# What the ledger keeps

Whatever is recorded and whenever entries are expired, an entry is in the ledger as long as it
was young enough at every expiry since it was recorded. The clock may go back: an entry that an
expiry left alone has age zero at a time before its creation, and one that was removed does not
come back. The entries stand in the order in which they were recorded.
-/

namespace WorkerFleet

namespace Ledger
variable {K : Type}

inductive Operation (K : Type) where
  | record (created : List (PlacedJob K)) (now : Millis)
  | expire (now : Millis)

def perform (ledger : Ledger) : Operation K → Ledger
  | .record created now => ledger.record created now
  | .expire now => ledger.expire now

/-- The ledger after the operations, the first of them done first. -/
def performAll (ledger : Ledger) (ops : List (Operation K)) : Ledger := ops.foldl perform ledger

def expiryTimes (ops : List (Operation K)) : List Millis :=
  ops.filterMap fun
    | .record _ _ => none
    | .expire now => some now

/-- Every entry recorded by the operations, with the times of the expiries after it. -/
def recorded : List (Operation K) → List (LedgerEntry × List Millis)
  | [] => []
  | .record created now :: later =>
    created.map (fun job => (entryOf now job, expiryTimes later)) ++ recorded later
  | .expire _ :: later => recorded later

/-- Every entry that the ledger holds or the operations record, in this order, with the times of
the expiries after it. -/
def history (ledger : Ledger) (ops : List (Operation K)) : List (LedgerEntry × List Millis) :=
  ledger.entries.map (fun e => (e, expiryTimes ops)) ++ recorded ops

/-- At each of the times the entry is younger than the time to live. -/
def Outlives (ttl : Millis) (e : LedgerEntry) (times : List Millis) : Prop :=
  ∀ now ∈ times, Millis.since now e.createdAt < ttl.toNat

instance (ttl : Millis) (e : LedgerEntry) (times : List Millis) :
    Decidable (Outlives ttl e times) :=
  inferInstanceAs (Decidable (∀ now ∈ times, Millis.since now e.createdAt < ttl.toNat))

def outliving (ttl : Millis) (entries : List (LedgerEntry × List Millis)) : List LedgerEntry :=
  (entries.filter fun e => Outlives ttl e.1 e.2).map (·.1)

@[simp] theorem outliving_append (ttl : Millis) (xs ys : List (LedgerEntry × List Millis)) :
    outliving ttl (xs ++ ys) = outliving ttl xs ++ outliving ttl ys := by
  rw [outliving, List.filter_append, List.map_append, outliving, outliving]

theorem outliving_map (ttl : Millis) (times : List Millis) (es : List LedgerEntry) :
    outliving ttl (es.map fun e => (e, times)) = es.filter fun e => Outlives ttl e times := by
  simp only [outliving, List.filter_map, List.map_map, Function.comp_def, List.map_id']

theorem outliving_map_nil (ttl : Millis) (es : List LedgerEntry) :
    outliving ttl (es.map fun e => (e, [])) = es := by
  rw [outliving_map]
  exact List.filter_eq_self.mpr fun _ _ => decide_eq_true fun _ hnow => nomatch hnow

theorem outliving_map_cons (ledger : Ledger) (now : Millis) (times : List Millis) :
    outliving ledger.ttl (ledger.entries.map fun e => (e, now :: times)) =
      outliving ledger.ttl ((ledger.expire now).entries.map fun e => (e, times)) := by
  rw [outliving_map, outliving_map, expire, List.filter_filter]
  refine List.filter_congr fun e _ => ?_
  have hcons : Outlives ledger.ttl e (now :: times) ↔
      Millis.since now e.createdAt < ledger.ttl.toNat ∧ Outlives ledger.ttl e times :=
    List.forall_mem_cons
  rw [Bool.eq_iff_iff, Bool.and_eq_true, decide_eq_true_iff, decide_eq_true_iff, hcons, and_comm,
    isFresh, decide_eq_true_iff]

@[simp] theorem ttl_perform (ledger : Ledger) (op : Operation K) :
    (ledger.perform op).ttl = ledger.ttl := by
  cases op <;> rfl

@[simp] theorem ttl_performAll (ledger : Ledger) (ops : List (Operation K)) :
    (ledger.performAll ops).ttl = ledger.ttl := by
  induction ops generalizing ledger with
  | nil => rfl
  | cons op ops ih => exact (ih (ledger.perform op)).trans (ledger.ttl_perform op)

/-- An operation only moves the line between what is held and what is still to be recorded. -/
theorem outliving_history_perform (ledger : Ledger) (op : Operation K)
    (later : List (Operation K)) :
    outliving ledger.ttl ((ledger.perform op).history later) =
      outliving ledger.ttl (ledger.history (op :: later)) := by
  cases op with
  | record created now =>
    have htimes : expiryTimes (.record created now :: later) = expiryTimes later := rfl
    rw [history, history, htimes, perform, record, List.map_append, List.map_map, recorded,
      List.append_assoc]
    rfl
  | expire now =>
    have htimes : expiryTimes (.expire now :: later) = now :: expiryTimes later := rfl
    rw [history, history, htimes, recorded, outliving_append, outliving_append,
      outliving_map_cons, perform]

-- From the front: the whole history stays as it is, and ends up in the ledger.
theorem entries_performAll (ledger : Ledger) (ops : List (Operation K)) :
    (ledger.performAll ops).entries = outliving ledger.ttl (ledger.history ops) := by
  induction ops generalizing ledger with
  | nil =>
    rw [history, recorded, List.append_nil]
    exact (outliving_map_nil ledger.ttl ledger.entries).symm
  | cons op later ih =>
    have hstep := ih (ledger.perform op)
    rw [ttl_perform, outliving_history_perform] at hstep
    exact hstep

theorem expired_eq_countP (ledger : Ledger) (now : Millis) :
    ledger.expired now =
      ledger.entries.countP fun e => ledger.ttl.toNat ≤ Millis.since now e.createdAt := by
  have hold : ∀ e ∈ ledger.entries, decide (ledger.isFresh now e = false) = true ↔
      decide (ledger.ttl.toNat ≤ Millis.since now e.createdAt) = true := by
    intro e _
    rw [isFresh, decide_eq_true_iff, decide_eq_true_iff, decide_eq_false_iff_not, Nat.not_lt]
  have hsplit := List.length_eq_countP_add_countP (ledger.isFresh now) (l := ledger.entries)
  rw [expired, expire, ← List.countP_eq_length_filter, ← List.countP_congr hold]
  simp only [Bool.not_eq_true] at hsplit
  omega

/-- What a ledger holds after operations, and what each expiry among them did. -/
structure Retains (ledger : Ledger) (ops : List (Operation K)) : Prop where
  entries : (ledger.performAll ops).entries =
    ((ledger.history ops).filter fun e => Outlives ledger.ttl e.1 e.2).map (·.1)
  removed : ∀ before now after, ops = before ++ .expire now :: after →
    (ledger.performAll before).expired now = (ledger.performAll before).entries.countP fun e =>
      ledger.ttl.toNat ≤ Millis.since now e.createdAt
  left : ∀ before now after, ops = before ++ .expire now :: after →
    (ledger.performAll (before ++ [.expire now])).entries =
      (ledger.performAll before).entries.filter fun e =>
        Millis.since now e.createdAt < ledger.ttl.toNat
  young : ∀ before now, ops = before ++ [.expire now] →
    ∀ e ∈ (ledger.performAll ops).entries, Millis.since now e.createdAt < ledger.ttl.toNat

-- The clock goes back before the entry is old enough.
example : ((empty 1000).performAll (K := Rat)
    [.record [⟨.sample "a" Resources.zero, "node"⟩] 500, .expire 100, .expire 1499]).entries =
      [⟨"a", "a", 500⟩] := by
  decide

end Ledger

end WorkerFleet
