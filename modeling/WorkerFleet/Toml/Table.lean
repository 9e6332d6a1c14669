import WorkerFleet.Document

/-!
# Tables

A TOML text builds one tree of tables, statement by statement. What may be added to a table
depends on how the table came about, so each remembers its origin. A name is given once: no
statement replaces what an earlier one has put there.
-/

namespace WorkerFleet.Toml

inductive Origin where
  /-- By a header of its own, or in braces. -/
  | stated
  /-- On the way to a table with a header. -/
  | implied
  /-- On the way of a dotted key. -/
  | dotted
deriving DecidableEq, Repr

inductive Item (K : Type) where
  | value (d : Document K)
  | table (origin : Origin) (members : List (String × Item K))
  /-- Tables in a row, the latest apart and the earlier ones in reverse. -/
  | tables (latest : List (String × Item K)) (earlier : List (List (String × Item K)))

abbrev Members (K : Type) := List (String × Item K)

/-- Where the text names a table or a value: the names on the way, and the last one. -/
structure Path where
  way : List String
  last : String
deriving DecidableEq, Repr

variable {K : Type}

mutual

def Item.toDocument : Item K → Document K
  | .value d => d
  | .table _ members => .object (membersToDocument members)
  | .tables latest earlier => .array (rowToDocument earlier [.object (membersToDocument latest)])

def membersToDocument : List (String × Item K) → List (String × Document K)
  | [] => []
  | (name, item) :: rest => (name, item.toDocument) :: membersToDocument rest

def rowToDocument : List (List (String × Item K)) → List (Document K) → List (Document K)
  | [], later => later
  | members :: rest, later => rowToDocument rest (.object (membersToDocument members) :: later)

end

namespace Members

def alter? (name : String) (f : Option (Item K) → Option (Item K)) :
    Members K → Option (Members K)
  | [] => (f none).map fun item => [(name, item)]
  | (k, item) :: rest =>
    if k = name then (f (some item)).map fun item => (k, item) :: rest
    else (alter? name f rest).map ((k, item) :: ·)

/-- Changes the table at the end of the way `names`. Tables that are missing there come
about as `new`; a dotted way leads into no stated table, and none leads into a value. -/
def alterAlong? (new : Origin) (change : Origin → Members K → Option (Members K)) :
    List String → Origin → Members K → Option (Members K)
  | [], origin, members => change origin members
  | name :: names, _, members => alter? name (fun item =>
      match item with
      | none => (alterAlong? new change names new []).map (.table new ·)
      | some (.table origin inner) =>
        if new = .dotted ∧ origin = .stated then none
        else (alterAlong? new change names origin inner).map (.table origin ·)
      | some (.tables latest earlier) =>
        (alterAlong? new change names .stated latest).map (.tables · earlier)
      | some (.value _) => none) members

def assign? (path : Path) (d : Document K) : Origin → Members K → Option (Members K) :=
  alterAlong? .dotted (fun origin members =>
    if path.way.isEmpty || origin = .dotted then
      alter? path.last (fun item => if item.isNone then some (.value d) else none) members
    else none) path.way

/-- Opens the table of a header. A table that so far was only implied may be stated once. -/
def open? (path : Path) : Members K → Option (Members K) :=
  alterAlong? .implied (fun _ => alter? path.last fun item =>
    match item with
    | none => some (.table .stated [])
    | some (.table .implied members) => some (.table .stated members)
    | _ => none) path.way .stated

def append? (path : Path) : Members K → Option (Members K) :=
  alterAlong? .implied (fun _ => alter? path.last fun item =>
    match item with
    | none => some (.tables [] [])
    | some (.tables latest earlier) => some (.tables [] (latest :: earlier))
    | _ => none) path.way .stated

end Members

end WorkerFleet.Toml
