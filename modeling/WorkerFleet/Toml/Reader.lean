import WorkerFleet.Toml.Value

/-!
# Reading TOML

A text is a sequence of statements, one on a line. They are carried out in order on the
table of the whole text.
-/

namespace WorkerFleet.Toml

inductive Statement (K : Type) where
  | assign (path : Path) (value : Document K)
  /-- What follows belongs to the table at the path. -/
  | header (path : Path)
  /-- What follows belongs to one more table in the row at the path. -/
  | rowHeader (path : Path)

structure State (K : Type) where
  root : Members K
  /-- The names that lead to the table under the last header. -/
  current : List String

variable {K : Type}

namespace State

def empty : State K := ⟨[], []⟩

def step? (s : State K) : Statement K → Option (State K)
  | .assign path d =>
    (Members.alterAlong? .implied (Members.assign? path d) s.current .stated s.root).map
      fun root => { s with root }
  | .header path =>
    (Members.open? path s.root).map fun root => ⟨root, path.way ++ [path.last]⟩
  | .rowHeader path =>
    (Members.append? path s.root).map fun root => ⟨root, path.way ++ [path.last]⟩

end State

variable [Quantity K]

def statement? : List Char → Option (Statement K × List Char)
  | '[' :: '[' :: rest =>
    (key? maxNames rest).bind fun (path, rest) =>
      (after? ']' rest).bind fun rest => (after? ']' rest).map fun rest => (.rowHeader path, rest)
  | '[' :: rest =>
    (key? maxNames rest).bind fun (path, rest) =>
      (after? ']' rest).map fun rest => (.header path, rest)
  | cs => (assignment? (value? maxDepth) cs).map fun (path, d, rest) => (.assign path d, rest)

/-- The statements of a text with fewer than `limit` lines. -/
def statements? : Nat → List Char → Option (List (Statement K))
  | 0, _ => none
  | limit + 1, cs =>
    match skipSpace cs with
    | [] => some []
    | c :: rest =>
      if c = '#' ∨ c = '\n' ∨ c = '\r' then (lineEnd? (c :: rest)).bind (statements? limit)
      else
        (statement? (c :: rest)).bind fun (s, rest) =>
          (lineEnd? rest).bind fun rest => (statements? limit rest).map (s :: ·)

/-- A mark of the byte order may stand in front of a text. -/
def skipMark : List Char → List Char
  | '\ufeff' :: rest => rest
  | rest => rest

def read? (text : String) : Option (Document K) :=
  let cs := skipMark text.toList
  ((statements? (cs.length + 1) cs).bind fun ss => ss.foldlM State.step? .empty).map
    fun s => .object (membersToDocument s.root)

end WorkerFleet.Toml
