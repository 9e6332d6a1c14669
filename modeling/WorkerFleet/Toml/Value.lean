import WorkerFleet.Toml.Number

/-!
# Values

Scalars, arrays in brackets and tables in braces, nested no deeper than a limit.
-/

namespace WorkerFleet.Toml

variable {K : Type}

def boolean? : List Char → Option (Document K × List Char)
  | 't' :: 'r' :: 'u' :: 'e' :: rest => some (.bool true, rest)
  | 'f' :: 'a' :: 'l' :: 's' :: 'e' :: rest => some (.bool false, rest)
  | _ => none

def assignment? (value? : List Char → Option (Document K × List Char)) (cs : List Char) :
    Option (Path × Document K × List Char) :=
  (key? maxNames cs).bind fun (path, rest) =>
    (after? '=' rest).bind fun rest =>
      (value? (skipSpace rest)).map fun (d, rest) => (path, d, rest)

/-- The items up to the closing bracket, at most `limit` of them. A comma may follow the
last one. -/
def items? (value? : List Char → Option (Document K × List Char)) :
    Nat → List Char → Option (List (Document K) × List Char)
  | 0, _ => none
  | limit + 1, cs =>
    match skipLines false cs with
    | ']' :: rest => some ([], rest)
    | cs =>
      (value? cs).bind fun (d, rest) =>
        match skipLines false rest with
        | ',' :: rest => (items? value? limit rest).map fun (ds, rest) => (d :: ds, rest)
        | ']' :: rest => some ([d], rest)
        | _ => none

def members? (value? : List Char → Option (Document K × List Char)) :
    Nat → Members K → List Char → Option (Members K × List Char)
  | 0, _, _ => none
  | limit + 1, members, cs =>
    (assignment? value? cs).bind fun (path, d, rest) =>
      (Members.assign? path d .stated members).bind fun members =>
        match skipSpace rest with
        | ',' :: rest => members? value? limit members rest
        | '\x7d' :: rest => some (members, rest)
        | _ => none

def braces? (value? : List Char → Option (Document K × List Char)) (cs : List Char) :
    Option (Members K × List Char) :=
  match skipSpace cs with
  | '\x7d' :: rest => some ([], rest)
  | cs => members? value? cs.length [] cs

variable [Quantity K]

def atom? (cs : List Char) : Option (Document K × List Char) :=
  match cs.head? with
  | none => none
  | some c =>
    if c = '"' ∨ c = '\'' then (string? cs).map fun (s, rest) => (.string s, rest)
    else if c = 't' ∨ c = 'f' then boolean? cs
    else numeric? cs

/-- A value in which at most `depth` brackets and braces are open at once. -/
def value? : Nat → List Char → Option (Document K × List Char)
  | depth, '[' :: rest =>
    match depth with
    | 0 => none
    | depth + 1 => (items? (value? depth) rest.length rest).map fun (ds, rest) => (.array ds, rest)
  | depth, '\x7b' :: rest =>
    match depth with
    | 0 => none
    | depth + 1 =>
      (braces? (value? depth) rest).map fun (ms, rest) => (.object (membersToDocument ms), rest)
  | _, cs => atom? cs

def maxDepth : Nat := 79

end WorkerFleet.Toml
