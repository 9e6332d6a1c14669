import WorkerFleet.Document
import WorkerFleet.Job

/-!
# Writing JSON

Documents as JSON text, on one line or over several. Real numbers are written with the
fewest digits that read back, always with a point or an exponent; a document that cannot be
read is written as null.
-/

namespace WorkerFleet.Json

def escape (c : Char) : List Char :=
  match c with
  | '"' => ['\\', '"']
  | '\\' => ['\\', '\\']
  | '\x08' => ['\\', 'b']
  | '\x0c' => ['\\', 'f']
  | '\n' => ['\\', 'n']
  | '\r' => ['\\', 'r']
  | '\t' => ['\\', 't']
  | c =>
    if c.toNat < 0x20 then
      ['\\', 'u', '0', '0'] ++ Nat.toDigits 16 (c.toNat / 16) ++ Nat.toDigits 16 (c.toNat % 16)
    else [c]

def quote (s : String) : String :=
  String.ofList ('"' :: s.toList.flatMap escape ++ ['"'])

/-- Digits around a point where the number of places is small, else with an exponent. -/
def decimalText (d : Decimal) : List Char :=
  let ds := Decimal.digitText d.digits
  let leading : Int := ds.length + d.exponent
  if 0 ≤ d.exponent ∧ leading ≤ 16 then d.positional ++ ['.', '0']
  else if -5 < leading ∧ leading ≤ 16 then d.positional
  else
    let e := leading - 1
    let mark := if e < 0 then ['e', '-'] else ['e']
    match ds with
    | [c] => c :: mark ++ Nat.toDigits 10 e.natAbs
    | c :: rest => c :: '.' :: rest ++ mark ++ Nat.toDigits 10 e.natAbs
    | [] => []

/-- The text of a finite number; null for the others. -/
def realText (x : Float) : String :=
  if !x.isFinite then "null"
  else
    let sign := if x.toBits >>> 63 = 1 then ['-'] else []
    String.ofList
      (sign ++ decimalText (Decimal.shortest (Binary.ofBits x.toBits) .toEven))

mutual

def compact (real : Float → String) : Document Float → String
  | .null => "null"
  | .bool b => if b then "true" else "false"
  | .natural n => JobFactory.decimalText n
  | .negative n => "-" ++ JobFactory.decimalText n
  | .real x => real x
  | .string s => quote s
  | .array items => "[" ++ String.intercalate "," (compactItems real items) ++ "]"
  | .object members =>
    "\x7b" ++ String.intercalate "," (compactMembers real members) ++ "\x7d"
  | .unreadable => "null"

def compactItems (real : Float → String) : List (Document Float) → List String
  | [] => []
  | d :: rest => compact real d :: compactItems real rest

def compactMembers (real : Float → String) : List (String × Document Float) → List String
  | [] => []
  | (name, d) :: rest => (quote name ++ ":" ++ compact real d) :: compactMembers real rest

end

/-- Lines between brackets, two spaces deeper than the brackets. -/
def block (opening closing : String) (depth : Nat) (lines : List String) : String :=
  if lines.isEmpty then opening ++ closing
  else
    let margin (n : Nat) := "\n" ++ String.ofList (List.replicate (2 * n) ' ')
    opening ++ margin (depth + 1) ++ String.intercalate ("," ++ margin (depth + 1)) lines
      ++ margin depth ++ closing

mutual

def pretty (depth : Nat) : Document Float → String
  | .array items => block "[" "]" depth (prettyItems (depth + 1) items)
  | .object members => block "\x7b" "\x7d" depth (prettyMembers (depth + 1) members)
  | .null => "null"
  | .bool b => if b then "true" else "false"
  | .natural n => JobFactory.decimalText n
  | .negative n => "-" ++ JobFactory.decimalText n
  | .real x => realText x
  | .string s => quote s
  | .unreadable => "null"

def prettyItems (depth : Nat) : List (Document Float) → List String
  | [] => []
  | d :: rest => pretty depth d :: prettyItems depth rest

def prettyMembers (depth : Nat) : List (String × Document Float) → List String
  | [] => []
  | (name, d) :: rest => (quote name ++ ": " ++ pretty depth d) :: prettyMembers depth rest

end

def write (d : Document Float) : String := pretty 0 d

end WorkerFleet.Json
