import WorkerFleet.Resources
import WorkerFleet.Text.Blank
import WorkerFleet.Decimal.Shortest

/-!
# Memory quantities as text

A memory quantity is written as a plain decimal followed directly by a unit, `0.5Gi`.
`Memory.parse` reads it into MiB.
-/

namespace WorkerFleet

inductive ResourceError (K : Type) where
  | invalidMemory (text : String)
  | invalidRequest (dimension : Dimension) (value : K)
deriving DecidableEq, Repr

def ResourceError.message : ResourceError Float → String
  | invalidMemory text => "invalid memory quantity: " ++ text
  | invalidRequest dimension value =>
    "invalid " ++ dimension.name ++ " request: " ++ positionalText value

namespace Memory

inductive MemoryUnit where
  | byte
  | kibi
  | mebi
  | gibi
  | tebi
  | kilo
  | mega
  | giga
  | tera
deriving DecidableEq, Repr

def MemoryUnit.bytes : MemoryUnit → Nat
  | byte => 1
  | kibi => Nat.pow 2 10
  | mebi => Nat.pow 2 20
  | gibi => Nat.pow 2 30
  | tebi => Nat.pow 2 40
  | kilo => Nat.pow 10 3
  | mega => Nat.pow 10 6
  | giga => Nat.pow 10 9
  | tera => Nat.pow 10 12

def MemoryUnit.ofSuffix? : List Char → Option MemoryUnit
  | [] => some byte
  | ['K', 'i'] => some kibi
  | ['M', 'i'] => some mebi
  | ['G', 'i'] => some gibi
  | ['T', 'i'] => some tebi
  | ['K'] => some kilo
  | ['k'] => some kilo
  | ['M'] => some mega
  | ['G'] => some giga
  | ['T'] => some tera
  | _ => none

def isNumberChar (c : Char) : Bool := c.isDigit || c == '.'

def digitsValue (cs : List Char) : Nat :=
  cs.foldl (fun n c => 10 * n + (c.toNat - '0'.toNat)) 0

/-- Reads digits with at most one point among them and at least one digit: `12`, `.5`,
`5.`. -/
def plainDecimal? (cs : List Char) : Option Decimal :=
  let whole := cs.takeWhile Char.isDigit
  let fraction := (cs.dropWhile Char.isDigit).drop 1
  if fraction.all Char.isDigit && (whole ++ fraction) ≠ [] then
    some ⟨digitsValue (whole ++ fraction), -(fraction.length : Int)⟩
  else none

/-- Reads a memory quantity, blanks around it aside, into MiB. -/
def parse {K : Type} [Quantity K] (text : String) : Except (ResourceError K) K :=
  let cs := Text.trim text.toList
  match plainDecimal? (cs.takeWhile isNumberChar),
      MemoryUnit.ofSuffix? (cs.dropWhile isNumberChar) with
  | some number, some unit =>
    .ok (Quantity.ofDecimal number.digits number.exponent * Quantity.ofNat unit.bytes
      / Quantity.ofNat MemoryUnit.mebi.bytes)
  | _, _ => .error (.invalidMemory (String.ofList cs))

end Memory

end WorkerFleet
