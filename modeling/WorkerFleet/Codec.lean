import WorkerFleet.Document
import WorkerFleet.Template

/-!
# Codecs

A codec says how values of one type are written as documents and read back. Reading accepts
more than writing produces; what a codec writes it reads back, save that an amount that is
not finite is written as null.
-/

namespace WorkerFleet

structure Codec (K α : Type) where
  write : α → Document K
  read? : Document K → Option α

namespace Codec
variable {K α β : Type}

/-- What is written reads back as the same value. -/
def Faithful (c : Codec K α) (value : α) : Prop := c.read? (c.write value) = some value

def text : Codec K String where
  write := .string
  read?
    | .string s => some s
    | _ => none

def flag : Codec K Bool where
  write := .bool
  read?
    | .bool b => some b
    | _ => none

def countBelow (bound : Nat) : Codec K Nat where
  write := .natural
  read?
    | .natural n => if n < bound then some n else none
    | _ => none

def count32 : Codec K Nat := countBelow (Nat.pow 2 32)

def count64 : Codec K Nat := countBelow (Nat.pow 2 64)

def word32 : Codec K UInt32 where
  write n := .natural n.toNat
  read? d := (count32.read? d).map UInt32.ofNat

def millis : Codec K Millis where
  write n := .natural n.toNat
  read? d := (count64.read? d).map UInt64.ofNat

/-- Whole numbers are read as amounts too. -/
def amount [Quantity K] : Codec K K where
  write x := if Quantity.isFinite x then .real x else .null
  read?
    | .real x => some x
    | .natural n => some (Quantity.ofNat n)
    | .negative n => some (-Quantity.ofNat n)
    | _ => none

/-- No value is null. -/
def option (c : Codec K α) : Codec K (Option α) where
  write
    | none => .null
    | some x => c.write x
  read?
    | .null => some none
    | d => (c.read? d).map some

def list (c : Codec K α) : Codec K (List α) where
  write xs := .array (xs.map c.write)
  read?
    | .array items => items.mapM c.read?
    | _ => none

/-- Of members with one name the last is read. -/
def nameMap (c : Codec K α) : Codec K (NameMap α) where
  write m := .object (m.entries.map fun e => (e.1, c.write e.2))
  read?
    | .object members =>
      (members.mapM fun e => (c.read? e.2).map (e.1, ·)).map NameMap.ofList
    | _ => none

end Codec

end WorkerFleet
