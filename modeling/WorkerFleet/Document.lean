import WorkerFleet.NameMap
import WorkerFleet.Quantity

/-!
# Documents

The tree that a text in a data format stands for. Whole numbers keep their sign apart, so a
whole number and a real number with the same value stay different documents. A format itself is
no more than a way to print documents and a way to read texts.

An object may hold a member twice; what that means is left to those who read it.
-/

namespace WorkerFleet

inductive Document (K : Type) where
  | null
  | bool (b : Bool)
  | natural (n : Nat)
  /-- The whole number `-n`, for `n` above zero. -/
  | negative (n : Nat)
  | real (x : K)
  | string (s : String)
  | array (items : List (Document K))
  | object (members : List (String × Document K))
  /-- A well-formed text without a value, such as a number that is too large. Nothing can be
  read from it, but it may be passed over. -/
  | unreadable
deriving Inhabited

namespace Document
variable {K : Type}

def member? (name : String) : Document K → Option (Document K)
  | object members => (members.find? (·.1 == name)).map (·.2)
  | _ => none

end Document

structure TextFormat (K : Type) where
  print : Document K → String
  read? : String → Option (Document K)

end WorkerFleet
