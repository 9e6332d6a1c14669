import WorkerFleet.Codec

/-!
# Records

A record is written as an object with one member for each field, and read from an object or
from an array of the fields in their order. `Fields` describes the fields one after the
other, once for writing and reading.

Members that are no field are passed over; a field that occurs twice is refused.
-/

namespace WorkerFleet

/-- Describes fields of a record `ρ`, from which an `α` is read. A slot is what a document
holds for one field, if anything. -/
structure Fields (K ρ α : Type) where
  names : List String
  write : ρ → List (Document K)
  /-- Reads from the first slots and answers the others. The flag tells that the slots come
  from an array. -/
  read? : Bool → List (Option (Document K)) → Option (α × List (Option (Document K)))

namespace Fields
variable {K ρ α β : Type}

instance : Applicative (Fields K ρ) where
  pure a := ⟨[], fun _ => [], fun _ slots => some (a, slots)⟩
  seq f x := {
    names := f.names ++ (x ()).names
    write := fun r => f.write r ++ (x ()).write r
    read? := fun positional slots =>
      (f.read? positional slots).bind fun (g, slots) =>
        ((x ()).read? positional slots).map fun (a, slots) => (g a, slots) }

/-- A field; `missing` is its value where a document holds nothing for it. -/
def field (name : String) (missing : Bool → Option α) (c : Codec K α) (get : ρ → α) :
    Fields K ρ α where
  names := [name]
  write r := [c.write (get r)]
  read? positional
    | some d :: slots => (c.read? d).map (·, slots)
    | none :: slots => (missing positional).map (·, slots)
    | [] => none

def required (name : String) (c : Codec K α) (get : ρ → α) : Fields K ρ α :=
  field name (fun _ => none) c get

/-- A value that an object may leave out, but not an array. -/
def optional (name : String) (c : Codec K α) (get : ρ → Option α) : Fields K ρ (Option α) :=
  field name (fun positional => if positional then none else some none) (.option c) get

def defaulted (name : String) (value : α) (c : Codec K α) (get : ρ → α) : Fields K ρ α :=
  field name (fun _ => some value) c get

/-- What the document holds for each name. A `loose` reader takes arrays with more items
than there are fields. -/
def slots? (loose : Bool) (names : List String) :
    Document K → Option (Bool × List (Option (Document K)))
  | .object members =>
    if names.all fun name => members.countP (·.1 == name) ≤ 1 then
      some (false, names.map fun name => (members.find? (·.1 == name)).map (·.2))
    else none
  | .array items =>
    if loose || items.length ≤ names.length then
      some (true, (List.range names.length).map fun i => items[i]?)
    else none
  | _ => none

def codecWith (loose : Bool) (f : Fields K ρ ρ) : Codec K ρ where
  write r := .object (f.names.zip (f.write r))
  read? d :=
    (slots? loose f.names d).bind fun (positional, slots) =>
      (f.read? positional slots).map (·.1)

def codec (f : Fields K ρ ρ) : Codec K ρ := f.codecWith false

end Fields

end WorkerFleet
