import WorkerFleet.Json.Token

/-!
# Reading JSON

Tokens are put together one by one; the containers that are still open wait on a stack, the
innermost first. So a text may be nested to any depth.
-/

namespace WorkerFleet.Json

/-- An open container, its items or members in reverse. -/
inductive Frame (K : Type) where
  | array (done : List (Document K))
  /-- The value of `key` is still to come. -/
  | object (done : List (Option String × Document K)) (key : Option String)

/-- Where a text stands after some tokens. -/
inductive State (K : Type) where
  /-- A value comes next; `first` where the array just opened may close instead. -/
  | value (first : Bool) (stack : List (Frame K))
  /-- A key comes next; `first` where the object just opened may close instead. -/
  | key (first : Bool) (done : List (Option String × Document K)) (stack : List (Frame K))
  | colon (done : List (Option String × Document K)) (key : Option String)
    (stack : List (Frame K))
  /-- A value is complete. -/
  | complete (d : Document K) (stack : List (Frame K))

/-- An object whose members all have readable keys. -/
def objectOf {K : Type} (members : List (Option String × Document K)) : Document K :=
  match members.mapM fun m => m.1.map (·, m.2) with
  | some members => .object members
  | none => .unreadable

def stringOf {K : Type} : Option String → Document K
  | some s => .string s
  | none => .unreadable

namespace State
variable {K : Type}

def step? : State K → Token K → Option (State K)
  | value _ stack, .openArray => some (value true (.array [] :: stack))
  | value _ stack, .openObject => some (key true [] stack)
  | value _ stack, .scalar d => some (complete d stack)
  | value _ stack, .string s => some (complete (stringOf s) stack)
  | value true (.array [] :: stack), .closeArray => some (complete (.array []) stack)
  | key _ done stack, .string s => some (colon done s stack)
  | key true [] stack, .closeObject => some (complete (.object []) stack)
  | colon done k stack, .colon => some (value false (.object done k :: stack))
  | complete d (.array done :: stack), .comma => some (value false (.array (d :: done) :: stack))
  | complete d (.array done :: stack), .closeArray =>
    some (complete (.array (d :: done).reverse) stack)
  | complete d (.object done k :: stack), .comma => some (key false ((k, d) :: done) stack)
  | complete d (.object done k :: stack), .closeObject =>
    some (complete (objectOf ((k, d) :: done).reverse) stack)
  | _, _ => none

def result? : State K → Option (Document K)
  | complete d [] => some d
  | _ => none

end State

def ofTokens? {K : Type} (ts : List (Token K)) : Option (Document K) :=
  (ts.foldlM State.step? (.value false [])).bind State.result?

def read? {K : Type} [Quantity K] (text : String) : Option (Document K) :=
  (tokens? text.toList).bind ofTokens?

end WorkerFleet.Json
