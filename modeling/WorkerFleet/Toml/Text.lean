import WorkerFleet.Text.Hex
import WorkerFleet.Toml.Table

/-!
# Space, strings and keys

The lexical part of TOML. Every function answers what it has read and the text that
follows, or nothing where the text is malformed.
-/

namespace WorkerFleet.Toml

def isSpace (c : Char) : Bool := c == ' ' || c == '\t'

def skipSpace (cs : List Char) : List Char := cs.dropWhile isSpace

/-- Any character that may stand in a line: no control character but the tab. -/
def isPlain (c : Char) : Bool := c == '\t' || (0x20 ≤ c.toNat && c.toNat ≠ 0x7F)

def newline? : List Char → Option (List Char)
  | '\n' :: rest => some rest
  | '\r' :: '\n' :: rest => some rest
  | _ => none

def skipComment : List Char → List Char
  | '#' :: rest => rest.dropWhile isPlain
  | rest => rest

def lineEnd? (cs : List Char) : Option (List Char) :=
  match skipComment (skipSpace cs) with
  | [] => some []
  | rest => newline? rest

/-- Skips space, newlines and comments; `inComment` where the text starts inside one. -/
def skipLines (inComment : Bool) : List Char → List Char
  | '\n' :: rest => skipLines false rest
  | '\r' :: '\n' :: rest => skipLines false rest
  | c :: rest =>
    if inComment then if isPlain c then skipLines true rest else c :: rest
    else if isSpace c then skipLines false rest
    else if c = '#' then skipLines true rest
    else c :: rest
  | [] => []

def escaped? : Char → Option Char
  | 'b' => some '\x08'
  | 't' => some '\t'
  | 'n' => some '\n'
  | 'f' => some '\x0c'
  | 'r' => some '\r'
  | '"' => some '"'
  | '\\' => some '\\'
  | _ => none

def scalar? (digits : List Char) : Option Char :=
  (Text.hexValue? digits).bind fun n => if n.isValidChar then some (Char.ofNat n) else none

def put (c : Char) (r : List Char × List Char) : List Char × List Char := (c :: r.1, r.2)

def basic? : List Char → Option (List Char × List Char)
  | [] => none
  | '"' :: rest => some ([], rest)
  | '\\' :: 'u' :: a :: b :: c :: d :: rest =>
    (scalar? [a, b, c, d]).bind fun x => (basic? rest).map (put x)
  | '\\' :: 'U' :: a :: b :: c :: d :: e :: f :: g :: h :: rest =>
    (scalar? [a, b, c, d, e, f, g, h]).bind fun x => (basic? rest).map (put x)
  | '\\' :: c :: rest => (escaped? c).bind fun x => (basic? rest).map (put x)
  | c :: rest => if isPlain c && c != '\\' then (basic? rest).map (put c) else none

def literal? (cs : List Char) : Option (List Char × List Char) :=
  match cs.dropWhile fun c => isPlain c && c != '\'' with
  | '\'' :: rest => some (cs.takeWhile fun c => isPlain c && c != '\'', rest)
  | _ => none

inductive Fold where
  | no
  /-- The backslash was read, but no newline yet. -/
  | started
  /-- The newline was read; space and newlines that follow do not count. -/
  | ended
deriving DecidableEq

/-- A string of several lines up to its closing quotes. Up to two quotes may stand directly
before these. -/
def basicLines? : Fold → List Char → Option (List Char × List Char)
  | _, [] => none
  | .started, '\r' :: '\n' :: rest => basicLines? .ended rest
  | .started, c :: rest =>
    if c = '\n' then basicLines? .ended rest
    else if isSpace c then basicLines? .started rest
    else none
  | _, '"' :: '"' :: '"' :: rest =>
    match rest with
    | '"' :: '"' :: rest => some (['"', '"'], rest)
    | '"' :: rest => some (['"'], rest)
    | rest => some ([], rest)
  | fold, '\r' :: '\n' :: rest =>
    if fold = .ended then basicLines? .ended rest else (basicLines? .no rest).map (put '\n')
  | _, '\\' :: 'u' :: a :: b :: c :: d :: rest =>
    (scalar? [a, b, c, d]).bind fun x => (basicLines? .no rest).map (put x)
  | _, '\\' :: 'U' :: a :: b :: c :: d :: e :: f :: g :: h :: rest =>
    (scalar? [a, b, c, d, e, f, g, h]).bind fun x => (basicLines? .no rest).map (put x)
  | _, '\\' :: c :: rest =>
    match escaped? c with
    | some x => (basicLines? .no rest).map (put x)
    | none => basicLines? .started (c :: rest)
  | fold, c :: rest =>
    if fold = .ended && (isSpace c || c == '\n') then basicLines? .ended rest
    else if c = '\n' || isPlain c && c != '\\' then (basicLines? .no rest).map (put c)
    else none

def literalLines? : List Char → Option (List Char × List Char)
  | [] => none
  | '\'' :: '\'' :: '\'' :: rest =>
    match rest with
    | '\'' :: '\'' :: rest => some (['\'', '\''], rest)
    | '\'' :: rest => some (['\''], rest)
    | rest => some ([], rest)
  | '\r' :: '\n' :: rest => (literalLines? rest).map (put '\n')
  | c :: rest => if c = '\n' || isPlain c then (literalLines? rest).map (put c) else none

def skipNewline (cs : List Char) : List Char := (newline? cs).getD cs

def string? : List Char → Option (String × List Char)
  | '"' :: '"' :: '"' :: rest => (basicLines? .no (skipNewline rest)).map ofChars
  | '\'' :: '\'' :: '\'' :: rest => (literalLines? (skipNewline rest)).map ofChars
  | '"' :: rest => (basic? rest).map ofChars
  | '\'' :: rest => (literal? rest).map ofChars
  | _ => none
where
  ofChars (r : List Char × List Char) : String × List Char := (String.ofList r.1, r.2)

def isBare (c : Char) : Bool := c.isAlphanum || c == '_' || c == '-'

def name? : List Char → Option (String × List Char)
  | '"' :: rest => (basic? rest).map fun (cs, rest) => (String.ofList cs, rest)
  | '\'' :: rest => (literal? rest).map fun (cs, rest) => (String.ofList cs, rest)
  | cs =>
    let bare := cs.takeWhile isBare
    if bare.isEmpty then none else some (String.ofList bare, cs.dropWhile isBare)

/-- A key of at most `limit` names with points between them, and space around each. -/
def key? : Nat → List Char → Option (Path × List Char)
  | 0, _ => none
  | limit + 1, cs =>
    (name? (skipSpace cs)).bind fun (name, rest) =>
      match skipSpace rest with
      | '.' :: rest =>
        (key? limit rest).map fun (path, rest) => (⟨name :: path.way, path.last⟩, rest)
      | rest => some (⟨[], name⟩, rest)

def maxNames : Nat := 79

end WorkerFleet.Toml
