import WorkerFleet.Memory
import WorkerFleet.Toml.Text

/-!
# Numbers, dates and times

Whole numbers have 64 bits with a sign. Other numbers are rounded to nearest; one that is
too large is refused, unless it has a minus sign. A date or a time is checked and then stands
for a record without fields, since no setting is one.
-/

namespace WorkerFleet.Toml

/-- Digits, with single underscores between them. -/
def digitsFrom (isDigit : Char → Bool) : List Char → List Char × List Char
  | '_' :: c :: rest =>
    if isDigit c then digitsFrom isDigit (c :: rest) else ([], '_' :: c :: rest)
  | c :: rest => if isDigit c then put c (digitsFrom isDigit rest) else ([], c :: rest)
  | [] => ([], [])

def digits? (isDigit : Char → Bool) : List Char → Option (List Char × List Char)
  | c :: rest => if isDigit c then some (digitsFrom isDigit (c :: rest)) else none
  | [] => none

def fixed? (n : Nat) (cs : List Char) : Option (Nat × List Char) :=
  let ds := cs.take n
  if ds.length = n ∧ ds.all Char.isDigit then some (Memory.digitsValue ds, cs.drop n) else none

def after? (c : Char) : List Char → Option (List Char)
  | d :: rest => if d = c then some rest else none
  | [] => none

def isLeapYear (year : Nat) : Bool := year % 4 = 0 && (year % 100 ≠ 0 || year % 400 = 0)

def daysIn (year month : Nat) : Nat :=
  if month = 2 then if isLeapYear year then 29 else 28
  else if month = 4 ∨ month = 6 ∨ month = 9 ∨ month = 11 then 30
  else 31

def fieldBetween? (n low high : Nat) (cs : List Char) : Option (Nat × List Char) :=
  (fixed? n cs).bind fun r => if low ≤ r.1 ∧ r.1 ≤ high then some r else none

def clock? (cs : List Char) : Option (List Char) :=
  (fieldBetween? 2 0 23 cs).bind fun (_, rest) =>
    (after? ':' rest).bind fun rest => (fieldBetween? 2 0 59 rest).map (·.2)

def skipFraction : List Char → List Char
  | '.' :: c :: rest => if c.isDigit then rest.dropWhile Char.isDigit else '.' :: c :: rest
  | rest => rest

def time? (cs : List Char) : Option (List Char) :=
  (clock? cs).bind fun rest =>
    (after? ':' rest).bind fun rest => (fieldBetween? 2 0 60 rest).map fun r => skipFraction r.2

def skipOffset (cs : List Char) : List Char :=
  match cs with
  | 'Z' :: rest => rest
  | 'z' :: rest => rest
  | '+' :: rest => (clock? rest).getD cs
  | '-' :: rest => (clock? rest).getD cs
  | _ => cs

def skipTime (cs : List Char) : List Char :=
  match cs with
  | c :: rest =>
    if c = 'T' ∨ c = 't' ∨ c = ' ' then ((time? rest).map skipOffset).getD cs else cs
  | [] => []

def date? (cs : List Char) : Option (List Char) :=
  (fixed? 4 cs).bind fun (year, rest) =>
    (after? '-' rest).bind fun rest =>
      (fieldBetween? 2 1 12 rest).bind fun (month, rest) =>
        (after? '-' rest).bind fun rest =>
          (fieldBetween? 2 1 (daysIn year month) rest).map fun r => skipTime r.2

variable {K : Type}

def sign : List Char → Bool × List Char
  | '-' :: rest => (true, rest)
  | '+' :: rest => (false, rest)
  | rest => (false, rest)

/-- The digits in front of a point. No other digit follows a leading zero. -/
def whole? : List Char → Option (List Char × List Char)
  | '0' :: rest => some (['0'], rest)
  | cs => digits? Char.isDigit cs

def exponent? : List Char → Option (Option Int × List Char)
  | c :: rest =>
    if c = 'e' ∨ c = 'E' then
      let (isNegative, rest) := sign rest
      (digits? Char.isDigit rest).map fun (ds, rest) =>
        let n : Int := Memory.digitsValue ds
        (some (if isNegative then -n else n), rest)
    else some (none, c :: rest)
  | [] => some (none, [])

def fraction? : List Char → Option (Option (List Char) × List Char)
  | '.' :: rest => (digits? Char.isDigit rest).map fun (ds, rest) => (some ds, rest)
  | rest => some (none, rest)

def integer? (isNegative : Bool) (n : Nat) : Option (Document K) :=
  if isNegative then
    if n = 0 then some (.natural 0) else if n ≤ Nat.pow 2 63 then some (.negative n) else none
  else if n < Nat.pow 2 63 then some (.natural n) else none

def based? (base : Nat) (isDigit : Char → Bool) (cs : List Char) :
    Option (Document K × List Char) :=
  (digits? isDigit cs).bind fun (ds, rest) =>
    let n := ds.foldl (fun n c => base * n + (Text.hexDigit? c).getD 0) 0
    (integer? false n).map (·, rest)

variable [Quantity K]

def real? (isNegative : Bool) (digits : List Char) (exponent : Int) : Option (Document K) :=
  let x : K := Quantity.ofDecimal (Memory.digitsValue digits) exponent
  if isNegative then some (.real (-x)) else if Quantity.isFinite x then some (.real x) else none

def decimal? (isNegative : Bool) (cs : List Char) : Option (Document K × List Char) :=
  (whole? cs).bind fun (whole, rest) =>
    (fraction? rest).bind fun (fraction, rest) =>
      (exponent? rest).bind fun (exponent, rest) =>
        (if fraction = none ∧ exponent = none then
          integer? isNegative (Memory.digitsValue whole)
        else
          let places := fraction.getD []
          real? isNegative (whole ++ places) (exponent.getD 0 - places.length)).map (·, rest)

/-- A number that is not finite, or any other one, without its sign. -/
def unsigned? (isNegative : Bool) : List Char → Option (Document K × List Char)
  | 'i' :: 'n' :: 'f' :: rest =>
    let x : K := Quantity.ofNat 1 / Quantity.zero
    some (.real (if isNegative then -x else x), rest)
  | 'n' :: 'a' :: 'n' :: rest => some (.real (Quantity.zero / Quantity.zero), rest)
  | rest => decimal? isNegative rest

def number? : List Char → Option (Document K × List Char)
  | '0' :: 'x' :: rest => based? 16 Text.isHexDigit rest
  | '0' :: 'o' :: rest => based? 8 (fun c => '0' ≤ c && c ≤ '7') rest
  | '0' :: 'b' :: rest => based? 2 (fun c => c == '0' || c == '1') rest
  | cs => unsigned? (sign cs).1 (sign cs).2

/-- A date, a time or a number. -/
def numeric? (cs : List Char) : Option (Document K × List Char) :=
  match date? cs <|> time? cs with
  | some rest => some (.object [], rest)
  | none => number? cs

end WorkerFleet.Toml
