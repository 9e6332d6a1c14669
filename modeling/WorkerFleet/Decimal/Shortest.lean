/-!
# Shortest decimals

A binary64 number is written with the fewest digits that read back as the same number.
The digits are searched in exact arithmetic: a decimal reads back when it lies in the
interval of reals that round to the number, and on each grid of decimals only the number's
two neighbours need to be tried.

This module does NOT supply layout; `Decimal.positional` and the printers do that.
-/

namespace WorkerFleet

structure Decimal where
  digits : Nat
  exponent : Int
deriving DecidableEq, Repr

inductive Tie where
  | toEven
  | up

/-- The finite number `m · 2 ^ q`; `narrowBelow` where the gap below it is half the gap
above. -/
structure Binary where
  m : Nat
  q : Int
  narrowBelow : Bool

namespace Binary

def ofBits (b : UInt64) : Binary :=
  let e := ((b >>> 52) &&& 0x7FF).toNat
  let f := (b &&& 0xFFFFFFFFFFFFF).toNat
  if e = 0 then ⟨f, -1074, false⟩ else ⟨Nat.pow 2 52 + f, (e : Int) - 1075, f = 0 && 1 < e⟩

/-- A quarter of the distance between neighbours above, as a fraction, is the unit in which
the ends of the interval are whole. -/
def unit (x : Binary) : Nat × Nat :=
  if x.q ≥ 2 then (Nat.pow 2 (x.q - 2).toNat, 1) else (1, Nat.pow 2 (2 - x.q).toNat)

/-- `4 · m` units over one step of the grid `10 ^ e`: the number as a fraction of grid
steps is `4 · m · num / den`. -/
def grid (x : Binary) (e : Int) : Nat × Nat :=
  let (num, den) := x.unit
  if e ≥ 0 then (num, den * Nat.pow 10 e.toNat) else (num * Nat.pow 10 (-e).toNat, den)

def readsBack (x : Binary) (d : Nat) (e : Int) : Bool :=
  let (num, den) := x.grid e
  let low := if x.narrowBelow then 4 * x.m - 1 else 4 * x.m - 2
  let high := 4 * x.m + 2
  if x.m % 2 = 0 then low * num ≤ d * den && d * den ≤ high * num
  else low * num < d * den && d * den < high * num

def leading (x : Binary) : Int :=
  let (num, den) := x.unit
  let n := 4 * x.m * num
  if n ≥ den then ((Nat.toDigits 10 (n / den)).length : Int) - 1
  else -((Nat.toDigits 10 ((den + n - 1) / n - 1)).length : Int)

def neighbour? (x : Binary) (tie : Tie) (e : Int) : Option Decimal :=
  let (num, den) := x.grid e
  let n := 4 * x.m * num
  let below := n / den
  match x.readsBack below e, x.readsBack (below + 1) e with
  | false, false => none
  | true, false => some ⟨below, e⟩
  | false, true => some ⟨below + 1, e⟩
  | true, true =>
    match compare (2 * n) ((2 * below + 1) * den), tie with
    | .lt, _ => some ⟨below, e⟩
    | .gt, _ => some ⟨below + 1, e⟩
    | .eq, .up => some ⟨below + 1, e⟩
    | .eq, .toEven => some ⟨if below % 2 = 0 then below else below + 1, e⟩

end Binary

namespace Decimal

def strip : Nat → Decimal → Decimal
  | 0, d => d
  | fuel + 1, d =>
    if d.digits ≠ 0 && d.digits % 10 = 0 then strip fuel ⟨d.digits / 10, d.exponent + 1⟩ else d

/-- The shortest decimal that reads back as `x`, on grids of one to seventeen digits. -/
def shortest (x : Binary) (tie : Tie) : Decimal :=
  if x.m = 0 then ⟨0, 0⟩
  else
    let top := x.leading
    let first := (List.range 17).findSome? fun (n : Nat) => x.neighbour? tie (top - n)
    strip 17 (first.getD ⟨x.m * Nat.pow 2 x.q.toNat * Nat.pow 5 (-x.q).toNat, min x.q 0⟩)

def digitText (n : Nat) : List Char := Nat.toDigits 10 n

def positional (d : Decimal) : List Char :=
  let ds := digitText d.digits
  if d.exponent ≥ 0 then ds ++ List.replicate d.exponent.toNat '0'
  else
    let places := (-d.exponent).toNat
    if ds.length > places then ds.take (ds.length - places) ++ '.' :: ds.drop (ds.length - places)
    else '0' :: '.' :: (List.replicate (places - ds.length) '0' ++ ds)

end Decimal

def positionalText (x : Float) : String :=
  if x.isNaN then "NaN"
  else
    let sign := if x.toBits >>> 63 = 1 then ['-'] else []
    let size := if x.isInf then ['i', 'n', 'f']
      else (Decimal.shortest (Binary.ofBits x.toBits) .up).positional
    String.ofList (sign ++ size)

end WorkerFleet
