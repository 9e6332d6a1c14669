import WorkerFleet.Document
import WorkerFleet.Memory
import WorkerFleet.Text.Hex

/-!
# JSON tokens

The lexical part of JSON. Numbers and strings come out with their values; a string with an
unpaired surrogate and a number beyond all amounts are well formed but have none.

A whole number of 64 bits stays whole. Any other number is read as its leading digits, as
many as fit 64 bits, times or over one power of ten.
-/

namespace WorkerFleet.Json

inductive Token (K : Type) where
  | openArray
  | closeArray
  | openObject
  | closeObject
  | comma
  | colon
  /-- A value of its own, but no string. -/
  | scalar (d : Document K)
  | string (s : Option String)

def isSpace (c : Char) : Bool := c == ' ' || c == '\t' || c == '\n' || c == '\r'

/-- A part of a string: a character, or an escaped code unit of 16 bits. -/
inductive Piece where
  | char (c : Char)
  | unit (n : Nat)

def escaped? : Char → Option Char
  | '"' => some '"'
  | '\\' => some '\\'
  | '/' => some '/'
  | 'b' => some '\x08'
  | 'f' => some '\x0c'
  | 'n' => some '\n'
  | 'r' => some '\r'
  | 't' => some '\t'
  | _ => none

def pieces? : List Char → Option (List Piece × List Char)
  | [] => none
  | '"' :: rest => some ([], rest)
  | '\\' :: 'u' :: a :: b :: c :: d :: rest =>
    (Text.hexValue? [a, b, c, d]).bind fun n =>
      (pieces? rest).map fun (ps, rest) => (.unit n :: ps, rest)
  | '\\' :: c :: rest =>
    (escaped? c).bind fun c => (pieces? rest).map fun (ps, rest) => (.char c :: ps, rest)
  | c :: rest =>
    if c.toNat < 0x20 ∨ c = '\\' then none
    else (pieces? rest).map fun (ps, rest) => (.char c :: ps, rest)

def isHighSurrogate (n : Nat) : Bool := 0xD800 ≤ n && n < 0xDC00

def isLowSurrogate (n : Nat) : Bool := 0xDC00 ≤ n && n < 0xE000

/-- Joins the pieces; surrogates have to stand in pairs. -/
def join? : List Piece → Option (List Char)
  | [] => some []
  | .char c :: rest => (join? rest).map (c :: ·)
  | .unit high :: .unit low :: rest =>
    if isHighSurrogate high then
      if isLowSurrogate low then
        (join? rest).map (Char.ofNat (0x10000 + (high - 0xD800) * 0x400 + (low - 0xDC00)) :: ·)
      else none
    else if isLowSurrogate high then none
    else (join? (.unit low :: rest)).map (Char.ofNat high :: ·)
  | .unit n :: rest =>
    if isHighSurrogate n || isLowSurrogate n then none
    else (join? rest).map (Char.ofNat n :: ·)

/-- Appends digits to `n` as long as the result fits 64 bits; the digits that are left. -/
def keepDigits : Nat → List Char → Nat × List Char
  | n, [] => (n, [])
  | n, c :: rest =>
    let next := 10 * n + (c.toNat - '0'.toNat)
    if next < Nat.pow 2 64 then keepDigits next rest else (n, c :: rest)

variable {K : Type} [Quantity K]

/-- `significand` times ten to the `exponent`; the largest power of ten in use is the
308th. -/
def scale (significand : Nat) (exponent : Int) : K :=
  let x : K := Quantity.ofNat significand
  if significand = 0 then x
  else if exponent ≥ 0 then x * Quantity.ofDecimal 1 exponent
  else if exponent ≥ -308 then x / Quantity.ofDecimal 1 (-exponent)
  else x / Quantity.ofDecimal 1 308 / Quantity.ofDecimal 1 (min 308 (-exponent - 308))

def realNumber (isNegative : Bool) (whole fraction : List Char) (exponent : Int) : Document K :=
  let (n, wholeLeft) := keepDigits 0 whole
  let (n, fractionLeft) := keepDigits n fraction
  let places : Int := fraction.length - fractionLeft.length
  let x : K := scale n (wholeLeft.length - places + exponent)
  if Quantity.isFinite x then .real (if isNegative then -x else x) else .unreadable

def wholeNumber (isNegative : Bool) (whole : List Char) : Document K :=
  let n := Memory.digitsValue whole
  if isNegative then
    if 0 < n ∧ n ≤ Nat.pow 2 63 then .negative n else realNumber true whole [] 0
  else if n < Nat.pow 2 64 then .natural n
  else realNumber false whole [] 0

def digits? (cs : List Char) : Option (List Char × List Char) :=
  let ds := cs.takeWhile Char.isDigit
  if ds.isEmpty then none else some (ds, cs.dropWhile Char.isDigit)

def fraction? : List Char → Option (Option (List Char) × List Char)
  | '.' :: rest => (digits? rest).map fun (ds, rest) => (some ds, rest)
  | rest => some (none, rest)

def exponentSign : List Char → Bool × List Char
  | '-' :: rest => (true, rest)
  | '+' :: rest => (false, rest)
  | rest => (false, rest)

def exponent? : List Char → Option (Option Int × List Char)
  | c :: rest =>
    if c = 'e' ∨ c = 'E' then
      let (isNegative, rest) := exponentSign rest
      (digits? rest).map fun (ds, rest) =>
        let n : Int := Memory.digitsValue ds
        (some (if isNegative then -n else n), rest)
    else some (none, c :: rest)
  | [] => some (none, [])

/-- A number without its sign. No other digit follows a leading zero. -/
def number? (isNegative : Bool) (cs : List Char) : Option (Document K × List Char) :=
  (digits? cs).bind fun (whole, rest) =>
    if whole.head? = some '0' ∧ whole.length ≠ 1 then none
    else
      (fraction? rest).bind fun (fraction, rest) =>
        (exponent? rest).map fun (exponent, rest) =>
          if fraction = none ∧ exponent = none then (wholeNumber isNegative whole, rest)
          else (realNumber isNegative whole (fraction.getD []) (exponent.getD 0), rest)

/-- The first token of a text that does not start with a space, and what follows it. -/
def next? : List Char → Option (Token K × List Char)
  | '[' :: rest => some (.openArray, rest)
  | ']' :: rest => some (.closeArray, rest)
  | '\x7b' :: rest => some (.openObject, rest)
  | '\x7d' :: rest => some (.closeObject, rest)
  | ',' :: rest => some (.comma, rest)
  | ':' :: rest => some (.colon, rest)
  | 'n' :: 'u' :: 'l' :: 'l' :: rest => some (.scalar .null, rest)
  | 't' :: 'r' :: 'u' :: 'e' :: rest => some (.scalar (.bool true), rest)
  | 'f' :: 'a' :: 'l' :: 's' :: 'e' :: rest => some (.scalar (.bool false), rest)
  | '"' :: rest =>
    (pieces? rest).map fun (ps, rest) => (.string ((join? ps).map String.ofList), rest)
  | '-' :: rest => (number? true rest).map fun (d, rest) => (.scalar d, rest)
  | rest => (number? false rest).map fun (d, rest) => (.scalar d, rest)

theorem length_pieces? {cs rest : List Char} {ps : List Piece} (h : pieces? cs = some (ps, rest)) :
    rest.length < cs.length := by
  fun_induction pieces? cs generalizing ps rest with
  | case1 => cases h
  | case2 => cases h; simp
  | case3 a b c d tail ih =>
    simp only [Option.bind_eq_some_iff, Option.map_eq_some_iff] at h
    obtain ⟨_, _, ⟨_, r⟩, hr, heq⟩ := h
    cases heq
    have := ih hr
    simp only [List.length_cons]
    omega
  | case4 c tail _ ih =>
    simp only [Option.bind_eq_some_iff, Option.map_eq_some_iff] at h
    obtain ⟨_, _, ⟨_, r⟩, hr, heq⟩ := h
    cases heq
    have := ih hr
    simp only [List.length_cons]
    omega
  | case5 => cases h
  | case6 c tail _ _ _ _ ih =>
    simp only [Option.map_eq_some_iff] at h
    obtain ⟨⟨_, r⟩, hr, heq⟩ := h
    cases heq
    have := ih hr
    simp only [List.length_cons]
    omega

theorem length_digits? {cs ds rest : List Char} (h : digits? cs = some (ds, rest)) :
    rest.length < cs.length := by
  simp only [digits?] at h
  split at h
  · cases h
  · next hne =>
    cases h
    have := congrArg List.length (List.takeWhile_append_dropWhile (p := Char.isDigit) (l := cs))
    have hpos : 0 < (cs.takeWhile Char.isDigit).length :=
      List.length_pos_iff.2 fun h0 => hne (by simp [h0])
    simp only [List.length_append] at this
    omega

theorem length_fraction? {cs rest : List Char} {f : Option (List Char)}
    (h : fraction? cs = some (f, rest)) : rest.length ≤ cs.length := by
  unfold fraction? at h
  split at h
  · simp only [Option.map_eq_some_iff] at h
    obtain ⟨⟨_, r⟩, hr, heq⟩ := h
    cases heq
    have := length_digits? hr
    simp only [List.length_cons]
    omega
  · cases h; exact Nat.le_refl _

theorem length_exponentSign (cs : List Char) : (exponentSign cs).2.length ≤ cs.length := by
  unfold exponentSign
  split <;> simp

theorem length_exponent? {cs rest : List Char} {e : Option Int}
    (h : exponent? cs = some (e, rest)) : rest.length ≤ cs.length := by
  unfold exponent? at h
  split at h
  · next c tail =>
    split at h
    · simp only [Option.map_eq_some_iff] at h
      obtain ⟨⟨_, r⟩, hr, heq⟩ := h
      cases heq
      have := length_digits? hr
      have := length_exponentSign tail
      simp only [List.length_cons]
      omega
    · cases h; exact Nat.le_refl _
  · cases h; exact Nat.le_refl _

theorem length_number? {isNegative : Bool} {cs rest : List Char} {d : Document K}
    (h : number? isNegative cs = some (d, rest)) : rest.length < cs.length := by
  simp only [number?, Option.bind_eq_some_iff] at h
  obtain ⟨⟨whole, r₁⟩, h₁, h⟩ := h
  split at h
  · cases h
  · simp only [Option.bind_eq_some_iff, Option.map_eq_some_iff] at h
    obtain ⟨⟨f, r₂⟩, h₂, ⟨e, r₃⟩, h₃, heq⟩ := h
    have h₁ : r₁.length < cs.length := length_digits? h₁
    have h₂ : r₂.length ≤ r₁.length := length_fraction? h₂
    have h₃ : r₃.length ≤ r₂.length := length_exponent? h₃
    obtain rfl : r₃ = rest := by
      split at heq <;> exact (Prod.mk.inj heq).2
    omega

theorem length_next? {cs rest : List Char} {t : Token K} (h : next? cs = some (t, rest)) :
    rest.length < cs.length := by
  unfold next? at h
  split at h
  case h_10 =>
    simp only [Option.map_eq_some_iff] at h
    obtain ⟨⟨_, r⟩, hr, heq⟩ := h
    cases heq
    have := length_pieces? hr
    simp only [List.length_cons]
    omega
  case h_11 =>
    simp only [Option.map_eq_some_iff] at h
    obtain ⟨⟨_, r⟩, hr, heq⟩ := h
    cases heq
    have := length_number? hr
    simp only [List.length_cons]
    omega
  case h_12 =>
    simp only [Option.map_eq_some_iff] at h
    obtain ⟨⟨_, r⟩, hr, heq⟩ := h
    cases heq
    exact length_number? hr
  all_goals
    cases h
    simp only [List.length_cons]
    omega

def tokens? (cs : List Char) : Option (List (Token K)) :=
  match hcs : cs.dropWhile isSpace with
  | [] => some []
  | c :: tail =>
    match h : next? (K := K) (c :: tail) with
    | none => none
    | some (t, rest) =>
      have : rest.length < cs.length := by
        have h₁ := length_next? h
        have h₂ := (List.dropWhile_sublist isSpace (l := cs)).length_le
        rw [hcs] at h₂
        omega
      (tokens? rest).map (t :: ·)
termination_by cs.length

end WorkerFleet.Json
