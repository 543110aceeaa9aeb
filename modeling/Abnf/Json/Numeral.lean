import Abnf.Json.Reader

/-! Numerals: how a number is written, and the number it stands for. -/

namespace Abnf.Json

structure Exponent where
  negative : Bool
  digits : List Char
  /-- The offset of the first digit. -/
  offset : Nat
deriving DecidableEq, Repr

structure Numeral where
  negative : Bool
  whole : List Char
  fraction : List Char
  exponent : Option Exponent
deriving DecidableEq, Repr

namespace Numeral

/-- The digits before the point: a zero alone, or digits that do not start with one. -/
def readWhole (atEnd : Cause) : Reader (List Char) := do
  match ← Reader.head? with
  | none => Reader.fail atEnd
  | some c =>
    if !c.isDigit then Reader.failNext .invalidNumber
    else if c = '0' then
      Reader.skip
      if (← Reader.head?).any Char.isDigit then Reader.failNext .invalidNumber
      return ['0']
    else Reader.digits

def readFraction (atEnd : Cause) : Reader (List Char) := do
  match ← Reader.head? with
  | some '.' =>
    Reader.skip
    match ← Reader.digits with
    | [] => if (← Reader.head?).isNone then Reader.fail atEnd else Reader.failNext .invalidNumber
    | fraction => return fraction
  | _ => return []

def readExponent (atEnd : Cause) : Reader (Option Exponent) := do
  let mark ← Reader.head?
  if mark ≠ some 'e' ∧ mark ≠ some 'E' then return none
  Reader.skip
  let sign ← Reader.head?
  if sign = some '+' ∨ sign = some '-' then Reader.skip
  let offset := (← get).offset
  match ← Reader.digits with
  | [] => if (← Reader.head?).isNone then Reader.fail atEnd else Reader.failNext .invalidNumber
  | digits => return some ⟨sign = some '-', digits, offset⟩

/-- A numeral behind its sign. `atEnd` is the cause to give where the text ends too early. -/
def read (atEnd : Cause) (negative : Bool) : Reader Numeral := do
  let whole ← readWhole atEnd
  let fraction ← readFraction atEnd
  let exponent ← readExponent atEnd
  return ⟨negative, whole, fraction, exponent⟩

def digitValue (c : Char) : Nat := c.toNat - '0'.toNat

/-- Appends digits to a significand of 64 bits until one does not fit, and counts the others. -/
def extend (significand : Nat) : List Char → Nat × Nat
  | [] => (significand, 0)
  | c :: rest =>
    let more := significand * 10 + digitValue c
    if more < Nat.pow 2 64 then extend more rest else (significand, rest.length + 1)

/-- An exponent of 31 bits, or how many digits it takes to leave them. -/
def readExponentDigits (value : Nat) (count : Nat) : List Char → Except Nat Nat
  | [] => .ok value
  | c :: rest =>
    let more := value * 10 + digitValue c
    if more < Nat.pow 2 31 then readExponentDigits more (count + 1) rest else .error (count + 1)

/-- Scales by a power of ten, in steps that the powers of ten allow. There is nothing where the
result is too large. -/
def scale (x : Float) (power : Int) : Option Float :=
  if 308 < power then if x == 0 then some x else none
  else if 0 ≤ power then
    let y := x * Float.ofScientific 1 false power.toNat
    if y.isInf then none else some y
  else if -308 ≤ power then some (x / Float.ofScientific 1 false power.natAbs)
  else if x == 0 then some x
  else scale (x / 1e308) (power + 308)
termination_by power.natAbs
decreasing_by omega

/-- The number that a numeral stands for. Without point and exponent it is an integer if that has 64
bits, and zero with a sign is none. `behind` is the offset behind the numeral. -/
def number (n : Numeral) (behind : Nat) : Except Fault Number := do
  let (significand, cut) := extend 0 n.whole
  if n.fraction.isEmpty ∧ n.exponent.isNone ∧ cut = 0 then
    if !n.negative then return .integer significand
    if 0 < significand ∧ significand ≤ Nat.pow 2 63 then return .integer (-significand)
  let (significand, ignored) := extend significand n.fraction
  let point : Int := (cut : Int) - ((n.fraction.length : Int) - ignored)
  let signed := fun (x : Float) => Number.float (if n.negative then -x else x)
  let shift : Option Int ← match n.exponent with
    | none => pure (some 0)
    | some e =>
      match readExponentDigits 0 0 e.digits with
      | .ok value => pure (some (if e.negative then -value else value))
      | .error count =>
        if significand = 0 ∨ e.negative then pure none
        else throw (.placed .numberOutOfRange (e.offset + count))
  match shift with
  | none => return signed 0
  | some shift =>
    match scale (Float.ofNat significand) (point + shift) with
    | some x => return signed x
    | none => throw (.placed .numberOutOfRange behind)

/-- A number behind its sign. -/
def readNumber (negative : Bool) : Reader Number := do
  let n ← read .endInValue negative
  n.number (← get).offset

end Numeral

end Abnf.Json
