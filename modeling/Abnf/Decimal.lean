/-! Binary floating-point numbers written in decimal, with the fewest digits that read back to the
same number and, of these, the ones nearest to it. All comparisons are exact. -/

namespace Abnf

/-- The value `mantissa · 2 ^ exponent`. The gap to the number below is half as wide where
`narrowBelow` holds. -/
structure Binary where
  mantissa : Nat
  exponent : Int
  narrowBelow : Bool
deriving DecidableEq, Repr

/-- The value `digits · 10 ^ exponent`. -/
structure Decimal where
  digits : Nat
  exponent : Int
deriving DecidableEq, Repr

namespace Binary

/-- A finite number without its sign. -/
def ofFloat (x : Float) : Binary :=
  let bits := x.toBits.toNat
  let fraction : Nat := bits % Nat.pow 2 52
  let biased : Nat := bits / Nat.pow 2 52 % Nat.pow 2 11
  if biased = 0 then ⟨fraction, -1074, false⟩
  else ⟨Nat.pow 2 52 + fraction, (biased : Int) - 1075, fraction = 0 && 1 < biased⟩

/-- The quotient of `n` quarters of the last binary place and a power of ten, as a fraction. -/
def quarters (b : Binary) (n : Nat) (power : Int) : Nat × Nat :=
  let place := b.exponent - 2
  (n * Nat.pow 2 place.toNat * Nat.pow 10 (-power).toNat,
    Nat.pow 2 (-place).toNat * Nat.pow 10 power.toNat)

/-- How many decimal digits stand before the point; negative for leading zeros behind it. -/
def magnitude (b : Binary) : Int :=
  let (n, d) := b.quarters (4 * b.mantissa) (-400)
  ((Nat.toDigits 10 (n / d)).length : Int) - 400

/-- Whether `digits · 10 ^ power` lies among the reals that round to this number. The ends of their
interval belong to it when the mantissa is even. -/
def readsBack (b : Binary) (power : Int) (digits : Nat) : Bool :=
  let (low, scale) := b.quarters (4 * b.mantissa - if b.narrowBelow then 1 else 2) power
  let (high, _) := b.quarters (4 * b.mantissa + 2) power
  let x := digits * scale
  if b.mantissa % 2 = 0 then low ≤ x && x ≤ high else low < x && x < high

/-- The two multiples of `10 ^ power` around this number, the nearer first. Of two equally near the
even one goes first. -/
def neighbours (b : Binary) (power : Int) : List Nat :=
  let (n, d) := b.quarters (4 * b.mantissa) power
  let below := n / d
  let upper := d < 2 * (n % d) || d = 2 * (n % d) && below % 2 = 1
  if upper then [below + 1, below] else [below, below + 1]

/-- The multiple of `10 ^ power` nearest to this number among those that read back. The farther
neighbour may be the only one, since the interval is lopsided at a power of two. -/
def onGrid? (b : Binary) (power : Int) : Option Nat :=
  (b.neighbours power).find? (b.readsBack power)

/-- The exact value, which is a decimal since two divides ten. -/
def exact (b : Binary) : Decimal :=
  ⟨b.mantissa * Nat.pow 2 b.exponent.toNat * Nat.pow 5 (-b.exponent).toNat, min b.exponent 0⟩

def shortest (b : Binary) : Decimal :=
  let magnitude := b.magnitude
  let grids := (List.range 17).map fun (n : Nat) => magnitude - (n + 1)
  (grids.findSome? fun power => (b.onGrid? power).map (⟨·, power⟩)).getD b.exact

end Binary

namespace Decimal

/-- A point stands among the digits for numbers from 0.00001 up to sixteen digits before the point;
the others have one digit before the point and a signed exponent. There is always a digit behind a
point, but an exponent needs none. -/
def text (d : Decimal) : String :=
  let all := Nat.toDigits 10 d.digits
  let kept := (all.reverse.dropWhile (· == '0')).reverse
  let point : Int := all.length + d.exponent
  String.ofList <|
    if -5 < point && point ≤ 16 then
      let whole := kept.take point.toNat
      let fraction := List.replicate (-point).toNat '0' ++ kept.drop point.toNat
      (if whole.isEmpty then ['0'] else whole ++ List.replicate (point.toNat - kept.length) '0') ++
        '.' :: if kept.length ≤ point then ['0'] else fraction
    else
      let fraction := kept.drop 1
      let sign := if 0 < point then '+' else '-'
      kept.take 1 ++ (if fraction.isEmpty then [] else '.' :: fraction) ++
        'e' :: sign :: Nat.toDigits 10 (point - 1).natAbs

end Decimal

/-- A finite floating-point number in decimal. -/
def floatText (x : Float) : String :=
  let sign := if Nat.pow 2 63 ≤ x.toBits.toNat then "-" else ""
  let b := Binary.ofFloat x
  if b.mantissa = 0 then sign ++ "0.0" else sign ++ b.shortest.text

end Abnf
