/-! Spans of time for the reader's eye. -/

namespace Abnf.Text

/-- A number with `places` decimals, without the zeros at their end. -/
def withPlaces (whole fraction places : Nat) : String :=
  let digits := (Nat.toDigits 10 fraction).leftpad places '0'
  let kept := (digits.reverse.dropWhile (· == '0')).reverse
  toString whole ++ if kept.isEmpty then "" else "." ++ String.ofList kept

/-- Nanoseconds in the largest unit of which there is at least one. -/
def duration (nanoseconds : Nat) : String :=
  if 1000000000 ≤ nanoseconds then
    withPlaces (nanoseconds / 1000000000) (nanoseconds % 1000000000) 9 ++ "s"
  else if 1000000 ≤ nanoseconds then
    withPlaces (nanoseconds / 1000000) (nanoseconds % 1000000) 6 ++ "ms"
  else if 1000 ≤ nanoseconds then
    withPlaces (nanoseconds / 1000) (nanoseconds % 1000) 3 ++ "µs"
  else toString nanoseconds ++ "ns"

end Abnf.Text
