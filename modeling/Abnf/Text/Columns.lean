/-! Numbers written to a fixed width. -/

namespace Abnf.Text

/-- The number in decimal, filled up on the left to `width` characters. -/
def padded (width : Nat) (fill : Char) (n : Nat) : String :=
  String.ofList ((Nat.toDigits 10 n).leftpad width fill)

def spaces (n : Nat) : String := String.ofList (List.replicate n ' ')

end Abnf.Text
