/-! Lines cut out of a text by the numbers of its bytes. A text can be cut where a character starts and
at its end. -/

namespace Abnf.Text

/-- The part of a text between two bytes, unless one of the cuts is impossible. -/
def slice? (text : String) (start stop : Nat) : Option String :=
  if h : start ≤ stop ∧ (String.Pos.Raw.mk start).IsValid text ∧
      (String.Pos.Raw.mk stop).IsValid text then
    some (text.extract (text.pos ⟨start⟩ h.2.1) (text.pos ⟨stop⟩ h.2.2))
  else none

/-- The lines of a text that end in `bytes`, which are its bytes from the one with the number `i` on.
The first of these lines starts at `start`. -/
def cutFrom (text : String) (start i : Nat) : List UInt8 → Option (List String)
  | [] =>
    if start < text.utf8ByteSize then do
      let line ← slice? text start text.utf8ByteSize
      return [line]
    else some []
  | 13 :: 10 :: bytes => do
    let line ← slice? text start i
    return line :: (← cutFrom text (i + 2) (i + 2) bytes)
  | byte :: bytes =>
    if byte = 10 ∨ byte = 13 then do
      let line ← slice? text start i
      return line :: (← cutFrom text (i + 1) (i + 1) bytes)
    else cutFrom text start (i + 1) bytes

def cutLines (text : String) : Option (List String) :=
  cutFrom text 0 0 text.toByteArray.data.toList

end Abnf.Text
