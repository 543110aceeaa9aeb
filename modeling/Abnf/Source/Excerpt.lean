import Abnf.Source.Lines
import Abnf.Text.Columns

/-! The part of a source around a place: up to two lines before and after, numbered, and a caret
under the column. -/

namespace Abnf

/-- How many lines are shown on either side. -/
def excerptMargin : Nat := 2

/-- Nothing for a line that is not among these. -/
def excerptOf (lines : List String) (line column : Nat) : String :=
  if line = 0 ∨ lines.length < line then ""
  else
    let first := max (line - excerptMargin) 1
    let last := min (line + excerptMargin) lines.length
    let width := (Nat.toDigits 10 last).length
    let rule := String.ofList (List.replicate (width + 1) '-') ++ "|--\n"
    let caret := Text.spaces width ++ " | " ++ Text.spaces (column - 1) ++ "^\n"
    let shown := (lines.drop (first - 1)).take (last + 1 - first)
    let rows := shown.zipIdx first |>.map fun (text, k) =>
      Text.padded width ' ' k ++ " | " ++ text ++ "\n" ++ if k = line then caret else ""
    rule ++ String.join rows ++ rule

def excerpt (source : String) (line column : Nat) : String :=
  excerptOf (sourceLines source) line column

/-- All lines with their numbers. -/
def numbered (source : String) : String :=
  String.join <| (sourceLines source).zipIdx 1 |>.map fun (text, k) =>
    Text.padded 3 ' ' k ++ " | " ++ text ++ "\n"

end Abnf
