import Abnf.Source.Excerpt
import Mathlib.Data.List.Basic

/-! An excerpt row by row: two rules, the numbered lines between them, and the caret directly below
its line. -/

namespace Abnf

theorem Text.length_padded {width n : Nat} (fill : Char) (h : (Nat.toDigits 10 n).length ≤ width) :
    (Text.padded width fill n).length = width := by
  simp [Text.padded, h]

theorem Text.length_spaces (n : Nat) : (Text.spaces n).length = n := by simp [Text.spaces]

theorem length_toDigits_mono {m n : Nat} (h : m ≤ n) :
    (Nat.toDigits 10 m).length ≤ (Nat.toDigits 10 n).length := by
  have hn := (Nat.length_toDigits_le_iff (n := n) (by decide : 1 < 10) Nat.length_toDigits_pos).mp
    (Nat.le_refl _)
  exact (Nat.length_toDigits_le_iff (by decide) Nat.length_toDigits_pos).mpr (by omega)

def numberedRow (width number : Nat) (text : String) : String :=
  Text.padded width ' ' number ++ " | " ++ text

def caretRow (width column : Nat) : String :=
  Text.spaces width ++ " | " ++ Text.spaces (column - 1) ++ "^"

def ruleRow (width : Nat) : String := String.ofList (List.replicate (width + 1) '-') ++ "|--"

/-- The lines around line `line`, with their numbers. -/
def shownLines (lines : List String) (line : Nat) : List (String × Nat) :=
  let first := max (line - excerptMargin) 1
  let last := min (line + excerptMargin) lines.length
  ((lines.drop (first - 1)).take (last + 1 - first)).zipIdx first

def gutterWidth (lines : List String) (line : Nat) : Nat :=
  (Nat.toDigits 10 (min (line + excerptMargin) lines.length)).length

theorem length_toDigits_le_gutterWidth {lines : List String} {line : Nat}
    (h : line ≤ lines.length) : (Nat.toDigits 10 line).length ≤ gutterWidth lines line :=
  length_toDigits_mono (by omega)

def rowsOf (width line column : Nat) (shown : String × Nat) : List String :=
  numberedRow width shown.2 shown.1 :: if shown.2 = line then [caretRow width column] else []

def excerptRows (lines : List String) (line column : Nat) : List String :=
  let width := gutterWidth lines line
  ruleRow width :: (shownLines lines line).flatMap (rowsOf width line column) ++ [ruleRow width]

theorem mem_shownLines {lines : List String} {line k : Nat} {text : String} :
    (text, k) ∈ shownLines lines line ↔
      max (line - excerptMargin) 1 ≤ k ∧ k ≤ line + excerptMargin ∧
        lines[k - 1]? = some text := by
  rw [shownLines, List.mk_mem_zipIdx_iff_le_and_getElem?_sub]
  apply and_congr_right
  intro hk
  rw [List.getElem?_take, List.getElem?_drop]
  have hi : max (line - excerptMargin) 1 - 1 + (k - max (line - excerptMargin) 1) = k - 1 := by omega
  rw [hi]
  constructor
  · intro ht
    split at ht
    · next hlt => exact ⟨by omega, ht⟩
    · simp at ht
  · rintro ⟨hle, ht⟩
    have hlen := (List.getElem?_eq_some_iff.mp ht).1
    rw [if_pos (by omega), ht]

def joinRows (rows : List String) : String := String.join (rows.map (· ++ "\n"))

theorem joinRows_append (rows more : List String) :
    joinRows (rows ++ more) = joinRows rows ++ joinRows more := by
  simp [joinRows]

theorem joinRows_ne_empty {rows : List String} (h : rows ≠ []) : joinRows rows ≠ "" := by
  obtain ⟨row, more, rfl⟩ := List.exists_cons_of_ne_nil h
  intro hempty
  have hlist := congrArg String.toList hempty
  simp [joinRows] at hlist

theorem joinRows_flatMap {α : Type} (rows : α → List String) (l : List α) :
    joinRows (l.flatMap rows) = String.join (l.map fun x => joinRows (rows x)) := by
  induction l with
  | nil => rfl
  | cons x l ih => rw [List.flatMap_cons, joinRows_append, ih, List.map_cons, String.join_cons]

theorem excerptOf_eq_joinRows {lines : List String} {line column : Nat}
    (h : ¬ (line = 0 ∨ lines.length < line)) :
    excerptOf lines line column = joinRows (excerptRows lines line column) := by
  have hrow : ∀ width shown, joinRows (rowsOf width line column shown) =
      Text.padded width ' ' shown.2 ++ " | " ++ shown.1 ++ "\n" ++ if shown.2 = line then
        Text.spaces width ++ " | " ++ Text.spaces (column - 1) ++ "^\n" else "" := by
    intro width shown
    by_cases hk : shown.2 = line <;>
      simp [joinRows, rowsOf, numberedRow, caretRow, hk, String.append_assoc]
  rw [excerptOf, if_neg h, excerptRows, List.cons_append, ← List.singleton_append, joinRows_append,
    joinRows_append, joinRows_flatMap]
  simp only [hrow]
  simp [joinRows, ruleRow, shownLines, gutterWidth, String.append_assoc]

theorem exists_excerptRows {lines : List String} {line : Nat} {text : String} (hpos : 1 ≤ line)
    (ht : lines[line - 1]? = some text) (column : Nat) :
    ∃ above below, excerptRows lines line column =
      above ++ numberedRow (gutterWidth lines line) line text ::
        caretRow (gutterWidth lines line) column :: below := by
  have hm : (text, line) ∈ shownLines lines line := mem_shownLines.mpr ⟨by omega, by omega, ht⟩
  obtain ⟨before, after, hsplit⟩ := List.append_of_mem hm
  let width := gutterWidth lines line
  refine ⟨ruleRow width :: before.flatMap (rowsOf width line column),
    after.flatMap (rowsOf width line column) ++ [ruleRow width], ?_⟩
  have hrow : rowsOf width line column (text, line) =
      [numberedRow width line text, caretRow width column] := by simp [rowsOf]
  rw [excerptRows, hsplit, List.flatMap_append, List.flatMap_cons, hrow]
  simp [width]

end Abnf
