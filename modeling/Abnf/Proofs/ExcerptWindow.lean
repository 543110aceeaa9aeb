import Abnf.Proofs.OutputRows

/-! What an excerpt shows: the lines of a window around its own, cut off at the first and at the last
line of the source. Numbers stand in a gutter that is as wide as the last of them, and so is the caret's. -/

namespace Abnf

theorem Text.padded_eq_spaces (width n : Nat) :
    Text.padded width ' ' n = Text.spaces (width - (toString n).length) ++ toString n := by
  rw [Nat.toString_eq_ofList_toDigits, String.length_ofList]
  simp [Text.padded, Text.spaces, List.leftpad]

theorem Text.oneLine_spaces (n : Nat) : OneLine (Text.spaces n) := by simp [OneLine, Text.spaces]

theorem oneLine_caretRow (width column : Nat) : OneLine (caretRow width column) := by
  simp only [caretRow, oneLine_append]
  exact ⟨⟨⟨Text.oneLine_spaces _, by decide⟩, Text.oneLine_spaces _⟩, by decide⟩

theorem oneLine_ruleRow (width : Nat) : OneLine (ruleRow width) := by
  have hdashes : OneLine (String.ofList (List.replicate (width + 1) '-')) := by simp [OneLine]
  exact oneLine_append.mpr ⟨hdashes, by decide⟩

theorem oneLine_of_mem_excerptRows {lines : List String} (h : ∀ text ∈ lines, OneLine text)
    (line column : Nat) : ∀ row ∈ excerptRows lines line column, OneLine row := by
  intro row hm
  rw [excerptRows, List.cons_append, List.mem_cons, List.mem_append, List.mem_singleton,
    List.mem_flatMap] at hm
  obtain rfl | ⟨⟨text, k⟩, hshown, hrow⟩ | rfl := hm
  · exact oneLine_ruleRow _
  · have htext : text ∈ lines := List.mem_of_getElem? (mem_shownLines.mp hshown).2.2
    rw [rowsOf, List.mem_cons] at hrow
    obtain rfl | hcaret := hrow
    · exact oneLine_numberedRow _ _ (h text htext)
    · split at hcaret
      · rw [List.mem_singleton.mp hcaret]
        exact oneLine_caretRow _ _
      · simp at hcaret
  · exact oneLine_ruleRow _

theorem excerptOf_eq_empty_iff {lines : List String} {line column : Nat} :
    excerptOf lines line column = "" ↔ line = 0 ∨ lines.length < line := by
  by_cases h : line = 0 ∨ lines.length < line
  · simp [excerptOf, h]
  · have hne : excerptOf lines line column ≠ "" := by
      rw [excerptOf_eq_joinRows h]
      exact joinRows_ne_empty (by simp [excerptRows])
    simp only [h, hne]

/-- The lines of the window by their numbers. Every number is that of a line (`mem_shownLines`), so
the default is never shown. -/
theorem shownLines_eq_map (lines : List String) (line : Nat) :
    shownLines lines line =
      (List.range' (max (line - excerptMargin) 1)
        (min (line + excerptMargin) lines.length + 1 - max (line - excerptMargin) 1)).map fun k =>
          ((lines[k - 1]?).getD "", k) := by
  apply List.ext_getElem?
  intro i
  rw [shownLines, List.getElem?_zipIdx, List.getElem?_take, List.getElem?_drop, List.getElem?_map]
  by_cases hi : i < min (line + excerptMargin) lines.length + 1 - max (line - excerptMargin) 1
  · have hk : max (line - excerptMargin) 1 - 1 + i < lines.length := by omega
    have hnumber : max (line - excerptMargin) 1 + i - 1 = max (line - excerptMargin) 1 - 1 + i := by
      omega
    simp [hi, hk, hnumber]
  · simp [hi]

/-- Only the line the excerpt is about has a caret below it. -/
theorem flatMap_rowsOf_of_ne {width line column first count : Nat} {text : Nat → String}
    (h : ∀ k, first ≤ k → k < first + count → k ≠ line) :
    ((List.range' first count).map fun k => (text k, k)).flatMap (rowsOf width line column) =
      (List.range' first count).map fun k => numberedRow width k (text k) := by
  rw [List.flatMap_map, List.map_eq_flatMap]
  apply List.flatMap_congr
  intro k hk
  have hne := h k (List.mem_range'_1.mp hk).1 (List.mem_range'_1.mp hk).2
  simp [rowsOf, hne]

theorem excerptRows_eq {lines : List String} {line : Nat} (hpos : 1 ≤ line)
    (hle : line ≤ lines.length) (column : Nat) :
    let first := max (line - excerptMargin) 1
    let last := min (line + excerptMargin) lines.length
    let width := gutterWidth lines line
    let row := fun k => numberedRow width k ((lines[k - 1]?).getD "")
    excerptRows lines line column =
      ruleRow width :: ((List.range' first (line + 1 - first)).map row ++
        caretRow width column :: (List.range' (line + 1) (last - line)).map row) ++
          [ruleRow width] := by
  intro first last width row
  have hcount : last + 1 - first = (line - first) + (1 + (last - line)) := by omega
  have hline : first + (line - first) = line := by omega
  have hupto : line + 1 - first = (line - first) + 1 := by omega
  have hsplit : List.range' first (last + 1 - first) =
      List.range' first (line - first) ++ line :: List.range' (line + 1) (last - line) := by
    rw [hcount, ← List.range'_append_1, hline, Nat.add_comm 1, List.range'_succ]
  have hself : rowsOf width line column ((lines[line - 1]?).getD "", line) =
      [row line, caretRow width column] := by simp [rowsOf, row]
  rw [excerptRows, shownLines_eq_map, hsplit, List.map_append, List.flatMap_append, List.map_cons,
    List.flatMap_cons, flatMap_rowsOf_of_ne (by omega), flatMap_rowsOf_of_ne (by omega), hself,
    hupto, List.range'_1_concat, hline]
  simp [row, width]

theorem length_toString_le_gutterWidth {lines : List String} {line k : Nat}
    (h : k ≤ min (line + excerptMargin) lines.length) :
    (toString k).length ≤ gutterWidth lines line := by
  rw [Nat.toString_eq_ofList_toDigits, String.length_ofList]
  exact length_toDigits_mono h

/-- An excerpt is empty exactly for a line that is not there. Otherwise it has a row for each line of
the window, in order and between two equal rules, and one more row with the caret directly below the
line it is about. -/
theorem excerpt_shows_window (source : String) (line column : Nat) :
    let lines := sourceLines source
    let first := max 1 (line - 2)
    let last := min lines.length (line + 2)
    let width := (toString last).length
    let rule := String.ofList (List.replicate (width + 1) '-') ++ "|--"
    let caret := Text.spaces width ++ " | " ++ Text.spaces (max column 1 - 1) ++ "^"
    (excerpt source line column = "" ↔ line = 0 ∨ lines.length < line) ∧
      (1 ≤ line → line ≤ lines.length → ∃ row : Nat → String,
        let rows := rule :: ((List.range' first (line + 1 - first)).map row ++
          caret :: (List.range' (line + 1) (last - line)).map row) ++ [rule]
        excerpt source line column = joinRows rows ∧ (∀ r ∈ rows, OneLine r) ∧
          ∀ k, first ≤ k → k ≤ last → ∃ text gutter, 1 ≤ k ∧ lines[k - 1]? = some text ∧
            row k = gutter ++ " | " ++ text ∧ gutter.length = width ∧
              gutter = Text.spaces (width - (toString k).length) ++ toString k) := by
  intro lines first last width rule caret
  have hfirst : max (line - excerptMargin) 1 = first := Nat.max_comm _ _
  have hlast : min (line + excerptMargin) lines.length = last := Nat.min_comm _ _
  have hwidth : gutterWidth lines line = width := by
    rw [gutterWidth, hlast]
    simp only [width, Nat.toString_eq_ofList_toDigits, String.length_ofList]
  have hcaret : caretRow width column = caret := by
    have hcolumn : column - 1 = max column 1 - 1 := by omega
    rw [caretRow, hcolumn]
  refine ⟨excerptOf_eq_empty_iff, fun hpos hle => ?_⟩
  refine ⟨fun k => numberedRow width k ((lines[k - 1]?).getD ""), ?_⟩
  intro rows
  have hrows : excerptRows lines line column = rows := by
    simp only [excerptRows_eq hpos hle, hfirst, hlast, hwidth, hcaret]
    rfl
  refine ⟨?_, ?_, fun k hfrom hto => ?_⟩
  · have hthere : ¬ (line = 0 ∨ lines.length < line) := by omega
    rw [excerpt, excerptOf_eq_joinRows hthere, hrows]
  · rw [← hrows]
    exact oneLine_of_mem_excerptRows (fun _ => oneLine_of_mem_sourceLines) line column
  · have hk : 1 ≤ k := by omega
    have hin : k - 1 < lines.length := by omega
    have hfits : (toString k).length ≤ width := by
      rw [← hwidth]
      exact length_toString_le_gutterWidth (by omega)
    refine ⟨lines[k - 1], _, hk, List.getElem?_eq_getElem hin, ?_, ?_, rfl⟩
    · simp only [numberedRow, Text.padded_eq_spaces, List.getElem?_eq_getElem hin, Option.getD_some]
    · rw [String.length_append, Text.length_spaces]
      omega

/-- Line 9 of ten: the window reaches into two-digit numbers, and column 0 counts as column 1. -/
theorem excerpt_shows_window_ninth :
    let source := "a\nb\r\nc\rd\n\nf\ng\nh\ni\nj"
    (excerpt source 9 0 ≠ "" ∧ excerpt source 11 0 = "") ∧
      ∃ row : Nat → String,
        excerpt source 9 0 = joinRows ["---|--", row 7, row 8, row 9, "   | ^", row 10, "---|--"] ∧
          ∃ text, (sourceLines source)[8]? = some text ∧ row 9 = " 9 | " ++ text := by
  intro source
  have hlength : (sourceLines source).length = 10 := by decide +kernel
  obtain ⟨hempty, hwindow⟩ := excerpt_shows_window source 9 0
  have hbeyond := (excerpt_shows_window source 11 0).1.mpr (by omega)
  obtain ⟨row, hrows, -, hrow⟩ := hwindow (by decide) (by omega)
  have hlast : min (sourceLines source).length (9 + 2) = 10 := by omega
  have hwidth : (toString 10).length = 2 := by decide +kernel
  simp only [hlast, hwidth] at hrows hrow
  refine ⟨⟨fun h => ?_, hbeyond⟩, row, ?_, ?_⟩
  · have habsent := hempty.mp h
    omega
  · exact hrows
  · obtain ⟨text, gutter, -, htext, htold, -, hgutter⟩ := hrow 9 (by decide) (by decide)
    have hnine : gutter = " 9" := by rw [hgutter]; decide +kernel
    exact ⟨text, htext, by simp [htold, hnine]⟩

end Abnf
