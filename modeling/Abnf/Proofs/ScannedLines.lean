import Abnf.Proofs.LineCuts
import Abnf.Proofs.Moves

/-! The listed lines are those a cursor finds. What it gives in one line, without the line end, is the
text of that line, and it gives a line end for every line but an unfinished last one. -/

namespace Abnf

/-- What a cursor gives when it is advanced `n` times. -/
def Cursor.given (c : Cursor) (n : Nat) : List Located :=
  (List.range n).map fun i => (c.advance i).next.seen

/-- The characters among the given symbols that stand in a line. -/
def charsOn (line : Nat) (given : List Located) : List Char :=
  given.filterMap fun s => if s.line = line then s.symbol.char? else none

/-- Some character is given behind the last line end. -/
def leavesLineOpen (given : List Located) : Bool :=
  (given.rtakeWhile (!·.symbol.isEndOfLine)).any (·.symbol.char?.isSome)

theorem length_marks_le (text : List Char) : (marks text).length ≤ text.length := by
  induction text using induction_on_lineEnds with
  | nil => simp [marks]
  | inline c rest hc ih => simpa [Mark.marks_cons hc] using ih
  | lineEnd e rest hb ih =>
    have hpos := List.length_pos_iff.mpr e.text_ne_nil
    rw [Mark.marks_lineEnd hb, List.length_cons, List.length_append]
    omega

theorem Mark.length_allBehind (before : List Char) (ms : List Mark) :
    (allBehind before ms).length = ms.length := by
  induction ms generalizing before with
  | nil => rfl
  | cons m ms ih => simp [allBehind, ih]

theorem rtakeWhile_cons {α : Type} (p : α → Bool) (x : α) (l : List α) :
    (x :: l).rtakeWhile p = if l.all p && p x then x :: l else l.rtakeWhile p := by
  induction l using List.reverseRecOn with
  | nil =>
    have hconcat := List.rtakeWhile_concat p [] x
    simpa using hconcat
  | append_singleton l y ih =>
    rw [← List.cons_append, List.rtakeWhile_concat, List.rtakeWhile_concat, ih]
    by_cases hy : p y = true
    · have hall : (l ++ [y]).all p = l.all p := by simp [hy]
      rw [if_pos hy, if_pos hy, hall]
      split <;> simp
    · simp [hy]

theorem map_range_getD {α : Type} (l : List α) (last : α) (extra : Nat) :
    (List.range (l.length + extra)).map (fun i => l[i]?.getD last) =
      l ++ List.replicate extra last := by
  induction l with
  | nil => simp
  | cons x l ih =>
    have hlength : (x :: l).length + extra = l.length + extra + 1 := by
      rw [List.length_cons]
      omega
    rw [hlength, List.range_succ_eq_map, List.map_cons, List.map_map, List.cons_append, ← ih]
    rfl

/-- A cursor gives every mark of its text, and from then on the end of input. -/
theorem Cursor.given_load (source : String) (extra : Nat) :
    ∃ more, (load source).given (source.length + extra) =
      Mark.allBehind [] (marks source.toList) ++
        List.replicate more (endBehind source.toList) := by
  have hle : (marks source.toList).length ≤ source.length := length_marks_le source.toList
  have hstart : (load source).place = .between [] source.toList := Place.start_eq_between _
  obtain ⟨more, hmore⟩ : ∃ more, source.length + extra =
      (Mark.allBehind [] (marks source.toList)).length + more := by
    rw [Mark.length_allBehind]
    exact ⟨source.length + extra - (marks source.toList).length, by omega⟩
  refine ⟨more, ?_⟩
  rw [given, ← map_range_getD, hmore]
  apply List.map_congr_left
  intro i _
  exact (advance_of_between hstart (isBoundary_nil_left _) i).1

section

variable {given ends : List Located} {s : Located} {line : Nat}

theorem charsOn_cons_of_ne (h : s.line ≠ line ∨ s.symbol.char? = none) :
    charsOn line (s :: given) = charsOn line given := by
  rcases h with h | h <;> simp [charsOn, h]

theorem charsOn_cons_char (c : Char) (column : Nat) :
    charsOn line (⟨.char c, line, column⟩ :: given) = c :: charsOn line given := by
  simp [charsOn, Symbol.char?]

theorem charsOn_append (line : Nat) (given more : List Located) :
    charsOn line (given ++ more) = charsOn line given ++ charsOn line more := List.filterMap_append

theorem charsOn_eq_nil_of_ends (h : ∀ s ∈ ends, s.symbol = .endOfInput) : charsOn line ends = [] := by
  rw [charsOn, List.filterMap_eq_nil_iff]
  intro s hs
  simp [h s hs, Symbol.char?]

theorem leavesLineOpen_eq_false_of_ends (h : ∀ s ∈ ends, s.symbol = .endOfInput) :
    leavesLineOpen ends = false := by
  rw [leavesLineOpen, List.any_eq_false]
  intro s hs
  have hm := (List.rtakeWhile_suffix _ ends).subset hs
  simp [h s hm, Symbol.char?]

/-- A character leaves its line open unless a line end is given behind it. -/
theorem leavesLineOpen_cons (s : Located) (given : List Located) :
    leavesLineOpen (s :: given) =
      (leavesLineOpen given || s.symbol.char?.isSome && !given.any (·.symbol.isEndOfLine)) := by
  have hnone : given.all (!·.symbol.isEndOfLine) = !given.any (·.symbol.isEndOfLine) := by
    rw [List.not_any_eq_all_not]
  rw [leavesLineOpen, leavesLineOpen, rtakeWhile_cons, hnone]
  by_cases hend : given.any (·.symbol.isEndOfLine) = true
  · simp [hend]
  · rw [Bool.not_eq_true] at hend
    have hself : given.rtakeWhile (!·.symbol.isEndOfLine) = given := by
      rw [List.rtakeWhile_eq_self_iff, ← List.all_eq_true, hnone, hend]
      rfl
    rw [hself, hend]
    cases hs : s.symbol <;> simp [hs, Symbol.isEndOfLine, Symbol.char?]

end

namespace Mark

variable {before rest : List Char}

theorem allBehind_inline {c : Char} (hc : Text.isLineEnd c = false) :
    allBehind before (marks (c :: rest)) =
      ⟨.char c, lineEnds before + 1, sinceLineEnd before + 1⟩ ::
        allBehind (before ++ [c]) (marks rest) := by
  rw [marks_cons hc]
  rfl

theorem allBehind_lineEnd {e : LineEnd} (he : IsBoundary e.text rest) :
    allBehind before (marks (e.text ++ rest)) =
      ⟨.endOfLine, lineEnds before + 1, sinceLineEnd before + 1⟩ ::
        allBehind (before ++ e.text) (marks rest) := by
  rw [marks_lineEnd he]
  rfl

end Mark

/-- What is ahead stands in the line that is begun or in a later one. -/
theorem charsOn_allBehind_of_le {before rest : List Char} (hb : IsBoundary before rest)
    {line : Nat} (hl : line ≤ lineEnds before) :
    charsOn line (Mark.allBehind before (marks rest)) = [] := by
  induction rest using induction_on_lineEnds generalizing before with
  | nil => rfl
  | inline c rest hc ih =>
    have hrest := ih (hb.advance_cons hc) (by rwa [lineEnds_concat _ hc])
    rw [Mark.allBehind_inline hc, charsOn_cons_of_ne (.inl (by simp; omega)), hrest]
  | lineEnd e rest he ih =>
    have hrest := ih (he.append_left e.text_ne_nil before) (by rw [lineEnds_append_text hb]; omega)
    rw [Mark.allBehind_lineEnd he, charsOn_cons_of_ne (.inr rfl), hrest]

/-- The `j`-th line from here on, of which the characters `begun` were passed, is what is given in it. -/
theorem getElem?_linesFrom_eq_charsOn {before rest : List Char} (hb : IsBoundary before rest)
    (begun : List Char) (j : Nat) :
    ((linesFrom begun rest)[j]?).getD [] = (if j = 0 then begun.reverse else []) ++
      charsOn (lineEnds before + 1 + j) (Mark.allBehind before (marks rest)) := by
  induction rest using induction_on_lineEnds generalizing before begun j with
  | nil =>
    by_cases hbegun : begun = []
    · simp [linesFrom, marks, Mark.allBehind, charsOn, hbegun]
    · cases j <;> simp [linesFrom, marks, Mark.allBehind, charsOn, hbegun]
  | inline c rest hc ih =>
    have hrest := ih (hb.advance_cons hc) (c :: begun) j
    rw [linesFrom_cons begun hc, hrest, lineEnds_concat _ hc, Mark.allBehind_inline hc]
    cases j with
    | zero =>
      rw [Nat.add_zero, charsOn_cons_char]
      simp
    | succ j =>
      rw [charsOn_cons_of_ne (.inl (by simp))]
      simp
  | lineEnd e rest he ih =>
    have hrest := fun j => ih (he.append_left e.text_ne_nil before) [] j
    have hline := lineEnds_append_text hb
    rw [linesFrom_lineEnd begun he, Mark.allBehind_lineEnd he, charsOn_cons_of_ne (.inr rfl)]
    cases j with
    | zero =>
      have hle : lineEnds before + 1 ≤ lineEnds (before ++ e.text) := by omega
      have hnone := charsOn_allBehind_of_le (he.append_left e.text_ne_nil before) hle
      simp [hnone]
    | succ j =>
      have hnumber : lineEnds (before ++ e.text) + 1 + j = lineEnds before + 1 + (j + 1) := by omega
      rw [List.getElem?_cons_succ, hrest j, hnumber]
      simp

/-- A line that is begun counts as soon as it has a character. -/
theorem length_linesFrom_eq (before begun rest : List Char) {ends : List Located}
    (hends : ∀ s ∈ ends, s.symbol = .endOfInput) :
    let given := Mark.allBehind before (marks rest) ++ ends
    (linesFrom begun rest).length = given.countP (·.symbol.isEndOfLine) +
      if leavesLineOpen given || !begun.isEmpty && !given.any (·.symbol.isEndOfLine) then 1 else 0 := by
  intro given
  induction rest using induction_on_lineEnds generalizing before begun with
  | nil =>
    have hcount : ends.countP (·.symbol.isEndOfLine) = 0 := by
      rw [List.countP_eq_zero]
      intro s hs
      simp [hends s hs, Symbol.isEndOfLine]
    have hany : ends.any (·.symbol.isEndOfLine) = false := by
      rw [List.any_eq_false]
      intro s hs
      simp [hends s hs, Symbol.isEndOfLine]
    have hgiven : given = ends := rfl
    rw [hgiven, hcount, hany, leavesLineOpen_eq_false_of_ends hends]
    by_cases hbegun : begun = [] <;> simp [linesFrom, hbegun]
  | inline c rest hc ih =>
    have hrest := ih (before ++ [c]) (c :: begun)
    have hgiven : given = ⟨.char c, lineEnds before + 1, sinceLineEnd before + 1⟩ ::
        (Mark.allBehind (before ++ [c]) (marks rest) ++ ends) := by
      simp only [given, Mark.allBehind_inline hc, List.cons_append]
    rw [linesFrom_cons begun hc, hrest, hgiven, leavesLineOpen_cons]
    generalize Mark.allBehind (before ++ [c]) (marks rest) ++ ends = ahead
    have hchar : (Symbol.char c).isEndOfLine = false := rfl
    simp only [List.countP_cons, List.any_cons, hchar, Symbol.char?, Option.isSome_some]
    cases leavesLineOpen ahead <;> cases ahead.any (·.symbol.isEndOfLine) <;> simp
  | lineEnd e rest he ih =>
    have hrest := ih (before ++ e.text) []
    have hgiven : given = ⟨.endOfLine, lineEnds before + 1, sinceLineEnd before + 1⟩ ::
        (Mark.allBehind (before ++ e.text) (marks rest) ++ ends) := by
      simp only [given, Mark.allBehind_lineEnd he, List.cons_append]
    rw [linesFrom_lineEnd begun he, List.length_cons, hrest, hgiven, leavesLineOpen_cons]
    generalize Mark.allBehind (before ++ e.text) (marks rest) ++ ends = ahead
    simp [Symbol.isEndOfLine, Symbol.char?]
    omega

/-- Two ways to find the lines of a text agree. Cutting it by its bytes never fails, and the `k`-th line
is what a cursor gives in line `k`, up to the line end. There is a line for each line end that the
cursor gives, and one more exactly if it gives a character behind the last of them. -/
theorem cut_lines_are_scanned (source : String) (extra : Nat) :
    let given := (Cursor.load source).given (source.length + extra)
    ∃ lines, Text.cutLines source = some lines ∧ lines = sourceLines source ∧
      lines.length = given.countP (·.symbol.isEndOfLine) + (if leavesLineOpen given then 1 else 0) ∧
      (∀ k line, 1 ≤ k → lines[k - 1]? = some line → line = String.ofList (charsOn k given)) ∧
      ∀ k, k = 0 ∨ lines.length < k → charsOn k given = [] := by
  intro given
  obtain ⟨more, hgiven⟩ : ∃ more, given = Mark.allBehind [] (marks source.toList) ++
      List.replicate more (endBehind source.toList) := Cursor.given_load source extra
  have hends : ∀ s ∈ List.replicate more (endBehind source.toList), s.symbol = .endOfInput := by
    intro s hs
    rw [List.eq_of_mem_replicate hs]
    rfl
  have hahead : ∀ k, charsOn k given = charsOn k (Mark.allBehind [] (marks source.toList)) := by
    intro k
    rw [hgiven, charsOn_append, charsOn_eq_nil_of_ends hends, List.append_nil]
  have hchars : ∀ k, 1 ≤ k → charsOn k given = ((linesFrom [] source.toList)[k - 1]?).getD [] := by
    intro k hk
    have hline := getElem?_linesFrom_eq_charsOn (isBoundary_nil_left source.toList) [] (k - 1)
    have hnumber : lineEnds [] + 1 + (k - 1) = k := by
      rw [lineEnds]
      omega
    rw [hahead, hline, hnumber]
    simp
  have hlength := length_linesFrom_eq [] [] source.toList hends
  rw [← hgiven] at hlength
  refine ⟨_, Text.cutLines_eq source, rfl, by simpa [sourceLines] using hlength, ?_, ?_⟩
  · intro k line hk hline
    rw [sourceLines, List.getElem?_map, Option.map_eq_some_iff] at hline
    obtain ⟨text, htext, rfl⟩ := hline
    rw [hchars k hk, htext, Option.getD_some]
  · intro k hk
    rcases hk with rfl | hk
    · rw [hahead, charsOn_allBehind_of_le (isBoundary_nil_left _) (Nat.zero_le _)]
    · have hbeyond : (linesFrom [] source.toList).length ≤ k - 1 := by
        rw [sourceLines, List.length_map] at hk
        omega
      rw [hchars k (by omega), List.getElem?_eq_none hbeyond]
      rfl

end Abnf
