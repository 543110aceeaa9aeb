import Abnf.Proofs.Lines

/-! The symbols of a text as they are written, each a character or a whole line end. A place that cuts
no line end in two stands between two of them. -/

namespace Abnf

inductive Mark where
  | char (c : Char)
  | lineEnd (e : LineEnd)
deriving DecidableEq, Repr

/-- What a text is written with, from its start to its end. -/
def marks : List Char → List Mark
  | [] => []
  | '\n' :: rest => .lineEnd .lineFeed :: marks rest
  | '\r' :: '\n' :: rest => .lineEnd .pair :: marks rest
  | '\r' :: rest => .lineEnd .carriageReturn :: marks rest
  | c :: rest => .char c :: marks rest

namespace Mark

def text : Mark → List Char
  | char c => [c]
  | lineEnd e => e.text

def symbol : Mark → Symbol
  | char c => .char c
  | lineEnd _ => .endOfLine

/-- A mark that is all of what it starts, before `rest`. -/
def WholeBefore (rest : List Char) : Mark → Prop
  | char c => Text.isLineEnd c = false
  | lineEnd e => IsBoundary e.text rest

/-- The mark as it is seen behind `before`. -/
def behind (m : Mark) (before : List Char) : Located :=
  ⟨m.symbol, lineEnds before + 1, sinceLineEnd before + 1⟩

/-- Marks one after the other, the first one behind `before`. -/
def allBehind (before : List Char) : List Mark → List Located
  | [] => []
  | m :: ms => m.behind before :: allBehind (before ++ m.text) ms

theorem symbol_ne_endOfInput (m : Mark) : m.symbol ≠ .endOfInput := by cases m <;> simp [symbol]

variable {m : Mark} {before rest : List Char}

theorem marks_append_text (h : m.WholeBefore rest) : marks (m.text ++ rest) = m :: marks rest := by
  cases m with
  | char c =>
    simp only [WholeBefore, Text.isLineEnd, Bool.or_eq_false_iff, beq_eq_false_iff_ne] at h
    simp [text, marks, h.1, h.2]
  | lineEnd e =>
    cases e with
    | lineFeed | pair => simp [text, LineEnd.text, marks]
    | carriageReturn =>
      have hr : rest.head? ≠ some '\n' := h rfl
      cases rest with
      | nil => simp [text, LineEnd.text, marks]
      | cons d rest =>
        have hd : d ≠ '\n' := by simpa using hr
        simp [text, LineEnd.text, marks, hd]

theorem marks_cons {c : Char} (hc : Text.isLineEnd c = false) (rest : List Char) :
    marks (c :: rest) = .char c :: marks rest := marks_append_text (m := .char c) hc

theorem marks_lineEnd {e : LineEnd} (he : IsBoundary e.text rest) :
    marks (e.text ++ rest) = .lineEnd e :: marks rest := marks_append_text (m := .lineEnd e) he

theorem exists_mark {text : List Char} (h : text ≠ []) :
    ∃ (m : Mark) (rest : List Char), text = m.text ++ rest ∧ m.WholeBefore rest := by
  obtain ⟨c, more, rfl⟩ := List.exists_cons_of_ne_nil h
  by_cases hc : Text.isLineEnd c = true
  · obtain ⟨e, rest, ht, hb⟩ := exists_lineEnd hc more
    exact ⟨.lineEnd e, rest, ht, hb⟩
  · exact ⟨.char c, more, rfl, by simpa [WholeBefore] using hc⟩

theorem flatMap_text_marks (text : List Char) : (marks text).flatMap Mark.text = text := by
  induction text using induction_on_lineEnds with
  | nil => rfl
  | inline c rest hc ih =>
    rw [marks_cons hc, List.flatMap_cons, ih]
    rfl
  | lineEnd e rest hb ih =>
    rw [marks_lineEnd hb, List.flatMap_cons, ih]
    rfl

theorem isBoundary_text (h : m.WholeBefore rest) (before : List Char) :
    IsBoundary (before ++ m.text) rest := by
  cases m with
  | char c =>
    have hb : IsBoundary [c] rest := isBoundary_of_inline (by simpa [WholeBefore] using h)
    exact hb.append_left (by simp) before
  | lineEnd e => exact IsBoundary.append_left h e.text_ne_nil before

theorem symbol_between (h : m.WholeBefore rest) (before : List Char) :
    (Place.between before (m.text ++ rest)).symbol = m.symbol := by
  cases m with
  | char c =>
    have hc : Text.isLineEnd c = false := h
    simp [text, symbol, Place.symbol_between_cons, hc]
  | lineEnd e => exact Place.symbol_between_lineEnd before rest e

theorem next_between (h : m.WholeBefore rest) (hb : IsBoundary before (m.text ++ rest)) :
    (Place.between before (m.text ++ rest)).next = .between (before ++ m.text) rest := by
  cases m with
  | char c => exact Place.next_between_inline before rest h
  | lineEnd e => exact Place.next_between_lineEnd hb (isBoundary_text h before)

end Mark

end Abnf
