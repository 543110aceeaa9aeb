import Abnf.Source.Cursor
import Mathlib.Data.List.DropRight

/-! Where a place is in its text, told from the text before it: how many lines end there, and how
many characters stand behind the last of them. -/

namespace Abnf

def Text.isLineEnd (c : Char) : Bool := c == '\n' || c == '\r'

/-- How many lines end in a text. A carriage return directly before a line feed counts with it. -/
def lineEnds : List Char → Nat
  | [] => 0
  | c :: rest => (if c = '\n' ∨ c = '\r' ∧ rest.head? ≠ some '\n' then 1 else 0) + lineEnds rest

/-- How many characters stand behind the last line end of a text. -/
def sinceLineEnd (text : List Char) : Nat := (text.rtakeWhile (!Text.isLineEnd ·)).length

/-- No line end lies across the cut between two parts of a text. -/
def IsBoundary (before ahead : List Char) : Prop :=
  before.getLast? = some '\r' → ahead.head? ≠ some '\n'

theorem isBoundary_nil_left (ahead : List Char) : IsBoundary [] ahead := by simp [IsBoundary]

theorem isBoundary_nil_right (before : List Char) : IsBoundary before [] := by simp [IsBoundary]

theorem IsBoundary.of_cons {c : Char} {before ahead : List Char} (hne : before ≠ [])
    (h : IsBoundary (c :: before) ahead) : IsBoundary before ahead := by
  intro hl
  apply h
  rwa [List.getLast?_cons_of_ne_nil hne]

theorem IsBoundary.append_left {before ahead : List Char} (h : IsBoundary before ahead)
    (hne : before ≠ []) (first : List Char) : IsBoundary (first ++ before) ahead := by
  intro hl
  apply h
  rwa [List.getLast?_append_of_ne_nil _ hne] at hl

theorem IsBoundary.of_append_left {first before ahead : List Char}
    (h : IsBoundary (first ++ before) ahead) : IsBoundary before ahead := by
  intro hl
  apply h
  rw [List.getLast?_append, hl]
  rfl

theorem IsBoundary.of_prefix_ahead {before ahead more : List Char} (h : IsBoundary before ahead)
    (hp : more <+: ahead) : IsBoundary before more := by
  obtain ⟨rest, rfl⟩ := hp
  intro hl hn
  apply h hl
  rw [List.head?_append, hn]
  rfl

theorem isBoundary_of_inline {before ahead : List Char}
    (h : ∀ c ∈ before, Text.isLineEnd c = false) : IsBoundary before ahead := by
  intro hl
  have hc := h _ (List.mem_of_getLast? hl)
  simp [Text.isLineEnd] at hc

theorem isBoundary_of_inline_right {before ahead : List Char}
    (h : ∀ c ∈ ahead, Text.isLineEnd c = false) : IsBoundary before ahead := by
  intro _ hn
  have hc := h _ (List.mem_of_head? hn)
  simp [Text.isLineEnd] at hc

theorem IsBoundary.advance {before text ahead : List Char} (h : IsBoundary before (text ++ ahead))
    (ht : ∀ c ∈ text, Text.isLineEnd c = false) : IsBoundary (before ++ text) ahead := by
  by_cases hne : text = []
  · simpa [hne] using h
  · exact (isBoundary_of_inline ht).append_left hne before

theorem IsBoundary.advance_cons {before ahead : List Char} {c : Char}
    (h : IsBoundary before (c :: ahead)) (hc : Text.isLineEnd c = false) :
    IsBoundary (before ++ [c]) ahead := by
  have hinline : ∀ d ∈ [c], Text.isLineEnd d = false := by simpa using hc
  exact advance h hinline

theorem lineEnds_append {before ahead : List Char} (h : IsBoundary before ahead) :
    lineEnds (before ++ ahead) = lineEnds before + lineEnds ahead := by
  induction before with
  | nil => simp [lineEnds]
  | cons c before ih =>
    cases before with
    | nil =>
      have hh : c = '\r' → ahead.head? ≠ some '\n' := fun hc => h (by simp [hc])
      simp only [List.cons_append, List.nil_append, lineEnds, List.head?_nil, Nat.add_zero]
      congr 1
      by_cases hc : c = '\r' <;> simp [hc, hh]
    | cons d before =>
      have hh := ih (h.of_cons (by simp))
      rw [List.cons_append, lineEnds, hh, lineEnds.eq_2 c, Nat.add_assoc]
      rfl

theorem lineEnds_cons {c : Char} (hc : Text.isLineEnd c = false) (text : List Char) :
    lineEnds (c :: text) = lineEnds text := by
  simp only [Text.isLineEnd, Bool.or_eq_false_iff, beq_eq_false_iff_ne] at hc
  simp [lineEnds, hc.1, hc.2]

theorem lineEnds_of_inline {text : List Char} (h : ∀ c ∈ text, Text.isLineEnd c = false) :
    lineEnds text = 0 := by
  induction text with
  | nil => rfl
  | cons c text ih => rw [lineEnds_cons (h c (by simp)), ih fun d hd => h d (by simp [hd])]

theorem lineEnds_concat (before : List Char) {c : Char} (hc : Text.isLineEnd c = false) :
    lineEnds (before ++ [c]) = lineEnds before := by
  have hinline : ∀ d ∈ [c], Text.isLineEnd d = false := by simpa using hc
  rw [lineEnds_append (isBoundary_of_inline_right hinline), lineEnds_of_inline hinline, Nat.add_zero]

theorem lineEnds_pos {text : List Char} {c : Char} (hm : c ∈ text)
    (hc : Text.isLineEnd c = true) : 0 < lineEnds text := by
  induction text with
  | nil => simp at hm
  | cons d text ih =>
    by_cases ht : c ∈ text
    · have hh := ih ht
      simp only [lineEnds]
      omega
    · obtain rfl : c = d := by simpa [ht] using hm
      simp only [Text.isLineEnd, Bool.or_eq_true, beq_iff_eq] at hc
      -- a carriage return may leave the counting to the line feed behind it
      cases text with
      | nil => simp [lineEnds, hc]
      | cons e text =>
        by_cases he : e = '\n'
        · simp only [lineEnds, he, true_or, if_true]
          omega
        · simp only [lineEnds, List.head?_cons, Option.some.injEq, ne_eq, he, not_false_eq_true,
            and_true, hc, if_true]
          omega

theorem sinceLineEnd_append_inline (before : List Char) {text : List Char}
    (h : ∀ c ∈ text, Text.isLineEnd c = false) :
    sinceLineEnd (before ++ text) = sinceLineEnd before + text.length := by
  induction text using List.reverseRecOn with
  | nil => simp
  | append_singleton text c ih =>
    have hc := h c (by simp)
    have hh := ih (fun d hd => h d (by simp [hd]))
    rw [← List.append_assoc]
    simp only [sinceLineEnd] at hh ⊢
    rw [List.rtakeWhile_concat_pos _ _ _ (by simp [hc])]
    simp only [List.length_append, hh, List.length_singleton, Nat.add_assoc]

theorem sinceLineEnd_concat_lineEnd (before : List Char) {c : Char} (hc : Text.isLineEnd c = true) :
    sinceLineEnd (before ++ [c]) = 0 := by
  simp [sinceLineEnd, hc]

inductive LineEnd where
  | lineFeed
  | carriageReturn
  | pair
deriving DecidableEq, Repr

namespace LineEnd

def text : LineEnd → List Char
  | lineFeed => ['\n']
  | carriageReturn => ['\r']
  | pair => ['\r', '\n']

theorem text_ne_nil (e : LineEnd) : e.text ≠ [] := by cases e <;> simp [text]

theorem isLineEnd_of_mem_text {e : LineEnd} {c : Char} (h : c ∈ e.text) :
    Text.isLineEnd c = true := by
  cases e <;> simp [text] at h <;> grind [Text.isLineEnd]

/-- The line feed of a pair does not start a line end. -/
theorem eq_nil_of_text_eq {e : LineEnd} {c : Char} {first more after : List Char}
    (h : e.text = first ++ c :: more) (hb : IsBoundary first (c :: after)) : first = [] := by
  cases first with
  | nil => rfl
  | cons d first =>
    cases e with
    | lineFeed | carriageReturn => simp [text] at h
    | pair =>
      obtain ⟨rfl, hf, rfl, -⟩ : '\r' = d ∧ first = [] ∧ c = '\n' ∧ more = [] := by
        simpa [text, List.singleton_eq_append_iff] using h
      simp [IsBoundary, hf] at hb

theorem lineEnds_text (e : LineEnd) : lineEnds e.text = 1 := by cases e <;> rfl

theorem sinceLineEnd_append_text (before : List Char) (e : LineEnd) :
    sinceLineEnd (before ++ e.text) = 0 := by
  cases e with
  | lineFeed => exact sinceLineEnd_concat_lineEnd before rfl
  | carriageReturn => exact sinceLineEnd_concat_lineEnd before rfl
  | pair =>
    have hh := sinceLineEnd_concat_lineEnd (before ++ ['\r']) (c := '\n') rfl
    simpa [text] using hh

end LineEnd

theorem lineEnds_append_text {before rest : List Char} {e : LineEnd}
    (hb : IsBoundary before (e.text ++ rest)) :
    lineEnds (before ++ e.text) = lineEnds before + 1 := by
  rw [lineEnds_append (hb.of_prefix_ahead (List.prefix_append _ _)), e.lineEnds_text]

theorem exists_lineEnd {c : Char} (hc : Text.isLineEnd c = true) (text : List Char) :
    ∃ (e : LineEnd) (rest : List Char), c :: text = e.text ++ rest ∧ IsBoundary e.text rest := by
  simp only [Text.isLineEnd, Bool.or_eq_true, beq_iff_eq] at hc
  rcases hc with rfl | rfl
  · exact ⟨.lineFeed, text, rfl, by simp [IsBoundary, LineEnd.text]⟩
  · by_cases hh : text.head? = some '\n'
    · obtain ⟨more, rfl⟩ := List.head?_eq_some_iff.mp hh
      exact ⟨.pair, more, rfl, by simp [IsBoundary, LineEnd.text]⟩
    · exact ⟨.carriageReturn, text, rfl, fun _ => hh⟩

namespace Place

/-- The place between two parts of a text. -/
def between (before ahead : List Char) : Place :=
  ⟨before.length, lineEnds before, sinceLineEnd before, ahead⟩

theorem start_eq_between (text : List Char) : start text = between [] text := by
  simp [start, between, lineEnds, sinceLineEnd]

theorem symbol_between_nil (before : List Char) : (between before []).symbol = .endOfInput := rfl

theorem next_between_nil (before : List Char) : (between before []).next = between before [] := rfl

theorem symbol_between_cons (before : List Char) (c : Char) (rest : List Char) :
    (between before (c :: rest)).symbol = if Text.isLineEnd c then .endOfLine else .char c := by
  simp [symbol, between, Text.isLineEnd]

theorem next_between_inline (before rest : List Char) {c : Char}
    (hc : Text.isLineEnd c = false) :
    (between before (c :: rest)).next = between (before ++ [c]) rest := by
  have hl := lineEnds_concat before hc
  have hs : sinceLineEnd (before ++ [c]) = sinceLineEnd before + 1 :=
    sinceLineEnd_append_inline before (by simpa using hc)
  simp only [Text.isLineEnd, Bool.or_eq_false_iff, beq_eq_false_iff_ne] at hc
  simp [next, between, hc.1, hc.2, hl, hs]

theorem symbol_between_lineEnd (before rest : List Char) (e : LineEnd) :
    (between before (e.text ++ rest)).symbol = .endOfLine := by
  cases e <;> rfl

theorem next_between_lineEnd {before rest : List Char} {e : LineEnd}
    (hb : IsBoundary before (e.text ++ rest)) (he : IsBoundary (before ++ e.text) rest) :
    (between before (e.text ++ rest)).next = between (before ++ e.text) rest := by
  have hl := lineEnds_append_text hb
  have hs := LineEnd.sinceLineEnd_append_text before e
  unfold between
  rw [hl, hs]
  cases e with
  | lineFeed => simp [next, LineEnd.text]
  | carriageReturn =>
    have hr : rest.head? ≠ some '\n' := he (by simp [LineEnd.text])
    simp [next, LineEnd.text, hr]
  | pair => simp [next, LineEnd.text]

end Place

end Abnf
