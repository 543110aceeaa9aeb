import Abnf.Proofs.Boundary
import Abnf.Source.Lines

/-! A text line by line: a way to go through it that never cuts a line end in two, the line in which
it stops, and the lines that are listed for it. -/

namespace Abnf

@[elab_as_elim]
theorem induction_on_lineEnds {motive : List Char → Prop} (text : List Char) (nil : motive [])
    (inline : ∀ c rest, Text.isLineEnd c = false → motive rest → motive (c :: rest))
    (lineEnd : ∀ (e : LineEnd) rest, IsBoundary e.text rest → motive rest →
      motive (e.text ++ rest)) : motive text := by
  induction hn : text.length using Nat.strong_induction_on generalizing text with
  | _ n ih =>
    cases text with
    | nil => exact nil
    | cons c text =>
      by_cases hc : Text.isLineEnd c = true
      · obtain ⟨e, rest, ht, hb⟩ := exists_lineEnd hc text
        have hlen : rest.length < n := by
          have hpos := List.length_pos_iff.mpr e.text_ne_nil
          rw [← hn, ht, List.length_append]
          omega
        rw [ht]
        exact lineEnd e rest hb (ih _ hlen rest rfl)
      · have hlen : text.length < n := by
          rw [← hn, List.length_cons]
          omega
        exact inline c text (by simpa using hc) (ih _ hlen text rfl)

/-- No line of the text is left unfinished. -/
def EndsLine (text : List Char) : Prop := ∀ c ∈ text.getLast?, Text.isLineEnd c = true

theorem endsLine_cons {c : Char} {text : List Char} :
    EndsLine (c :: text) ↔ EndsLine text ∧ (text = [] → Text.isLineEnd c = true) := by
  cases text <;> simp [EndsLine]

theorem EndsLine.append {text more : List Char} (h : EndsLine text) (hm : EndsLine more) :
    EndsLine (text ++ more) := by
  by_cases hne : more = []
  · simpa [hne] using h
  · intro c hc
    rw [List.getLast?_append_of_ne_nil _ hne] at hc
    exact hm c hc

theorem EndsLine.of_append_left {first text : List Char} (h : EndsLine (first ++ text)) :
    EndsLine text := by
  intro c hc
  apply h
  rw [List.getLast?_append, hc]
  rfl

theorem sinceLineEnd_of_endsLine {text : List Char} (h : EndsLine text) :
    sinceLineEnd text = 0 := by
  cases text using List.reverseRecOn with
  | nil => rfl
  | append_singleton text c => exact sinceLineEnd_concat_lineEnd text (h c (by simp))

theorem sinceLineEnd_append {text line : List Char} (h : EndsLine text)
    (hl : ∀ c ∈ line, Text.isLineEnd c = false) : sinceLineEnd (text ++ line) = line.length := by
  rw [sinceLineEnd_append_inline text hl, sinceLineEnd_of_endsLine h, Nat.zero_add]

theorem exists_lastLine (text : List Char) :
    ∃ full line, text = full ++ line ∧ EndsLine full ∧ ∀ c ∈ line, Text.isLineEnd c = false := by
  refine ⟨text.rdropWhile (!Text.isLineEnd ·), text.rtakeWhile (!Text.isLineEnd ·),
    (List.rdropWhile_append_rtakeWhile ..).symm, ?_, ?_⟩
  · intro c hc
    have hne : text.rdropWhile (!Text.isLineEnd ·) ≠ [] := by
      intro he
      simp [he] at hc
    have hh := List.rdropWhile_last_not (!Text.isLineEnd ·) text hne
    rw [List.getLast?_eq_some_getLast hne, Option.mem_def, Option.some.injEq] at hc
    simpa [hc] using hh
  · intro c hc
    simpa using List.mem_rtakeWhile_imp hc

theorem sinceLineEnd_append_of_endsLine {before : List Char} (h : EndsLine before)
    (text : List Char) : sinceLineEnd (before ++ text) = sinceLineEnd text := by
  obtain ⟨full, line, rfl, hf, hl⟩ := exists_lastLine text
  rw [← List.append_assoc, sinceLineEnd_append (h.append hf) hl, sinceLineEnd_append hf hl]

section

variable {text rest : List Char}

theorem linesFrom_cons (begun : List Char) {c : Char} (hc : Text.isLineEnd c = false) :
    linesFrom begun (c :: rest) = linesFrom (c :: begun) rest := by
  simp only [Text.isLineEnd, Bool.or_eq_false_iff, beq_eq_false_iff_ne] at hc
  simp [linesFrom, hc.1, hc.2]

theorem linesFrom_append_inline (begun : List Char) (h : ∀ c ∈ text, Text.isLineEnd c = false) :
    linesFrom begun (text ++ rest) = linesFrom (text.reverse ++ begun) rest := by
  induction text generalizing begun with
  | nil => rfl
  | cons c text ih =>
    rw [List.cons_append, linesFrom_cons begun (h c (by simp)),
      ih (c :: begun) fun d hd => h d (by simp [hd])]
    simp

theorem linesFrom_lineEnd (begun : List Char) {e : LineEnd} (hb : IsBoundary e.text rest) :
    linesFrom begun (e.text ++ rest) = begun.reverse :: linesFrom [] rest := by
  cases e with
  | lineFeed | pair => simp [LineEnd.text, linesFrom]
  | carriageReturn =>
    have hr : rest.head? ≠ some '\n' := hb rfl
    cases rest with
    | nil => simp [LineEnd.text, linesFrom]
    | cons d rest =>
      have hd : d ≠ '\n' := by simpa using hr
      simp [LineEnd.text, linesFrom, hd]

/-- The lines of a text that has finished its lines are listed whatever is behind them. -/
theorem linesFrom_append {begun : List Char} (h : EndsLine text) (hb : IsBoundary text rest)
    (hbegun : text = [] → begun = []) :
    linesFrom begun (text ++ rest) = linesFrom begun text ++ linesFrom [] rest ∧
      (linesFrom begun text).length = lineEnds text := by
  induction text using induction_on_lineEnds generalizing begun with
  | nil => simp [hbegun rfl, linesFrom, lineEnds]
  | inline c text hc ih =>
    obtain ⟨ht, hlast⟩ := endsLine_cons.mp h
    have hne : text ≠ [] := by
      intro he
      rw [hlast he] at hc
      exact Bool.noConfusion hc
    have hh := @ih (c :: begun) ht (hb.of_cons hne) (fun he => absurd he hne)
    rw [List.cons_append, linesFrom_cons begun hc, linesFrom_cons begun hc, lineEnds_cons hc]
    exact hh
  | lineEnd e text he ih =>
    have hh := @ih [] h.of_append_left hb.of_append_left (fun _ => rfl)
    have he' : IsBoundary e.text (text ++ rest) := by
      by_cases hne : text = []
      · simpa [hne] using hb
      · intro hl
        rw [List.head?_append_of_ne_nil _ hne]
        exact he hl
    rw [List.append_assoc, linesFrom_lineEnd begun he', linesFrom_lineEnd begun he, hh.1,
      List.length_cons, hh.2, lineEnds_append he, e.lineEnds_text]
    exact ⟨rfl, Nat.add_comm _ _⟩

theorem exists_head_linesFrom {begun : List Char} (hbegun : begun ≠ []) (text : List Char) :
    ∃ tail, (linesFrom begun text).head? = some (begun.reverse ++ tail) := by
  induction text using induction_on_lineEnds generalizing begun with
  | nil => exact ⟨[], by simp [linesFrom, hbegun]⟩
  | inline c text hc ih =>
    obtain ⟨tail, hh⟩ := @ih (c :: begun) (by simp)
    exact ⟨c :: tail, by simpa [linesFrom_cons begun hc] using hh⟩
  | lineEnd e text he ih => exact ⟨[], by simp [linesFrom_lineEnd begun he]⟩

/-- What stands before a character says in which line it is, and where. -/
theorem exists_getElem?_linesFrom (before : List Char) {c : Char} (hc : Text.isLineEnd c = false)
    (rest : List Char) :
    ∃ line tail,
      (linesFrom [] (before ++ c :: rest))[lineEnds before]? = some (line ++ c :: tail) ∧
        line.length = sinceLineEnd before := by
  obtain ⟨full, line, rfl, hf, hl⟩ := exists_lastLine before
  have hinline : ∀ d ∈ line ++ [c], Text.isLineEnd d = false := by
    intro d hd
    rcases List.mem_append.mp hd with hd | hd
    · exact hl d hd
    · exact List.mem_singleton.mp hd ▸ hc
  have hb : IsBoundary full (line ++ [c]) := isBoundary_of_inline_right hinline
  have hb' : IsBoundary full (line ++ [c] ++ rest) := by
    intro he
    rw [List.head?_append_of_ne_nil _ (by simp)]
    exact hb he
  have hz : lineEnds (full ++ line) = lineEnds full := by
    rw [lineEnds_append (isBoundary_of_inline_right hl), lineEnds_of_inline hl, Nat.add_zero]
  have hne : (line ++ [c]).reverse ++ [] ≠ [] := by simp
  obtain ⟨tail, ht⟩ := exists_head_linesFrom hne rest
  obtain ⟨happend, hlen⟩ := @linesFrom_append _ _ [] hf hb' (fun _ => rfl)
  refine ⟨line, tail, ?_, (sinceLineEnd_append hf hl).symm⟩
  have hs : full ++ line ++ c :: rest = full ++ (line ++ [c] ++ rest) := by simp
  rw [hs, happend, hz, ← hlen, List.getElem?_append_right (Nat.le_refl _), Nat.sub_self,
    linesFrom_append_inline [] hinline, ← List.head?_eq_getElem?, ht]
  simp

end

end Abnf
