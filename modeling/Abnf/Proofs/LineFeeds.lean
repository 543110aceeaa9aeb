import Abnf.Proofs.Lines
import Abnf.Proofs.Positions
import Abnf.Source.Excerpt

/-! It makes no difference how a source spells its line ends. With a line feed for each of them it
has the same tokens, diagnostics, lines and excerpts. -/

namespace Abnf

namespace Text

/-- Every line end becomes a single line feed. -/
def unifyLineEnds : List Char → List Char
  | [] => []
  | c :: rest =>
    if c = '\r' ∧ rest.head? = some '\n' then unifyLineEnds rest
    else (if c = '\r' then '\n' else c) :: unifyLineEnds rest

theorem unifyLineEnds_cons {c : Char} (hc : isLineEnd c = false) (rest : List Char) :
    unifyLineEnds (c :: rest) = c :: unifyLineEnds rest := by
  simp only [isLineEnd, Bool.or_eq_false_iff, beq_eq_false_iff_ne] at hc
  simp [unifyLineEnds, hc.2]

theorem unifyLineEnds_of_inline {text : List Char} (h : ∀ c ∈ text, isLineEnd c = false) :
    unifyLineEnds text = text := by
  induction text with
  | nil => rfl
  | cons c text ih =>
    rw [unifyLineEnds_cons (h c (by simp)), ih fun d hd => h d (by simp [hd])]

theorem unifyLineEnds_text (e : LineEnd) : unifyLineEnds e.text = ['\n'] := by
  cases e <;> simp [LineEnd.text, unifyLineEnds]

theorem unifyLineEnds_append {before ahead : List Char} (hb : IsBoundary before ahead) :
    unifyLineEnds (before ++ ahead) = unifyLineEnds before ++ unifyLineEnds ahead := by
  induction before with
  | nil => rfl
  | cons c before ih =>
    by_cases hne : before = []
    · have hh : ¬ (c = '\r' ∧ ahead.head? = some '\n') := by
        rintro ⟨rfl, hn⟩
        exact hb (by simp [hne]) hn
      simp [hne, unifyLineEnds, hh]
    · have hh : (before ++ ahead).head? = before.head? := List.head?_append_of_ne_nil _ hne
      rw [List.cons_append, unifyLineEnds, unifyLineEnds, hh, ih (hb.of_cons hne)]
      by_cases hp : c = '\r' ∧ before.head? = some '\n' <;> simp [hp]

theorem unifyLineEnds_lineEnd {e : LineEnd} {rest : List Char} (hb : IsBoundary e.text rest) :
    unifyLineEnds (e.text ++ rest) = '\n' :: unifyLineEnds rest := by
  rw [unifyLineEnds_append hb, unifyLineEnds_text, List.singleton_append]

example : unifyLineEnds "a\r\r\nb\n\r".toList = "a\n\nb\n\n".toList := by decide

theorem carriageReturn_notMem_unifyLineEnds (text : List Char) : '\r' ∉ unifyLineEnds text := by
  induction text using induction_on_lineEnds with
  | nil => simp [unifyLineEnds]
  | inline c text hc ih =>
    have hne : '\r' ≠ c := by
      rintro rfl
      simp [isLineEnd] at hc
    simp [unifyLineEnds_cons hc, hne, ih]
  | lineEnd e text hb ih => simp [unifyLineEnds_lineEnd hb, ih]

theorem eq_nil_of_unifyLineEnds {text : List Char} (h : unifyLineEnds text = []) : text = [] := by
  cases text using induction_on_lineEnds with
  | nil => rfl
  | inline c text hc => simp [unifyLineEnds_cons hc] at h
  | lineEnd e text hb => simp [unifyLineEnds_lineEnd hb] at h

theorem lineEnds_unifyLineEnds (text : List Char) :
    lineEnds (unifyLineEnds text) = lineEnds text := by
  induction text using induction_on_lineEnds with
  | nil => rfl
  | inline c text hc ih => rw [unifyLineEnds_cons hc, lineEnds_cons hc, lineEnds_cons hc, ih]
  | lineEnd e text hb ih =>
    rw [unifyLineEnds_lineEnd hb, lineEnds_append hb, e.lineEnds_text, lineEnds, ih]
    simp

theorem endsLine_unifyLineEnds {text : List Char} (h : EndsLine text) :
    EndsLine (unifyLineEnds text) := by
  induction text using induction_on_lineEnds with
  | nil => exact h
  | inline c text hc ih =>
    obtain ⟨ht, hlast⟩ := endsLine_cons.mp h
    rw [unifyLineEnds_cons hc, endsLine_cons]
    exact ⟨ih ht, fun he => hlast (eq_nil_of_unifyLineEnds he)⟩
  | lineEnd e text hb ih =>
    rw [unifyLineEnds_lineEnd hb, endsLine_cons]
    exact ⟨ih h.of_append_left, fun _ => rfl⟩

theorem sinceLineEnd_unifyLineEnds (text : List Char) :
    sinceLineEnd (unifyLineEnds text) = sinceLineEnd text := by
  obtain ⟨full, line, rfl, hf, hl⟩ := exists_lastLine text
  rw [unifyLineEnds_append (isBoundary_of_inline_right hl), unifyLineEnds_of_inline hl,
    sinceLineEnd_append hf hl, sinceLineEnd_append (endsLine_unifyLineEnds hf) hl]

theorem linesFrom_unifyLineEnds (begun text : List Char) :
    linesFrom begun (unifyLineEnds text) = linesFrom begun text := by
  induction text using induction_on_lineEnds generalizing begun with
  | nil => rfl
  | inline c text hc ih =>
    rw [unifyLineEnds_cons hc, linesFrom_cons begun hc, linesFrom_cons begun hc, ih]
  | lineEnd e text hb ih =>
    have hlf : IsBoundary (LineEnd.text .lineFeed) (unifyLineEnds text) := by
      simp [IsBoundary, LineEnd.text]
    rw [unifyLineEnds_lineEnd hb, linesFrom_lineEnd begun hb, ← ih]
    exact linesFrom_lineEnd begun hlf

/-- What stops a run still stops it, unless it is a line end and the run goes on over line feeds. -/
theorem head?_unifyLineEnds {accept : Char → Bool} {rest : List Char}
    (hn : accept '\n' = false) (h : ∀ c ∈ rest.head?, accept c = false) :
    ∀ c ∈ (unifyLineEnds rest).head?, accept c = false := by
  intro c hc
  cases rest using induction_on_lineEnds with
  | nil => simp [unifyLineEnds] at hc
  | inline d rest hd =>
    obtain rfl : d = c := by simpa [unifyLineEnds_cons hd] using hc
    exact h d rfl
  | lineEnd e rest hb =>
    obtain rfl : '\n' = c := by simpa [unifyLineEnds_lineEnd hb] using hc
    exact hn

end Text

theorem AtLineEnd.unifyLineEnds {rest : List Char} (h : AtLineEnd rest) :
    AtLineEnd (Text.unifyLineEnds rest) := by
  have hh : ∀ c ∈ (Text.unifyLineEnds rest).head?, (!Text.isLineEnd c) = false :=
    Text.head?_unifyLineEnds rfl fun c hc => by simpa using h c hc
  intro c hc
  simpa using hh c hc

namespace Spelling

def unified : Spelling → Spelling
  | lineEnd _ => lineEnd .lineFeed
  | f => f

variable {f : Spelling}

theorem kind_unified (f : Spelling) : f.unified.kind = f.kind := by cases f <;> rfl

theorem value_unified (f : Spelling) : f.unified.value = f.value := by cases f <;> rfl

theorem problem?_unified (f : Spelling) : f.unified.problem? = f.problem? := by cases f <;> rfl

theorem Valid.unified (hv : f.Valid) : f.unified.Valid := by
  cases f with
  | lineEnd e => trivial
  | comment | terminalValue | delimited | ruleName | alternative | equals | unknown => exact hv

theorem unifyLineEnds_text (hv : f.Valid) : Text.unifyLineEnds f.text = f.unified.text := by
  by_cases hk : f.kind = .endOfLine
  · obtain ⟨e, rfl⟩ := eq_lineEnd_of_kind hk
    exact Text.unifyLineEnds_text e
  · rw [Text.unifyLineEnds_of_inline (inline_text hv hk)]
    cases f with
    | lineEnd e => exact absurd rfl hk
    | comment | terminalValue | delimited | ruleName | alternative | equals | unknown => rfl

theorem EndsAt.unified {rest : List Char} (he : f.EndsAt rest) :
    f.unified.EndsAt (Text.unifyLineEnds rest) := by
  cases f with
  | lineEnd e => simp [Spelling.unified, EndsAt, IsBoundary, LineEnd.text]
  | comment body => exact AtLineEnd.unifyLineEnds he
  | terminalValue body => exact Text.head?_unifyLineEnds rfl he
  | delimited d body closed => exact he.imp_right AtLineEnd.unifyLineEnds
  | ruleName letters => exact Text.head?_unifyLineEnds rfl he
  | alternative | equals | unknown => trivial

end Spelling

def Tile.unified (t : Tile) : Tile := ⟨t.gap, t.form.unified⟩

theorem Tile.unifyLineEnds_text {t : Tile} (hg : ∀ c ∈ t.gap, Text.isSpacing c = true)
    (hv : t.form.Valid) : Text.unifyLineEnds t.text = t.unified.text := by
  have hl := Text.inline_of_spacing hg
  rw [text, Text.unifyLineEnds_append (isBoundary_of_inline hl), Text.unifyLineEnds_of_inline hl,
    Spelling.unifyLineEnds_text hv]
  rfl

theorem Tiling.unified {source rest : List Char} {tiles : List Tile}
    (h : Tiling source tiles rest) :
    Tiling (Text.unifyLineEnds source) (tiles.map Tile.unified) rest := by
  induction h with
  | @last rest hr =>
    rw [Text.unifyLineEnds_of_inline (Text.inline_of_spacing hr)]
    exact .last hr
  | @cons t source rest tiles hg hv he h ih =>
    have hl := Text.inline_of_spacing hg
    rw [Text.unifyLineEnds_append (isBoundary_of_inline hl), Text.unifyLineEnds_of_inline hl,
      Text.unifyLineEnds_append (Spelling.isBoundary_text hv he), Spelling.unifyLineEnds_text hv]
    exact .cons (t := t.unified) hg hv.unified he.unified ih

theorem Token.behind_unifyLineEnds (kind : Kind) (value : String) (before : List Char) :
    Token.behind kind value (Text.unifyLineEnds before) = .behind kind value before := by
  rw [behind, Text.lineEnds_unifyLineEnds, Text.sinceLineEnd_unifyLineEnds, behind]

theorem Spelling.reportBehind_unifyLineEnds (f : Spelling) (before : List Char) :
    f.unified.reportBehind (Text.unifyLineEnds before) = f.reportBehind before := by
  rw [reportBehind, problem?_unified, Text.lineEnds_unifyLineEnds,
    Text.sinceLineEnd_unifyLineEnds, reportBehind]

namespace Tiling

variable {source rest before : List Char} {tiles : List Tile}

theorem tokensBehind_unified (h : Tiling source tiles rest) (hb : IsBoundary before source) :
    tokensBehind (Text.unifyLineEnds before) rest (tiles.map Tile.unified) =
        tokensBehind before rest tiles ∧
      reportsBehind (Text.unifyLineEnds before) (tiles.map Tile.unified) =
        reportsBehind before tiles := by
  induction h generalizing before with
  | @last rest hr =>
    have hl := Text.inline_of_spacing hr
    have ht := Token.behind_unifyLineEnds .endOfInput "" (before ++ rest)
    rw [Text.unifyLineEnds_append (isBoundary_of_inline_right hl),
      Text.unifyLineEnds_of_inline hl] at ht
    exact ⟨congrArg (fun k => [k]) ht, rfl⟩
  | @cons t source rest tiles hg hv he h ih =>
    have hl := Text.inline_of_spacing hg
    have hp : t.text <+: t.gap ++ (t.form.text ++ source) := ⟨source, by simp [Tile.text]⟩
    have hgap : Text.unifyLineEnds (before ++ t.gap) = Text.unifyLineEnds before ++ t.gap := by
      rw [Text.unifyLineEnds_append (isBoundary_of_inline_right hl),
        Text.unifyLineEnds_of_inline hl]
    have htext : Text.unifyLineEnds (before ++ t.text) =
        Text.unifyLineEnds before ++ t.unified.text := by
      rw [Text.unifyLineEnds_append (hb.of_prefix_ahead hp), Tile.unifyLineEnds_text hg hv]
    obtain ⟨htokens, hreports⟩ := ih (Tile.isBoundary_text hv he before)
    have hk := Token.behind_unifyLineEnds t.form.kind t.form.value (before ++ t.gap)
    have hf := t.form.reportBehind_unifyLineEnds (before ++ t.gap)
    rw [hgap] at hk hf
    rw [htext] at htokens hreports
    constructor
    · rw [List.map_cons, tokensBehind, tokensBehind, htokens, ← hk, ← t.form.kind_unified,
        ← t.form.value_unified]
      rfl
    · rw [List.map_cons, reportsBehind, reportsBehind, hreports, ← hf]
      rfl

end Tiling

namespace Lexer

/-- A source and the same source with line feeds only cannot be told apart. -/
theorem line_end_spelling_is_immaterial (source : String) :
    let unified := String.ofList (Text.unifyLineEnds source.toList)
    '\r' ∉ unified.toList ∧ tokens unified = tokens source ∧
    (∀ options, (ofText options unified).drain.tokens = (ofText options source).drain.tokens ∧
      (ofText options unified).drain.lexer.diagnostics =
        (ofText options source).drain.lexer.diagnostics) ∧
    sourceLines unified = sourceLines source ∧
    ∀ line column, excerpt unified line column = excerpt source line column := by
  intro unified
  obtain ⟨tiles, rest, h⟩ := exists_tiling source.toList
  have hu : Tiling unified.toList (tiles.map Tile.unified) rest := by
    simpa [unified] using h.unified
  have hbehind := h.tokensBehind_unified (isBoundary_nil_left _)
  have hlines : sourceLines unified = sourceLines source := by
    simp [sourceLines, unified, Text.linesFrom_unifyLineEnds]
  refine ⟨?_, ?_, ?_, hlines, ?_⟩
  · simpa [unified] using Text.carriageReturn_notMem_unifyLineEnds source.toList
  · rw [tokens_of_tiling hu, tokens_of_tiling h]
    exact congrArg List.toArray hbehind.1
  · intro options
    obtain ⟨ht, hd⟩ := drain_of_tiling h options
    obtain ⟨hut, hud⟩ := drain_of_tiling hu options
    have hreports : reportsBehind [] (tiles.map Tile.unified) = reportsBehind [] tiles := hbehind.2
    rw [ht, hd, hut, hud, hreports]
    exact ⟨congrArg List.toArray hbehind.1, rfl⟩
  · intro line column
    rw [excerpt, hlines, excerpt]

end Lexer

end Abnf
