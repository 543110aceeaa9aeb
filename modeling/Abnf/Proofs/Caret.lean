import Abnf.Proofs.ExcerptRows
import Abnf.Proofs.Lines
import Abnf.Proofs.Reports
import Abnf.Tokenization

/-! Lines and columns of the lexer are those of the listed lines. An excerpt for a diagnostic has its
caret right under the character that is to blame. -/

namespace Abnf

/-- `c` is the character in this line and column, both counted from 1. -/
def CharacterAt (source : String) (line column : Nat) (c : Char) : Prop :=
  1 ≤ line ∧ 1 ≤ column ∧
    ∃ text, (sourceLines source)[line - 1]? = some text ∧ text.toList[column - 1]? = some c

/-- A row of the excerpt has the number and the text of the line, and directly below it the caret has
as many characters before it as `c` has, which stands in that column of the line. -/
def CaretUnder (source : String) (line column : Nat) (c : Char) : Prop :=
  ∃ (above below : List String) (width : Nat) (text gutter blanks : String),
    excerpt source line column =
      joinRows (above ++ (gutter ++ text) :: (blanks ++ "^") :: below) ∧
    (sourceLines source)[line - 1]? = some text ∧
    gutter = Text.padded width ' ' line ++ " | " ∧
    blanks.length = gutter.length + (column - 1) ∧
    (gutter ++ text).toList[blanks.length]? = some c

theorem CharacterAt.line_le {source : String} {line column : Nat} {c : Char}
    (h : CharacterAt source line column c) : line ≤ (sourceLines source).length := by
  obtain ⟨hl, -, text, ht, -⟩ := h
  have hlen := (List.getElem?_eq_some_iff.mp ht).1
  omega

theorem CharacterAt.caretUnder {source : String} {line column : Nat} {c : Char}
    (h : CharacterAt source line column c) : CaretUnder source line column c := by
  have hle := h.line_le
  obtain ⟨hl, hcol, text, ht, hc⟩ := h
  obtain ⟨above, below, hrows⟩ := exists_excerptRows hl ht column
  have hin : ¬ (line = 0 ∨ (sourceLines source).length < line) := by omega
  have hlen : (Text.padded (gutterWidth (sourceLines source) line) ' ' line ++ " | ").length =
      (Text.spaces (gutterWidth (sourceLines source) line) ++ " | ").length := by
    rw [String.length_append, String.length_append, Text.length_spaces,
      Text.length_padded ' ' (length_toDigits_le_gutterWidth hle)]
  refine ⟨above, below, gutterWidth (sourceLines source) line, text, _,
    Text.spaces (gutterWidth (sourceLines source) line) ++ " | " ++ Text.spaces (column - 1), ?_, ht,
    rfl, ?_, ?_⟩
  · rw [excerpt, excerptOf_eq_joinRows hin, hrows]
    rfl
  · rw [String.length_append, hlen, Text.length_spaces]
  · rw [String.length_append, ← hlen, Text.length_spaces, String.toList_append,
      ← String.length_toList, List.getElem?_append_right (Nat.le_add_right _ _),
      Nat.add_sub_cancel_left, hc]

example : excerpt "é = <b\rc = d" 1 5 =
    "--|--\n1 | é = <b\n  |     ^\n2 | c = d\n--|--\n" := by decide +kernel

theorem CharacterAt.excerpt_ne_empty {source : String} {line column : Nat} {c : Char}
    (h : CharacterAt source line column c) : excerpt source line column ≠ "" := by
  obtain ⟨above, below, width, text, gutter, blanks, he, -⟩ := h.caretUnder
  rw [he]
  exact joinRows_ne_empty (by simp)

/-- What stands before a character tells where the listed lines have it. -/
theorem characterAt_of_append {source : String} {before rest : List Char} {c : Char}
    (hs : source.toList = before ++ c :: rest) (hc : Text.isLineEnd c = false) :
    CharacterAt source (lineEnds before + 1) (sinceLineEnd before + 1) c := by
  obtain ⟨line, tail, ht, hlen⟩ := exists_getElem?_linesFrom before hc rest
  refine ⟨by omega, by omega, String.ofList (line ++ c :: tail), ?_, ?_⟩
  · rw [Nat.add_sub_cancel, sourceLines, hs, List.getElem?_map, ht, Option.map_some]
  · rw [Nat.add_sub_cancel, ← hlen, String.toList_ofList,
      List.getElem?_append_right (Nat.le_refl _), Nat.sub_self, List.getElem?_cons_zero]

theorem Tiling.characterAt {source : String} {rest : List Char} {tiles : List Tile} {i : Nat}
    {t : Tile} {k : Token} (h : Tiling source.toList tiles rest) (ht : tiles[i]? = some t)
    (hk : (tokensBehind [] rest tiles)[i]? = some k) (hkind : t.form.kind ≠ .endOfLine) :
    ∃ c more, t.form.text = c :: more ∧ CharacterAt source k.line k.column c := by
  obtain ⟨ahead, hs, hv, -⟩ := h.exists_ahead ht
  obtain ⟨c, more, htext⟩ := List.exists_cons_of_ne_nil (Spelling.text_ne_nil hv)
  have hc : Text.isLineEnd c = false := Spelling.inline_text hv hkind c (by simp [htext])
  rw [htext, List.cons_append] at hs
  refine ⟨c, more, htext, ?_⟩
  rw [getElem?_tokensBehind hk]
  exact characterAt_of_append hs hc

/-- The character that a problem is about. -/
def Problem.character : Problem → Char
  | .unrecognizedCharacter c => c
  | .unterminatedString => '"'
  | .unterminatedRuleName => '<'

theorem Spelling.head?_text_of_problem {f : Spelling} {p : Problem} (h : f.problem? = some p) :
    f.text.head? = some p.character ∧ f.kind ≠ .endOfLine := by
  cases f with
  | delimited d body closed =>
    cases closed with
    | true => simp [problem?] at h
    | false =>
      obtain rfl : d.unterminated = p := by simpa [problem?] using h
      cases d <;>
        simp [text, Problem.character, kind, Delimiters.kind, Delimiters.opening,
          Delimiters.unterminated]
  | unknown c =>
    obtain rfl : Problem.unrecognizedCharacter c = p := by simpa [problem?] using h
    exact ⟨rfl, by simp [kind]⟩
  | lineEnd | comment | terminalValue | ruleName | alternative | equals => simp [problem?] at h

theorem Tiling.characterAt_of_mem_reports {source : String} {rest : List Char} {tiles : List Tile}
    {d : Diagnostic} (h : Tiling source.toList tiles rest) (hd : d ∈ reportsBehind [] tiles) :
    CharacterAt source d.line d.column d.problem.character := by
  rw [reportsBehind_eq_filterMap [] rest, List.mem_filterMap] at hd
  obtain ⟨⟨t, k⟩, hm, hp⟩ := hd
  obtain ⟨p, hproblem, rfl⟩ := Option.map_eq_some_iff.mp hp
  obtain ⟨i, hi⟩ := List.mem_iff_getElem?.mp hm
  obtain ⟨ht, hk⟩ := List.getElem?_zip_eq_some.mp hi
  obtain ⟨hhead, hkind⟩ := Spelling.head?_text_of_problem hproblem
  obtain ⟨c, more, htext, hc⟩ := h.characterAt ht hk hkind
  obtain rfl : c = p.character := by simpa [htext] using hhead
  exact hc

/-- `d` comes with the tokens, or with the rejection. -/
def Tokenized.Reports (t : Tokenized) (d : Diagnostic) : Prop :=
  (∃ run, t.result = .ok run ∧ d ∈ run.diagnostics) ∨
    ∃ diagnostics, t.result = .error (.rejected diagnostics) ∧ d ∈ diagnostics

namespace Policy

variable (p : Policy) (network : Log.Network) (clock : Nat → Log.Readings) (logger : Log.LoggerId)
  (source : String) (elapsed : Nat)

theorem reports_iff {d : Diagnostic} {done : Tokenized}
    (hdone : p.tokenize network clock logger source elapsed = some done) :
    done.Reports d ↔ d ∈ (p.lex source).lexer.diagnostics.toList := by
  rw [Tokenized.Reports, result_of_tokenize hdone]
  by_cases h : p.rejects (p.lex source) = true <;> simp [judge, h]

/-- Every diagnostic of a run and every token of a source is where the listed lines have its first
character, and the excerpt for a diagnostic shows a caret under it. -/
theorem caret_stands_under_problem :
    (∀ done d, p.tokenize network clock logger source elapsed = some done → done.Reports d →
      1 ≤ d.line ∧ d.line ≤ (sourceLines source).length ∧
      CharacterAt source d.line d.column d.problem.character ∧
      excerpt source d.line d.column ≠ "" ∧
      CaretUnder source d.line d.column d.problem.character) ∧
    ∃ (tiles : List Tile) (rest : List Char), Tiling source.toList tiles rest ∧
      (Lexer.tokens source).toList.map Token.content =
        tiles.map (·.form.content) ++ [(.endOfInput, "")] ∧
      ∀ (i : Nat) (k : Token), (Lexer.tokens source)[i]? = some k →
        k.kind ≠ .endOfLine → k.kind ≠ .endOfInput →
        ∃ (t : Tile) (c : Char) (more : List Char), tiles[i]? = some t ∧
          t.form.text = c :: more ∧ CharacterAt source k.line k.column c := by
  obtain ⟨tiles, rest, h⟩ := exists_tiling source.toList
  constructor
  · intro done d hdone hd
    rw [reports_iff p network clock logger source elapsed hdone, lex,
      (Lexer.drain_of_tiling h p.lexer).2] at hd
    have hm : d ∈ reportsBehind [] tiles := by
      cases hcollect : p.lexer.collectDiagnostics with
      | false => simp [hcollect] at hd
      | true => simpa [hcollect] using hd
    have hc := h.characterAt_of_mem_reports hm
    exact ⟨hc.1, hc.line_le, hc, hc.excerpt_ne_empty, hc.caretUnder⟩
  · refine ⟨tiles, rest, h, Lexer.contents_of_tiling h, ?_⟩
    intro i k hk hline hinput
    rw [Lexer.tokens_of_tiling h, List.getElem?_toArray] at hk
    obtain ⟨t, ht, hkind⟩ := (exists_getElem?_tokensBehind hinput).mp ⟨k, hk, rfl⟩
    obtain ⟨c, more, htext, hc⟩ := h.characterAt ht hk (hkind ▸ hline)
    exact ⟨t, c, more, ht, htext, hc⟩

end Policy

end Abnf
