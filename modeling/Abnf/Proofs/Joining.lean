import Abnf.Proofs.Lines
import Abnf.Proofs.Positions

/-! Two texts with a line feed between them are read one after the other. What the first leaves
open, a string, a rule name or a comment, ends with its line, and the second is read as if it stood
alone, only further down. -/

namespace Abnf

def Token.movedDown (lines : Nat) (k : Token) : Token := { k with line := k.line + lines }

def Diagnostic.movedDown (lines : Nat) (d : Diagnostic) : Diagnostic :=
  { d with line := d.line + lines }

namespace Spelling

theorem EndsAt.of_head?_eq {f : Spelling} {rest more : List Char} (he : f.EndsAt rest)
    (hh : rest.head? = more.head?) : f.EndsAt more := by
  cases f with
  | lineEnd e => exact fun hl => hh ▸ he hl
  | comment body => exact fun c hc => he c (hh ▸ hc)
  | terminalValue body => exact fun c hc => he c (hh ▸ hc)
  | delimited d body closed => exact he.imp_right fun hl c hc => hl c (hh ▸ hc)
  | ruleName letters => exact fun c hc => he c (hh ▸ hc)
  | alternative | equals | unknown => trivial

/-- A lexeme that ends with the text ends with the line as well. -/
theorem EndsAt.append_lineFeed {f : Spelling} {rest more : List Char} (he : f.EndsAt rest)
    (hb : IsBoundary (f.text ++ rest) ('\n' :: more)) : f.EndsAt (rest ++ '\n' :: more) := by
  by_cases hne : rest = []
  · subst hne
    rw [List.append_nil] at hb
    have hl : AtLineEnd ('\n' :: more) := by simp [AtLineEnd, Text.isLineEnd]
    cases f with
    | lineEnd e => exact hb
    | comment body => exact hl
    | delimited d body closed => exact Or.inr hl
    | terminalValue | ruleName =>
      intro c hc
      obtain rfl : '\n' = c := by simpa using hc
      rfl
    | alternative | equals | unknown => trivial
  · exact he.of_head?_eq (List.head?_append_of_ne_nil _ hne).symm

end Spelling

section

variable {a b left rest : List Char} {tiles more : List Tile}

theorem Tiling.append_lineFeed (ha : Tiling a tiles left) (hb : Tiling b more rest)
    (hcut : IsBoundary a ('\n' :: b)) :
    Tiling (a ++ '\n' :: b) (tiles ++ ⟨left, .lineEnd .lineFeed⟩ :: more) rest := by
  induction ha with
  | last hr =>
    have he : (Spelling.lineEnd .lineFeed).EndsAt b := by
      simp [Spelling.EndsAt, IsBoundary, LineEnd.text]
    exact .cons (t := ⟨_, .lineEnd .lineFeed⟩) hr trivial he hb
  | @cons t source left tiles hg hv he h ih =>
    have hsource := hcut.of_append_left
    have hh := ih hsource.of_append_left
    simpa [Spelling.text] using Tiling.cons hg hv (he.append_lineFeed hsource) hh

theorem tokensBehind_append (h : Tiling a tiles left) {t : Tile} (ht : t.gap = left)
    (before rest : List Char) (more : List Tile) :
    ∃ front, tokensBehind before left tiles = front ++ [.behind .endOfInput "" (before ++ a)] ∧
      (∀ k ∈ front, k.kind ≠ .endOfInput) ∧
      tokensBehind before rest (tiles ++ t :: more) =
        front ++ .behind t.form.kind t.form.value (before ++ a) ::
          tokensBehind (before ++ a ++ t.form.text) rest more := by
  induction h generalizing before with
  | last hr =>
    subst ht
    exact ⟨[], rfl, by simp, by simp [tokensBehind, Tile.text]⟩
  | @cons u source left tiles hg hv he h ih =>
    obtain ⟨front, hfront, hk, hjoin⟩ := ih ht (before ++ u.text)
    have hs : before ++ (u.gap ++ (u.form.text ++ source)) = before ++ u.text ++ source := by
      simp [Tile.text]
    refine ⟨.behind u.form.kind u.form.value (before ++ u.gap) :: front, ?_, ?_, ?_⟩
    · rw [tokensBehind, hfront, hs, List.cons_append]
    · intro k hm
      rcases List.mem_cons.mp hm with rfl | hm
      · exact u.form.kind_ne_endOfInput
      · exact hk k hm
    · rw [List.cons_append, tokensBehind, hjoin, hs, List.cons_append]

theorem reportsBehind_append (h : Tiling a tiles left) {t : Tile} (ht : t.gap = left)
    (before : List Char) (more : List Tile) :
    reportsBehind before (tiles ++ t :: more) =
      reportsBehind before tiles ++ (t.form.reportBehind (before ++ a) ++
        reportsBehind (before ++ a ++ t.form.text) more) := by
  induction h generalizing before with
  | last hr =>
    subst ht
    simp [reportsBehind, Tile.text]
  | @cons u source left tiles hg hv he h ih =>
    have hs : before ++ (u.gap ++ (u.form.text ++ source)) = before ++ u.text ++ source := by
      simp [Tile.text]
    rw [List.cons_append, reportsBehind, ih ht (before ++ u.text), hs, reportsBehind]
    exact (List.append_assoc ..).symm

/-- Behind a line feed everything stands as in a text of its own, but for the lines above. -/
theorem lineEnds_append_lineFeed (a text : List Char) :
    lineEnds (a ++ ['\n'] ++ text) = lineEnds text + lineEnds (a ++ ['\n']) ∧
      sinceLineEnd (a ++ ['\n'] ++ text) = sinceLineEnd text := by
  have hb : IsBoundary (a ++ ['\n']) text := by simp [IsBoundary]
  have hl : EndsLine (a ++ ['\n']) := by simp [EndsLine, Text.isLineEnd]
  exact ⟨(lineEnds_append hb).trans (Nat.add_comm _ _), sinceLineEnd_append_of_endsLine hl text⟩

theorem tokensBehind_lineFeed (a before rest : List Char) (tiles : List Tile) :
    tokensBehind (a ++ ['\n'] ++ before) rest tiles =
      (tokensBehind before rest tiles).map (.movedDown (lineEnds (a ++ ['\n']))) := by
  have hk : ∀ kind value text, Token.behind kind value (a ++ ['\n'] ++ text) =
      (Token.behind kind value text).movedDown (lineEnds (a ++ ['\n'])) := by
    intro kind value text
    obtain ⟨hl, hs⟩ := lineEnds_append_lineFeed a text
    rw [Token.behind, hl, hs, Token.movedDown, Token.behind, Nat.add_right_comm]
  induction tiles generalizing before with
  | nil => rw [tokensBehind, List.append_assoc, hk, tokensBehind, List.map_singleton]
  | cons t tiles ih =>
    rw [tokensBehind, List.append_assoc, List.append_assoc _ before t.text, hk, ih, tokensBehind,
      List.map_cons]

theorem reportsBehind_lineFeed (a before : List Char) (tiles : List Tile) :
    reportsBehind (a ++ ['\n'] ++ before) tiles =
      (reportsBehind before tiles).map (.movedDown (lineEnds (a ++ ['\n']))) := by
  have hf : ∀ (f : Spelling) text, f.reportBehind (a ++ ['\n'] ++ text) =
      (f.reportBehind text).map (.movedDown (lineEnds (a ++ ['\n']))) := by
    intro f text
    obtain ⟨hl, hs⟩ := lineEnds_append_lineFeed a text
    rw [Spelling.reportBehind, hl, hs, Spelling.reportBehind]
    cases f.problem? <;> simp [Diagnostic.movedDown, Nat.add_right_comm]
  induction tiles generalizing before with
  | nil => rfl
  | cons t tiles ih =>
    rw [reportsBehind, List.append_assoc, List.append_assoc _ before t.text, hf, ih, reportsBehind,
      List.map_append]

end

namespace Lexer

/-- The lexemes of `a` end at the line feed even where the text used to stop them, and `b` is read
as it is on its own. The lines of `b` count on from the last one of `a`. -/
theorem tokens_of_joined (a b : String) (ha : a.toList.getLast? ≠ some '\r') :
    ∃ front last, (tokens a).toList = front ++ [last] ∧ last.kind = .endOfInput ∧
      (∀ k ∈ front, k.kind ≠ .endOfInput) ∧
      (tokens (a ++ "\n" ++ b)).toList =
        front ++ ⟨.endOfLine, "", last.line, last.column⟩ ::
          (tokens b).toList.map (.movedDown last.line) ∧
      ∀ options, (ofText options (a ++ "\n" ++ b)).drain.lexer.diagnostics.toList =
        (ofText options a).drain.lexer.diagnostics.toList ++
          (ofText options b).drain.lexer.diagnostics.toList.map (.movedDown last.line) := by
  obtain ⟨tiles, left, h⟩ := exists_tiling a.toList
  obtain ⟨more, rest, hb⟩ := exists_tiling b.toList
  have hcut : IsBoundary a.toList ('\n' :: b.toList) := fun he => absurd he ha
  have hjoined : Tiling (a ++ "\n" ++ b).toList
      (tiles ++ ⟨left, .lineEnd .lineFeed⟩ :: more) rest := by
    simpa using h.append_lineFeed hb hcut
  have hlast : lineEnds (a.toList ++ ['\n']) = lineEnds a.toList + 1 :=
    lineEnds_append (hcut.of_prefix_ahead (by simp))
  obtain ⟨front, hfront, hk, htokens⟩ :=
    tokensBehind_append h (t := ⟨left, .lineEnd .lineFeed⟩) rfl [] rest more
  refine ⟨front, .behind .endOfInput "" a.toList, ?_, rfl, hk, ?_, ?_⟩
  · rw [tokens_of_tiling h]
    exact hfront
  · have hmore := tokensBehind_lineFeed a.toList [] rest more
    rw [hlast, List.append_nil] at hmore
    rw [tokens_of_tiling hjoined, tokens_of_tiling hb]
    exact htokens.trans (congrArg (front ++ _ :: ·) hmore)
  · intro options
    have hreports := reportsBehind_append h (t := ⟨left, .lineEnd .lineFeed⟩) rfl [] more
    have hmore := reportsBehind_lineFeed a.toList [] more
    rw [hlast, List.append_nil] at hmore
    rw [(drain_of_tiling hjoined options).2, (drain_of_tiling h options).2,
      (drain_of_tiling hb options).2]
    cases options.collectDiagnostics with
    | false => rfl
    | true => exact hreports.trans (congrArg (reportsBehind [] tiles ++ ·) hmore)

/-- A string left open above a rule name left open. -/
theorem tokens_of_joined_open_ends :
    "a = \"b".toList.getLast? ≠ some '\r' ∧
      (tokens ("a = \"b" ++ "\n" ++ "<c")).toList =
        [⟨.ruleName, "a", 1, 1⟩, ⟨.equals, "=", 1, 3⟩, ⟨.stringLiteral, "b", 1, 5⟩,
          ⟨.endOfLine, "", 1, 7⟩, ⟨.ruleName, "c", 2, 1⟩, ⟨.endOfInput, "", 2, 3⟩] := by
  have hcut : "a = \"b".toList.getLast? ≠ some '\r' := by decide
  have ha : (tokens "a = \"b").toList = [⟨.ruleName, "a", 1, 1⟩, ⟨.equals, "=", 1, 3⟩,
      ⟨.stringLiteral, "b", 1, 5⟩] ++ [⟨.endOfInput, "", 1, 7⟩] := by decide +kernel
  have hb : (tokens "<c").toList = [⟨.ruleName, "c", 1, 1⟩, ⟨.endOfInput, "", 1, 3⟩] := by
    decide +kernel
  obtain ⟨front, last, hfront, -, -, hjoined, -⟩ := tokens_of_joined "a = \"b" "<c" hcut
  obtain ⟨rfl, hlast⟩ := List.append_inj' (ha.symm.trans hfront) rfl
  obtain rfl := List.singleton_inj.mp hlast
  refine ⟨hcut, ?_⟩
  rw [hjoined, hb]
  rfl

end Lexer

end Abnf
