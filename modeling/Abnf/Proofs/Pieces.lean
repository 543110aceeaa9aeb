import Abnf.Proofs.Tiling
import Mathlib.Data.List.Chain

/-! Lexemes written one after another, with or without blanks in between, are read back one by one
unless a neighbour would be taken for a part of one of them. -/

namespace Abnf

namespace Spelling

/-- Where delimiters are opened they are closed as well. -/
def IsClosed : Spelling → Prop
  | delimited _ _ closed => closed = true
  | _ => True

instance : DecidablePred IsClosed
  | delimited _ _ closed => inferInstanceAs (Decidable (closed = true))
  | lineEnd _ | comment _ | terminalValue _ | ruleName _ | alternative | equals | unknown _ =>
    inferInstanceAs (Decidable True)

theorem endsAt_nil {f : Spelling} (hc : f.IsClosed) : f.EndsAt [] := by
  cases f with
  | delimited d body closed => exact Or.inl hc
  | lineEnd e => exact isBoundary_nil_right _
  | comment | terminalValue | ruleName => simp [EndsAt, AtLineEnd]
  | alternative | equals | unknown => trivial

end Spelling

/-- A part of a text that is written down on purpose. -/
inductive Piece where
  | blank (gap : List Char)
  | lexeme (f : Spelling)
deriving DecidableEq, Repr

namespace Piece

def text : Piece → List Char
  | blank gap => gap
  | lexeme f => f.text

def form? : Piece → Option Spelling
  | blank _ => none
  | lexeme f => some f

def Valid : Piece → Prop
  | blank gap => gap ≠ [] ∧ ∀ c ∈ gap, Text.isSpacing c = true
  | lexeme f => f.Valid ∧ f.IsClosed

instance : DecidablePred Valid
  | blank gap =>
    have := List.decidableBAll (fun c => Text.isSpacing c = true) gap
    inferInstanceAs (Decidable (gap ≠ [] ∧ _))
  | lexeme f => inferInstanceAs (Decidable (f.Valid ∧ f.IsClosed))

/-- The second piece is not taken for a part of the first. -/
def MayPrecede : Piece → Piece → Prop
  | lexeme (.ruleName _), lexeme (.ruleName _) => False
  | lexeme (.terminalValue _), lexeme (.ruleName _) => False
  | lexeme (.terminalValue _), lexeme (.unknown c) => c.isDigit = false ∧ c ≠ '.' ∧ c ≠ '-'
  | lexeme (.comment _), p => ∃ e, p = lexeme (.lineEnd e)
  | lexeme (.lineEnd .carriageReturn), lexeme (.lineEnd .lineFeed) => False
  | _, _ => True

end Piece

namespace Spelling

variable {f : Spelling} {c : Char}

theorem eq_lineFeed_of_head (hv : f.Valid) (hc : f.text.head? = some '\n') :
    f = lineEnd .lineFeed := by
  by_cases hk : f.kind = .endOfLine
  · obtain ⟨e, rfl⟩ := eq_lineEnd_of_kind hk
    cases e with
    | lineFeed => rfl
    | carriageReturn | pair => simp [text, LineEnd.text] at hc
  · have hh := inline_text hv hk _ (List.mem_of_head? hc)
    simp [Text.isLineEnd] at hh

theorem of_head_terminalBody (hv : f.Valid) (hc : f.text.head? = some c)
    (ht : Lexer.isTerminalBody c = true) : (∃ letters, f = ruleName letters) ∨ f = unknown c := by
  cases f with
  | ruleName letters => exact Or.inl ⟨letters, rfl⟩
  | unknown x => exact Or.inr (by simpa [text] using hc)
  | lineEnd e =>
    have hl := LineEnd.isLineEnd_of_mem_text (List.mem_of_head? hc)
    rw [Text.isLineEnd_of_isTerminalBody ht] at hl
    exact absurd hl Bool.false_ne_true
  | delimited d body closed =>
    obtain rfl : d.opening = c := by simpa [text] using hc
    cases d <;> exact absurd ht (by decide)
  | comment | terminalValue | alternative | equals =>
    simp only [text, List.head?_cons, Option.some.injEq] at hc
    subst hc
    exact absurd ht (by decide)

end Spelling

namespace Piece

variable {p : Piece} {c : Char}

theorem eq_lineFeed_of_head (hv : p.Valid) (hc : p.text.head? = some '\n') :
    p = lexeme (.lineEnd .lineFeed) := by
  cases p with
  | blank gap =>
    have hh := hv.2 _ (List.mem_of_head? hc)
    exact absurd hh (by decide)
  | lexeme f => rw [Spelling.eq_lineFeed_of_head hv.1 hc]

theorem of_head_terminalBody (hv : p.Valid) (hc : p.text.head? = some c)
    (ht : Lexer.isTerminalBody c = true) :
    (∃ letters, p = lexeme (.ruleName letters)) ∨ p = lexeme (.unknown c) := by
  cases p with
  | blank gap =>
    have hh := hv.2 _ (List.mem_of_head? hc)
    simp [Text.isSpacing, Text.isBlank_of_isTerminalBody ht] at hh
  | lexeme f => simpa using Spelling.of_head_terminalBody hv.1 hc ht

theorem text_ne_nil (hv : p.Valid) : p.text ≠ [] := by
  cases p with
  | blank gap => exact hv.1
  | lexeme f => exact Spelling.text_ne_nil hv.1

theorem MayPrecede.endsAt {f : Spelling} (h : MayPrecede (lexeme f) p) (hf : f.IsClosed)
    (hv : p.Valid) (more : List Char) : f.EndsAt (p.text ++ more) := by
  have hhead : (p.text ++ more).head? = p.text.head? :=
    List.head?_append_of_ne_nil _ (text_ne_nil hv)
  cases f with
  | lineEnd e =>
    intro hl hn
    rw [hhead] at hn
    obtain rfl := eq_lineFeed_of_head hv hn
    cases e with
    | carriageReturn => exact h
    | lineFeed | pair => simp [LineEnd.text] at hl
  | comment body =>
    obtain ⟨e, rfl⟩ := h
    intro c hc
    rw [hhead] at hc
    exact LineEnd.isLineEnd_of_mem_text (List.mem_of_head? hc)
  | terminalValue body =>
    intro c hc
    rw [hhead] at hc
    by_contra ht
    rw [Bool.not_eq_false] at ht
    rcases of_head_terminalBody hv hc ht with ⟨letters, rfl⟩ | rfl
    · exact h
    · have hl : c.isAlpha = false := Text.isLetter_of_isUnrecognized hv.1
      simp [Lexer.isTerminalBody, Char.isAlphanum, hl, h.1, h.2.1, h.2.2] at ht
  | delimited d body closed => exact Or.inl hf
  | ruleName letters =>
    intro c hc
    rw [hhead] at hc
    by_contra hl
    rw [Bool.not_eq_false] at hl
    rcases of_head_terminalBody hv hc (Text.isTerminalBody_of_isLetter hl) with ⟨letters, rfl⟩ | rfl
    · exact h
    · rw [Text.isLetter_of_isUnrecognized hv.1] at hl
      exact Bool.false_ne_true hl
  | alternative | equals | unknown => trivial

end Piece

/-- The blanks of `gap` belong to the first lexeme of the pieces. -/
theorem exists_tiling_of_pieces {pieces : List Piece} (hv : ∀ p ∈ pieces, p.Valid)
    (hc : pieces.IsChain Piece.MayPrecede) (gap : List Char)
    (hg : ∀ c ∈ gap, Text.isSpacing c = true) :
    ∃ tiles rest, Tiling (gap ++ pieces.flatMap Piece.text) tiles rest ∧
      tiles.map Tile.form = pieces.filterMap Piece.form? := by
  induction pieces generalizing gap with
  | nil => exact ⟨[], gap, by simpa using Tiling.last hg, rfl⟩
  | cons p pieces ih =>
    have hp := hv p (by simp)
    have hmore : ∀ q ∈ pieces, q.Valid := fun q hq => hv q (by simp [hq])
    cases p with
    | blank more =>
      have hgap : ∀ c ∈ gap ++ more, Text.isSpacing c = true := by
        intro c hm
        rcases List.mem_append.mp hm with hm | hm
        · exact hg c hm
        · exact hp.2 c hm
      obtain ⟨tiles, rest, ht, hm⟩ := ih hmore hc.tail (gap ++ more) hgap
      exact ⟨tiles, rest, by simpa [Piece.text] using ht, hm⟩
    | lexeme f =>
      have he : f.EndsAt (pieces.flatMap Piece.text) := by
        cases pieces with
        | nil => exact Spelling.endsAt_nil hp.2
        | cons q pieces =>
          exact (List.isChain_cons_cons.mp hc).1.endsAt hp.2 (hmore q (by simp)) _
      obtain ⟨tiles, rest, ht, hm⟩ := ih hmore hc.tail [] (by simp)
      refine ⟨⟨gap, f⟩ :: tiles, rest, ?_, by simp [Piece.form?, hm]⟩
      exact .cons (t := ⟨gap, f⟩) hg hp.1 he ht

namespace Lexer

/-- Pieces that may stand next to each other are read back, each lexeme as one token. -/
theorem tokens_of_pieces (pieces : List Piece) (hv : ∀ p ∈ pieces, p.Valid)
    (hc : pieces.IsChain Piece.MayPrecede) :
    (tokens (String.ofList (pieces.flatMap Piece.text))).toList.map Token.content =
      (pieces.filterMap Piece.form?).map Spelling.content ++ [(.endOfInput, "")] := by
  obtain ⟨tiles, rest, ht, hm⟩ := exists_tiling_of_pieces hv hc [] (by simp)
  have hs : Tiling (String.ofList (pieces.flatMap Piece.text)).toList tiles rest := by
    simpa using ht
  rw [contents_of_tiling hs, ← hm, List.map_map]
  rfl

/-- Nearly every kind of lexeme next to another, with few blanks. -/
def crowded : List Piece :=
  [.lexeme (.ruleName ['a']), .lexeme (.unknown '1'), .blank ['\t'], .lexeme .equals,
    .lexeme (.terminalValue ['x', '0', 'A']), .lexeme (.delimited .quotes [';', '<'] true),
    .lexeme (.delimited .angles ['"'] true), .lexeme .alternative, .lexeme (.comment ['%', '"']),
    .lexeme (.lineEnd .carriageReturn), .lexeme (.lineEnd .pair), .lexeme (.lineEnd .lineFeed)]

theorem tokens_of_crowded :
    (∀ p ∈ crowded, p.Valid) ∧ crowded.IsChain Piece.MayPrecede ∧
      (tokens (String.ofList (crowded.flatMap Piece.text))).toList.map Token.content =
        [(.ruleName, "a"), (.unknown, ""), (.equals, "="), (.terminalValue, "x0A"),
          (.stringLiteral, ";<"), (.ruleName, "\""), (.alternative, "/"), (.comment, "%\""),
          (.endOfLine, ""), (.endOfLine, ""), (.endOfLine, ""), (.endOfInput, "")] := by
  have hv : ∀ p ∈ crowded, p.Valid := by decide
  have hc : crowded.IsChain Piece.MayPrecede := by simp [crowded, Piece.MayPrecede]
  exact ⟨hv, hc, tokens_of_pieces crowded hv hc⟩

end Lexer

end Abnf
