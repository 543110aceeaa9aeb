import Abnf.Lexer.Stream
import Abnf.Proofs.Reading

/-! Cutting a source into lexemes. Every source has a cut in which each lexeme is as long as it can
be, and the lexer's tokens are the ones of that cut. -/

namespace Abnf

/-- A lexeme and the blanks before it. -/
structure Tile where
  gap : List Char
  form : Spelling
deriving DecidableEq, Repr

def Tile.text (t : Tile) : List Char := t.gap ++ t.form.text

theorem Tile.isBoundary_text {t : Tile} {rest : List Char} (hv : t.form.Valid)
    (he : t.form.EndsAt rest) (before : List Char) : IsBoundary (before ++ t.text) rest := by
  have hh := (Spelling.isBoundary_text hv he).append_left (Spelling.text_ne_nil hv)
    (before ++ t.gap)
  rwa [List.append_assoc] at hh

theorem Tile.lineEnds_text {t : Tile} (hg : ∀ c ∈ t.gap, Text.isSpacing c = true)
    (hv : t.form.Valid) : lineEnds t.text = if t.form.kind = .endOfLine then 1 else 0 := by
  have hl := Text.inline_of_spacing hg
  rw [text, lineEnds_append (isBoundary_of_inline hl), lineEnds_of_inline hl, Nat.zero_add,
    Spelling.lineEnds_text hv]

/-- The tiles and the blanks behind them make up the source, and none of them could be longer. -/
inductive Tiling : List Char → List Tile → List Char → Prop
  | last {rest : List Char} (hr : ∀ c ∈ rest, Text.isSpacing c = true) : Tiling rest [] rest
  | cons {t : Tile} {source rest : List Char} {tiles : List Tile}
      (hg : ∀ c ∈ t.gap, Text.isSpacing c = true) (hv : t.form.Valid) (he : t.form.EndsAt source)
      (h : Tiling source tiles rest) : Tiling (t.gap ++ (t.form.text ++ source)) (t :: tiles) rest

namespace Tiling

variable {source rest : List Char} {tiles : List Tile}

theorem rest_blank (h : Tiling source tiles rest) : ∀ c ∈ rest, Text.isSpacing c = true := by
  induction h with
  | last hr => exact hr
  | cons _ _ _ _ ih => exact ih

theorem source_eq (h : Tiling source tiles rest) : source = tiles.flatMap Tile.text ++ rest := by
  induction h with
  | last => rfl
  | cons hg hv he h ih => simp [Tile.text, ← ih]

theorem drop {first : List Tile} (h : Tiling source (first ++ tiles) rest) :
    ∃ ahead, source = first.flatMap Tile.text ++ ahead ∧ Tiling ahead tiles rest := by
  induction first generalizing source with
  | nil => exact ⟨source, rfl, h⟩
  | cons t first ih =>
    cases h with
    | cons hg hv he h =>
      obtain ⟨ahead, rfl, ha⟩ := ih h
      exact ⟨ahead, by simp [Tile.text], ha⟩

theorem mid {first last : List Tile} {t : Tile} (h : Tiling source (first ++ t :: last) rest) :
    (∀ c ∈ t.gap, Text.isSpacing c = true) ∧ t.form.Valid ∧
      t.form.EndsAt (last.flatMap Tile.text ++ rest) := by
  obtain ⟨ahead, -, ha⟩ := h.drop
  cases ha with
  | cons hg hv he h => exact ⟨hg, hv, h.source_eq ▸ he⟩

end Tiling

theorem exists_span (accept : Char → Bool) (text : List Char) :
    ∃ body rest, text = body ++ rest ∧ (∀ c ∈ body, accept c = true) ∧
      ∀ c ∈ rest.head?, accept c = false := by
  refine ⟨text.takeWhile accept, text.dropWhile accept, List.takeWhile_append_dropWhile.symm,
    fun c hc => List.mem_takeWhile_imp hc, ?_⟩
  intro c hc
  have hh := text.head?_dropWhile_not accept
  rw [Option.mem_def] at hc
  simpa [hc] using hh

namespace Spelling

theorem exists_delimited (d : Delimiters) (text : List Char) :
    ∃ body closed rest, d.opening :: text = (delimited d body closed).text ++ rest ∧
      (delimited d body closed).Valid ∧ (delimited d body closed).EndsAt rest := by
  obtain ⟨body, rest, rfl, hb, hr⟩ :=
    exists_span (fun c => c != d.closing && !Text.isLineEnd c) text
  have hv : ∀ c ∈ body, c ≠ d.closing ∧ Text.isLineEnd c = false := by
    intro c hc
    simpa using hb c hc
  by_cases hc : rest.head? = some d.closing
  · obtain ⟨more, rfl⟩ := List.head?_eq_some_iff.mp hc
    exact ⟨body, true, more, by simp [text], hv, Or.inl rfl⟩
  · refine ⟨body, false, rest, by simp [text], hv, Or.inr ?_⟩
    intro c hm
    have hh := hr c hm
    have hne : c ≠ d.closing := fun he => hc (he ▸ hm)
    simpa [hne] using hh

theorem exists_spelling {c : Char} (hc : Text.isSpacing c = false) (text : List Char) :
    ∃ (f : Spelling) (rest : List Char), c :: text = f.text ++ rest ∧ f.Valid ∧ f.EndsAt rest := by
  by_cases hl : Text.isLineEnd c = true
  · obtain ⟨e, rest, ht, hb⟩ := exists_lineEnd hl text
    exact ⟨.lineEnd e, rest, ht, trivial, hb⟩
  by_cases hcomment : c = ';'
  · obtain ⟨body, rest, rfl, hb, hr⟩ := exists_span (!Text.isLineEnd ·) text
    exact ⟨.comment body, rest, by rw [hcomment]; rfl, by simpa [Valid] using hb,
      by simpa [EndsAt, AtLineEnd] using hr⟩
  by_cases hterminal : c = '%'
  · obtain ⟨body, rest, rfl, hb, hr⟩ := exists_span Lexer.isTerminalBody text
    exact ⟨.terminalValue body, rest, by rw [hterminal]; rfl, hb, hr⟩
  by_cases hquotes : c = '"'
  · obtain ⟨body, closed, rest, ht, hv, he⟩ := exists_delimited .quotes text
    exact ⟨_, rest, by rw [hquotes]; exact ht, hv, he⟩
  by_cases hangles : c = '<'
  · obtain ⟨body, closed, rest, ht, hv, he⟩ := exists_delimited .angles text
    exact ⟨_, rest, by rw [hangles]; exact ht, hv, he⟩
  by_cases hletter : Text.isLetter c = true
  · obtain ⟨body, rest, rfl, hb, hr⟩ := exists_span Text.isLetter text
    exact ⟨.ruleName (c :: body), rest, rfl, ⟨by simp, by simpa [hletter] using hb⟩, hr⟩
  by_cases hslash : c = '/'
  · exact ⟨.alternative, text, by rw [hslash]; rfl, trivial, trivial⟩
  by_cases hequals : c = '='
  · exact ⟨.equals, text, by rw [hequals]; rfl, trivial, trivial⟩
  refine ⟨.unknown c, text, rfl, ?_, trivial⟩
  simp_all [Valid, Text.isUnrecognized, Text.isSpacing]

end Spelling

theorem exists_tiling (source : List Char) : ∃ tiles rest, Tiling source tiles rest := by
  induction hn : source.length using Nat.strong_induction_on generalizing source with
  | _ n ih =>
    obtain ⟨gap, ahead, rfl, hg, ha⟩ := exists_span Text.isSpacing source
    cases ahead with
    | nil => exact ⟨[], gap, by simpa using Tiling.last hg⟩
    | cons c text =>
      obtain ⟨f, more, ht, hv, he⟩ := Spelling.exists_spelling (ha c rfl) text
      have hlen : more.length < n := by
        have hpos := List.length_pos_iff.mpr (Spelling.text_ne_nil hv)
        rw [← hn, ht]
        simp only [List.length_append]
        omega
      obtain ⟨tiles, rest, h⟩ := ih _ hlen more rfl
      rw [ht]
      exact ⟨⟨gap, f⟩ :: tiles, rest, .cons (t := ⟨gap, f⟩) hg hv he h⟩

def Token.content (t : Token) : Kind × String := (t.kind, t.value)

def Spelling.content (f : Spelling) : Kind × String := (f.kind, f.value)

/-- The tokens of tiles that stand behind `before`. -/
def tokensBehind (before rest : List Char) : List Tile → List Token
  | [] => [.behind .endOfInput "" (before ++ rest)]
  | t :: tiles =>
    .behind t.form.kind t.form.value (before ++ t.gap) :: tokensBehind (before ++ t.text) rest tiles

def reportsBehind (before : List Char) : List Tile → List Diagnostic
  | [] => []
  | t :: tiles => t.form.reportBehind (before ++ t.gap) ++ reportsBehind (before ++ t.text) tiles

theorem map_content_tokensBehind (before rest : List Char) (tiles : List Tile) :
    (tokensBehind before rest tiles).map Token.content =
      tiles.map (·.form.content) ++ [(.endOfInput, "")] := by
  induction tiles generalizing before with
  | nil => rfl
  | cons t tiles ih => exact congrArg (t.form.content :: ·) (ih _)

namespace Lexer

/-- A lexer that stands between two tiles reads the next one and then stands behind it. -/
theorem next_of_tile {l : Lexer} {before source : List Char} {t : Tile}
    (hl : l.cursor.place = .between before (t.gap ++ (t.form.text ++ source)))
    (hb : IsBoundary before (t.gap ++ (t.form.text ++ source)))
    (hg : ∀ c ∈ t.gap, Text.isSpacing c = true) (hv : t.form.Valid) (he : t.form.EndsAt source) :
    (l.next.token = .behind t.form.kind t.form.value (before ++ t.gap) ∧
      l.next.token.isEndOfInput = false) ∧
    (l.next.lexer.cursor.place = .between (before ++ t.text) source ∧
      IsBoundary (before ++ t.text) source) ∧
    l.next.lexer.options = l.options ∧
    l.next.lexer.diagnostics = l.diagnostics ++ (if l.options.collectDiagnostics then
      t.form.reportBehind (before ++ t.gap) else []).toArray := by
  have hgap := hb.advance (Text.inline_of_spacing hg)
  obtain ⟨ht, hp, ho, hd⟩ := next_of_spelling hl hg hv he hgap
  have hp' : l.next.lexer.cursor.place = .between (before ++ t.text) source := by
    rw [hp, List.append_assoc]
    rfl
  have hk : l.next.token.isEndOfInput = false := by
    simp [ht, Token.behind, Token.isEndOfInput, t.form.kind_ne_endOfInput]
  exact ⟨⟨ht, hk⟩, ⟨hp', Tile.isBoundary_text hv he before⟩, ho, hd⟩

/-- Pulling from a lexer gives the tokens and the reports of the tiles ahead of it. -/
theorem pull_of_tiling {source rest : List Char} {tiles : List Tile}
    (h : Tiling source tiles rest) {l : Lexer} {before : List Char}
    (hl : l.cursor.place = .between before source) (hb : IsBoundary before source)
    (tokens : Array Token) (notices : Array Notice) :
    (pull tokens notices l).tokens = tokens ++ (tokensBehind before rest tiles).toArray ∧
      (pull tokens notices l).lexer.diagnostics = l.diagnostics ++
        (if l.options.collectDiagnostics then reportsBehind before tiles else []).toArray := by
  -- the lexer always stands between what the tiles so far have written and what is ahead
  induction h generalizing l before tokens notices with
  | last hr =>
    obtain ⟨ht, -, -, hd⟩ := next_of_spacing hl hr
    rw [pull]
    simp [ht, hd, Token.behind, Token.isEndOfInput, tokensBehind, reportsBehind]
  | @cons t source rest tiles hg hv he h ih =>
    obtain ⟨⟨ht, hk⟩, ⟨hp, hnext⟩, ho, hd⟩ := next_of_tile hl hb hg hv he
    obtain ⟨htokens, hdiag⟩ := ih hp hnext (tokens.push l.next.token)
      (notices ++ l.next.notices.toArray)
    rw [pull]
    simp only [hk, Bool.false_eq_true, if_false]
    refine ⟨htokens.trans ?_, hdiag.trans ?_⟩
    · simp [tokensBehind, ht]
    · rw [hd, ho]
      cases l.options.collectDiagnostics <;> simp [reportsBehind]

theorem drain_of_tiling {text : String} {rest : List Char} {tiles : List Tile}
    (h : Tiling text.toList tiles rest) (options : Options) :
    (ofText options text).drain.tokens = (tokensBehind [] rest tiles).toArray ∧
      (ofText options text).drain.lexer.diagnostics =
        (if options.collectDiagnostics then reportsBehind [] tiles else []).toArray := by
  have hl : (ofText options text).cursor.place = .between [] text.toList :=
    Place.start_eq_between text.toList
  obtain ⟨ht, hd⟩ := pull_of_tiling h hl (isBoundary_nil_left _) #[] #[]
  exact ⟨ht.trans Array.empty_append, hd.trans Array.empty_append⟩

theorem tokens_of_tiling {text : String} {rest : List Char} {tiles : List Tile}
    (h : Tiling text.toList tiles rest) : tokens text = (tokensBehind [] rest tiles).toArray :=
  (drain_of_tiling h {}).1

theorem contents_of_tiling {text : String} {rest : List Char} {tiles : List Tile}
    (h : Tiling text.toList tiles rest) :
    (tokens text).toList.map Token.content = tiles.map (·.form.content) ++ [(.endOfInput, "")] := by
  rw [tokens_of_tiling h]
  exact map_content_tokensBehind [] rest tiles

/-- The tokens of a text cut it into blanks and lexemes. Nothing is lost or read twice, and no
lexeme could be longer. -/
theorem tokens_tile_source (text : String) :
    ∃ (tiles : List Tile) (rest : List Char),
      text.toList = tiles.flatMap Tile.text ++ rest ∧
      (∀ c ∈ rest, Text.isSpacing c = true) ∧
      (∀ first t last, tiles = first ++ t :: last →
        (∀ c ∈ t.gap, Text.isSpacing c = true) ∧ t.form.Valid ∧
          t.form.EndsAt (last.flatMap Tile.text ++ rest)) ∧
      (tokens text).toList.map Token.content =
        tiles.map (·.form.content) ++ [(.endOfInput, "")] := by
  obtain ⟨tiles, rest, h⟩ := exists_tiling text.toList
  refine ⟨tiles, rest, h.source_eq, h.rest_blank, ?_, contents_of_tiling h⟩
  intro first t last ht
  subst ht
  exact h.mid

end Lexer

end Abnf
