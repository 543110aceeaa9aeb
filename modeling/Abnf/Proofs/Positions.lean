import Abnf.Proofs.Tiling
import Mathlib.Data.Prod.Lex

/-! Tokens stand where their lexemes start. Lines are counted by the line ends before a lexeme,
columns from the last of them on, and every line end of a source is a token of its own. -/

namespace Abnf

/-- What stands before the lexeme of tile `i`. Behind the tiles that is everything. -/
def startOf (rest : List Char) : List Tile → Nat → List Char
  | [], _ => rest
  | t :: _, 0 => t.gap
  | t :: tiles, i + 1 => t.text ++ startOf rest tiles i

def offset (rest : List Char) (tiles : List Tile) (i : Nat) : Nat := (startOf rest tiles i).length

/-- A line end starts at offset `o`. -/
def LineEndAt (source : List Char) (o : Nat) : Prop :=
  (∃ c, source[o]? = some c ∧ Text.isLineEnd c = true) ∧
    IsBoundary (source.take o) (source.drop o)

def Token.position (t : Token) : Nat × Nat := (t.line, t.column)

theorem lineEndAt_iff {source : List Char} {o : Nat} :
    LineEndAt source o ↔ ∃ before c after, source = before ++ c :: after ∧ before.length = o ∧
      Text.isLineEnd c = true ∧ IsBoundary before (c :: after) := by
  constructor
  · rintro ⟨⟨c, hc, hl⟩, hb⟩
    obtain ⟨ho, hc⟩ := List.getElem?_eq_some_iff.mp hc
    have hd : source.drop o = c :: source.drop (o + 1) := by
      rw [List.drop_eq_getElem_cons ho, hc]
    refine ⟨source.take o, c, source.drop (o + 1), ?_, ?_, hl, hd ▸ hb⟩
    · rw [← hd, List.take_append_drop]
    · simp only [List.length_take]
      omega
  · rintro ⟨before, c, after, rfl, rfl, hl, hb⟩
    exact ⟨⟨c, by simp, hl⟩, by simpa using hb⟩

namespace Tiling

variable {source rest before : List Char} {tiles : List Tile} {t : Tile} {i j : Nat}

theorem startOf_prefix_source (h : Tiling source tiles rest) (i : Nat) :
    startOf rest tiles i <+: source := by
  induction h generalizing i with
  | last => exact List.prefix_rfl
  | @cons t source rest tiles hg hv he h ih =>
    rw [← List.append_assoc]
    cases i with
    | zero => exact (List.prefix_append _ _).trans (List.prefix_append _ _)
    | succ i => exact (List.prefix_append_right_inj _).mpr (ih i)

theorem take_offset (h : Tiling source tiles rest) (i : Nat) :
    source.take (offset rest tiles i) = startOf rest tiles i :=
  (List.prefix_iff_eq_take.mp (h.startOf_prefix_source i)).symm

theorem startOf_length (h : Tiling source tiles rest) :
    startOf rest tiles tiles.length = source := by
  induction h with
  | last => rfl
  | cons hg hv he h ih => simp [startOf, Tile.text, ih]

theorem offset_lt (h : Tiling source tiles rest) (hij : i < j) (hi : i < tiles.length) :
    offset rest tiles i < offset rest tiles j := by
  induction h generalizing i j with
  | last => simp at hi
  | @cons t source rest tiles hg hv he h ih =>
    obtain ⟨j, rfl⟩ : ∃ n, j = n + 1 := ⟨j - 1, by omega⟩
    cases i with
    | zero =>
      have hpos := List.length_pos_iff.mpr (Spelling.text_ne_nil hv)
      simp only [offset, startOf, Tile.text, List.length_append]
      omega
    | succ i =>
      have hh := ih (Nat.lt_of_succ_lt_succ hij) (Nat.lt_of_succ_lt_succ hi)
      simp only [offset, startOf, List.length_append] at hh ⊢
      omega

end Tiling

theorem getElem?_tokensBehind {before rest : List Char} {tiles : List Tile} {i : Nat} {k : Token}
    (hk : (tokensBehind before rest tiles)[i]? = some k) :
    k = .behind k.kind k.value (before ++ startOf rest tiles i) := by
  induction tiles generalizing before i with
  | nil =>
    cases i with
    | zero =>
      obtain rfl := Option.some.inj hk
      rfl
    | succ i => simp [tokensBehind] at hk
  | cons t tiles ih =>
    cases i with
    | zero =>
      obtain rfl := Option.some.inj hk
      rfl
    | succ i =>
      have hh := ih hk
      rwa [List.append_assoc] at hh

theorem exists_getElem?_tokensBehind {before rest : List Char} {tiles : List Tile} {i : Nat}
    {kind : Kind} (hk : kind ≠ .endOfInput) :
    (∃ k, (tokensBehind before rest tiles)[i]? = some k ∧ k.kind = kind) ↔
      ∃ t, tiles[i]? = some t ∧ t.form.kind = kind := by
  induction tiles generalizing before i with
  | nil => cases i <;> simp [tokensBehind, Token.behind, hk.symm]
  | cons t tiles ih =>
    cases i with
    | zero => simp [tokensBehind, Token.behind]
    | succ i => simpa [tokensBehind] using ih

theorem countP_tokensBehind {source rest : List Char} {tiles : List Tile}
    (h : Tiling source tiles rest) (before : List Char) (i : Nat) :
    ((tokensBehind before rest tiles).take i).countP (·.kind = .endOfLine) =
      lineEnds (startOf rest tiles i) := by
  induction h generalizing before i with
  | @last rest hr =>
    have hl : lineEnds rest = 0 := lineEnds_of_inline (Text.inline_of_spacing hr)
    cases i <;> simp [tokensBehind, Token.behind, startOf, hl]
  | @cons t source rest tiles hg hv he h ih =>
    cases i with
    | zero =>
      have hl : lineEnds t.gap = 0 := lineEnds_of_inline (Text.inline_of_spacing hg)
      simp [startOf, hl]
    | succ i =>
      have hb : IsBoundary t.text (startOf rest tiles i) :=
        (Tile.isBoundary_text hv he []).of_prefix_ahead (h.startOf_prefix_source i)
      rw [startOf, lineEnds_append hb, Tile.lineEnds_text hg hv, ← ih (before ++ t.text) i,
        tokensBehind, List.take_succ_cons, List.countP_cons]
      by_cases hk : t.form.kind = .endOfLine
      · simp [Token.behind, hk, Nat.add_comm]
      · simp [Token.behind, hk]

theorem position_behind_lt {before more : List Char} (hb : IsBoundary before more)
    (hne : more ≠ []) (k₁ k₂ : Kind) (v₁ v₂ : String) :
    Prod.Lex (· < ·) (· < ·) (Token.behind k₁ v₁ before).position
      (Token.behind k₂ v₂ (before ++ more)).position := by
  rw [Prod.lex_def]
  simp only [Token.behind, Token.position]
  rw [lineEnds_append hb]
  by_cases hl : ∀ c ∈ more, Text.isLineEnd c = false
  · have hpos := List.length_pos_iff.mpr hne
    rw [lineEnds_of_inline hl, sinceLineEnd_append_inline before hl]
    omega
  · obtain ⟨c, hm, hc⟩ : ∃ c ∈ more, Text.isLineEnd c = true := by simpa using hl
    have hpos := lineEnds_pos hm hc
    omega

theorem pairwise_tokensBehind {source rest before : List Char} {tiles : List Tile}
    (h : Tiling source tiles rest) (hb : IsBoundary before source) :
    ((tokensBehind before rest tiles).map Token.position).Pairwise
      (Prod.Lex (· < ·) (· < ·)) := by
  induction h generalizing before with
  | last => simp [tokensBehind]
  | @cons t source rest tiles hg hv he h ih =>
    have hgap := hb.advance (Text.inline_of_spacing hg)
    rw [tokensBehind, List.map_cons, List.pairwise_cons]
    refine ⟨?_, ih (Tile.isBoundary_text hv he before)⟩
    intro p hp
    obtain ⟨k, hk, rfl⟩ := List.mem_map.mp hp
    obtain ⟨i, hi⟩ := List.mem_iff_getElem?.mp hk
    have hmore : t.form.text ++ startOf rest tiles i <+: t.form.text ++ source :=
      (List.prefix_append_right_inj _).mpr (h.startOf_prefix_source i)
    have he : before ++ t.text ++ startOf rest tiles i =
        before ++ t.gap ++ (t.form.text ++ startOf rest tiles i) := by simp [Tile.text]
    rw [getElem?_tokensBehind hi, he]
    apply position_behind_lt (hgap.of_prefix_ahead hmore)
    simp [Spelling.text_ne_nil hv]

namespace Tile

variable {t : Tile} {c : Char} {before more after : List Char}

/-- A line end that starts within a tile is its lexeme. -/
theorem eq_gap_of_lineEnd (hg : ∀ c ∈ t.gap, Text.isSpacing c = true) (hv : t.form.Valid)
    (ht : t.text = before ++ c :: more) (hc : Text.isLineEnd c = true)
    (hb : IsBoundary before (c :: after)) : t.form.kind = .endOfLine ∧ t.gap = before := by
  have hgap : c ∉ t.gap := by
    intro hm
    rw [Text.inline_of_spacing hg c hm] at hc
    exact Bool.false_ne_true hc
  obtain ⟨first, rfl, hf⟩ :
      ∃ first, before = t.gap ++ first ∧ t.form.text = first ++ c :: more := by
    rcases List.append_eq_append_iff.mp ht with ⟨first, hbefore, htext⟩ | ⟨last, hgap', hmore⟩
    · exact ⟨first, hbefore, htext⟩
    · cases last with
      | nil => exact ⟨[], by simpa using hgap'.symm, by simpa using hmore.symm⟩
      | cons d last =>
        obtain rfl := (List.cons.inj hmore).1
        simp [hgap'] at hgap
  have hk : t.form.kind = .endOfLine := by
    by_contra hk
    have hh := Spelling.inline_text hv hk c (by simp [hf])
    rw [hh] at hc
    exact Bool.false_ne_true hc
  obtain ⟨e, he⟩ := Spelling.eq_lineEnd_of_kind hk
  rw [he] at hf
  have hfirst : first = [] := LineEnd.eq_nil_of_text_eq hf hb.of_append_left
  simp [hk, hfirst]

end Tile

namespace Tiling

variable {source rest before after : List Char} {tiles : List Tile} {c : Char}

theorem exists_tile_of_lineEnd (h : Tiling source tiles rest) (hs : source = before ++ c :: after)
    (hc : Text.isLineEnd c = true) (hb : IsBoundary before (c :: after)) :
    ∃ i t, tiles[i]? = some t ∧ t.form.kind = .endOfLine ∧ startOf rest tiles i = before := by
  induction h generalizing before with
  | last hr =>
    have hh := Text.inline_of_spacing hr c (by simp [hs])
    rw [hh] at hc
    exact absurd hc Bool.false_ne_true
  | @cons t source rest tiles hg hv he h ih =>
    have hs' : t.text ++ source = before ++ c :: after := by simpa [Tile.text] using hs
    -- the line end starts behind this tile or within it
    rcases List.append_eq_append_iff.mp hs' with ⟨first, rfl, hsource⟩ | ⟨last, htext, hlast⟩
    · obtain ⟨i, u, hu, hk, hi⟩ := ih hsource hb.of_append_left
      exact ⟨i + 1, u, hu, hk, congrArg (t.text ++ ·) hi⟩
    · cases last with
      | nil =>
        obtain ⟨i, u, hu, hk, hi⟩ := @ih [] hlast.symm (isBoundary_nil_left _)
        refine ⟨i + 1, u, hu, hk, ?_⟩
        simpa [startOf, hi] using htext
      | cons d last =>
        obtain rfl := (List.cons.inj hlast).1
        obtain ⟨hk, hgap⟩ := Tile.eq_gap_of_lineEnd hg hv htext hc hb
        exact ⟨0, t, rfl, hk, hgap⟩

/-- A lexeme stands at its offset, and no line end lies across its start. -/
theorem exists_ahead {t : Tile} {i : Nat} (h : Tiling source tiles rest)
    (ht : tiles[i]? = some t) :
    ∃ ahead, source = startOf rest tiles i ++ (t.form.text ++ ahead) ∧ t.form.Valid ∧
      ∀ before, IsBoundary before source →
        IsBoundary (before ++ startOf rest tiles i) (t.form.text ++ ahead) := by
  induction h generalizing i with
  | last => simp at ht
  | @cons u source rest tiles hg hv he h ih =>
    cases i with
    | zero =>
      obtain rfl := Option.some.inj ht
      exact ⟨source, rfl, hv, fun before hb =>
        hb.advance (Text.inline_of_spacing hg)⟩
    | succ i =>
      obtain ⟨ahead, hs, hv', hb⟩ := ih ht
      refine ⟨ahead, by simp [startOf, Tile.text, ← hs], hv', fun before _ => ?_⟩
      rw [startOf, ← List.append_assoc]
      exact hb _ (Tile.isBoundary_text hv he before)

theorem prefix_drop_offset {t : Tile} {i : Nat} (h : Tiling source tiles rest)
    (ht : tiles[i]? = some t) : t.form.text <+: source.drop (offset rest tiles i) := by
  obtain ⟨ahead, hs, -, -⟩ := h.exists_ahead ht
  exact ⟨ahead, by rw [hs, offset, List.drop_left]⟩

theorem lineEndAt_offset {t : Tile} {i : Nat} (h : Tiling source tiles rest)
    (ht : tiles[i]? = some t) (hk : t.form.kind = .endOfLine) :
    LineEndAt source (offset rest tiles i) := by
  obtain ⟨ahead, hs, -, hb⟩ := h.exists_ahead ht
  obtain ⟨e, he⟩ := Spelling.eq_lineEnd_of_kind hk
  obtain ⟨c, more, hc⟩ := List.exists_cons_of_ne_nil e.text_ne_nil
  have htext : t.form.text = c :: more := by rw [he]; exact hc
  have hl : Text.isLineEnd c = true := LineEnd.isLineEnd_of_mem_text (e := e) (by simp [hc])
  rw [htext, List.cons_append] at hs hb
  exact lineEndAt_iff.mpr ⟨_, c, more ++ ahead, hs, rfl, hl, hb [] (isBoundary_nil_left _)⟩

theorem lineEndAt_iff_tile {o : Nat} (h : Tiling source tiles rest) :
    LineEndAt source o ↔
      ∃! i, (∃ t, tiles[i]? = some t ∧ t.form.kind = .endOfLine) ∧ offset rest tiles i = o := by
  constructor
  · intro ho
    obtain ⟨before, c, after, hs, rfl, hc, hb⟩ := lineEndAt_iff.mp ho
    obtain ⟨i, t, ht, hk, hi⟩ := h.exists_tile_of_lineEnd hs hc hb
    refine ⟨i, ⟨⟨t, ht, hk⟩, congrArg List.length hi⟩, ?_⟩
    rintro j ⟨⟨u, hu, -⟩, hj⟩
    have hoi : offset rest tiles i = offset rest tiles j := (congrArg List.length hi).trans hj.symm
    have hil := (List.getElem?_eq_some_iff.mp ht).1
    have hjl := (List.getElem?_eq_some_iff.mp hu).1
    rcases Nat.lt_trichotomy i j with hlt | heq | hlt
    · have := h.offset_lt hlt hil
      omega
    · exact heq.symm
    · have := h.offset_lt hlt hjl
      omega
  · rintro ⟨i, ⟨⟨t, ht, hk⟩, rfl⟩, -⟩
    exact h.lineEndAt_offset ht hk

end Tiling

namespace Lexer

/-- A token's line and column are those of its lexeme's first character. So they increase from token
to token, and a line end starts wherever exactly one end-of-line token does. -/
theorem tokens_at_true_positions (text : String) :
    ∃ (tiles : List Tile) (rest : List Char), Tiling text.toList tiles rest ∧
      (tokens text).toList.map Token.content =
        tiles.map (·.form.content) ++ [(.endOfInput, "")] ∧
      (∀ i t, tiles[i]? = some t → t.form.text <+: text.toList.drop (offset rest tiles i)) ∧
      offset rest tiles tiles.length = text.toList.length ∧
      (∀ i k, (tokens text)[i]? = some k →
        k.line = lineEnds (text.toList.take (offset rest tiles i)) + 1 ∧
        k.line = ((tokens text).toList.take i).countP (·.kind = .endOfLine) + 1 ∧
        k.column = sinceLineEnd (text.toList.take (offset rest tiles i)) + 1) ∧
      ((tokens text).toList.map Token.position).Pairwise (Prod.Lex (· < ·) (· < ·)) ∧
      ∀ o, LineEndAt text.toList o ↔
        ∃! i, (∃ k, (tokens text)[i]? = some k ∧ k.kind = .endOfLine) ∧
          offset rest tiles i = o := by
  obtain ⟨tiles, rest, h⟩ := exists_tiling text.toList
  refine ⟨tiles, rest, h, contents_of_tiling h, fun i t => h.prefix_drop_offset,
    congrArg List.length h.startOf_length, ?_⟩
  rw [tokens_of_tiling h]
  refine ⟨?_, pairwise_tokensBehind h (isBoundary_nil_left _), ?_⟩
  · intro i k hk
    have hk' := getElem?_tokensBehind (by simpa using hk)
    rw [h.take_offset, countP_tokensBehind h [] i, hk']
    exact ⟨rfl, rfl, rfl⟩
  · intro o
    have hk : Kind.endOfLine ≠ .endOfInput := by decide
    simp only [List.getElem?_toArray, exists_getElem?_tokensBehind hk]
    exact h.lineEndAt_iff_tile

end Lexer

end Abnf
