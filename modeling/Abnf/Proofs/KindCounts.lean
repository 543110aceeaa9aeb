import Abnf.Proofs.Verdict
import Mathlib.Algebra.BigOperators.Group.List.Lemmas
import Mathlib.Algebra.GroupWithZero.Nat

/-! How many tokens of each kind there are, told in two ways: by going through the tokens once with a count
for every kind met so far, and by looking for one kind among all tokens. For the tokens of a text some of
the counts are known from elsewhere. -/

namespace Abnf

namespace Kind

theorem mem_all (k : Kind) : k ∈ all := by cases k <;> decide

theorem pairwise_all : all.Pairwise (·.rank < ·.rank) := by decide

end Kind

namespace Tokenization

/-- The kinds of `order` that occur in `ks`, each with how often it does. -/
def countsIn (order ks : List Kind) : List (Kind × Nat) :=
  (order.filter (· ∈ ks)).map fun k => (k, ks.count k)

theorem countsIn_cons (k : Kind) (order ks : List Kind) : countsIn (k :: order) ks =
    if k ∈ ks then (k, ks.count k) :: countsIn order ks else countsIn order ks := by
  by_cases hk : k ∈ ks <;> simp [countsIn, hk]

theorem countsIn_concat_of_notMem {order : List Kind} {kind : Kind} (h : kind ∉ order) (ks : List Kind) :
    countsIn order (ks ++ [kind]) = countsIn order ks := by
  induction order with
  | nil => rfl
  | cons k order ih =>
    obtain ⟨hk, horder⟩ : kind ≠ k ∧ kind ∉ order := by simpa using h
    have hrest := ih horder
    simp [countsIn_cons, hrest, hk, Ne.symm hk]

/-- A kind that comes before all that were counted gets its count in front. -/
theorem tally_of_rank_lt {counts : List (Kind × Nat)} {kind : Kind}
    (h : ∀ c ∈ counts, kind.rank < c.1.rank) : tally counts kind = (kind, 1) :: counts := by
  cases counts with
  | nil => rfl
  | cons c more =>
    have hlt : kind.rank < c.1.rank := h c (by simp)
    have hne : c.1 ≠ kind := by
      rintro rfl
      omega
    rw [tally, if_neg hne, if_neg (by omega)]

theorem tally_countsIn {order : List Kind} (horder : order.Pairwise (·.rank < ·.rank)) {kind : Kind}
    (hm : kind ∈ order) (ks : List Kind) :
    tally (countsIn order ks) kind = countsIn order (ks ++ [kind]) := by
  induction order with
  | nil => simp at hm
  | cons k order ih =>
    obtain ⟨hlater, horder⟩ := List.pairwise_cons.mp horder
    by_cases hk : k = kind
    · subst hk
      have hnot : k ∉ order := fun hmem => Nat.lt_irrefl _ (hlater k hmem)
      have hrest := countsIn_concat_of_notMem hnot ks
      by_cases hks : k ∈ ks
      · simp [countsIn_cons, hks, hrest, tally]
      · have hfirst : ∀ c ∈ countsIn order ks, k.rank < c.1.rank := by
          intro c hc
          obtain ⟨x, hx, rfl⟩ := List.mem_map.mp hc
          exact hlater x (List.mem_filter.mp hx).1
        have hnone : ks.count k = 0 := List.count_eq_zero.mpr hks
        simp [countsIn_cons, hks, hrest, hnone, tally_of_rank_lt hfirst]
    · have hmem : kind ∈ order := by simpa [Ne.symm hk] using hm
      have hrest := ih horder hmem
      have hlt := hlater kind hmem
      by_cases hks : k ∈ ks
      · simp [countsIn_cons, hks, hk, Ne.symm hk, tally, hlt, hrest]
      · simp [countsIn_cons, hks, hk, hrest]

theorem foldl_tally (ks : List Kind) : ks.foldl tally [] = countsIn Kind.all ks := by
  induction ks using List.reverseRecOn with
  | nil => rfl
  | append_singleton ks kind ih =>
    rw [List.foldl_append, ih]
    exact tally_countsIn Kind.pairwise_all kind.mem_all ks

theorem sum_countsIn_all (ks : List Kind) : ((countsIn Kind.all ks).map Prod.snd).sum = ks.length := by
  have hnodup : (Kind.all.filter (· ∈ ks)).Nodup := List.Nodup.filter _ (by decide)
  have hperm : (Kind.all.filter (· ∈ ks)).Perm ks.dedup := by
    rw [List.perm_ext_iff_of_nodup hnodup ks.nodup_dedup]
    simp [Kind.mem_all]
  have hsum := List.sum_map_count_dedup_eq_length ks
  rw [← hsum]
  simpa [countsIn, Function.comp_def] using (hperm.map (ks.count ·)).sum_eq

theorem count_eq (t : Tokenization) (kind : Kind) : t.count kind = (t.tokens.map (·.kind)).count kind := by
  simp [count, List.count, List.countP_map, Function.comp_def]

theorem kindCounts_eq (t : Tokenization) :
    t.kindCounts =
      (Kind.all.filter fun kind => ∃ k ∈ t.tokens, k.kind = kind).map fun kind => (kind, t.count kind) := by
  simp [kindCounts, foldl_tally, countsIn, count_eq]

end Tokenization

def Problem.isUnrecognized : Problem → Bool
  | unrecognizedCharacter _ => true
  | unterminatedString | unterminatedRuleName => false

theorem getLast?_tokensBehind (before rest : List Char) (tiles : List Tile) :
    (tokensBehind before rest tiles).getLast? =
      some (.behind .endOfInput "" (before ++ (tiles.flatMap Tile.text ++ rest))) := by
  induction tiles generalizing before with
  | nil => rfl
  | cons t tiles ih =>
    have hrest := ih (before ++ t.text)
    have hne : tokensBehind (before ++ t.text) rest tiles ≠ [] := by
      intro hnil
      simp [hnil] at hrest
    rw [tokensBehind, List.getLast?_cons_of_ne_nil hne, hrest]
    simp

theorem countP_reportsBehind (before : List Char) (tiles : List Tile) :
    (reportsBehind before tiles).countP (·.problem.isUnrecognized) =
      (tiles.map (·.form.kind)).count .unknown := by
  induction tiles generalizing before with
  | nil => rfl
  | cons t tiles ih =>
    have hform : (t.form.reportBehind (before ++ t.gap)).countP (·.problem.isUnrecognized) =
        if t.form.kind = .unknown then 1 else 0 := by
      cases t.form with
      | delimited d body closed => cases d <;> cases closed <;> rfl
      | lineEnd | comment | terminalValue | ruleName | alternative | equals | unknown => rfl
    have hrest := ih (before ++ t.text)
    rw [reportsBehind, List.countP_append, hform, hrest, List.map_cons, List.count_cons, Nat.add_comm]
    simp

theorem Tiling.count_endOfLine {source rest : List Char} {tiles : List Tile}
    (h : Tiling source tiles rest) : (tiles.map (·.form.kind)).count .endOfLine = lineEnds source := by
  induction h with
  | last hr => exact (lineEnds_of_inline (Text.inline_of_spacing hr)).symm
  | @cons t source rest tiles hg hv he h ih =>
    have hb : IsBoundary t.text source := Tile.isBoundary_text hv he []
    have hsource : t.gap ++ (t.form.text ++ source) = t.text ++ source := by simp [Tile.text]
    rw [hsource, lineEnds_append hb, Tile.lineEnds_text hg hv, ← ih, List.map_cons, List.count_cons,
      Nat.add_comm]
    simp

theorem Lexer.kinds_of_tiling {source : String} {rest : List Char} {tiles : List Tile}
    (h : Tiling source.toList tiles rest) :
    (tokens source).toList.map (·.kind) = tiles.map (·.form.kind) ++ [.endOfInput] := by
  have hcontents := congrArg (List.map Prod.fst) (contents_of_tiling h)
  simpa [Function.comp_def, Token.content, Spelling.content] using hcontents

theorem Policy.eq_of_judge_eq_ok {source : String} {rest : List Char} {tiles : List Tile} (p : Policy)
    (h : Tiling source.toList tiles rest) {elapsed : Nat} {t : Tokenization}
    (ht : p.judge (p.lex source) elapsed = .ok t) :
    t.tokens = (Lexer.tokens source).toList ∧
      t.diagnostics = if p.lexer.collectDiagnostics then reportsBehind [] tiles else [] := by
  rw [p.judge_of_tiling h] at ht
  dsimp only at ht
  generalize (if p.lexer.collectDiagnostics then reportsBehind [] tiles else []) = ds at ht ⊢
  split at ht
  · simp at ht
  · obtain rfl := Except.ok.inj ht
    exact ⟨rfl, rfl⟩

namespace Tokenization

/-- Going through the tokens finds each kind that occurs, in order, with as many tokens as looking for it
does; other kinds have none, and all counts together are the number of tokens. What comes of a source has
one end of input, a line end for each line but the last, and an unknown token for each unrecognized
character that was reported. -/
theorem kind_counts_agree (t : Tokenization) :
    t.kindCounts = (Kind.all.filter fun kind => ∃ k ∈ t.tokens, k.kind = kind).map
      (fun kind => (kind, t.count kind)) ∧
    (∀ kind, t.count kind = 0 ↔ ∀ k ∈ t.tokens, k.kind ≠ kind) ∧
    (t.kindCounts.map Prod.snd).sum = t.tokens.length ∧
    ∀ (p : Policy) (network : Log.Network) (clock : Nat → Log.Readings) (logger : Log.LoggerId)
      (source : String) (elapsed : Nat) (done : Tokenized),
      p.tokenize network clock logger source elapsed = some done → done.result = .ok t →
      t.count .endOfInput = 1 ∧
      (∃ last, t.tokens.getLast? = some last ∧ t.count .endOfLine + 1 = last.line) ∧
      (p.lexer.collectDiagnostics = true →
        t.count .unknown = t.diagnostics.countP (·.problem.isUnrecognized)) := by
  refine ⟨t.kindCounts_eq, ?_, ?_, ?_⟩
  · intro kind
    simp [count, List.countP_eq_zero]
  · rw [kindCounts, foldl_tally, sum_countsIn_all, List.length_map]
  · intro p network clock logger source elapsed done hdone hrun
    obtain ⟨tiles, rest, h⟩ := exists_tiling source.toList
    obtain ⟨htokens, hdiagnostics⟩ :=
      p.eq_of_judge_eq_ok h ((Policy.result_of_tokenize hdone).symm.trans hrun)
    have hkinds : t.tokens.map (·.kind) = tiles.map (·.form.kind) ++ [.endOfInput] := by
      rw [htokens, Lexer.kinds_of_tiling h]
    have hnone : (tiles.map (·.form.kind)).count .endOfInput = 0 := by
      rw [List.count_eq_zero]
      intro hm
      obtain ⟨tile, -, htile⟩ := List.mem_map.mp hm
      exact tile.form.kind_ne_endOfInput htile
    refine ⟨?_, ⟨.behind .endOfInput "" source.toList, ?_, ?_⟩, ?_⟩
    · simp [count_eq, hkinds, hnone]
    · have hlast := getLast?_tokensBehind [] rest tiles
      rw [List.nil_append, ← h.source_eq] at hlast
      rw [htokens, Lexer.tokens_of_tiling h, hlast]
    · simp [count_eq, hkinds, h.count_endOfLine, Token.behind]
    · intro hcollect
      rw [hdiagnostics, if_pos hcollect, countP_reportsBehind]
      simp [count_eq, hkinds]

theorem kind_counts_agree_broken_off :
    let source := "a @\r\n\"b"
    let t : Tokenization :=
      ⟨[⟨.ruleName, "a", 1, 1⟩, ⟨.unknown, "", 1, 3⟩, ⟨.endOfLine, "", 1, 4⟩,
          ⟨.stringLiteral, "b", 2, 1⟩, ⟨.endOfInput, "", 2, 3⟩],
        [⟨.unrecognizedCharacter '@', 1, 3⟩, ⟨.unterminatedString, 2, 1⟩], 5⟩
    (∃ done, Policy.tokenize {} .empty (fun _ _ => 0) ⟨0⟩ source 5 = some done ∧ done.result = .ok t) ∧
      t.kindCounts = [(.unknown, 1), (.endOfLine, 1), (.endOfInput, 1), (.stringLiteral, 1),
        (.ruleName, 1)] ∧
      t.count .endOfInput = 1 ∧ (∃ last, t.tokens.getLast? = some last ∧ t.count .endOfLine + 1 = last.line) ∧
      t.count .unknown = t.diagnostics.countP (·.problem.isUnrecognized) := by
  intro source t
  have hback : Policy.tokenize {} .empty (fun _ _ => 0) ⟨0⟩ source 5 ≠ none := by
    intro hnone
    obtain ⟨_, -, hcircles⟩ := Policy.tokenize_eq_none_iff.mp hnone
    obtain ⟨_, ⟨l, hl, -⟩, -⟩ := hcircles.exists_inner
    simp [Log.Network.logger?, Log.Network.empty] at hl
  obtain ⟨done, hdone⟩ := Option.ne_none_iff_exists'.mp hback
  have ht : Tokenization.mk (Policy.lex {} source).tokens.toList
      (Policy.lex {} source).lexer.diagnostics.toList 5 = t := by decide +kernel
  have hresult : done.result = .ok t := (Policy.result_of_tokenize hdone).trans (congrArg Except.ok ht)
  obtain ⟨hcounts, -, -, hrun⟩ := kind_counts_agree t
  obtain ⟨hend, hlines, hunknown⟩ := hrun {} .empty (fun _ _ => 0) ⟨0⟩ source 5 done hdone hresult
  exact ⟨⟨done, hdone, hresult⟩, hcounts.trans (by decide), hend, hlines, hunknown rfl⟩

end Tokenization

end Abnf
