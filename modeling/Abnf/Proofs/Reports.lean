import Abnf.Proofs.Positions

/-! Diagnostics are the problems of the tokens, one for one, in order and in the same places. -/

namespace Abnf

def Diagnostic.position (d : Diagnostic) : Nat × Nat := (d.line, d.column)

theorem reportsBehind_eq_filterMap (before rest : List Char) (tiles : List Tile) :
    reportsBehind before tiles = (tiles.zip (tokensBehind before rest tiles)).filterMap
      fun (t, k) => t.form.problem?.map (⟨·, k.line, k.column⟩) := by
  induction tiles generalizing before with
  | nil => rfl
  | cons t tiles ih =>
    rw [reportsBehind, tokensBehind, List.zip_cons_cons, List.filterMap_cons, ih]
    cases hp : t.form.problem? with
    | none => simp [Spelling.reportBehind, hp]
    | some problem => simp [Spelling.reportBehind, hp, Token.behind]

/-- Reports stand where tokens do, at most one in each place. -/
theorem reportsBehind_sublist (before rest : List Char) (tiles : List Tile) :
    ((reportsBehind before tiles).map Diagnostic.position).Sublist
      ((tokensBehind before rest tiles).map Token.position) := by
  induction tiles generalizing before with
  | nil => simp [reportsBehind]
  | cons t tiles ih =>
    have hh := ih (before ++ t.text)
    rw [reportsBehind, tokensBehind, List.map_append, List.map_cons]
    cases hp : t.form.problem? with
    | none => simpa [Spelling.reportBehind, hp] using hh.cons _
    | some problem =>
      simp only [Spelling.reportBehind, hp, Option.map_some, Option.toList_some, List.map_cons,
        List.map_nil, List.singleton_append]
      exact hh.cons_cons _

namespace Lexer

/-- What is kept after a text has been read are the problems of its lexemes, each where its token
stands, or nothing at all if no diagnostics are collected. -/
theorem diagnostics_are_problems (options : Options) (text : String) :
    ∃ (tiles : List Tile) (rest : List Char), Tiling text.toList tiles rest ∧
      (ofText options text).drain.tokens = tokens text ∧
      (tokens text).toList.map Token.content =
        tiles.map (·.form.content) ++ [(.endOfInput, "")] ∧
      (∀ i t k, tiles[i]? = some t → (tokens text)[i]? = some k →
        t.form.text <+: text.toList.drop (offset rest tiles i) ∧
        k = .behind k.kind k.value (text.toList.take (offset rest tiles i))) ∧
      (ofText options text).drain.lexer.diagnostics.toList =
        (if options.collectDiagnostics then
          (tiles.zip (tokens text).toList).filterMap fun (t, k) =>
            t.form.problem?.map (⟨·, k.line, k.column⟩)
        else []) ∧
      ((ofText options text).drain.lexer.diagnostics.toList.map Diagnostic.position).Pairwise
        (Prod.Lex (· < ·) (· < ·)) := by
  obtain ⟨tiles, rest, h⟩ := exists_tiling text.toList
  obtain ⟨ht, hd⟩ := drain_of_tiling h options
  have htokens := tokens_of_tiling h
  refine ⟨tiles, rest, h, ht.trans htokens.symm, contents_of_tiling h, ?_, ?_, ?_⟩
  · intro i t k hi hk
    rw [htokens] at hk
    refine ⟨h.prefix_drop_offset hi, ?_⟩
    rw [h.take_offset]
    exact getElem?_tokensBehind (by simpa using hk)
  · rw [hd, htokens, reportsBehind_eq_filterMap [] rest tiles]
  · have hp := pairwise_tokensBehind h (isBoundary_nil_left _)
    rw [hd]
    cases options.collectDiagnostics with
    | false => simp
    | true => exact hp.sublist (reportsBehind_sublist [] rest tiles)

end Lexer

end Abnf
