import Abnf.Proofs.Positions

/-! What the lexer tells while it reads a text. It follows from the tokens and from where their lexemes
end, since a symbol that is given back leaves the cursor right behind the lexeme. -/

namespace Abnf

namespace Lexer.Lexeme

variable {c : Cursor} {n : Nat}

theorem notice_giveBack (h : c.AdvancedFrom n) : (giveBack c).2 = .ofRewind (giveBack c).1 := by
  obtain ⟨d, rfl, -⟩ := h
  rfl

theorem notices_run {kind : Kind} {accept : Char → Bool} (h : (c.takeWhile accept).2.AdvancedFrom n) :
    (run kind accept c).notices = [.ofRewind (run kind accept c).cursor] :=
  congrArg ([·]) (notice_giveBack h)

theorem notices_delimited (kind : Kind) (close : Char) (problem : Problem) (c : Cursor) :
    (delimited kind close problem c).notices = if (delimited kind close problem c).problem.isSome then
      [.ofRewind (delimited kind close problem c).cursor] else [] := by
  have h : (c.next.takeWhile (· != close)).2.AdvancedFrom c.place.ahead.length :=
    c.advancedFrom_next.takeWhile
  unfold delimited
  dsimp only
  split
  · rfl
  · exact congrArg ([·]) (notice_giveBack h)

/-- A lexeme that ends with its last character has nothing to tell; any other one tells where its cursor
was left. -/
theorem notices_read (c : Cursor) :
    (read c).notices = match Lead.of c.seen.symbol with
      | .comment | .terminalValue | .bareRuleName => [.ofRewind (read c).cursor]
      | .stringLiteral | .angleRuleName =>
        if (read c).problem.isSome then [.ofRewind (read c).cursor] else []
      | .unknown x => [.unrecognized x c.seen.line c.seen.column]
      | .endOfLine | .alternative | .equals | .endOfInput => [] := by
  cases hlead : Lead.of c.seen.symbol with
  | comment | terminalValue =>
    simp only [read, hlead]
    exact notices_run c.advancedFrom_next.takeWhile
  | bareRuleName =>
    obtain ⟨x, hx, ha⟩ := lead_bareRuleName hlead
    simp only [read, hlead]
    exact notices_run (takeWhile_advancedFrom hx ha)
  | stringLiteral | angleRuleName =>
    simp only [read, hlead]
    exact notices_delimited ..
  | unknown x | endOfLine | alternative | equals | endOfInput => simp only [read, hlead, single]

end Lexer.Lexeme

/-- What is told of a lexeme aside from its token `k`, if `behind` is the text up to its end. -/
def Spelling.remarks (f : Spelling) (k : Token) (behind : List Char) : List Lexer.Notice :=
  match f with
  | .unknown c => [.unrecognized c k.line k.column]
  | .comment _ | .terminalValue _ | .ruleName _ | .delimited _ _ false =>
    [.rewound (lineEnds behind + 1) (sinceLineEnd behind + 1)]
  | .lineEnd _ | .delimited _ _ true | .alternative | .equals => []

/-- All that is told while a token is read. -/
def Token.told (k : Token) (options : Lexer.Options) (remarks : List Lexer.Notice) :
    List Lexer.Notice :=
  .requested :: remarks ++ if options.traceTokens then [.produced k] else []

namespace Lexer

variable {l : Lexer} {before gap rest : List Char}

end Lexer

end Abnf
