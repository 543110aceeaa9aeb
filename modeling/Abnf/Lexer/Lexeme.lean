import Abnf.Diagnostic
import Abnf.Lexer.Lead
import Abnf.Lexer.Notice

/-! One lexeme, read from the current symbol of a cursor on. A run of characters is read up to the
first symbol that does not belong to it, and that symbol is then given back. -/

namespace Abnf.Lexer

/-- What was read, and the cursor behind it. -/
structure Lexeme where
  kind : Kind
  value : String
  cursor : Cursor
  problem : Option Problem := none
  notices : List Notice := []

namespace Lexeme

/-- Takes the last advance back, so that the symbol it passed is read again. -/
def giveBack (c : Cursor) : Cursor × Notice :=
  match c.rewind with
  | .ok c => (c, .ofRewind c)
  | .error cause => (c, .notRewound cause)

/-- A symbol that is a lexeme on its own. -/
def single (kind : Kind) (value : String) (c : Cursor) : Lexeme := { kind, value, cursor := c }

/-- A run of accepted characters from the current symbol on. -/
def run (kind : Kind) (accept : Char → Bool) (c : Cursor) : Lexeme :=
  let (value, stop) := c.takeWhile accept
  let (cursor, notice) := giveBack stop
  { kind, value := String.ofList value, cursor, notices := [notice] }

/-- The text between the current symbol and `close`. Without a `close` on the line it ends with the
line, which is left for the next lexeme. -/
def delimited (kind : Kind) (close : Char) (problem : Problem) (c : Cursor) : Lexeme :=
  let (value, stop) := c.next.takeWhile (· != close)
  if stop.seen.symbol.is close then single kind (String.ofList value) stop
  else
    let (cursor, notice) := giveBack stop
    { kind, value := String.ofList value, cursor, problem := some problem, notices := [notice] }

/-- The lexeme that starts at the current symbol. -/
def read (c : Cursor) : Lexeme :=
  match Lead.of c.seen.symbol with
  | .endOfLine => single .endOfLine "" c
  | .comment => run .comment (fun _ => true) c.next
  | .terminalValue => run .terminalValue isTerminalBody c.next
  | .stringLiteral => delimited .stringLiteral '"' .unterminatedString c
  | .bareRuleName => run .ruleName Text.isLetter c
  | .angleRuleName => delimited .ruleName '>' .unterminatedRuleName c
  | .alternative => single .alternative "/" c
  | .equals => single .equals "=" c
  | .endOfInput => single .endOfInput "" c
  | .unknown x =>
    { single .unknown "" c with
      problem := some (.unrecognizedCharacter x)
      notices := [.unrecognized x c.seen.line c.seen.column] }

end Lexeme

end Abnf.Lexer
