import Abnf.Source.Symbol
import Abnf.Text.Letters

/-! The first symbol of a lexeme decides what kind of lexeme it is. -/

namespace Abnf.Lexer

inductive Lead where
  | endOfLine
  | comment
  | terminalValue
  | stringLiteral
  | bareRuleName
  | angleRuleName
  | alternative
  | equals
  | endOfInput
  | unknown (c : Char)
deriving DecidableEq, Repr

def Lead.of : Symbol → Lead
  | .endOfLine => .endOfLine
  | .endOfInput => .endOfInput
  | .char c =>
    if c = ';' then .comment
    else if c = '%' then .terminalValue
    else if c = '"' then .stringLiteral
    else if Text.isLetter c then .bareRuleName
    else if c = '<' then .angleRuleName
    else if c = '/' then .alternative
    else if c = '=' then .equals
    else .unknown c

/-- What may follow the percent sign of a terminal value, as in `x0A` or `d13.10`. -/
def isTerminalBody (c : Char) : Bool := c.isAlphanum || c == '.' || c == '-'

end Abnf.Lexer
