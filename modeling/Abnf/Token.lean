import Abnf.Text.Escape

/-! Tokens: a kind, the text it carries, and the place of its first character. -/

namespace Abnf

inductive Kind where
  | unknown
  | endOfLine
  | endOfInput
  | stringLiteral
  | ruleName
  | alternative
  | terminalValue
  | comment
  | equals
deriving DecidableEq, Repr

namespace Kind

/-- Every kind, in the order in which kinds are sorted. -/
def all : List Kind :=
  [.unknown, .endOfLine, .endOfInput, .stringLiteral, .ruleName, .alternative, .terminalValue,
    .comment, .equals]

def rank (k : Kind) : Nat := all.idxOf k

def name : Kind → String
  | .unknown => "UNKNOWN"
  | .endOfLine => "END_OF_LINE"
  | .endOfInput => "END_OF_INPUT"
  | .stringLiteral => "STRING_LITERAL"
  | .ruleName => "RULE_NAME"
  | .alternative => "ALTERNATIVE"
  | .terminalValue => "TERMINAL_VALUE"
  | .comment => "COMMENT"
  | .equals => "EQUALS"

def ofName? (name : String) : Option Kind := all.find? (·.name == name)

/-- The value of such a token is a run of the source's characters. -/
def carriesText : Kind → Bool
  | .stringLiteral | .ruleName | .terminalValue | .comment => true
  | _ => false

def sort (kinds : List Kind) : List Kind := kinds.mergeSort (·.rank ≤ ·.rank)

end Kind

structure Token where
  kind : Kind
  value : String
  line : Nat
  column : Nat
deriving DecidableEq, Repr

namespace Token

def isEndOfInput (t : Token) : Bool := t.kind == .endOfInput

/-- `line:column KIND "value"` -/
def text (t : Token) : String :=
  toString t.line ++ ":" ++ toString t.column ++ " " ++ t.kind.name ++ " " ++ Text.quoted t.value

end Token

end Abnf
