import Abnf.Text.Escape

/-! What the lexer puts up with, and where. A diagnostic never stops the lexer. -/

namespace Abnf

inductive Problem where
  | unrecognizedCharacter (c : Char)
  | unterminatedString
  | unterminatedRuleName
deriving DecidableEq, Repr

namespace Problem

def name : Problem → String
  | .unrecognizedCharacter _ => "unrecognized_character"
  | .unterminatedString => "unterminated_string"
  | .unterminatedRuleName => "unterminated_rule_name"

def message : Problem → String
  | .unrecognizedCharacter c => "Unrecognized character '" ++ Text.escapedChar c ++ "'"
  | .unterminatedString => "Unterminated string literal"
  | .unterminatedRuleName => "Unterminated rule name, expected '>'"

end Problem

structure Diagnostic where
  problem : Problem
  line : Nat
  column : Nat
deriving DecidableEq, Repr

namespace Diagnostic

def message (d : Diagnostic) : String := d.problem.message

/-- `[line:column] message` -/
def text (d : Diagnostic) : String :=
  "[" ++ toString d.line ++ ":" ++ toString d.column ++ "] " ++ d.message

end Diagnostic

end Abnf
