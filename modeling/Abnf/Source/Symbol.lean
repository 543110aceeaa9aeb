import Abnf.Text.Blank

/-! What a source text is made of, seen from a cursor: characters, line ends and the end of the
text. A line end is one symbol however it is spelled. -/

namespace Abnf

inductive Symbol where
  | char (c : Char)
  | endOfLine
  | endOfInput
deriving DecidableEq, Repr

namespace Symbol

def char? : Symbol → Option Char
  | .char c => some c
  | _ => none

def isEndOfLine (s : Symbol) : Bool := s == .endOfLine

def isEndOfInput (s : Symbol) : Bool := s == .endOfInput

/-- Blank within a line; a line end is not. -/
def isBlank : Symbol → Bool
  | .char c => Text.isBlank c
  | _ => false

def is (s : Symbol) (c : Char) : Bool := s == .char c

end Symbol

/-- A symbol with the line and column at which it starts, both counted from 1. -/
structure Located where
  symbol : Symbol
  line : Nat
  column : Nat
deriving DecidableEq, Repr

end Abnf
