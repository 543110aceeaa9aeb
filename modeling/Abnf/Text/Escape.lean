import Abnf.Text.Extending
import Abnf.Text.Ignorable
import Abnf.Text.Unprintable

/-! Text written so that every character can be seen. A few characters have a short form behind a
backslash; one that would leave no mark, or join its neighbour, is written by its code point. -/

namespace Abnf.Text

/-- Which of the two quotation marks takes a backslash. -/
structure Quoting where
  double : Bool
  single : Bool

/-- Between double quotes. -/
def Quoting.text : Quoting := ⟨true, false⟩

/-- A single character between single quotes. -/
def Quoting.character : Quoting := ⟨false, true⟩

/-- In running text, where either mark may follow. -/
def Quoting.both : Quoting := ⟨true, true⟩

/-- The two halfwidth sound marks of Katakana join the letter before them but fill a cell of their
own. -/
def isSoundMark (c : Char) : Bool := c == '\uff9e' || c == '\uff9f'

def isHidden (c : Char) : Bool :=
  isUnprintable c || isExtending c && !isSoundMark c || isIgnorable c

def codePoint (c : Char) : List Char :=
  ['\\', 'u', '\x7b'] ++ Nat.toDigits 16 c.toNat ++ ['\x7d']

def escapeChar (q : Quoting) (c : Char) : List Char :=
  if c = '\x00' then ['\\', '0']
  else if c = '\t' then ['\\', 't']
  else if c = '\r' then ['\\', 'r']
  else if c = '\n' then ['\\', 'n']
  else if c = '\\' then ['\\', '\\']
  else if c = '"' && q.double then ['\\', '"']
  else if c = '\'' && q.single then ['\\', '\'']
  else if isHidden c then codePoint c
  else [c]

def escape (q : Quoting) (s : List Char) : List Char := s.flatMap (escapeChar q)

/-- A text between double quotes. -/
def quoted (s : String) : String :=
  String.ofList ('"' :: escape .text s.toList ++ ['"'])

/-- A character between single quotes. -/
def quotedChar (c : Char) : String :=
  String.ofList ('\'' :: escapeChar .character c ++ ['\''])

/-- A character with both quotation marks escaped, and none around it. -/
def escapedChar (c : Char) : String := String.ofList (escapeChar .both c)

end Abnf.Text
