import Abnf.Json.Numeral
import Abnf.Json.Text

/-! Values that nobody asked for. They are checked to be JSON, at any depth, and left out. -/

namespace Abnf.Json.Ignored

/-- A bracket that is open. -/
inductive Bracket where
  | list
  | object
deriving DecidableEq, Repr

namespace Bracket

def closing : Bracket → Char
  | .list => ']'
  | .object => '\x7d'

def atEnd : Bracket → Cause
  | .list => .endInList
  | .object => .endInObject

def expectedCommaOrEnd : Bracket → Cause
  | .list => .expectedListCommaOrEnd
  | .object => .expectedObjectCommaOrEnd

end Bracket

/-- What has to come next. -/
inductive Expect where
  | value
  | key
  /-- The first element or member, or the closing bracket. -/
  | firstOrClose
  | commaOrClose
deriving DecidableEq, Repr

/-- How an element or a member starts. -/
def Bracket.element : Bracket → Expect
  | .list => .value
  | .object => .key

/-- What a first character tells of a value. -/
def readScalar (c : Char) : Reader Unit := do
  match c with
  | 'n' => Reader.skip; Reader.word ['u', 'l', 'l']
  | 't' => Reader.skip; Reader.word ['r', 'u', 'e']
  | 'f' => Reader.skip; Reader.word ['a', 'l', 's', 'e']
  | '"' => Reader.skip; Text.skip
  | '-' => Reader.skip; discard (Numeral.read .invalidNumber true)
  | c =>
    if c.isDigit then discard (Numeral.read .invalidNumber false) else Reader.failNext .expectedValue

/-- Reads on inside the brackets that are `opened`, innermost first. Each turn takes a character, but
for the one that finds a first element; so `fuel` must exceed twice the length of the text. -/
def readFrom : Nat → Expect → List Bracket → Reader Unit
  | 0, _, _ => Reader.failNext .endInValue
  | fuel + 1, expect, opened => do
    let closed : List Bracket → Reader Unit
      | [] => return
      | outer => readFrom fuel .commaOrClose outer
    let next ← Reader.peek?
    match expect, opened, next with
    | .value, _, none => Reader.failNext .endInValue
    | .value, _, some c =>
      if c = '[' then
        Reader.skip
        readFrom fuel .firstOrClose (.list :: opened)
      else if c = '\x7b' then
        Reader.skip
        readFrom fuel .firstOrClose (.object :: opened)
      else
        readScalar c
        closed opened
    | .key, _, some '"' =>
      Reader.skip
      Text.skip
      Reader.colon
      readFrom fuel .value opened
    | .key, _, some _ => Reader.failNext .keyNotString
    | .key, _, none => Reader.failNext .endInObject
    | _, [], _ => return
    | _, inner :: _, none => Reader.failNext inner.atEnd
    | .firstOrClose, inner :: outer, some c =>
      if c = inner.closing then
        Reader.skip
        closed outer
      else readFrom fuel inner.element opened
    | .commaOrClose, inner :: outer, some c =>
      if c = ',' then
        Reader.skip
        readFrom fuel inner.element opened
      else if c = inner.closing then
        Reader.skip
        closed outer
      else Reader.failNext inner.expectedCommaOrEnd

def read : Reader Unit := do
  readFrom (2 * (← get).rest.length + 2) .value []

end Abnf.Json.Ignored
