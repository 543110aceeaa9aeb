import Abnf.Json.Error

/-! Readers consume a JSON text from the front. A reader that fails says after how many bytes. -/

namespace Abnf.Json

/-- What is left of a text, and how many bytes came before. -/
structure Input where
  rest : List Char
  offset : Nat
deriving DecidableEq, Repr

namespace Input

def ofText (text : String) : Input := ⟨text.toList, 0⟩

def isBlank (c : Char) : Bool := c == ' ' || c == '\n' || c == '\t' || c == '\r'

/-- Without its first character. -/
def tail (i : Input) : Input :=
  match i.rest with
  | [] => i
  | c :: rest => ⟨rest, i.offset + c.utf8Size⟩

/-- Without the accepted characters at its front, all of which must be of one byte. -/
def dropWhile (accept : Char → Bool) (i : Input) : Input :=
  ⟨i.rest.dropWhile accept, i.offset + (i.rest.takeWhile accept).length⟩

def skipBlanks (i : Input) : Input := i.dropWhile isBlank

/-- The offset behind the next byte, if there is one. -/
def behindNext (i : Input) : Nat := if i.rest.isEmpty then i.offset else i.offset + 1

end Input

/-- A failure has its offset at once, or gets it from the record around it. -/
inductive Fault where
  | placed (cause : Cause) (offset : Nat)
  | pending (cause : Cause) (input : Input)

abbrev Reader := StateT Input (Except Fault)

namespace Reader

/-- Fails with all that was read so far behind it. -/
def fail (cause : Cause) : Reader α := do
  throw (.placed cause (← get).offset)

/-- Fails because of the next character, the first byte of which counts as read. -/
def failNext (cause : Cause) : Reader α := do
  throw (.placed cause (← get).behindNext)

/-- Fails at an offset that the record around it has to settle. -/
def failLater (cause : Cause) : Reader α := do
  throw (.pending cause (← get))

/-- The next character, which stays where it is. -/
def head? : Reader (Option Char) := do
  return (← get).rest.head?

/-- The next character behind blanks, which stays where it is. -/
def peek? : Reader (Option Char) := do
  modify .skipBlanks
  head?

def skip : Reader Unit := modify .tail

/-- The longest run of ASCII digits. -/
def digits : Reader (List Char) := do
  let run := (← get).rest.takeWhile Char.isDigit
  modify (.dropWhile Char.isDigit)
  return run

/-- The rest of a word that was recognized by its first character. -/
def word : List Char → Reader Unit
  | [] => return
  | c :: rest => do
    match ← head? with
    | none => fail .endInValue
    | some x => if x = c then skip; word rest else failNext .expectedWord

def colon : Reader Unit := do
  match ← peek? with
  | some ':' => skip
  | some _ => failNext .expectedColon
  | none => failNext .endInObject

end Reader

end Abnf.Json
