import Abnf.Json.Reader

/-! Strings behind their opening quote. -/

namespace Abnf.Json.Text

def hexValue? (c : Char) : Option Nat :=
  if c.isDigit then some (c.toNat - '0'.toNat)
  else if 'a' ≤ c ∧ c ≤ 'f' then some (c.toNat - 'a'.toNat + 10)
  else if 'A' ≤ c ∧ c ≤ 'F' then some (c.toNat - 'A'.toNat + 10)
  else none

/-- Four hexadecimal digits. Whatever stands there, four bytes are taken. -/
def hex4 (i : Input) : Except Fault (Nat × Input) :=
  if (String.ofList (i.rest.take 4)).utf8ByteSize < 4 then
    .error (.placed .endInString (i.offset + (String.ofList i.rest).utf8ByteSize))
  else match (i.rest.take 4).mapM hexValue? with
    | some [a, b, c, d] => .ok (((a * 16 + b) * 16 + c) * 16 + d, ⟨i.rest.drop 4, i.offset + 4⟩)
    | _ => .error (.placed .invalidEscape (i.offset + 4))

def isLeading (unit : Nat) : Bool := 0xD800 ≤ unit && unit ≤ 0xDBFF

def isTrailing (unit : Nat) : Bool := 0xDC00 ≤ unit && unit ≤ 0xDFFF

/-- One character that must come next. -/
def require (c : Char) (cause : Cause) (i : Input) : Except Fault Input :=
  match i.rest with
  | [] => .error (.placed .endInString i.offset)
  | x :: _ => if x = c then .ok i.tail else .error (.placed cause i.behindNext)

/-- The character given by one unit of 16 bits, or by a pair of them. -/
def unicode (i : Input) : Except Fault (Char × Input) := do
  let (unit, i) ← hex4 i
  if isTrailing unit then throw (.placed .loneSurrogate i.offset)
  if !isLeading unit then return (Char.ofNat unit, i)
  let i ← require '\\' .halfSurrogatePair i
  let i ← require 'u' .halfSurrogatePair i
  let (second, i) ← hex4 i
  if !isTrailing second then throw (.placed .loneSurrogate i.offset)
  return (Char.ofNat (0x10000 + (unit - 0xD800) * 0x400 + (second - 0xDC00)), i)

/-- The character that a letter behind a backslash stands for. -/
def short? : Char → Option Char
  | '"' => some '"'
  | '\\' => some '\\'
  | '/' => some '/'
  | 'b' => some '\x08'
  | 'f' => some '\x0c'
  | 'n' => some '\n'
  | 'r' => some '\r'
  | 't' => some '\t'
  | _ => none

/-- An escape behind its backslash; `unicode` reads one behind its `u`. -/
def escape (unicode : Input → Except Fault (Char × Input)) (i : Input) :
    Except Fault (Char × Input) :=
  match i.rest with
  | [] => .error (.placed .endInString i.offset)
  | 'u' :: _ => unicode i.tail
  | x :: _ =>
    match short? x with
    | some c => .ok (c, i.tail)
    | none => .error (.placed .invalidEscape i.behindNext)

/-- The characters up to the closing quote, after those `taken` before (last first). The `fuel` must
be more than the length of the text. -/
def readFrom : Nat → List Char → Input → Except Fault (String × Input)
  | 0, _, i => .error (.placed .endInString i.offset)
  | fuel + 1, taken, i =>
    match i.rest with
    | [] => .error (.placed .endInString i.offset)
    | '"' :: _ => .ok (String.ofList taken.reverse, i.tail)
    | '\\' :: _ =>
      match escape unicode i.tail with
      | .ok (c, i) => readFrom fuel (c :: taken) i
      | .error fault => .error fault
    | c :: _ =>
      if c.toNat < 0x20 then .error (.placed .controlCharacter i.behindNext)
      else readFrom fuel (c :: taken) i.tail

def read : Reader String := fun i => readFrom (i.rest.length + 1) [] i

/-- Passes over a string that nobody wants. Its escapes need not stand for characters. -/
def skipFrom : Nat → Input → Except Fault Input
  | 0, i => .error (.placed .endInString i.offset)
  | fuel + 1, i =>
    match i.rest with
    | [] => .error (.placed .endInString i.offset)
    | '"' :: _ => .ok i.tail
    | '\\' :: _ =>
      match escape (fun i => (hex4 i).map fun (_, i) => ('u', i)) i.tail with
      | .ok (_, i) => skipFrom fuel i
      | .error fault => .error fault
    | c :: _ =>
      if c.toNat < 0x20 then .error (.placed .controlCharacter i.offset)
      else skipFrom fuel i.tail

def skip : Reader Unit := fun i => (skipFrom (i.rest.length + 1) i).map fun i => ((), i)

end Abnf.Json.Text
