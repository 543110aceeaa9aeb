import Abnf.Decimal

/-! JSON values, and their text spread over lines with two spaces for each level. -/

namespace Abnf.Json

inductive Number where
  | integer (n : Int)
  | float (x : Float)
deriving Inhabited

/-- The members of an object stand in the order in which they are written. -/
inductive Value where
  | null
  | boolean (b : Bool)
  | number (n : Number)
  | string (s : String)
  | array (items : List Value)
  | object (members : List (String × Value))
deriving Inhabited

def Number.text : Number → String
  | .integer n => toString n
  | .float x => floatText x

/-- A character within a string. Only the quote, the backslash and control characters below U+0020
are escaped. -/
def escapeChar (c : Char) : List Char :=
  match c with
  | '"' => ['\\', '"']
  | '\\' => ['\\', '\\']
  | '\x08' => ['\\', 'b']
  | '\x0c' => ['\\', 'f']
  | '\n' => ['\\', 'n']
  | '\r' => ['\\', 'r']
  | '\t' => ['\\', 't']
  | c =>
    if c.toNat < 0x20 then '\\' :: 'u' :: (Nat.toDigits 16 c.toNat).leftpad 4 '0' else [c]

def quoted (s : String) : String :=
  String.ofList ('"' :: s.toList.flatMap escapeChar ++ ['"'])

namespace Value

def ofNat (n : Nat) : Value := .number (.integer n)

def ofOption (f : α → Value) : Option α → Value
  | some a => f a
  | none => .null

def lineBreak (depth : Nat) : String := "\n" ++ String.ofList (List.replicate (2 * depth) ' ')

mutual

/-- The text of a value that stands at some depth. -/
def render (depth : Nat) : Value → String
  | .null => "null"
  | .boolean true => "true"
  | .boolean false => "false"
  | .number n => n.text
  | .string s => quoted s
  | .array [] => "[]"
  | .array (v :: rest) =>
    renderItems (depth + 1) ("[" ++ lineBreak (depth + 1) ++ v.render (depth + 1)) rest ++
      lineBreak depth ++ "]"
  | .object [] => "\x7b\x7d"
  | .object ((name, v) :: rest) =>
    renderMembers (depth + 1)
      ("\x7b" ++ lineBreak (depth + 1) ++ quoted name ++ ": " ++ v.render (depth + 1)) rest ++
      lineBreak depth ++ "\x7d"

/-- The items that follow what is `written`. -/
def renderItems (depth : Nat) (written : String) : List Value → String
  | [] => written
  | v :: rest => renderItems depth (written ++ "," ++ lineBreak depth ++ v.render depth) rest

/-- The members that follow what is `written`. -/
def renderMembers (depth : Nat) (written : String) : List (String × Value) → String
  | [] => written
  | (name, v) :: rest =>
    renderMembers depth
      (written ++ "," ++ lineBreak depth ++ quoted name ++ ": " ++ v.render depth) rest

end

def pretty (v : Value) : String := v.render 0

end Value

end Abnf.Json
