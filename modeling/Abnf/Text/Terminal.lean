/-! Text for a terminal, with control sequences between the words, and what is left of it for a
reader without one: the characters that fill a cell, and spaces, tabs and line breaks. -/

namespace Abnf.Text.Terminal

/-- How a part of the text stands out. -/
inductive Style where
  | bold
  | red
  | yellow
deriving DecidableEq, Repr

def Style.code : Style → String
  | .bold => "1"
  | .red => "31"
  | .yellow => "33"

def styled (style : Style) (s : String) : String := "\x1b[" ++ style.code ++ "m" ++ s ++ "\x1b[0m"

/-- Where in a control sequence the next character stands. -/
inductive Mode where
  /-- In none. -/
  | text
  /-- Behind an escape character. -/
  | escape
  /-- Behind a mark that follows an escape character. -/
  | marked
  /-- Among the parameters of a control function. -/
  | control
  /-- At the start of a device command. -/
  | device
  /-- Among the parameters of a device command. -/
  | deviceParameter
  /-- Behind a mark of a device command. -/
  | deviceMarked
  /-- In a string for the device, up to a byte 9C. -/
  | string
  /-- In a string for the operating system, up to a bell. -/
  | systemString
deriving DecidableEq, Repr

namespace Mode

/-- The mode behind an ASCII character that stands in some mode, but for the three that end every
sequence. -/
def next (mode : Mode) (c : Char) : Mode :=
  let between (low high : Char) : Bool := low ≤ c && c ≤ high
  match mode with
  | .text => .text
  | .escape =>
    if c = '[' then .control
    else if c = ']' then .systemString
    else if c = 'P' then .device
    else if c = 'X' || c = '^' || c = '_' then .string
    else if between ' ' '/' then .marked
    else if between '0' '~' then .text
    else .escape
  | .marked => if between '0' '~' then .text else .marked
  | .control => if between '@' '~' then .text else .control
  | .device =>
    if between ' ' '/' then .deviceMarked
    else if between '0' '?' then .deviceParameter
    else if between '@' '~' then .string
    else .device
  | .deviceParameter =>
    if between ' ' '/' then .deviceMarked
    else if between '<' '~' then .string
    else .deviceParameter
  | .deviceMarked => if between '0' '~' then .string else .deviceMarked
  | .string => .string
  | .systemString => if c = '\x07' then .text else .systemString

/-- The mode behind a character that does not show. Of the characters beyond ASCII only the bytes
count, and of these only 9C. -/
def behind (mode : Mode) (c : Char) : Mode :=
  if c = '\x1b' then .escape
  else if c = '\x18' || c = '\x1a' then .text
  else if c.toNat < 0x80 then mode.next c
  else if mode = .string && (String.utf8EncodeChar c).contains 0x9C then .text
  else mode

def isBreak (c : Char) : Bool := c == '\t' || c == '\n' || c == '\x0c' || c == '\r'

/-- Whether a character that stands in some mode shows. A tab or a line break shows in the middle of
a sequence too, except in those for the device and the operating system. -/
def shows (mode : Mode) (c : Char) : Bool :=
  match mode with
  | .text => isBreak c || 0x20 ≤ c.toNat && c ≠ '\x7f'
  | .escape | .marked | .control => isBreak c
  | _ => false

end Mode

/-- The characters that show. Behind one that shows, the others show as in plain text until one does
not; a sequence that a line break interrupts goes on there, unless there was a character beyond
ASCII. -/
def visibleFrom (mode : Mode) (showing : Bool) : List Char → List Char
  | [] => []
  | c :: rest =>
    if (if showing then Mode.text else mode).shows c then
      c :: visibleFrom (if c.toNat < 0x80 then mode else .text) true rest
    else visibleFrom (mode.behind c) false rest

def visible (s : String) : String := String.ofList (visibleFrom .text false s.toList)

end Abnf.Text.Terminal
