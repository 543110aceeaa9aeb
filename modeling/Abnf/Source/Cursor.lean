import Abnf.Source.Symbol

/-! A cursor walks a text one symbol at a time and can take its last advance back, once. -/

namespace Abnf

/-- A point between two symbols. `line` counts the line ends before it, `column` the characters
since the last of them, and `ahead` is the text that follows. -/
structure Place where
  offset : Nat
  line : Nat
  column : Nat
  ahead : List Char
deriving DecidableEq, Repr

namespace Place

def start (text : List Char) : Place := ⟨0, 0, 0, text⟩

def locate (p : Place) (s : Symbol) : Located := ⟨s, p.line + 1, p.column + 1⟩

/-- The symbol that starts here. -/
def symbol (p : Place) : Symbol :=
  match p.ahead with
  | [] => .endOfInput
  | c :: _ => if c = '\n' ∨ c = '\r' then .endOfLine else .char c

/-- The place behind the symbol that starts here. A carriage return takes a line feed that follows
it along; behind the end of input there is nothing to go to. -/
def next (p : Place) : Place :=
  match p.ahead with
  | [] => p
  | c :: rest =>
    if c = '\r' ∧ rest.head? = some '\n' then ⟨p.offset + 2, p.line + 1, 0, rest.tail⟩
    else if c = '\n' ∨ c = '\r' then ⟨p.offset + 1, p.line + 1, 0, rest⟩
    else ⟨p.offset + 1, p.line, p.column + 1, rest⟩

theorem length_ahead_next_le (p : Place) : p.next.ahead.length ≤ p.ahead.length := by
  unfold next
  split
  · exact Nat.le_refl _
  · next c rest h =>
    rw [h]
    split
    · simp only [List.length_tail, List.length_cons]; omega
    · split <;> simp

theorem length_ahead_next_lt {p : Place} (h : p.symbol ≠ .endOfInput) :
    p.next.ahead.length < p.ahead.length := by
  unfold symbol at h
  unfold next
  split
  · next he => simp [he] at h
  · next c rest he =>
    rw [he]
    split
    · simp only [List.length_tail, List.length_cons]; omega
    · split <;> simp

end Place

/-- Why a cursor does not step back. -/
inductive RewindError where
  | notStarted
  | alreadyRewound
deriving DecidableEq, Repr

def RewindError.message : RewindError → String
  | .notStarted => "cannot step back: no character has been scanned yet"
  | .alreadyRewound => "cannot step back more than one character"

/-- `current` is the symbol just passed. `undo` holds the place and the current symbol from before
the last advance, and `rewound` says that it has been used since. -/
structure Cursor where
  text : List Char
  place : Place
  current : Option Located
  undo : Option (Place × Option Located)
  rewound : Bool
deriving DecidableEq, Repr

namespace Cursor

def load (text : String) : Cursor :=
  ⟨text.toList, .start text.toList, none, none, false⟩

/-- A cursor that has no text yet. -/
def blank : Cursor := load ""

def isReady (c : Cursor) : Bool := !c.text.isEmpty

/-- Before the first advance, and once the end of input is current. -/
def isAtEnd (c : Cursor) : Bool := c.current.all (·.symbol.isEndOfInput)

def next (c : Cursor) : Cursor :=
  { c with
    place := c.place.next
    current := some (c.place.locate c.place.symbol)
    undo := some (c.place, c.current)
    rewound := false }

def rewind (c : Cursor) : Except RewindError Cursor :=
  if c.rewound then .error .alreadyRewound
  else match c.undo with
    | none => .error .notStarted
    | some (place, current) => .ok { c with place, current, rewound := true }

theorem rewind_next (c : Cursor) :
    c.next.rewind = .ok { c.next with place := c.place, current := c.current, rewound := true } :=
  rfl

/-- The current symbol. Where there is none yet, the end of input at the start of the text. -/
def seen (c : Cursor) : Located := c.current.getD ⟨.endOfInput, 1, 1⟩

@[simp] theorem seen_next (c : Cursor) : c.next.seen = c.place.locate c.place.symbol := rfl

@[simp] theorem place_next (c : Cursor) : c.next.place = c.place.next := rfl

/-- How often a cursor can still advance before the end of input is current. -/
def budget (c : Cursor) : Nat :=
  c.place.ahead.length + if c.seen.symbol = .endOfInput then 0 else 1

theorem budget_next_lt {c : Cursor} (h : c.seen.symbol ≠ .endOfInput) : c.next.budget < c.budget := by
  have hle := c.place.length_ahead_next_le
  unfold budget
  rw [if_neg h]
  by_cases he : c.place.symbol = .endOfInput
  · simp [Place.locate, he]; omega
  · have := Place.length_ahead_next_lt he
    simp [Place.locate, he]; omega

/-- Advances while the current symbol is blank. -/
def skipBlanks (c : Cursor) : Cursor :=
  if c.seen.symbol.isBlank then c.next.skipBlanks else c
termination_by c.budget
decreasing_by
  next h =>
    apply budget_next_lt
    intro he
    simp [he, Symbol.isBlank] at h

/-- The accepted characters from the current symbol on, after those `taken` before (last first),
and the cursor on the first symbol that is not one of them. -/
def collect (accept : Char → Bool) (taken : List Char) (c : Cursor) : List Char × Cursor :=
  match _h : c.seen.symbol with
  | .char x => if accept x then c.next.collect accept (x :: taken) else (taken.reverse, c)
  | _ => (taken.reverse, c)
termination_by c.budget
decreasing_by exact budget_next_lt (by simp [_h])

/-- The longest run of accepted characters that starts at the current symbol. -/
def takeWhile (accept : Char → Bool) (c : Cursor) : List Char × Cursor := c.collect accept []

end Cursor

end Abnf
