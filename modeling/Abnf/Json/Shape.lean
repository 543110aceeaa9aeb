import Abnf.Json.Ignored

/-! Shapes: how a value of a Lean type is written in JSON. A shape reads it from a text, in one pass
and failing at the first thing that is wrong, and it takes it from a value in memory. -/

namespace Abnf.Json

structure Shape (α : Type) where
  read : Reader α
  ofValue : Value → Except Cause α

def Value.found : Value → Found
  | .null => .null
  | .boolean b => .boolean b
  | .number n => .number n
  | .string s => .string s
  | .array _ => .sequence
  | .object _ => .map

namespace Shape

/-- The value that comes next, where it is not the expected one. A scalar is read to its end; of a
list or an object nothing is read. -/
def readFound : Reader Found := do
  match ← Reader.head? with
  | some 'n' => Reader.skip; Reader.word ['u', 'l', 'l']; return .null
  | some 't' => Reader.skip; Reader.word ['r', 'u', 'e']; return .boolean true
  | some 'f' => Reader.skip; Reader.word ['a', 'l', 's', 'e']; return .boolean false
  | some '"' => Reader.skip; return .string (← Text.read)
  | some '-' => Reader.skip; return .number (← Numeral.readNumber true)
  | some '[' => return .sequence
  | some '\x7b' => return .map
  | some c =>
    if c.isDigit then return .number (← Numeral.readNumber false)
    else Reader.failNext .expectedValue
  | none => Reader.failNext .endInValue

def mismatch (expected : String) : Reader α := do
  Reader.fail (.wrongType (← readFound) expected)

def boolean : Shape Bool where
  read := do
    match ← Reader.peek? with
    | some 't' => Reader.skip; Reader.word ['r', 'u', 'e']; return true
    | some 'f' => Reader.skip; Reader.word ['a', 'l', 's', 'e']; return false
    | _ => mismatch "a boolean"
  ofValue
    | .boolean b => .ok b
    | v => .error (.wrongType v.found "a boolean")

def text : Shape String where
  read := do
    match ← Reader.peek? with
    | some '"' => Reader.skip; Text.read
    | _ => mismatch "a string"
  ofValue
    | .string s => .ok s
    | v => .error (.wrongType v.found "a string")

/-- Null for nothing. -/
def optional (s : Shape α) : Shape (Option α) where
  read := do
    match ← Reader.peek? with
    | some 'n' => Reader.skip; Reader.word ['u', 'l', 'l']; return none
    | _ => return some (← s.read)
  ofValue
    | .null => .ok none
    | v => (s.ofValue v).map some

/-- A text that stands for something else. -/
def named (parse : String → Except ε α) (message : ε → String) : Shape α where
  read := do
    match parse (← text.read) with
    | .ok a => return a
    | .error e => Reader.failLater (.custom (message e))
  ofValue v := do
    match parse (← text.ofValue v) with
    | .ok a => return a
    | .error e => throw (.custom (message e))

/-- A field of a record of type `α`. -/
structure Field (α : Type) where
  name : String
  read : Reader (α → α)
  ofValue : Value → Except Cause (α → α)

/-- A field of some shape, and how a record takes its value. -/
def field (name : String) (s : Shape β) (set : β → α → α) : Field α where
  name
  read := return set (← s.read)
  ofValue v := (s.ofValue v).map set

/-- Whether another element follows; `first` if none came before. -/
def hasElement (first : Bool) : Reader Bool := do
  match ← Reader.peek? with
  | none => Reader.failNext .endInList
  | some ']' => return false
  | some c =>
    if first then return true
    if c ≠ ',' then Reader.failNext .expectedListCommaOrEnd
    Reader.skip
    match ← Reader.peek? with
    | some ']' => Reader.failNext .trailingComma
    | some _ => return true
    | none => Reader.failNext .endInValue

/-- Whether another key follows, with the input behind its opening quote if so. -/
def hasKey (first : Bool) : Reader Bool := do
  match ← Reader.peek? with
  | none => Reader.failNext .endInObject
  | some '\x7d' => return false
  | some c =>
    if first then
      if c ≠ '"' then Reader.failNext .keyNotString
      Reader.skip
      return true
    if c ≠ ',' then Reader.failNext .expectedObjectCommaOrEnd
    Reader.skip
    match ← Reader.peek? with
    | some '"' => Reader.skip; return true
    | some '\x7d' => Reader.failNext .trailingComma
    | some _ => Reader.failNext .keyNotString
    | none => Reader.failNext .endInValue

/-- The fields in their order, until the list ends. -/
def readElements (first : Bool) (record : α) : List (Field α) → Reader α
  | [] => return record
  | f :: rest => do
    if ← hasElement first then readElements false ((← f.read) record) rest else return record

/-- The members up to the closing brace. A field may be `given` once. -/
def readMembers (fields : List (Field α)) : Nat → List String → α → Reader α
  | 0, _, _ => Reader.failNext .endInObject
  | fuel + 1, given, record => do
    if !(← hasKey given.isEmpty) then return record
    let key ← Text.read
    match fields.find? (·.name == key) with
    | some f =>
      if given.contains key then Reader.failLater (.duplicateField key)
      Reader.colon
      readMembers fields fuel (key :: given) ((← f.read) record)
    | none =>
      Reader.colon
      Ignored.read
      readMembers fields fuel (key :: given) record

/-- The end of a record, whether or not all was well before. -/
structure Closing where
  input : Input
  fault : Option Fault

def closeList (i : Input) : Closing :=
  let i := i.skipBlanks
  match i.rest.head? with
  | some ']' => ⟨i.tail, none⟩
  | some ',' =>
    let i := i.tail.skipBlanks
    let cause := if i.rest.head? = some ']' then Cause.trailingComma else .trailingCharacters
    ⟨i, some (.placed cause i.behindNext)⟩
  | some _ => ⟨i, some (.placed .trailingCharacters i.behindNext)⟩
  | none => ⟨i, some (.placed .endInList i.behindNext)⟩

def closeObject (i : Input) : Closing :=
  let i := i.skipBlanks
  match i.rest.head? with
  | some '\x7d' => ⟨i.tail, none⟩
  | some ',' => ⟨i, some (.placed .trailingComma i.behindNext)⟩
  | some _ => ⟨i, some (.placed .trailingCharacters i.behindNext)⟩
  | none => ⟨i, some (.placed .endInObject i.behindNext)⟩

/-- Reads what is between two brackets. A failure without an offset gets the one behind the closing
bracket, if that comes next. -/
def between (close : Input → Closing) (body : Reader α) : Reader α := fun i =>
  match body i with
  | .ok (a, i) =>
    match close i with
    | ⟨i, none⟩ => .ok (a, i)
    | ⟨_, some fault⟩ => .error fault
  | .error (.placed cause offset) => .error (.placed cause offset)
  | .error (.pending cause i) => .error (.placed cause (close i).input.offset)

/-- An object with the fields by name, or a list of them in order. A field that is missing keeps its
value from `start`; a member that is no field is ignored. -/
def record (name : String) (start : α) (fields : List (Field α)) : Shape α where
  read := do
    match ← Reader.peek? with
    | some '[' => Reader.skip; between closeList (readElements true start fields)
    | some '\x7b' =>
      Reader.skip
      between closeObject (readMembers fields ((← get).rest.length + 1) [] start)
    | _ => mismatch ("struct " ++ name)
  ofValue
    | .array items => do
      let record ← (fields.zip items).foldlM (fun a (f, v) => return (← f.ofValue v) a) start
      if fields.length < items.length then throw (.tooManyElements items.length)
      return record
    | .object members =>
      members.foldlM
        (fun a (key, v) => do
          match fields.find? (·.name == key) with
          | some f => return (← f.ofValue v) a
          | none => return a)
        start
    | v => .error (.wrongType v.found ("struct " ++ name))

/-- Nothing but blanks may follow a value. -/
def complete (s : Shape α) : Reader α := do
  let a ← s.read
  match ← Reader.peek? with
  | none => return a
  | some _ => Reader.failNext .trailingCharacters

/-- Reads a whole text. -/
def parse (s : Shape α) (text : String) : Except Error α :=
  let input := Input.ofText text
  match s.complete input with
  | .ok (a, _) => .ok a
  | .error (.placed cause offset) =>
    .error ⟨cause, some (Position.start.advance input.rest offset)⟩
  | .error (.pending cause i) =>
    .error ⟨cause, some (Position.start.advance input.rest i.offset)⟩

end Shape

end Abnf.Json
