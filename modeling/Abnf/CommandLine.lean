import Abnf.Settings
import Abnf.Text.Terminal

/-! The arguments of the program, from left to right. An option without an attached value waits for
the next argument; its value is looked at when another option or operand comes, or at the end. -/

namespace Abnf.CommandLine

/-- What takes a value. -/
inductive Slot where
  | grammar
  | config
  | format
  | logLevel
  | logFile
deriving DecidableEq, Repr

/-- What stands alone. -/
inductive Switch where
  | strict
  | showSource
  | timing
deriving DecidableEq, Repr

inductive Opt where
  | slot (s : Slot)
  | switch (s : Switch)
  | help
  | version
deriving DecidableEq, Repr

def Slot.label : Slot → String
  | .grammar => "[GRAMMAR]"
  | .config => "--config <CONFIG>"
  | .format => "--format <FORMAT>"
  | .logLevel => "--log-level <LOG_LEVEL>"
  | .logFile => "--log-file <FILE>"

def Switch.label : Switch → String
  | .strict => "--strict"
  | .showSource => "--show-source"
  | .timing => "--timing"

def Opt.label : Opt → String
  | .slot s => s.label
  | .switch s => s.label
  | .help => "--help"
  | .version => "--version"

def long? : String → Option Opt
  | "config" => some (.slot .config)
  | "format" => some (.slot .format)
  | "log-level" => some (.slot .logLevel)
  | "log-file" => some (.slot .logFile)
  | "strict" => some (.switch .strict)
  | "show-source" => some (.switch .showSource)
  | "timing" => some (.switch .timing)
  | "help" => some .help
  | "version" => some .version
  | _ => none

def short? : Char → Option Opt
  | 'c' => some (.slot .config)
  | 'f' => some (.slot .format)
  | 'h' => some .help
  | 'V' => some .version
  | _ => none

inductive UsageError where
  | unexpectedArgument (argument : String)
  | missingValue (label : String)
  | invalidValue (value label reason : String)
  | repeated (label : String)
  | unwantedValue (value label : String)
deriving DecidableEq, Repr

/-- The complaint for a terminal. -/
def UsageError.message (e : UsageError) : String :=
  let plain (s : String) := "'" ++ Text.Terminal.styled .bold s ++ "'"
  let wrong (s : String) := "'" ++ Text.Terminal.styled .yellow s ++ "'"
  match e with
  | .unexpectedArgument argument => "unexpected argument " ++ wrong argument ++ " found"
  | .missingValue label => "a value is required for " ++ plain label ++ " but none was supplied"
  | .invalidValue value label reason =>
    "invalid value " ++ wrong value ++ " for " ++ plain label ++ ": " ++ reason
  | .repeated label => "the argument " ++ wrong label ++ " cannot be used multiple times"
  | .unwantedValue value label =>
    "unexpected value " ++ wrong value ++ " for " ++ plain label ++ " found; no more were expected"

/-- Why the arguments do not lead to a run. -/
inductive Stop where
  | help
  | version
  | misused (e : UsageError)
deriving DecidableEq, Repr

/-- An option that is not dealt with yet, and its value once it has come. -/
structure Pending where
  slot : Slot
  value : Option String
deriving DecidableEq, Repr

structure State where
  overrides : Overrides := {}
  pending : Option Pending := none
  /-- The one operand was given. -/
  full : Bool := false
deriving DecidableEq, Repr

namespace State

def isGiven (s : State) : Slot → Bool
  | .grammar => s.overrides.grammar.isSome
  | .config => s.overrides.config.isSome
  | .format => s.overrides.format.isSome
  | .logLevel => s.overrides.logLevel.isSome
  | .logFile => s.overrides.logFile.isSome

def isOn (s : State) : Switch → Bool
  | .strict => s.overrides.strict
  | .showSource => s.overrides.showSource
  | .timing => s.overrides.timing

/-- A path, which must not be empty. -/
def path (slot : Slot) (value : String) : Except Stop Path :=
  if value = "" then .error (.misused (.missingValue slot.label)) else .ok ⟨value⟩

def invalid (slot : Slot) (value reason : String) : Stop :=
  .misused (.invalidValue value slot.label reason)

def store (s : State) (slot : Slot) (value : String) : Except Stop State := do
  if s.isGiven slot then throw (.misused (.repeated slot.label))
  let o := s.overrides
  let o ← match slot with
    | .grammar => pure { o with grammar := some (← path slot value) }
    | .config => pure { o with config := some (← path slot value) }
    | .logFile => pure { o with logFile := some (← path slot value) }
    | .format =>
      match Format.parse value with
      | .ok format => pure { o with format := some format }
      | .error e => throw (invalid slot value e.message)
    | .logLevel =>
      match Log.Level.parse value with
      | .ok level => pure { o with logLevel := some level }
      | .error e => throw (invalid slot value e.briefly)
  return { s with overrides := o }

/-- Deals with the option that is pending. -/
def settle (s : State) : Except Stop State :=
  match s.pending with
  | none => .ok s
  | some ⟨slot, none⟩ => .error (.misused (.missingValue slot.label))
  | some ⟨slot, some value⟩ => { s with pending := none }.store slot value

def turnOn (s : State) (switch : Switch) : Except Stop State :=
  if s.isOn switch then .error (.misused (.repeated switch.label))
  else
    let o := s.overrides
    .ok { s with
      overrides := match switch with
        | .strict => { o with strict := true }
        | .showSource => { o with showSource := true }
        | .timing => { o with timing := true } }

/-- An option, with the value attached to it if there is one. -/
def accept (s : State) (o : Opt) (attached : Option String) : Except Stop State := do
  match o, attached with
  | .slot slot, some value => (← s.settle).store slot value
  | .slot slot, none => return { ← s.settle with pending := some ⟨slot, none⟩ }
  | _, some value => throw (.misused (.unwantedValue value o.label))
  | .switch switch, none => (← s.settle).turnOn switch
  | .help, none => let _ ← s.settle; throw .help
  | .version, none => let _ ← s.settle; throw .version

/-- An option with its name written out, as it stands behind the two dashes. -/
def acceptLong (s : State) (argument : List Char) : Except Stop State :=
  let name := String.ofList (argument.takeWhile (· != '='))
  let attached := match argument.dropWhile (· != '=') with
    | [] => none
    | _ :: value => some (String.ofList value)
  match long? name with
  | some o => s.accept o attached
  | none => .error (.misused (.unexpectedArgument ("--" ++ name)))

/-- A letter behind a dash. What follows the letter of an option is its value, with or without an
equals sign; all letters known here either take a value or end the reading. -/
def acceptShort (s : State) (letter : Char) (rest : List Char) : Except Stop State :=
  match short? letter with
  | some (.slot slot) =>
    s.accept (.slot slot) <| match rest with
      | [] => none
      | '=' :: value => some (String.ofList value)
      | value => some (String.ofList value)
  | some o => s.accept o none
  | none => .error (.misused (.unexpectedArgument (String.ofList ['-', letter])))

def acceptOperand (s : State) (argument : String) : Except Stop State := do
  if s.full then throw (.misused (.unexpectedArgument argument))
  return { ← s.settle with pending := some ⟨.grammar, some argument⟩, full := true }

/-- An argument that is not an option: the value that is waited for, or an operand. -/
def acceptPlain (s : State) (argument : String) : Except Stop State :=
  match s.pending with
  | some ⟨slot, none⟩ => .ok { s with pending := some ⟨slot, some argument⟩ }
  | _ => s.acceptOperand argument

/-- Two dashes alone make operands of all that follows. -/
def acceptAll (s : State) : List String → Except Stop State
  | [] => s.settle
  | argument :: rest =>
    match argument.toList with
    | ['-', '-'] => do (← rest.foldlM acceptOperand s).settle
    | '-' :: '-' :: option => do (← s.acceptLong option).acceptAll rest
    | '-' :: letter :: letters => do (← s.acceptShort letter letters).acceptAll rest
    | _ => do (← s.acceptPlain argument).acceptAll rest

end State

/-- The overrides that a command line asks for. -/
def parse (arguments : List String) : Except Stop Overrides := do
  return (← State.acceptAll {} arguments).overrides

def version : String := "abnf-lex 0.1.0\n"

def help : String :=
  "Tokenize ABNF-like grammar files\n\n" ++
  "Usage: abnf-lex [OPTIONS] [GRAMMAR]\n\n" ++
  "Arguments:\n" ++
  "  [GRAMMAR]  Grammar file (default: the project file's \x60entry\x60)\n\n" ++
  "Options:\n" ++
  "  -c, --config <CONFIG>        Project file path (default: ./abnf.json when no GRAMMAR is given)\n" ++
  "  -f, --format <FORMAT>        Output format: text or json\n" ++
  "      --log-level <LOG_LEVEL>  Log level: silent, error, warn, info, debug, trace\n" ++
  "      --log-file <FILE>        Also append log records to this file\n" ++
  "      --strict                 Fail when the grammar produced any lexical diagnostic\n" ++
  "      --show-source            Print the numbered source before the tokens\n" ++
  "      --timing                 Report how long tokenization took\n" ++
  "  -h, --help                   Print help\n" ++
  "  -V, --version                Print version\n"

/-- The complaint and a hint as they are written to a stream that is no terminal. -/
def UsageError.text (e : UsageError) : String :=
  Text.Terminal.visible
    (Text.Terminal.styled .bold (Text.Terminal.styled .red "error:") ++ " " ++ e.message ++
      "\n\nFor more information, try '" ++ Text.Terminal.styled .bold "--help" ++ "'.\n")

end Abnf.CommandLine
