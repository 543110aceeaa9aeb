import Abnf.Text.Letters

/-! Log levels. A logger of some level lets through what is at least as severe. -/

namespace Abnf.Log

inductive Level where
  | trace
  | debug
  | info
  | warn
  | error
deriving DecidableEq, Repr

namespace Level

def severity : Level → Nat
  | .trace => 0
  | .debug => 1
  | .info => 2
  | .warn => 3
  | .error => 4

def ofSeverity? : Nat → Option Level
  | 0 => some .trace
  | 1 => some .debug
  | 2 => some .info
  | 3 => some .warn
  | 4 => some .error
  | _ => none

/-- Whether a logger of level `threshold` lets `level` through. -/
def admits (threshold level : Level) : Bool := threshold.severity ≤ level.severity

/-- The name in settings. -/
def name : Level → String
  | .trace => "trace"
  | .debug => "debug"
  | .info => "info"
  | .warn => "warn"
  | .error => "error"

/-- The name in a log line. -/
def label : Level → String
  | .trace => "TRACE"
  | .debug => "DEBUG"
  | .info => "INFO"
  | .warn => "WARN"
  | .error => "ERROR"

/-- A level by its name in settings, in any case. To be silent is to tell of errors only. -/
def ofName? (name : String) : Option Level :=
  match Text.foldCase name with
  | "silent" | "error" => some .error
  | "warn" => some .warn
  | "info" => some .info
  | "debug" => some .debug
  | "trace" => some .trace
  | _ => none

end Level

/-- A name that is no level's. -/
structure UnknownLevel where
  name : String
deriving DecidableEq, Repr

namespace UnknownLevel

def briefly (e : UnknownLevel) : String := "unknown log level '" ++ e.name ++ "'"

def message (e : UnknownLevel) : String :=
  e.briefly ++ ", expected silent, error, warn, info, debug or trace"

end UnknownLevel

def Level.parse (name : String) : Except UnknownLevel Level :=
  match ofName? name with
  | some level => .ok level
  | none => .error ⟨name⟩

end Abnf.Log
