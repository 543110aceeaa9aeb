import Abnf.Files.Error
import Abnf.Log.Network
import Abnf.Text.Escape

/-! A logger described before it is made: its level and its outputs. A file that cannot be opened
is left out, and the other outputs are told so once all of them are in place. -/

namespace Abnf.Log

inductive Output where
  | standardError
  | file (path : Path)
  | ring (capacity : Nat)
deriving DecidableEq, Repr

def Output.text : Output → String
  | .standardError => "Stderr"
  | .file path => "File(" ++ Text.quoted path.text ++ ")"
  | .ring capacity => "RingBuffer(" ++ toString capacity ++ ")"

structure Setup where
  level : Level
  outputs : List Output

namespace Setup

def new (level : Level) : Setup := ⟨level, []⟩

/-- Errors only, and nowhere to write them. -/
def silent : Setup := new .error

def withLevel (s : Setup) (level : Level) : Setup := { s with level }

/-- The standard error stream, at most once. -/
def withStandardError (s : Setup) : Setup :=
  if s.outputs.contains .standardError then s
  else { s with outputs := s.outputs ++ [.standardError] }

def withFile (s : Setup) (path : Path) : Setup := { s with outputs := s.outputs ++ [.file path] }

def withRing (s : Setup) (capacity : Nat) : Setup := { s with outputs := s.outputs ++ [.ring capacity] }

/-- What opening a log file says when it fails. -/
def fileErrorText (e : FileError) : String := "IO error: " ++ e.message

def warning (path : Path) (e : FileError) : Entry :=
  ⟨.warn, "abnf_log::config", "Cannot open log file '" ++ path.text ++ "': " ++ fileErrorText e⟩

/-- A logger that is being set up. -/
structure Draft where
  network : Network
  ring : Option RingId := none
  failed : List (Path × FileError) := []

/-- Makes one output of a logger. Files are opened by `openFile`, which says why one cannot be. -/
def Draft.add {m : Type → Type} [Monad m] (openFile : Path → m (Option FileError))
    (logger : LoggerId) (p : Draft) : Output → m Draft
  | .standardError =>
    return { p with network := p.network.attach logger (.outlet .standardError) }
  | .file path => do
    match ← openFile path with
    | none => return { p with network := p.network.attach logger (.outlet (.file path)) }
    | some e => return { p with failed := p.failed ++ [(path, e)] }
  | .ring capacity =>
    let (network, ring) := p.network.addRing capacity
    return { p with network := network.attach logger (.ring ring), ring := some ring }

/-- A logger that is in place. The ring is the last one of its outputs. -/
structure Started where
  network : Network
  logger : LoggerId
  ring : Option RingId
  lines : List Line

/-- Makes the logger, with its outputs in order. The warnings come back, because no output is a
logger. -/
def start {m : Type → Type} [Monad m] (openFile : Path → m (Option FileError))
    (clock : Nat → Readings) (network : Network) (s : Setup) : m Started := do
  let (network, logger) := network.addLogger s.level
  let p ← s.outputs.foldlM (Draft.add openFile logger) { network }
  let warnings := p.failed.map fun (path, e) => warning path e
  let (network, lines) := (p.network.logAll clock logger 0 warnings).getD (p.network, [])
  return ⟨network, logger, p.ring, lines⟩

end Setup

end Abnf.Log
