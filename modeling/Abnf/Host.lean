import Abnf.Files.System
import Abnf.Log.Network

/-! What a program asks of its surroundings. A world in memory answers without side effects. -/

namespace Abnf

structure Host (m : Type → Type) where
  readText : Path → m (Except FileError String)
  /-- Opens a file to append to, or says why that fails. -/
  openLog : Path → m (Option FileError)
  /-- Appends to a file that was opened. -/
  appendLog : Path → String → m Unit
  /-- Gives a record to a receiver of the caller's own. -/
  handOver : Nat → Log.Record → m Unit
  print : String → m Unit
  printError : String → m Unit
  /-- Milliseconds since the epoch. -/
  now : m Nat
  /-- Carries a computation out, and tells how many nanoseconds it took. -/
  timed : {α : Type} → (Unit → α) → m (α × Nat)

namespace Host

variable {m : Type → Type} [Monad m]

def writeLine (host : Host m) (line : Log.Line) : m Unit :=
  match line.outlet with
  | .standardError => host.printError (line.record.text ++ "\n")
  | .file path => host.appendLog path (line.record.text ++ "\n")
  | .receiver number => host.handOver number line.record

def writeLines (host : Host m) (lines : List Log.Line) : m Unit := lines.forM host.writeLine

end Host

/-- Files, what was written to the two output streams, and what receivers were given. Time stands
still. -/
structure World where
  files : FileSystem
  output : String := ""
  errors : String := ""
  received : List (Nat × Log.Record) := []

namespace World

def openLog (path : Path) (w : World) : Option FileError × World :=
  match w.files.openAppend path with
  | .ok files => (none, { w with files })
  | .error e => (some e, w)

def host : Host (StateM World) where
  readText path := fun w => (w.files.readText path, w)
  openLog := openLog
  appendLog path text := modify fun w => { w with files := w.files.append path text.toUTF8 }
  handOver number record := modify fun w => { w with received := w.received ++ [(number, record)] }
  print text := modify fun w => { w with output := w.output ++ text }
  printError text := modify fun w => { w with errors := w.errors ++ text }
  now := return 0
  timed compute := return (compute (), 0)

end World

end Abnf
