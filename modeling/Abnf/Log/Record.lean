import Abnf.Log.Level
import Abnf.Text.Columns

/-! Log entries, and the records that loggers make of them. -/

namespace Abnf.Log

/-- Something to be logged. The target names the part of the program that speaks. -/
structure Entry where
  level : Level
  target : String
  message : String
deriving DecidableEq, Repr

/-- An entry as a logger let it through: with the time in milliseconds since the epoch and the
innermost span that was open. -/
structure Record extends Entry where
  time : Nat
  span : Option Nat
deriving DecidableEq, Repr

/-- `hh:mm:ss.mmm`, the time of day in UTC. -/
def timeOfDay (time : Nat) : String :=
  let seconds := time / 1000
  Text.padded 2 '0' (seconds / 3600 % 24) ++ ":" ++ Text.padded 2 '0' (seconds / 60 % 60) ++ ":" ++
    Text.padded 2 '0' (seconds % 60) ++ "." ++ Text.padded 3 '0' (time % 1000)

namespace Record

/-- `[hh:mm:ss.mmm] LEVEL target [span=n]: message` -/
def text (r : Record) : String :=
  let span := match r.span with
    | some id => " [span=" ++ toString id ++ "]"
    | none => ""
  "[" ++ timeOfDay r.time ++ "] " ++ r.level.label ++ " " ++ r.target ++ span ++ ": " ++ r.message

end Record

end Abnf.Log
