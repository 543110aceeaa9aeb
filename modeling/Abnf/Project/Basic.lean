import Abnf.Failure
import Abnf.Format
import Abnf.Lexer.Options
import Abnf.Log.Level

/-! Projects: the settings that a file keeps for later runs, and the paths in it. -/

namespace Abnf

/-- How tokens are put out. -/
structure Display where
  format : Format := .text
  showSource : Bool := false
  showTiming : Bool := false
deriving DecidableEq, Repr

structure Project where
  entry : Option String := none
  logLevel : Option Log.Level := none
  logFile : Option String := none
  lexer : Lexer.Options := {}
  output : Display := {}
  strict : Bool := false
deriving DecidableEq, Repr

namespace Project

/-- Where project files are looked for when none is named. -/
def defaultPath : Path := ⟨"abnf.json"⟩

/-- A path from a project file, which starts at the directory of that file. -/
def locate (projectPath : Path) (p : Path) : Path := (projectPath.parent?.getD ⟨""⟩).join p

/-- The grammar that a project file names. -/
def grammar (projectPath : Path) (entry : Option String) : Except Failure Path :=
  match entry with
  | some entry => .ok (locate projectPath ⟨entry⟩)
  | none => .error .noGrammar

end Project

end Abnf
