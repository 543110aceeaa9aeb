import Abnf.Project.Reading
import Abnf.Tokenization

/-! The settings of one run: a project, and what the command line puts over it. An override is
never lost to the project, and a switch can only be turned on. -/

namespace Abnf

structure Overrides where
  grammar : Option Path := none
  config : Option Path := none
  format : Option Format := none
  logLevel : Option Log.Level := none
  logFile : Option Path := none
  strict : Bool := false
  showSource : Bool := false
  timing : Bool := false
deriving DecidableEq, Repr

structure Settings where
  grammar : Path
  format : Format
  logLevel : Log.Level
  logFile : Option Path
  lexer : Lexer.Options
  strict : Bool
  showSource : Bool
  showTiming : Bool
deriving DecidableEq, Repr

/-- The project file of a run: the one that is named, or the default one if no grammar is named. -/
def Overrides.projectPath (o : Overrides) : Option Path :=
  match o.config, o.grammar with
  | some path, _ => some path
  | none, none => some Project.defaultPath
  | none, some _ => none

namespace Settings

/-- How much is logged when nobody says. -/
def defaultLogLevel : Log.Level := .warn

/-- Paths are taken as they are. -/
def merge (grammar : Path) (p : Project) (o : Overrides) : Settings where
  grammar
  format := o.format.getD p.output.format
  logLevel := (o.logLevel <|> p.logLevel).getD defaultLogLevel
  logFile := o.logFile <|> p.logFile.map (⟨·⟩)
  lexer := p.lexer
  strict := o.strict || p.strict
  showSource := o.showSource || p.output.showSource
  showTiming := o.timing || p.output.showTiming

/-- The settings with a project file, the paths of which start at its directory. -/
def ofProject (projectPath : Path) (p : Project) (o : Overrides) : Except Failure Settings := do
  let grammar ← match o.grammar with
    | some grammar => pure grammar
    | none => Project.grammar projectPath p.entry
  let p := { p with logFile := p.logFile.map fun file => (Project.locate projectPath ⟨file⟩).text }
  return merge grammar p o

/-- The settings without a project file. -/
def ofOverrides (o : Overrides) : Except Failure Settings :=
  match o.grammar with
  | some grammar => .ok (merge grammar {} o)
  | none => .error .noGrammar

/-- The settings of a run, with the project file read by `readText`. -/
def resolve {m : Type → Type} [Monad m] (readText : Path → m (Except FileError String))
    (o : Overrides) : m (Except Failure Settings) := do
  match o.projectPath with
  | none => return ofOverrides o
  | some path =>
    match ← Project.load readText path with
    | .error e => return .error e
    | .ok p => return ofProject path p o

def policy (s : Settings) : Policy := ⟨s.lexer, s.strict⟩

end Settings

end Abnf
