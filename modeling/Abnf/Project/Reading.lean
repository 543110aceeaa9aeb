import Abnf.Json.Shape
import Abnf.Project.Basic

/-! How projects are written in JSON. -/

namespace Abnf

open Json Json.Shape

def Log.Level.shape : Shape Log.Level := named parse UnknownLevel.message

def Format.shape : Shape Format := named parse UnknownFormat.message

def Lexer.Options.shape : Shape Lexer.Options :=
  record "LexerConfig" {}
    [field "collect_diagnostics" boolean fun v o => { o with collectDiagnostics := v },
      field "trace_tokens" boolean fun v o => { o with traceTokens := v }]

def Display.shape : Shape Display :=
  record "OutputConfig" {}
    [field "format" Format.shape fun v d => { d with format := v },
      field "show_source" boolean fun v d => { d with showSource := v },
      field "show_timing" boolean fun v d => { d with showTiming := v }]

namespace Project

def shape : Shape Project :=
  record "ProjectConfig" {}
    [field "entry" (optional text) fun v p => { p with entry := v },
      field "log_level" (optional Log.Level.shape) fun v p => { p with logLevel := v },
      field "log_file" (optional text) fun v p => { p with logFile := v },
      field "lexer" Lexer.Options.shape fun v p => { p with lexer := v },
      field "output" Display.shape fun v p => { p with output := v },
      field "strict" boolean fun v p => { p with strict := v }]

def parse (text : String) : Except Json.Error Project := shape.parse text

end Project

/-- A source text, read by `readText`. -/
def loadSource {m : Type → Type} [Monad m] (readText : Path → m (Except FileError String))
    (path : Path) : m (Except Failure String) :=
  return (← readText path).mapError (.unreadable path)

/-- A project file, read by `readText`. -/
def Project.load {m : Type → Type} [Monad m] (readText : Path → m (Except FileError String))
    (path : Path) : m (Except Failure Project) := do
  match ← loadSource readText path with
  | .error e => return .error e
  | .ok text => return (parse text).mapError (.badProject path)

end Abnf
