import Abnf.Diagnostic
import Abnf.Files.Error
import Abnf.Json.Error
import Abnf.Path

/-! Why a run comes to nothing, and the report on it. -/

namespace Abnf

inductive Failure where
  | unreadable (path : Path) (cause : FileError)
  | badProject (path : Path) (error : Json.Error)
  | noGrammar
  | rejected (diagnostics : List Diagnostic)

/-- The part of a run in which it failed. -/
inductive Phase where
  | io
  | config
  | lexer
deriving DecidableEq, Repr

def Phase.name : Phase → String
  | .io => "io"
  | .config => "config"
  | .lexer => "lexer"

structure Report where
  phase : Phase
  line : Option Nat
  column : Option Nat
  message : String
deriving DecidableEq, Repr

namespace Failure

def message : Failure → String
  | .unreadable path cause => "cannot read '" ++ path.text ++ "': " ++ cause.message
  | .badProject path error => "invalid project file '" ++ path.text ++ "': " ++ error.message
  | .noGrammar => "no grammar file given and the project file has no 'entry'"
  | .rejected diagnostics =>
    toString diagnostics.length ++ " lexical problem(s), first: " ++
      ((diagnostics.head?.map Diagnostic.text).getD "")

def line : Failure → Option Nat
  | .badProject _ error => error.position.map (·.line)
  | .rejected diagnostics => diagnostics.head?.map (·.line)
  | _ => none

def column : Failure → Option Nat
  | .badProject _ error => error.position.map (·.column)
  | .rejected diagnostics => diagnostics.head?.map (·.column)
  | _ => none

def phase : Failure → Phase
  | .unreadable .. => .io
  | .badProject .. | .noGrammar => .config
  | .rejected _ => .lexer

def report (e : Failure) : Report := ⟨e.phase, e.line, e.column, e.message⟩

end Failure

namespace Report

/-- `[line:column] phase error: message`, without the brackets where there is no place. -/
def text (r : Report) : String :=
  let place := match r.line, r.column with
    | some line, some column => "[" ++ toString line ++ ":" ++ toString column ++ "] "
    | _, _ => ""
  place ++ r.phase.name ++ " error: " ++ r.message

def json (r : Report) : Json.Value :=
  .object [("column", .ofOption .ofNat r.column), ("line", .ofOption .ofNat r.line),
    ("message", .string r.message), ("phase", .string r.phase.name)]

end Report

/-- The report as the only member of an object. -/
def Failure.json (e : Failure) : Json.Value := .object [("error", e.report.json)]

end Abnf
