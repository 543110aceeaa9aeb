import Abnf.Source.Excerpt
import Abnf.Tokenization

/-! How tokens, diagnostics and failures are shown. -/

namespace Abnf

def Token.json (t : Token) : Json.Value :=
  .object [("column", .ofNat t.column), ("kind", .string t.kind.name), ("line", .ofNat t.line),
    ("value", .string t.value)]

def Problem.json (p : Problem) : Json.Value :=
  match p with
  | .unrecognizedCharacter c =>
    .object [("char", .string (String.singleton c)), ("kind", .string p.name)]
  | _ => .object [("kind", .string p.name)]

def Diagnostic.json (d : Diagnostic) : Json.Value :=
  .object [("column", .ofNat d.column), ("kind", d.problem.json), ("line", .ofNat d.line),
    ("message", .string d.message)]

/-- Each diagnostic with the source around it. -/
def Diagnostic.listing (source : String) (diagnostics : List Diagnostic) : String :=
  let lines := sourceLines source
  String.join <| diagnostics.map fun d =>
    "⚠️  " ++ d.text ++ "\n" ++ excerptOf lines d.line d.column

/-- A failure with the source around its places. -/
def Failure.listing (source : String) (e : Failure) : String :=
  "❌ " ++ e.message ++ "\n" ++
    match e with
    | .rejected diagnostics => Diagnostic.listing source diagnostics
    | _ =>
      match e.line, e.column with
      | some line, some column => excerpt source line column
      | _, _ => ""

namespace Tokenization

/-- One token a line. -/
def listing (t : Tokenization) : String := String.join (t.tokens.map (·.text ++ "\n"))

def timing (t : Tokenization) : String :=
  "[Timing] " ++ toString t.tokens.length ++ " tokens in " ++ Text.duration t.elapsed ++ "\n"

/-- The time is given in microseconds. -/
def json (t : Tokenization) (withTime : Bool) : Json.Value :=
  let time := if withTime then [("elapsed_us", .ofNat (t.elapsed / 1000))] else []
  .object <| ("diagnostics", .array (t.diagnostics.map (·.json))) :: time ++
    [("tokens", .array (t.tokens.map (·.json)))]

end Tokenization

end Abnf
