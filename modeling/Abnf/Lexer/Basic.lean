import Abnf.Lexer.Lexeme

/-! The lexer: a cursor over the source, the diagnostics kept so far, and one token at a time. Behind
the end of the text every further token is the end of input again. -/

namespace Abnf

structure Lexer where
  options : Lexer.Options
  cursor : Cursor
  diagnostics : Array Diagnostic

namespace Lexer

/-- A lexer without a text. -/
def new (options : Options) : Lexer := ⟨options, .blank, #[]⟩

/-- Another text, read from its start; what was kept of the last one is dropped. -/
def load (l : Lexer) (text : String) : Lexer := { l with cursor := .load text, diagnostics := #[] }

/-- A lexer at the start of a text. -/
def ofText (options : Options) (text : String) : Lexer := (new options).load text

/-- The diagnostics kept so far, and the lexer without them. -/
def takeDiagnostics (l : Lexer) : Array Diagnostic × Lexer :=
  (l.diagnostics, { l with diagnostics := #[] })

/-- A token, the lexer behind it, and what there is to log, in order. -/
structure Step where
  token : Token
  lexer : Lexer
  notices : List Notice

/-- The cursor on the first symbol of the next lexeme. -/
def seek (l : Lexer) : Cursor := l.cursor.next.skipBlanks

def next (l : Lexer) : Step :=
  let start := l.seek
  let lexeme := Lexeme.read start
  let line := start.seen.line
  let column := start.seen.column
  let token : Token := ⟨lexeme.kind, lexeme.value, line, column⟩
  let found := lexeme.problem.toArray.map (⟨·, line, column⟩)
  { token
    lexer :=
      { l with
        cursor := lexeme.cursor
        diagnostics := if l.options.collectDiagnostics then l.diagnostics ++ found else l.diagnostics }
    notices :=
      .requested :: lexeme.notices ++ if l.options.traceTokens then [.produced token] else [] }

end Lexer

end Abnf
