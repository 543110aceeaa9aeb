/-! How a lexer works: whether it keeps diagnostics, and whether it logs the tokens it makes. -/

namespace Abnf.Lexer

structure Options where
  collectDiagnostics : Bool := true
  traceTokens : Bool := false
deriving DecidableEq, Repr

def Options.text (o : Options) : String :=
  "LexerConfig \x7b collect_diagnostics: " ++ toString o.collectDiagnostics ++
    ", trace_tokens: " ++ toString o.traceTokens ++ " \x7d"

end Abnf.Lexer
