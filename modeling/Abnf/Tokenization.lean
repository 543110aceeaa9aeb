import Abnf.Failure
import Abnf.Lexer.Stream
import Abnf.Log.Network
import Abnf.Text.Duration

/-! Tokenizing a source under a policy: the tokens and diagnostics, or the rejection of a source
with diagnostics, and what the log is told meanwhile. -/

namespace Abnf

structure Policy where
  lexer : Lexer.Options := {}
  /-- Reject a source with diagnostics. -/
  strict : Bool := false
deriving DecidableEq, Repr

def Policy.text (p : Policy) : String :=
  "RunConfig \x7b lexer: " ++ p.lexer.text ++ ", strict: " ++ toString p.strict ++ " \x7d"

/-- `elapsed` is in nanoseconds. -/
structure Tokenization where
  tokens : List Token
  diagnostics : List Diagnostic
  elapsed : Nat
deriving DecidableEq, Repr

namespace Tokenization

def count (t : Tokenization) (kind : Kind) : Nat := t.tokens.countP (·.kind == kind)

/-- One more token of a kind. There is one count for each kind met so far, in the order of kinds. -/
def tally (counts : List (Kind × Nat)) (kind : Kind) : List (Kind × Nat) :=
  match counts with
  | [] => [(kind, 1)]
  | (k, n) :: more =>
    if k = kind then (k, n + 1) :: more
    else if k.rank < kind.rank then (k, n) :: tally more kind
    else (kind, 1) :: (k, n) :: more

/-- How many tokens of each kind there are, told while going through them once. -/
def kindCounts (t : Tokenization) : List (Kind × Nat) := (t.tokens.map (·.kind)).foldl tally []

def hasDiagnostics (t : Tokenization) : Bool := !t.diagnostics.isEmpty

end Tokenization

namespace Policy

def lex (p : Policy) (source : String) : Lexer.Drained := (Lexer.ofText p.lexer source).drain

/-- Whether what was lexed is turned down. -/
def rejects (p : Policy) (lexed : Lexer.Drained) : Bool :=
  p.strict && !lexed.lexer.diagnostics.isEmpty

def judge (p : Policy) (lexed : Lexer.Drained) (elapsed : Nat) : Except Failure Tokenization :=
  if p.rejects lexed then .error (.rejected lexed.lexer.diagnostics.toList)
  else .ok ⟨lexed.tokens.toList, lexed.lexer.diagnostics.toList, elapsed⟩

def target : String := "abnf_api"

def startEntry (source : String) : Log.Entry :=
  ⟨.info, target, "Starting tokenize: " ++ toString source.utf8ByteSize ++ " bytes"⟩

def endEntry (lexed : Lexer.Drained) (elapsed : Nat) : Log.Entry :=
  ⟨.info, target,
    "Tokenize completed: " ++ toString lexed.tokens.size ++ " tokens, " ++
      toString lexed.lexer.diagnostics.size ++ " diagnostics in " ++ Text.duration elapsed⟩

def rejectEntry : Log.Entry := ⟨.warn, target, "Strict mode: rejecting input"⟩

/-- What the log is told, in order. Of the lexer's notices only those of a `wanted` level are worded. -/
def entries (p : Policy) (wanted : Log.Level → Bool) (source : String) (lexed : Lexer.Drained)
    (elapsed : Nat) : List Log.Entry :=
  let opening : List Lexer.Notice := [.created p.lexer, .ofLoad (.load source)]
  let notices := (opening ++ lexed.notices.toList).filter (wanted ·.level)
  startEntry source :: notices.map (·.entry) ++ endEntry lexed elapsed ::
    if p.rejects lexed then [rejectEntry] else []

end Policy

/-- What became of a source, the loggers afterwards, and the log lines that leave the program. -/
structure Tokenized where
  result : Except Failure Tokenization
  network : Log.Network
  lines : List Log.Line

/-- Lexes a source, judges what was lexed and logs how it went, within a span of its own. There is no
result if something that is logged never comes back. -/
def Policy.tokenize (p : Policy) (network : Log.Network) (clock : Nat → Log.Readings)
    (logger : Log.LoggerId) (source : String) (elapsed : Nat) : Option Tokenized := do
  let (network, span) := network.enter logger "tokenize"
  let lexed := p.lex source
  let entries := p.entries (network.isEnabled logger) source lexed elapsed
  let (network, lines) ← network.logAll clock logger 0 entries
  return ⟨p.judge lexed elapsed, network.leave span, lines⟩

theorem Policy.result_of_tokenize {p : Policy} {network : Log.Network} {clock : Nat → Log.Readings}
    {logger : Log.LoggerId} {source : String} {elapsed : Nat} {done : Tokenized}
    (h : p.tokenize network clock logger source elapsed = some done) :
    done.result = p.judge (p.lex source) elapsed := by
  obtain ⟨_, -, hdone⟩ := Option.bind_eq_some_iff.mp h
  rw [← Option.some.inj hdone]

end Abnf
