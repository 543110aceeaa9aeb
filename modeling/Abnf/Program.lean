import Abnf.CommandLine
import Abnf.Host
import Abnf.Log.Setup
import Abnf.Output
import Abnf.StandingPolicy

/-! The program: it reads a grammar and prints its tokens. Log lines and complaints go to the
standard error stream. -/

namespace Abnf.Program

variable {m : Type → Type} [Monad m]

/-- The standard error stream, and the log file if there is one. -/
def logSetup (s : Settings) : Log.Setup :=
  let setup := (Log.Setup.new s.logLevel).withStandardError
  match s.logFile with
  | some path => setup.withFile path
  | none => setup

def grammarEntry (path : Path) : Log.Entry := ⟨.info, "abnf_lex", "Grammar: " ++ path.text⟩

/-- Logs an entry. The program's logger hands on to no other one, so the clock is read once. -/
def note (host : Host m) (logger : Log.LoggerId) (network : Log.Network) (entry : Log.Entry) :
    m Log.Network := do
  if network.isEnabled logger entry.level then
    let now ← host.now
    let (network, lines) := network.logged (fun _ => now) logger entry
    host.writeLines lines
    return network
  else
    return network

/-- Logs entries one after the other, within a span of their own. -/
def noteWithin (host : Host m) (logger : Log.LoggerId) (name : String) (network : Log.Network)
    (entries : List Log.Entry) : m Log.Network := do
  let (network, span) := network.enter logger name
  let network ← entries.foldlM (note host logger) network
  return network.leave span

/-- Tells of a failure: as a document on the output stream, or with the source in the other one. -/
def complain (host : Host m) (format : Format) (source : String) (e : Failure) : m Nat := do
  match format with
  | .json => host.print (e.json.pretty ++ "\n")
  | .text => host.printError (e.listing source)
  return 1

def present (host : Host m) (s : Settings) (source : String) (t : Tokenization) : m Nat := do
  match s.format with
  | .json => host.print ((t.json s.showTiming).pretty ++ "\n")
  | .text =>
    host.print t.listing
    host.printError (Diagnostic.listing source t.diagnostics)
    if s.showTiming then host.print t.timing
  return 0

/-- Tokenizes a source that was read. -/
def tokenize (host : Host m) (s : Settings) (network : Log.Network) (logger : Log.LoggerId)
    (source : String) : m Nat := do
  if s.showSource && s.format == .text then
    host.print ("[Source]\n" ++ numbered source ++ "[Tokens]\n")
  let network ← note host logger network StandingPolicy.entry
  let (lexed, elapsed) ← host.timed fun _ => s.policy.lex source
  let entries := s.policy.entries (network.isEnabled logger) source lexed elapsed
  let _ ← noteWithin host logger "tokenize" network entries
  match s.policy.judge lexed elapsed with
  | .ok t => present host s source t
  | .error e => complain host s.format source e

/-- A run with its settings known. At most one file is refused, so one reading of the clock will do for
the warnings. -/
def perform (host : Host m) (s : Settings) : m Nat := do
  let now ← host.now
  let log ← (logSetup s).start host.openLog (fun _ _ => now) .empty
  host.writeLines log.lines
  let network ← note host log.logger log.network (grammarEntry s.grammar)
  match ← loadSource host.readText s.grammar with
  | .error e => complain host s.format "" e
  | .ok source => tokenize host s network log.logger source

/-- Runs the program and gives its exit code. -/
def run (host : Host m) (arguments : List String) : m Nat := do
  match CommandLine.parse arguments with
  | .error .help => host.print CommandLine.help; return 0
  | .error .version => host.print CommandLine.version; return 0
  | .error (.misused e) => host.printError e.text; return 2
  | .ok overrides =>
    match ← Settings.resolve host.readText overrides with
    | .error e => host.printError ("Error: " ++ e.message ++ "\n"); return 1
    | .ok settings => perform host settings

end Abnf.Program
