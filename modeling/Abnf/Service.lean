import Abnf.StandingPolicy

/-! A service that tokenizes under its standing policy. A request that misuses the policy is refused,
and the service goes on as if it had not been made. A request whose log entries never come back is
not answered. -/

namespace Abnf

/-- A policy, and the logger that is told of the runs under it. -/
structure Mandate where
  policy : Policy
  logger : Log.LoggerId
deriving DecidableEq, Repr

/-- `logger` came with the standing policy; before that it is one that hands nothing on. -/
structure Service where
  standing : StandingPolicy
  logger : Log.LoggerId
  network : Log.Network
  lines : List Log.Line

namespace Service

def start (network : Log.Network) : Service :=
  let (network, silent) := network.addLogger .error
  ⟨{}, silent, network, []⟩

def mandate? (s : Service) : Option Mandate := s.standing.policy.map (⟨·, s.logger⟩)

inductive Request where
  | init (m : Mandate)
  | tokenize (source : String) (clock : Nat → Log.Readings) (elapsed : Nat)
  | quickTokenize (source : String) (clock : Nat → Log.Readings) (elapsed : Nat)
  | isInitialized

inductive Reply where
  | done
  | initialized (yes : Bool)
  | result (r : Except Failure Tokenization)
  | refused (misuse : StandingPolicy.Misuse)

def note (s : Service) (clock : Log.Readings) (entry : Log.Entry) : Option Service := do
  let (network, lines) ← s.network.log clock s.logger entry
  return { s with network, lines := s.lines ++ lines }

def run (s : Service) (policy : Policy) (source : String) (clock : Nat → Log.Readings)
    (elapsed : Nat) : Option (Reply × Service) := do
  let done ← policy.tokenize s.network clock s.logger source elapsed
  return (.result done.result, { s with network := done.network, lines := s.lines ++ done.lines })

def answer (s : Service) : Request → Option (Reply × Service)
  | .init m =>
    match s.standing.set m.policy with
    | .ok standing => some (.done, { s with standing, logger := m.logger })
    | .error misuse => some (.refused misuse, s)
  | .tokenize source clock elapsed =>
    match s.standing.get with
    | .ok policy => do
      let noted ← s.note (clock 0) StandingPolicy.entry
      noted.run policy source (fun k => clock (k + 1)) elapsed
    | .error misuse => some (.refused misuse, s)
  | .quickTokenize source clock elapsed =>
    let (policy, standing) := s.standing.getOrDefault
    { s with standing }.run policy source clock elapsed
  | .isInitialized => some (.initialized s.standing.isSet, s)

/-- The replies to requests made one after the other, and the service after them. Nothing follows a
request that is not answered. -/
def serve (s : Service) : List Request → Option (List Reply × Service)
  | [] => some ([], s)
  | request :: requests => do
    let (reply, next) ← s.answer request
    let (replies, last) ← next.serve requests
    return (reply :: replies, last)

end Service

end Abnf
