import Abnf.Tokenization

/-! The policy that stands for a whole process. It is set at most once: before its first use, or by
a first use that is content with the default. -/

namespace Abnf

structure StandingPolicy where
  policy : Option Policy := none
deriving DecidableEq, Repr

namespace StandingPolicy

/-- Misuse of a standing policy. -/
inductive Misuse where
  | notSet
  | alreadySet (refused : Policy)
deriving DecidableEq, Repr

def Misuse.message : Misuse → String
  | .notSet => "Config not initialized"
  | .alreadySet refused => "Config already initialized: " ++ refused.text

def isSet (s : StandingPolicy) : Bool := s.policy.isSome

def set (s : StandingPolicy) (p : Policy) : Except Misuse StandingPolicy :=
  match s.policy with
  | none => .ok ⟨some p⟩
  | some _ => .error (.alreadySet p)

def get (s : StandingPolicy) : Except Misuse Policy :=
  match s.policy with
  | some p => .ok p
  | none => .error .notSet

/-- The policy, which is the default from now on if none was set. -/
def getOrDefault (s : StandingPolicy) : Policy × StandingPolicy :=
  let p := s.policy.getD {}
  (p, ⟨some p⟩)

/-- What the log is told before a source is tokenized under the standing policy. -/
def entry : Log.Entry := ⟨.debug, Policy.target, "Tokenize with global config"⟩

end StandingPolicy

end Abnf
