import Abnf.Lexer.Progress

/-! The tokens of a whole text, up to and with the first end of input. -/

namespace Abnf.Lexer

/-- Everything a lexer still has to give. -/
structure Drained where
  tokens : Array Token
  lexer : Lexer
  notices : Array Notice

/-- Pulls tokens up to and with the first end of input, after the `tokens` and `notices` so far. -/
def pull (tokens : Array Token) (notices : Array Notice) (l : Lexer) : Drained :=
  let step := l.next
  let tokens := tokens.push step.token
  let notices := notices ++ step.notices.toArray
  if step.token.isEndOfInput then ⟨tokens, step.lexer, notices⟩
  else pull tokens notices step.lexer
termination_by l.cursor.place.ahead.length
decreasing_by
  next h => exact next_length_ahead_lt h

def drain (l : Lexer) : Drained := pull #[] #[] l

/-- The tokens of a text. The last one, and no other, is the end of input. -/
def tokens (text : String) : Array Token := (ofText {} text).drain.tokens

/-- Tokens pulled for a caller that stops at the end of input: after it there are no more, and the
lexer is left alone. -/
structure Stream where
  lexer : Lexer
  done : Bool := false

namespace Stream

def next (s : Stream) : Option Step × Stream :=
  if s.done then (none, s)
  else
    let step := s.lexer.next
    (some step, ⟨step.lexer, step.token.isEndOfInput⟩)

end Stream

end Abnf.Lexer
