import Abnf.Lexer.Options
import Abnf.Log.Record
import Abnf.Source.Cursor
import Abnf.Token

/-! What a lexer has to tell while it works. A notice is worded only when some log wants it. -/

namespace Abnf.Lexer

inductive Notice where
  | created (options : Options)
  | loaded (characters : Nat)
  | requested
  | unrecognized (c : Char) (line column : Nat)
  | rewound (line column : Nat)
  | notRewound (cause : RewindError)
  | produced (token : Token)
deriving DecidableEq, Repr

namespace Notice

/-- The text was loaded into `c`. -/
def ofLoad (c : Cursor) : Notice := .loaded c.text.length

/-- The cursor was taken back to where `c` is. -/
def ofRewind (c : Cursor) : Notice := .rewound (c.place.line + 1) (c.place.column + 1)

def level : Notice → Log.Level
  | .created _ | .loaded _ | .requested | .rewound .. => .trace
  | .produced _ => .debug
  | .unrecognized .. | .notRewound _ => .warn

def target : Notice → String
  | .loaded _ | .rewound .. => "abnf_core::scanner"
  | _ => "abnf_core::tokenizer"

def message : Notice → String
  | .created options => "Creating new Tokenizer: " ++ options.text
  | .loaded characters => "Scanner input set: " ++ toString characters ++ " chars"
  | .requested => "Requesting next token"
  | .unrecognized c line column =>
    "Unrecognized character " ++ Text.quotedChar c ++ " at " ++ toString line ++ ":" ++
      toString column
  | .rewound line column => "Scanner rewound to " ++ toString line ++ ":" ++ toString column
  | .notRewound cause => "Lookahead not re-scanned: " ++ cause.message
  | .produced t =>
    "Produced token: kind=" ++ t.kind.name ++ ", value=" ++ Text.quoted t.value ++ ", line=" ++
      toString t.line ++ ", column=" ++ toString t.column

def entry (n : Notice) : Log.Entry := ⟨n.level, n.target, n.message⟩

end Notice

end Abnf.Lexer
