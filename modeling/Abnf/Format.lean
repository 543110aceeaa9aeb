import Abnf.Text.Letters

/-! The two forms in which tokens are put out. -/

namespace Abnf

inductive Format where
  | text
  | json
deriving DecidableEq, Repr

/-- A name that is no format's. -/
structure UnknownFormat where
  name : String
deriving DecidableEq, Repr

def UnknownFormat.message (e : UnknownFormat) : String :=
  "unknown format '" ++ e.name ++ "', expected text or json"

/-- A format by its name, in any case. -/
def Format.parse (name : String) : Except UnknownFormat Format :=
  match Text.foldCase name with
  | "text" => .ok .text
  | "json" => .ok .json
  | _ => .error ⟨name⟩

end Abnf
