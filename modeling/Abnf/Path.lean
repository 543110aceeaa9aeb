/-! Paths as texts, with `/` between names. Taking a path apart and joining two never looks at the
file system. -/

namespace Abnf

structure Path where
  text : String
deriving DecidableEq, Repr

namespace Path

def isAbsolute (p : Path) : Bool := p.text.toList.head? == some '/'

/-- The text backwards, without the idle endings `/` and `/.`. -/
def dropIdle : List Char → List Char
  | '/' :: rest => dropIdle rest
  | '.' :: '/' :: rest => dropIdle rest
  | ['.'] => []
  | rest => rest

/-- What stands before the first name: the root, or a leading `.`. -/
def anchor (text : List Char) : List Char :=
  match text with
  | '/' :: _ => ['/']
  | ['.'] => ['.']
  | '.' :: '/' :: _ => ['.']
  | _ => []

/-- The path without its last name. Idle endings do not count as names, and what they leave behind
is dropped with them. The root and the empty path have no parent. -/
def parent? (p : Path) : Option Path :=
  let text := p.text.toList
  let anchor := anchor text
  match dropIdle (text.drop anchor.length).reverse with
  | [] => if anchor = ['.'] then some ⟨""⟩ else none
  | name =>
    let rest := dropIdle ((name.dropWhile (· != '/')).drop 1)
    some ⟨String.ofList (anchor ++ rest.reverse)⟩

/-- An absolute second path stands for itself. Otherwise one `/` comes between the two, unless the
first is empty or ends in one. -/
def join (base p : Path) : Path :=
  if p.isAbsolute then p
  else
    let last := base.text.toList.getLast?
    if last = none ∨ last = some '/' then ⟨base.text ++ p.text⟩
    else ⟨base.text ++ "/" ++ p.text⟩

/-- The names from the first to the last, empty ones left out. -/
def names (p : Path) : List String :=
  ((p.text.toList.splitOn '/').filter (!·.isEmpty)).map String.ofList

/-- What a trailing `/` asks for is a directory. -/
def endsInSlash (p : Path) : Bool := p.text.toList.getLast? == some '/'

end Path

end Abnf
