/-! A source text by lines. Lines end where a cursor finds a line end, and the last one need not
end; an empty rest behind the last line end is no line. -/

namespace Abnf

/-- The lines of a text, the first of which starts with the characters `begun` (last first). -/
def linesFrom (begun : List Char) : List Char → List (List Char)
  | [] => if begun.isEmpty then [] else [begun.reverse]
  | '\r' :: '\n' :: rest => begun.reverse :: linesFrom [] rest
  | c :: rest =>
    if c = '\n' ∨ c = '\r' then begun.reverse :: linesFrom [] rest else linesFrom (c :: begun) rest

def sourceLines (source : String) : List String :=
  (linesFrom [] source.toList).map String.ofList

end Abnf
