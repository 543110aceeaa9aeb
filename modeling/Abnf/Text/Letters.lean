/-! ASCII letters, and words compared without regard to their case. -/

namespace Abnf.Text

def isLetter (c : Char) : Bool := c.isAlpha

/-- The word with its ASCII capitals made small; other characters stay as they are. -/
def foldCase (word : String) : String := String.ofList (word.toList.map Char.toLower)

end Abnf.Text
