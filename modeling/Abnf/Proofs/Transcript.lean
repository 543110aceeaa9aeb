import Abnf.Proofs.DirectRings
import Abnf.Proofs.Notices
import Abnf.Proofs.Verdict

/-! The log of a run: how it begins, what the lexer tells of each token, and how it ends. Logs of another
level have the same entries, without those that are not severe enough. -/

namespace Abnf

namespace Policy

section

variable {source : String} {rest : List Char} {tiles : List Tile}

end

end Policy

end Abnf
