import Abnf.Proofs.KindCounts
import Abnf.Proofs.Notices

/-! A lexer makes do where something is missing: a cursor without a current symbol counts as one at the
end of input, and one that cannot be taken back stays where it is. Here is a lexer that fails instead,
and that also fails where an unknown symbol is no character. It gives the same tokens, so nothing is
ever missing. -/

namespace Abnf

namespace Cursor

/-- `skipBlanks`, but each symbol that is looked at must be there. -/
def skipBlanks? (c : Cursor) : Option Cursor :=
  match _h : c.current with
  | none => none
  | some s => if s.symbol.isBlank then c.next.skipBlanks? else some c
termination_by c.budget
decreasing_by
  next hblank =>
    apply budget_next_lt
    intro he
    have hs : s.symbol = .endOfInput := by simpa [seen, _h] using he
    simp [hs, Symbol.isBlank] at hblank

/-- `collect`, but each symbol that is looked at must be there. -/
def collect? (accept : Char → Bool) (taken : List Char) (c : Cursor) : Option (List Char × Cursor) :=
  match _h : c.current with
  | none => none
  | some s =>
    match _hs : s.symbol with
    | .char x => if accept x then c.next.collect? accept (x :: taken) else some (taken.reverse, c)
    | _ => some (taken.reverse, c)
termination_by c.budget
decreasing_by exact budget_next_lt (by simp [seen, _h, _hs])

def takeWhile? (accept : Char → Bool) (c : Cursor) : Option (List Char × Cursor) :=
  c.collect? accept []

section

variable {c : Cursor} {s : Located} {accept : Char → Bool} {taken : List Char}

theorem skipBlanks?_of_current (h : c.current = some s) :
    c.skipBlanks? = if s.symbol.isBlank then c.next.skipBlanks? else some c := by
  rw [skipBlanks?]
  split <;> simp_all

theorem collect?_of_char {x : Char} (h : c.current = some s) (hx : s.symbol = .char x) :
    c.collect? accept taken =
      if accept x then c.next.collect? accept (x :: taken) else some (taken.reverse, c) := by
  rw [collect?]
  split
  · simp_all
  · obtain rfl : s = _ := by simpa [h] using ‹c.current = some _›
    split <;> simp_all

theorem collect?_of_not_char (h : c.current = some s) (hs : ∀ x, s.symbol ≠ .char x) :
    c.collect? accept taken = some (taken.reverse, c) := by
  rw [collect?]
  split
  · simp_all
  · split <;> simp_all

end

namespace AdvancedFrom

variable {c : Cursor} {n : Nat}

theorem current_eq (h : c.AdvancedFrom n) : c.current = some c.seen := by
  obtain ⟨d, rfl, -⟩ := h
  rfl

theorem skipBlanks?_eq (h : c.AdvancedFrom n) : c.skipBlanks? = some c.skipBlanks := by
  fun_induction Cursor.skipBlanks c with
  | case1 c hblank ih => rw [skipBlanks?_of_current h.current_eq, if_pos hblank, ih h.next]
  | case2 c hblank => rw [skipBlanks?_of_current h.current_eq, if_neg hblank]

theorem collect?_eq {accept : Char → Bool} {taken : List Char} (h : c.AdvancedFrom n) :
    c.collect? accept taken = some (c.collect accept taken) := by
  fun_induction Cursor.collect accept taken c with
  | case1 taken c x hx hok ih => rw [collect?_of_char h.current_eq hx, if_pos hok, ih h.next]
  | case2 taken c x hx hno => rw [collect?_of_char h.current_eq hx, if_neg hno]
  | case3 taken c hn => exact collect?_of_not_char h.current_eq hn

end AdvancedFrom

end Cursor

namespace Lexer

namespace Lexeme

/-- `giveBack` of a cursor that can be taken back, with the symbol that it gives back. -/
def giveBack? (c : Cursor) : Option (Cursor × Located) := do
  let again ← c.current
  let cursor ← c.rewind.toOption
  return (cursor, again)

/-- A run, and the symbol behind it, which is given back. -/
def run? (kind : Kind) (accept : Char → Bool) (c : Cursor) : Option (Lexeme × Option Located) := do
  let (value, stop) ← c.takeWhile? accept
  let (cursor, again) ← giveBack? stop
  return ({ kind, value := String.ofList value, cursor, notices := [.ofRewind cursor] }, some again)

def delimited? (kind : Kind) (close : Char) (problem : Problem) (c : Cursor) :
    Option (Lexeme × Option Located) := do
  let (value, stop) ← c.next.takeWhile? (· != close)
  let last ← stop.current
  if last.symbol.is close then return (single kind (String.ofList value) stop, none)
  else
    let (cursor, again) ← giveBack? stop
    return ({ kind, value := String.ofList value, cursor, problem := some problem,
              notices := [.ofRewind cursor] }, some again)

/-- The lexeme that starts at the current symbol, and the symbol that was given back, if any was. -/
def read? (c : Cursor) : Option (Lexeme × Option Located) := do
  let first ← c.current
  match Lead.of first.symbol with
  | .endOfLine => return (single .endOfLine "" c, none)
  | .comment => run? .comment (fun _ => true) c.next
  | .terminalValue => run? .terminalValue isTerminalBody c.next
  | .stringLiteral => delimited? .stringLiteral '"' .unterminatedString c
  | .bareRuleName => run? .ruleName Text.isLetter c
  | .angleRuleName => delimited? .ruleName '>' .unterminatedRuleName c
  | .alternative => return (single .alternative "/" c, none)
  | .equals => return (single .equals "=" c, none)
  | .endOfInput => return (single .endOfInput "" c, none)
  | .unknown _ =>
    let x ← first.symbol.char?
    return ({ single .unknown "" c with
              problem := some (.unrecognizedCharacter x)
              notices := [.unrecognized x first.line first.column] }, none)

/-- `found` is the lexeme `x`, and what was given back is the symbol that the next advance passes. -/
def Gives (found : Option (Lexeme × Option Located)) (x : Lexeme) : Prop :=
  ∃ again, found = some (x, again) ∧ ∀ s ∈ again, x.cursor.next.current = some s

variable {c : Cursor} {n : Nat}

theorem gives_single (x : Lexeme) : Gives (some (x, none)) x := ⟨none, rfl, by simp⟩

theorem giveBack?_eq (h : c.AdvancedFrom n) :
    giveBack? c = some ((giveBack c).1, c.seen) ∧ (giveBack c).1.next.current = some c.seen := by
  obtain ⟨d, rfl, -⟩ := h
  exact ⟨rfl, rfl⟩

theorem gives_run {kind : Kind} {accept : Char → Bool} (h : c.AdvancedFrom n) :
    Gives (run? kind accept c) (run kind accept c) := by
  have hstop : (c.takeWhile accept).2.AdvancedFrom n := h.takeWhile
  obtain ⟨hback, hnext⟩ := giveBack?_eq hstop
  refine ⟨some (c.takeWhile accept).2.seen, ?_, ?_⟩
  · have htake : c.takeWhile? accept = some (c.takeWhile accept) := h.collect?_eq
    simp [run?, run, htake, hback, notice_giveBack hstop]
  · simpa [run] using hnext

theorem gives_delimited (kind : Kind) (close : Char) (problem : Problem) (c : Cursor) :
    Gives (delimited? kind close problem c) (delimited kind close problem c) := by
  have hfirst := c.advancedFrom_next
  have hstop : (c.next.takeWhile (· != close)).2.AdvancedFrom c.place.ahead.length := hfirst.takeWhile
  have htake : c.next.takeWhile? (· != close) = some (c.next.takeWhile (· != close)) :=
    hfirst.collect?_eq
  by_cases hclose : (c.next.takeWhile (· != close)).2.seen.symbol.is close = true
  · refine ⟨none, ?_, by simp⟩
    simp [delimited?, delimited, htake, hstop.current_eq, hclose]
  · obtain ⟨hback, hnext⟩ := giveBack?_eq hstop
    refine ⟨some (c.next.takeWhile (· != close)).2.seen, ?_, ?_⟩
    · simp [delimited?, delimited, htake, hstop.current_eq, hclose, hback, notice_giveBack hstop]
    · simpa [delimited, hclose] using hnext

theorem lead_unknown {s : Symbol} {x : Char} (h : Lead.of s = .unknown x) : s = .char x := by
  cases s with
  | char y => grind [Lead.of]
  | endOfLine | endOfInput => simp [Lead.of] at h

theorem gives_read (h : c.AdvancedFrom n) : Gives (read? c) (read c) := by
  have hfirst := c.advancedFrom_next
  cases hlead : Lead.of c.seen.symbol with
  | comment | terminalValue => simpa [read?, read, h.current_eq, hlead] using gives_run hfirst
  | bareRuleName => simpa [read?, read, h.current_eq, hlead] using gives_run h
  | stringLiteral | angleRuleName =>
    simpa [read?, read, h.current_eq, hlead] using gives_delimited ..
  | endOfLine | alternative | equals | endOfInput =>
    simpa [read?, read, h.current_eq, hlead] using gives_single _
  | unknown x =>
    have hx : c.seen.symbol.char? = some x := by rw [lead_unknown hlead, Symbol.char?]
    simpa [read?, read, h.current_eq, hlead, hx] using gives_single _

theorem notRewound_notMem_read (c : Cursor) (cause : RewindError) :
    .notRewound cause ∉ (read c).notices := by
  rw [notices_read]
  cases Lead.of c.seen.symbol with
  | stringLiteral | angleRuleName => split <;> simp [Notice.ofRewind]
  | comment | terminalValue | bareRuleName | unknown x => simp [Notice.ofRewind]
  | endOfLine | alternative | equals | endOfInput => simp

end Lexeme

/-- The diagnostic of the unrecognized character that a notice warns of. -/
def Notice.warning? : Notice → Option Diagnostic
  | .unrecognized x line column => some ⟨.unrecognizedCharacter x, line, column⟩
  | .created _ | .loaded _ | .requested | .rewound .. | .notRewound _ | .produced _ => none

namespace Lexeme

variable (c : Cursor)

theorem kind_delimited (kind : Kind) (close : Char) (problem : Problem) :
    (delimited kind close problem c).kind = kind := by
  unfold delimited
  dsimp only
  split <;> rfl

theorem eq_of_mem_problem_delimited {kind : Kind} {close : Char} {problem p : Problem}
    (h : p ∈ (delimited kind close problem c).problem) : p = problem := by
  unfold delimited at h
  dsimp only at h
  split at h
  · simp [single] at h
  · simpa using h.symm

theorem read_of_unknown (h : (read c).kind = .unknown) :
    ∃ x, c.seen.symbol = .char x ∧ (read c).problem = some (.unrecognizedCharacter x) ∧
      (read c).notices = [.unrecognized x c.seen.line c.seen.column] := by
  cases hlead : Lead.of c.seen.symbol with
  | unknown x => exact ⟨x, lead_unknown hlead, by simp [read, hlead], by simp [read, hlead]⟩
  | stringLiteral | angleRuleName => simp [read, hlead, kind_delimited] at h
  | comment | terminalValue | bareRuleName => simp [read, hlead, run] at h
  | endOfLine | alternative | equals | endOfInput => simp [read, hlead, single] at h

theorem read_of_known (h : (read c).kind ≠ .unknown) :
    (∀ p ∈ (read c).problem, p.isUnrecognized = false) ∧
      (read c).notices.filterMap Notice.warning? = [] := by
  rw [notices_read]
  cases hlead : Lead.of c.seen.symbol with
  | unknown x => simp [read, hlead, single] at h
  | stringLiteral | angleRuleName =>
    constructor
    · intro p hp
      simp only [read, hlead] at hp
      rw [eq_of_mem_problem_delimited c hp, Problem.isUnrecognized]
    · dsimp only
      split <;> simp [Notice.ofRewind, Notice.warning?]
  | comment | terminalValue | bareRuleName =>
    simp [read, hlead, run, Notice.ofRewind, Notice.warning?]
  | endOfLine | alternative | equals | endOfInput => simp [read, hlead, single]

end Lexeme

/-- What comes of a lexeme that starts with `first`. -/
def deliver (l : Lexer) (first : Located) (x : Lexeme) : Step :=
  let token : Token := ⟨x.kind, x.value, first.line, first.column⟩
  let found := x.problem.toArray.map (⟨·, first.line, first.column⟩)
  let diagnostics := if l.options.collectDiagnostics then l.diagnostics ++ found else l.diagnostics
  { token
    lexer := { l with cursor := x.cursor, diagnostics }
    notices := .requested :: x.notices ++ if l.options.traceTokens then [.produced token] else [] }

theorem next_eq_deliver (l : Lexer) : l.next = l.deliver l.seek.seen (.read l.seek) := rfl

/-- `next` of a lexer that fails where something is missing, with the symbol that was given back. -/
def next? (l : Lexer) : Option (Step × Option Located) := do
  let start ← l.cursor.next.skipBlanks?
  let first ← start.current
  let (x, again) ← Lexeme.read? start
  return (l.deliver first x, again)

section

variable (l : Lexer)

theorem notRewound_notMem_next (cause : RewindError) : .notRewound cause ∉ l.next.notices := by
  have hread := Lexeme.notRewound_notMem_read l.seek cause
  simp only [next]
  split <;> simpa using hread

/-- An unknown token stands for a character, is warned of, and is reported if diagnostics are kept. -/
theorem next_of_unknown (h : l.next.token.kind = .unknown) :
    let k := l.next.token
    ∃ x, l.seek.current = some ⟨.char x, k.line, k.column⟩ ∧
      .unrecognized x k.line k.column ∈ l.next.notices ∧
      (l.options.collectDiagnostics = true → l.next.lexer.diagnostics =
        l.diagnostics.push ⟨.unrecognizedCharacter x, k.line, k.column⟩) := by
  obtain ⟨x, hx, hproblem, hnotices⟩ := Lexeme.read_of_unknown l.seek h
  refine ⟨x, ?_, ?_, ?_⟩
  · rw [l.seek_advancedFrom.current_eq, ← hx]
    rfl
  · simp [next, hnotices]
  · intro hcollect
    simp [next, hcollect, hproblem]

theorem warnings_next :
    l.next.notices.filterMap Notice.warning? =
      (Lexeme.read l.seek).notices.filterMap Notice.warning? := by
  simp only [next]
  split <;> simp [List.filterMap_cons, Notice.warning?]

/-- There is a warning of the token exactly if it is unknown. -/
theorem places_warnings_next :
    (l.next.notices.filterMap Notice.warning?).map (fun d => (d.line, d.column)) =
      ([l.next.token].filter (·.kind = .unknown)).map fun k => (k.line, k.column) := by
  rw [warnings_next]
  by_cases hk : l.next.token.kind = .unknown
  · obtain ⟨x, -, -, hnotices⟩ := Lexeme.read_of_unknown l.seek hk
    simp only [hk, hnotices, List.filterMap_cons, List.filter_cons, Notice.warning?]
    rfl
  · obtain ⟨-, hnone⟩ := Lexeme.read_of_known l.seek hk
    simp [hk, hnone]

theorem reported_next (hcollect : l.options.collectDiagnostics = true) :
    l.next.lexer.diagnostics.toList.filter (·.problem.isUnrecognized) =
      l.diagnostics.toList.filter (·.problem.isUnrecognized) ++
        l.next.notices.filterMap Notice.warning? := by
  rw [warnings_next]
  by_cases hk : l.next.token.kind = .unknown
  · obtain ⟨x, -, hproblem, hnotices⟩ := Lexeme.read_of_unknown l.seek hk
    simp [next, hcollect, hproblem, hnotices, Notice.warning?, Problem.isUnrecognized]
  · obtain ⟨hproblem, hnone⟩ := Lexeme.read_of_known l.seek hk
    simpa [next, hcollect, hnone, List.filter_eq_nil_iff] using hproblem

end

/-- Whenever a symbol was to be read again the cursor was taken back. Each unknown token has its warning
and, behind those that were `kept` before, its diagnostic. -/
structure Drained.Complete (kept : List Diagnostic) (d : Drained) : Prop where
  rewound (cause : RewindError) : .notRewound cause ∉ d.notices
  warned : (d.notices.toList.filterMap Notice.warning?).map (fun d => (d.line, d.column)) =
    (d.tokens.toList.filter (·.kind = .unknown)).map fun k => (k.line, k.column)
  reported : d.lexer.options.collectDiagnostics = true →
    d.lexer.diagnostics.toList.filter (·.problem.isUnrecognized) =
      kept ++ d.notices.toList.filterMap Notice.warning?

section

variable {l : Lexer} {tokens : Array Token} {notices : Array Notice} {kept : List Diagnostic}

theorem Drained.Complete.step (h : Complete kept ⟨tokens, l, notices⟩) :
    Complete kept ⟨tokens.push l.next.token, l.next.lexer, notices ++ l.next.notices.toArray⟩ := by
  constructor
  · intro cause
    simpa using ⟨h.rewound cause, l.notRewound_notMem_next cause⟩
  · have hnext := l.places_warnings_next
    simp only [Array.toList_append, Array.toList_push, List.filterMap_append, List.map_append,
      List.filter_append]
    rw [h.warned, hnext]
  · intro hcollect
    have hbefore := h.reported hcollect
    simp only [Array.toList_append, List.filterMap_append]
    rw [l.reported_next hcollect, hbefore, List.append_assoc]

theorem complete_pull (h : Drained.Complete kept ⟨tokens, l, notices⟩) :
    (pull tokens notices l).Complete kept := by
  fun_induction pull tokens notices l with
  | case1 => exact h.step
  | case2 _ _ _ _ _ _ _ ih => exact ih h.step

end

/-- Whatever was done with a lexer before, nothing is missing when it reads its next token: the lexer that
would fail then gives the same token, and the symbol that it gives back is the one it advances over next.
An unknown token stands for a character, is warned of, and is reported if diagnostics are kept; and all
tokens up to the end of input are read without a cursor that cannot be taken back. -/
theorem next_needs_no_stopgap (l : Lexer) :
    (∃ again, l.next? = some (l.next, again) ∧
      ∀ s ∈ again, l.next.lexer.cursor.next.current = some s) ∧
    (∀ cause, .notRewound cause ∉ l.next.notices) ∧
    (l.next.token.kind = .unknown →
      let k := l.next.token
      ∃ x, l.seek.current = some ⟨.char x, k.line, k.column⟩ ∧
        .unrecognized x k.line k.column ∈ l.next.notices ∧
        (l.options.collectDiagnostics = true → l.next.lexer.diagnostics =
          l.diagnostics.push ⟨.unrecognizedCharacter x, k.line, k.column⟩)) ∧
    l.drain.Complete (l.diagnostics.toList.filter (·.problem.isUnrecognized)) := by
  refine ⟨?_, l.notRewound_notMem_next, l.next_of_unknown, ?_⟩
  · have hstart := l.cursor.advancedFrom_next
    obtain ⟨again, hread, hnext⟩ := Lexeme.gives_read l.seek_advancedFrom
    refine ⟨again, ?_, hnext⟩
    have hseek : l.cursor.next.skipBlanks? = some l.seek := hstart.skipBlanks?_eq
    simp [next?, hseek, l.seek_advancedFrom.current_eq, hread, next_eq_deliver]
  · exact complete_pull ⟨by simp, rfl, fun _ => by simp⟩

/-- The unknown character ends a rule name first, and is given back for its own token. -/
theorem next_needs_no_stopgap_before_unknown :
    let l := ofText {} "a@"
    let m := l.next.lexer
    let again : Located := ⟨.char '@', 1, 2⟩
    l.next? = some (l.next, some again) ∧ m.cursor.next.current = some again ∧
      m.next.token.kind = .unknown ∧ .unrecognized '@' 1 2 ∈ m.next.notices ∧
      m.next.lexer.diagnostics = m.diagnostics.push ⟨.unrecognizedCharacter '@', 1, 2⟩ := by
  intro l m again
  obtain ⟨⟨found, hnext, hback⟩, -⟩ := next_needs_no_stopgap l
  have hfound : found = some again := by
    have hsnd : l.next?.map Prod.snd = some (some again) := by decide +kernel
    simpa [hnext] using hsnd
  subst hfound
  have hunknown : m.next.token.kind = .unknown := by decide +kernel
  have hplace : m.seek.current = some again ∧ m.next.token.line = 1 ∧ m.next.token.column = 2 := by
    decide +kernel
  obtain ⟨x, hx, hwarned, hreported⟩ := (next_needs_no_stopgap m).2.2.1 hunknown
  obtain rfl : x = '@' := by simpa [hplace, again] using hx.symm
  simp only [hplace] at hwarned hreported
  exact ⟨hnext, hback again rfl, hunknown, hwarned, hreported rfl⟩

end Lexer

end Abnf
