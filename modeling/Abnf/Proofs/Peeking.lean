import Abnf.Proofs.Uses

/-! A lexer that never steps back. It works on the symbols that are left of a text, ends a lexeme at
the symbol it sees behind it, and leaves that symbol where it is. The cursor's advances and steps back
come to the same. -/

namespace Abnf

/-- A character of which `accept` holds. -/
def Symbol.isOf (accept : Char → Bool) (s : Symbol) : Bool := s.char?.any accept

/-- A point of a text. Lines and columns are counted from 1. -/
structure Spot where
  offset : Nat
  line : Nat
  column : Nat
deriving DecidableEq, Repr

structure Sight where
  symbol : Symbol
  spot : Spot
deriving DecidableEq, Repr

/-- The symbols that are left, each with its place, and the place of the end behind them. -/
structure Outlook where
  sights : List Sight
  finish : Spot
deriving DecidableEq, Repr

namespace Outlook

def behind (o : Outlook) (s : Sight) : Outlook := { o with sights := s :: o.sights }

/-- What is left of a text at `s`, told from the characters that are left. -/
def ofText (s : Spot) : List Char → Outlook
  | [] => ⟨[], s⟩
  | '\r' :: '\n' :: rest => (ofText ⟨s.offset + 2, s.line + 1, 1⟩ rest).behind ⟨.endOfLine, s⟩
  | c :: rest =>
    if c = '\n' ∨ c = '\r' then
      (ofText ⟨s.offset + 1, s.line + 1, 1⟩ rest).behind ⟨.endOfLine, s⟩
    else (ofText ⟨s.offset + 1, s.line, s.column + 1⟩ rest).behind ⟨.char c, s⟩

def peek (o : Outlook) : Sight := o.sights.head?.getD ⟨.endOfInput, o.finish⟩

def skip (o : Outlook) : Outlook := { o with sights := o.sights.tail }

/-- The accepted characters up to the first symbol that is not one of them. -/
def run (accept : Char → Bool) (o : Outlook) : List Char :=
  (o.sights.takeWhile (·.symbol.isOf accept)).filterMap (·.symbol.char?)

/-- What is left behind that run. -/
def past (accept : Char → Bool) (o : Outlook) : Outlook :=
  { o with sights := o.sights.dropWhile (·.symbol.isOf accept) }

/-- A lexeme, and what is left behind it. -/
structure Reading where
  kind : Kind
  value : String
  rest : Outlook
  problem : Option Problem := none
deriving DecidableEq, Repr

def readRun (kind : Kind) (accept : Char → Bool) (o : Outlook) : Reading :=
  ⟨kind, String.ofList (o.run accept), o.past accept, none⟩

def readDelimited (d : Delimiters) (o : Outlook) : Reading :=
  let value := String.ofList (o.run (· != d.closing))
  let rest := o.past (· != d.closing)
  if rest.peek.symbol.is d.closing then ⟨d.kind, value, rest.skip, none⟩
  else ⟨d.kind, value, rest, some d.unterminated⟩

def read (o : Outlook) : Reading :=
  match Lexer.Lead.of o.peek.symbol with
  | .endOfLine => ⟨.endOfLine, "", o.skip, none⟩
  | .comment => o.skip.readRun .comment fun _ => true
  | .terminalValue => o.skip.readRun .terminalValue Lexer.isTerminalBody
  | .stringLiteral => o.skip.readDelimited .quotes
  | .bareRuleName => o.readRun .ruleName Text.isLetter
  | .angleRuleName => o.skip.readDelimited .angles
  | .alternative => ⟨.alternative, "/", o.skip, none⟩
  | .equals => ⟨.equals, "=", o.skip, none⟩
  | .endOfInput => ⟨.endOfInput, "", o.skip, none⟩
  | .unknown x => ⟨.unknown, "", o.skip, some (.unrecognizedCharacter x)⟩

/-- A token, the diagnostics that come with it, and what is left behind it. -/
structure Step where
  token : Token
  found : List Diagnostic
  rest : Outlook
deriving DecidableEq, Repr

def step (options : Lexer.Options) (o : Outlook) : Step :=
  let ahead := o.past Text.isBlank
  let lexeme := ahead.read
  let spot := ahead.peek.spot
  { token := ⟨lexeme.kind, lexeme.value, spot.line, spot.column⟩
    found :=
      if options.collectDiagnostics then
        lexeme.problem.toList.map (⟨·, spot.line, spot.column⟩)
      else []
    rest := lexeme.rest }

variable {o : Outlook} {accept : Char → Bool} {x : Char}

theorem past_of_isOf (h : o.peek.symbol.isOf accept = true) :
    o.past accept = o.skip.past accept := by
  obtain ⟨sights, finish⟩ := o
  cases sights with
  | nil => rfl
  | cons s sights =>
    have hs : s.symbol.isOf accept = true := h
    simp [past, skip, hs]

theorem run_of_char (h : o.peek.symbol = .char x) (hx : accept x = true) :
    o.run accept = x :: o.skip.run accept := by
  obtain ⟨sights, finish⟩ := o
  cases sights with
  | nil => simp [peek] at h
  | cons s sights =>
    have hs : s.symbol.char? = some x := by
      have hs' : s.symbol = .char x := h
      rw [hs']
      rfl
    have ho : s.symbol.isOf accept = true := by simp [Symbol.isOf, hs, hx]
    simp [run, skip, ho, hs]

theorem stop_of_not_isOf (h : o.peek.symbol.isOf accept = false) :
    o.run accept = [] ∧ o.past accept = o := by
  obtain ⟨sights, finish⟩ := o
  cases sights with
  | nil => exact ⟨rfl, rfl⟩
  | cons s sights =>
    have hs : s.symbol.isOf accept = false := h
    simp [run, past, hs]

end Outlook

namespace Place

def spot (p : Place) : Spot := ⟨p.offset, p.line + 1, p.column + 1⟩

def outlook (p : Place) : Outlook := .ofText p.spot p.ahead

theorem outlook_of_nil {p : Place} (h : p.ahead = []) : p.outlook = ⟨[], p.spot⟩ := by
  rw [outlook, h, Outlook.ofText]

theorem outlook_of_ne_nil {p : Place} (h : p.ahead ≠ []) :
    p.outlook = p.next.outlook.behind ⟨p.symbol, p.spot⟩ := by
  obtain ⟨c, rest, hc⟩ := List.exists_cons_of_ne_nil h
  by_cases hp : c = '\r' ∧ rest.head? = some '\n'
  · obtain ⟨rfl, hn⟩ := hp
    obtain ⟨more, rfl⟩ := List.head?_eq_some_iff.mp hn
    simp [outlook, symbol, next, hc, Outlook.ofText, spot]
  · have ht : Outlook.ofText p.spot (c :: rest) =
        if c = '\n' ∨ c = '\r' then
          (Outlook.ofText ⟨p.offset + 1, p.line + 2, 1⟩ rest).behind ⟨.endOfLine, p.spot⟩
        else
          (Outlook.ofText ⟨p.offset + 1, p.line + 1, p.column + 2⟩ rest).behind ⟨.char c, p.spot⟩ := by
      rw [Outlook.ofText]
      · rfl
      · rintro more rfl rfl
        exact hp ⟨rfl, rfl⟩
    rw [outlook, hc, ht]
    by_cases hl : c = '\n' ∨ c = '\r' <;> simp [outlook, symbol, next, hc, hp, hl, spot]

theorem peek_outlook (p : Place) : p.outlook.peek = ⟨p.symbol, p.spot⟩ := by
  by_cases h : p.ahead = []
  · rw [outlook_of_nil h]
    simp [Outlook.peek, symbol, h]
  · rw [outlook_of_ne_nil h]
    rfl

theorem outlook_next (p : Place) : p.next.outlook = p.outlook.skip := by
  by_cases h : p.ahead = []
  · have hn : p.next = p := by simp [next, h]
    rw [hn, outlook_of_nil h]
    rfl
  · rw [outlook_of_ne_nil h]
    rfl

end Place

/-- A lexeme as it is known from what its cursor has left. -/
def Lexer.Lexeme.reading (x : Lexer.Lexeme) : Outlook.Reading :=
  ⟨x.kind, x.value, x.cursor.place.outlook, x.problem⟩

namespace Cursor

/-- The current symbol of `c` is the first one of `o`, and `c` has just advanced over it. -/
def Sees (c : Cursor) (o : Outlook) : Prop := ∃ p, c.Over p ∧ p.outlook = o

theorem sees_next (c : Cursor) : c.next.Sees c.place.outlook := ⟨c.place, c.over_next, rfl⟩

namespace Sees

variable {c : Cursor} {o : Outlook}

theorem seen (h : c.Sees o) :
    c.seen = ⟨o.peek.symbol, o.peek.spot.line, o.peek.spot.column⟩ := by
  obtain ⟨p, hp, rfl⟩ := h
  rw [hp.seen, p.peek_outlook]
  rfl

theorem place (h : c.Sees o) : c.place.outlook = o.skip := by
  obtain ⟨p, hp, rfl⟩ := h
  rw [hp.place, p.outlook_next]

theorem next (h : c.Sees o) : c.next.Sees o.skip := by
  obtain ⟨p, hp, rfl⟩ := h
  exact ⟨p.next, hp.next, p.outlook_next⟩

theorem giveBack (h : c.Sees o) : (Lexer.Lexeme.giveBack c).1.place.outlook = o := by
  obtain ⟨p, hp, rfl⟩ := h
  rw [hp.giveBack]

theorem skipBlanks (h : c.Sees o) : c.skipBlanks.Sees (o.past Text.isBlank) := by
  have hblank : c.seen.symbol.isBlank = o.peek.symbol.isOf Text.isBlank := by
    rw [h.seen]
    cases o.peek.symbol <;> rfl
  fun_induction Cursor.skipBlanks c generalizing o with
  | case1 c hc ih =>
    rw [hc] at hblank
    rw [Outlook.past_of_isOf hblank.symm]
    refine ih h.next ?_
    rw [h.next.seen]
    cases o.skip.peek.symbol <;> rfl
  | case2 c hc =>
    have hstop : o.peek.symbol.isOf Text.isBlank = false := by
      rw [← hblank]
      exact Bool.eq_false_iff.mpr hc
    rwa [(Outlook.stop_of_not_isOf hstop).2]

theorem collect (accept : Char → Bool) (taken : List Char) (h : c.Sees o) :
    (c.collect accept taken).1 = taken.reverse ++ o.run accept ∧
      (c.collect accept taken).2.Sees (o.past accept) := by
  fun_induction Cursor.collect accept taken c generalizing o with
  | case1 taken c x hx hok ih =>
    have hp : o.peek.symbol = .char x := by rw [← hx, h.seen]
    have hof : o.peek.symbol.isOf accept = true := by simp [hp, Symbol.isOf, Symbol.char?, hok]
    rw [Outlook.run_of_char hp hok, Outlook.past_of_isOf hof]
    simpa using ih h.next
  | case2 taken c x hx hno =>
    have hp : o.peek.symbol = .char x := by rw [← hx, h.seen]
    have hof : o.peek.symbol.isOf accept = false := by
      simpa [hp, Symbol.isOf, Symbol.char?] using hno
    simpa [Outlook.stop_of_not_isOf hof] using h
  | case3 taken c hn =>
    have hof : o.peek.symbol.isOf accept = false := by
      have hs : o.peek.symbol = c.seen.symbol := by rw [h.seen]
      rw [hs]
      cases hc : c.seen.symbol with
      | char x => exact absurd hc (hn x)
      | endOfLine | endOfInput => rfl
    simpa [Outlook.stop_of_not_isOf hof] using h

theorem reading_run (h : c.Sees o) (kind : Kind) (accept : Char → Bool) :
    (Lexer.Lexeme.run kind accept c).reading = o.readRun kind accept := by
  obtain ⟨hv, hs⟩ := h.collect accept []
  have hr := hs.giveBack
  simp only [List.reverse_nil, List.nil_append] at hv
  simp only [Lexer.Lexeme.reading, Lexer.Lexeme.run, Cursor.takeWhile, Outlook.readRun, hv, hr]

theorem reading_delimited (h : c.Sees o) (d : Delimiters) :
    (Lexer.Lexeme.delimited d.kind d.closing d.unterminated c).reading =
      o.skip.readDelimited d := by
  obtain ⟨hv, hs⟩ := h.next.collect (· != d.closing) []
  simp only [List.reverse_nil, List.nil_append] at hv
  have hpeek : (c.next.takeWhile (· != d.closing)).2.seen.symbol =
      (o.skip.past (· != d.closing)).peek.symbol := by
    rw [Cursor.takeWhile, hs.seen]
  unfold Lexer.Lexeme.delimited Outlook.readDelimited
  dsimp only
  rw [hpeek]
  split
  · simp only [Lexer.Lexeme.reading, Lexer.Lexeme.single, Cursor.takeWhile, hv, hs.place]
  · simp only [Lexer.Lexeme.reading, Cursor.takeWhile, hv, hs.giveBack]

theorem reading_read (h : c.Sees o) : (Lexer.Lexeme.read c).reading = o.read := by
  have hs : c.seen.symbol = o.peek.symbol := by rw [h.seen]
  have hsingle (kind : Kind) (value : String) :
      (Lexer.Lexeme.single kind value c).reading = ⟨kind, value, o.skip, none⟩ := by
    simp only [Lexer.Lexeme.reading, Lexer.Lexeme.single, h.place]
  unfold Lexer.Lexeme.read Outlook.read
  rw [hs]
  cases Lexer.Lead.of o.peek.symbol with
  | comment => exact h.next.reading_run .comment fun _ => true
  | terminalValue => exact h.next.reading_run .terminalValue Lexer.isTerminalBody
  | stringLiteral => exact h.reading_delimited .quotes
  | bareRuleName => exact h.reading_run .ruleName Text.isLetter
  | angleRuleName => exact h.reading_delimited .angles
  | endOfLine => exact hsingle .endOfLine ""
  | alternative => exact hsingle .alternative "/"
  | equals => exact hsingle .equals "="
  | endOfInput => exact hsingle .endOfInput ""
  | unknown x => simp only [Lexer.Lexeme.reading, Lexer.Lexeme.single, h.place]

end Sees

/-- What is left of the text of a cursor. -/
def outlook (c : Cursor) : Outlook := .ofText c.place.spot (c.text.drop c.place.offset)

theorem Sound.outlook_eq {c : Cursor} (h : c.Sound) : c.outlook = c.place.outlook := by
  rw [outlook, ← h.ahead_eq, Place.outlook]

end Cursor

namespace Lexer

/-- Wherever the cursor is, one token of the lexer is one step of the lexer that only looks. -/
theorem next_eq_step (l : Lexer) :
    let step := l.cursor.place.outlook.step l.options
    l.next.token = step.token ∧ l.next.lexer.cursor.place.outlook = step.rest ∧
      l.next.lexer.diagnostics = l.diagnostics ++ step.found.toArray := by
  intro step
  have hs : l.seek.Sees (l.cursor.place.outlook.past Text.isBlank) := l.cursor.sees_next.skipBlanks
  have hr := hs.reading_read
  have hkind : (Lexeme.read l.seek).kind = _ := congrArg Outlook.Reading.kind hr
  have hvalue : (Lexeme.read l.seek).value = _ := congrArg Outlook.Reading.value hr
  have hrest : (Lexeme.read l.seek).cursor.place.outlook = _ := congrArg Outlook.Reading.rest hr
  have hproblem : (Lexeme.read l.seek).problem = _ := congrArg Outlook.Reading.problem hr
  refine ⟨?_, hrest, ?_⟩
  · simp only [next, hkind, hvalue, hs.seen, step, Outlook.step]
  · simp only [next, hproblem, hs.seen, step, Outlook.step]
    cases l.options.collectDiagnostics
    · simp
    · cases (l.cursor.place.outlook.past Text.isBlank).read.problem <;> simp

/-- Two lexers that have the same left to read, and read it alike. -/
structure Alike (l m : Lexer) : Prop where
  options_eq : l.options = m.options
  outlook_eq : l.cursor.place.outlook = m.cursor.place.outlook

namespace Alike

variable {l m : Lexer}

theorem next (h : Alike l m) : l.next.token = m.next.token ∧ Alike l.next.lexer m.next.lexer ∧
    ∃ found : List Diagnostic, l.next.lexer.diagnostics = l.diagnostics ++ found.toArray ∧
      m.next.lexer.diagnostics = m.diagnostics ++ found.toArray := by
  obtain ⟨hl, hlrest, hlfound⟩ := l.next_eq_step
  obtain ⟨hm, hmrest, hmfound⟩ := m.next_eq_step
  have hstep : l.cursor.place.outlook.step l.options = m.cursor.place.outlook.step m.options := by
    rw [h.options_eq, h.outlook_eq]
  refine ⟨?_, ⟨h.options_eq, ?_⟩, _, hlfound, ?_⟩
  · rw [hl, hm, hstep]
  · rw [hlrest, hmrest, hstep]
  · rw [hmfound, hstep]

theorem after (h : Alike l m) (n : Nat) : Alike (l.after n) (m.after n) ∧
    ∃ found : List Diagnostic, (l.after n).diagnostics = l.diagnostics ++ found.toArray ∧
      (m.after n).diagnostics = m.diagnostics ++ found.toArray := by
  induction n with
  | zero => exact ⟨h, [], by simp [Lexer.after], by simp [Lexer.after]⟩
  | succ n ih =>
    obtain ⟨ha, first, hl, hm⟩ := ih
    obtain ⟨-, hn, more, hl', hm'⟩ := ha.next
    refine ⟨hn, first ++ more, ?_, ?_⟩
    · rw [Lexer.after, hl', hl]
      simp
    · rw [Lexer.after, hm', hm]
      simp

theorem pulls (h : Alike l m) (done : Bool) (n : Nat) :
    (Stream.pulls ⟨l, done⟩ n).1 = (Stream.pulls ⟨m, done⟩ n).1 ∧
      Alike (Stream.pulls ⟨l, done⟩ n).2.lexer (Stream.pulls ⟨m, done⟩ n).2.lexer := by
  induction n generalizing l m done with
  | zero => exact ⟨rfl, h⟩
  | succ n ih =>
    cases done with
    | true =>
      obtain ⟨hp, ha⟩ := ih h true
      simp only [Stream.pulls, Stream.next]
      exact ⟨congrArg (none :: ·) hp, ha⟩
    | false =>
      obtain ⟨ht, hn, -⟩ := h.next
      obtain ⟨hp, ha⟩ := ih hn l.next.token.isEndOfInput
      simp only [Stream.pulls, Stream.next, Bool.false_eq_true, if_false, Option.map_some, ← ht]
      exact ⟨congrArg (some l.next.token :: ·) hp, ha⟩

theorem answer (h : Alike l m) (call : Call) :
    (l.answer call).1.tokens = (m.answer call).1.tokens ∧
      Alike (l.answer call).2 (m.answer call).2 := by
  cases call with
  | next => exact ⟨congrArg (fun k => [k]) h.next.1, h.next.2.1⟩
  | stream n =>
    obtain ⟨hp, ha⟩ := h.pulls false n
    exact ⟨congrArg List.reduceOption hp, ha⟩
  | diagnostics => exact ⟨rfl, h⟩
  | takeDiagnostics => exact ⟨rfl, ⟨h.options_eq, h.outlook_eq⟩⟩

theorem serve (h : Alike l m) (calls : List Call) :
    (l.serve calls).1.map Answer.tokens = (m.serve calls).1.map Answer.tokens := by
  induction calls generalizing l m with
  | nil => rfl
  | cons call calls ih =>
    obtain ⟨ht, ha⟩ := h.answer call
    simp only [Lexer.serve, List.map_cons, ht, ih ha]

end Alike

/-- However a lexer was used before, its next token, the diagnostics that come with it and what is
then left are those of the lexer that only looks. So two lexers of the same options that stand at the
same point of the same text cannot be told apart from then on, whatever their cursors remember. -/
theorem next_refines_peeking (options : Options) (us : List Use) :
    let l := (new options).uses us
    let step := l.cursor.outlook.step l.options
    (l.next.token = step.token ∧ l.next.lexer.cursor.outlook = step.rest ∧
      l.next.lexer.diagnostics = l.diagnostics ++ step.found.toArray) ∧
    ∀ (options' : Options) (us' : List Use),
      let m := (new options').uses us'
      m.options = l.options → m.cursor.text = l.cursor.text →
      m.cursor.place.spot = l.cursor.place.spot → ∀ calls : List Call,
        (m.serve calls).1.map Answer.tokens = (l.serve calls).1.map Answer.tokens ∧
        ∃ found : List Diagnostic,
          (l.serve calls).1.flatMap Answer.handedOver ++ (l.serve calls).2.diagnostics.toList =
            l.diagnostics.toList ++ found ∧
          (m.serve calls).1.flatMap Answer.handedOver ++ (m.serve calls).2.diagnostics.toList =
            m.diagnostics.toList ++ found := by
  intro l step
  have hl : l.cursor.Sound := sound_uses options us
  have hrest : l.next.lexer.cursor.Sound := l.leads_next.sound hl
  obtain ⟨ht, hr, hd⟩ := l.next_eq_step
  rw [← hl.outlook_eq] at ht hr hd
  refine ⟨⟨ht, hrest.outlook_eq.trans hr, hd⟩, ?_⟩
  intro options' us' m ho htext hspot calls
  have hm : m.cursor.Sound := sound_uses options' us'
  have hoffset : m.cursor.place.offset = l.cursor.place.offset := congrArg Spot.offset hspot
  have ha : Alike l m := by
    refine ⟨ho.symm, ?_⟩
    rw [← hl.outlook_eq, ← hm.outlook_eq, Cursor.outlook, Cursor.outlook, htext, hspot, hoffset]
  have htokens := ha.serve calls
  have hfl := (Follows.refl l).serve calls
  have hfm := (Follows.refl m).serve calls
  have hlen : ((m.serve calls).1.flatMap Answer.tokens).length =
      ((l.serve calls).1.flatMap Answer.tokens).length := by
    rw [List.flatMap_def, List.flatMap_def, htokens]
  obtain ⟨-, found, hfoundl, hfoundm⟩ :=
    ha.after ((l.serve calls).1.flatMap Answer.tokens).length
  have hdl := hfl.diagnostics_eq
  have hdm := hfm.diagnostics_eq
  rw [List.nil_append, List.nil_append, hfoundl] at hdl
  rw [List.nil_append, List.nil_append, hlen, hfoundm] at hdm
  exact ⟨htokens.symm, found, by simpa using hdl, by simpa using hdm⟩

end Lexer

end Abnf
