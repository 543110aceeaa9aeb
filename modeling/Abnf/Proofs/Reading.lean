import Abnf.Lexer.Basic
import Abnf.Proofs.Spelling

/-! What the lexer reads where a spelling stands. A cursor passes one symbol too many when it reads
a run, and gives it back; seen from the places between the symbols it never went there. -/

namespace Abnf

/-- No run of accepted characters reaches into `rest`. -/
def Stops (accept : Char → Bool) (rest : List Char) : Prop :=
  ∀ c ∈ rest.head?, Text.isLineEnd c = false → accept c = false

theorem Stops.of_symbol {accept : Char → Bool} {before rest : List Char} {x : Char}
    (h : Stops accept rest) (hx : (Place.between before rest).symbol = .char x) :
    accept x = false := by
  cases rest with
  | nil => simp [Place.symbol_between_nil] at hx
  | cons y rest =>
    rw [Place.symbol_between_cons] at hx
    cases hy : Text.isLineEnd y with
    | true => simp [hy] at hx
    | false =>
      obtain rfl : y = x := by simpa [hy] using hx
      exact h y rfl hy

theorem AtLineEnd.stops {rest : List Char} (h : AtLineEnd rest) (accept : Char → Bool) :
    Stops accept rest := by
  intro c hc hl
  simp [h c hc] at hl

theorem AtLineEnd.symbol_ne_char {before rest : List Char} (h : AtLineEnd rest) (c : Char) :
    (Place.between before rest).symbol ≠ .char c := by
  intro hc
  simpa using (h.stops fun _ => true).of_symbol hc

namespace Cursor

/-- The current symbol of `c` is the one at `p`, and `c` has just advanced over it. -/
def Over (c : Cursor) (p : Place) : Prop := ∃ d : Cursor, d.place = p ∧ c = d.next

theorem over_next (c : Cursor) : c.next.Over c.place := ⟨c, rfl, rfl⟩

namespace Over

variable {c : Cursor} {before rest : List Char}

theorem seen {p : Place} (h : c.Over p) : c.seen = p.locate p.symbol := by
  obtain ⟨d, rfl, rfl⟩ := h
  exact d.seen_next

theorem place {p : Place} (h : c.Over p) : c.place = p.next := by
  obtain ⟨d, rfl, rfl⟩ := h
  exact d.place_next

theorem next {p : Place} (h : c.Over p) : c.next.Over p.next :=
  ⟨c, h.place, rfl⟩

theorem giveBack {p : Place} (h : c.Over p) : (Lexer.Lexeme.giveBack c).1.place = p := by
  obtain ⟨d, rfl, rfl⟩ := h
  simp [Lexer.Lexeme.giveBack, rewind_next]

theorem symbol_cons {x : Char} (h : c.Over (.between before (x :: rest)))
    (hx : Text.isLineEnd x = false) : c.seen.symbol = .char x := by
  rw [h.seen]
  simp [Place.locate, Place.symbol_between_cons, hx]

theorem next_cons {x : Char} (h : c.Over (.between before (x :: rest)))
    (hx : Text.isLineEnd x = false) : c.next.Over (.between (before ++ [x]) rest) := by
  have hh := h.next
  rwa [Place.next_between_inline before rest hx] at hh

theorem place_cons {x : Char} (h : c.Over (.between before (x :: rest)))
    (hx : Text.isLineEnd x = false) : c.place = .between (before ++ [x]) rest := by
  rw [h.place, Place.next_between_inline before rest hx]

theorem skipBlanks {gap : List Char} (h : c.Over (.between before (gap ++ rest)))
    (hg : ∀ x ∈ gap, Text.isSpacing x = true) (hs : Stops Text.isBlank rest) :
    c.skipBlanks.Over (.between (before ++ gap) rest) := by
  induction gap generalizing before c with
  | nil =>
    have hb : c.seen.symbol.isBlank = false := by
      rw [h.seen]
      cases hx : (Place.between before rest).symbol with
      | char x => simpa [Place.locate, hx, Symbol.isBlank] using hs.of_symbol hx
      | endOfLine | endOfInput => simp [Place.locate, hx, Symbol.isBlank]
    rw [Cursor.skipBlanks, hb]
    simpa using h
  | cons x gap ih =>
    have hx := hg x (by simp)
    simp only [Text.isSpacing, Bool.and_eq_true, Bool.not_eq_true'] at hx
    have hb : c.seen.symbol.isBlank = true := by
      rw [h.symbol_cons hx.2]
      exact hx.1
    rw [Cursor.skipBlanks, hb, if_pos rfl]
    simpa using ih (h.next_cons hx.2) (fun y hy => hg y (by simp [hy]))

theorem collect {accept : Char → Bool} {body : List Char} (taken : List Char)
    (h : c.Over (.between before (body ++ rest)))
    (hb : ∀ x ∈ body, Text.isLineEnd x = false ∧ accept x = true) (hs : Stops accept rest) :
    (c.collect accept taken).1 = taken.reverse ++ body ∧
      (c.collect accept taken).2.Over (.between (before ++ body) rest) := by
  induction body generalizing before c taken with
  | nil =>
    rw [Cursor.collect]
    split
    · next x hx =>
      have ha : accept x = false := by
        rw [h.seen] at hx
        exact hs.of_symbol hx
      simpa [ha] using h
    · simpa using h
  | cons x body ih =>
    have hx := hb x (by simp)
    have hh := ih (x :: taken) (h.next_cons hx.1) (fun y hy => hb y (by simp [hy]))
    rw [Cursor.collect]
    split
    · next y hy =>
      obtain rfl : x = y := by simpa [h.symbol_cons hx.1] using hy
      simpa [hx.2] using hh
    · next hn => exact absurd (h.symbol_cons hx.1) (hn x)

theorem takeWhile (accept : Char → Bool) {body : List Char}
    (h : c.Over (.between before (body ++ rest)))
    (hb : ∀ x ∈ body, Text.isLineEnd x = false ∧ accept x = true) (hs : Stops accept rest) :
    (c.takeWhile accept).1 = body ∧
      (c.takeWhile accept).2.Over (.between (before ++ body) rest) :=
  h.collect [] hb hs

end Over

end Cursor

/-- What the first symbol of a lexeme announces. -/
def Spelling.lead : Spelling → Lexer.Lead
  | lineEnd _ => .endOfLine
  | comment _ => .comment
  | terminalValue _ => .terminalValue
  | delimited .quotes _ _ => .stringLiteral
  | delimited .angles _ _ => .angleRuleName
  | ruleName _ => .bareRuleName
  | alternative => .alternative
  | equals => .equals
  | unknown c => .unknown c

namespace Lexer.Lexeme

variable {c : Cursor} {before body rest : List Char}

theorem run_of_stops (kind : Kind) {accept : Char → Bool}
    (h : c.Over (.between before (body ++ rest)))
    (hb : ∀ x ∈ body, Text.isLineEnd x = false ∧ accept x = true) (hs : Stops accept rest) :
    (run kind accept c).value = String.ofList body ∧
      (run kind accept c).cursor.place = .between (before ++ body) rest := by
  obtain ⟨hv, hc⟩ := h.takeWhile accept hb hs
  exact ⟨congrArg String.ofList hv, hc.giveBack⟩

section

variable {kind : Kind} {close : Char} {problem : Problem} {x : Char}

theorem delimited_of_close (h : c.Over (.between before (x :: (body ++ close :: rest))))
    (hx : Text.isLineEnd x = false) (hclose : Text.isLineEnd close = false)
    (hb : ∀ y ∈ body, y ≠ close ∧ Text.isLineEnd y = false) :
    (delimited kind close problem c).kind = kind ∧
      (delimited kind close problem c).value = String.ofList body ∧
      (delimited kind close problem c).problem = none ∧
      (delimited kind close problem c).cursor.place =
        .between (before ++ x :: (body ++ [close])) rest := by
  obtain ⟨hv, hc⟩ := (h.next_cons hx).takeWhile (· != close)
    (fun y hy => ⟨(hb y hy).2, by simpa using (hb y hy).1⟩) (by simp [Stops])
  have hs : (c.next.takeWhile (· != close)).2.seen.symbol.is close = true := by
    simp [hc.symbol_cons hclose, Symbol.is]
  have hp := hc.place_cons hclose
  unfold delimited
  dsimp only
  rw [if_pos hs]
  exact ⟨rfl, congrArg String.ofList hv, rfl, by simpa [single] using hp⟩

theorem delimited_of_atLineEnd (h : c.Over (.between before (x :: (body ++ rest))))
    (hx : Text.isLineEnd x = false) (hr : AtLineEnd rest)
    (hb : ∀ y ∈ body, y ≠ close ∧ Text.isLineEnd y = false) :
    (delimited kind close problem c).kind = kind ∧
      (delimited kind close problem c).value = String.ofList body ∧
      (delimited kind close problem c).problem = some problem ∧
      (delimited kind close problem c).cursor.place = .between (before ++ x :: body) rest := by
  obtain ⟨hv, hc⟩ := (h.next_cons hx).takeWhile (· != close)
    (fun y hy => ⟨(hb y hy).2, by simpa using (hb y hy).1⟩) (hr.stops _)
  have hs : ¬ (c.next.takeWhile (· != close)).2.seen.symbol.is close = true := by
    rw [hc.seen]
    simpa [Place.locate, Symbol.is] using hr.symbol_ne_char close
  have hp := hc.giveBack
  unfold delimited
  dsimp only
  rw [if_neg hs]
  exact ⟨rfl, congrArg String.ofList hv, rfl, by simpa using hp⟩

end

theorem lead_of_letter {x : Char} (hx : Text.isLetter x = true) :
    Lead.of (.char x) = .bareRuleName := by
  have hs : x ≠ ';' ∧ x ≠ '%' ∧ x ≠ '"' := by
    refine ⟨?_, ?_, ?_⟩ <;> rintro rfl <;> simp [Text.isLetter] at hx
  simp [Lead.of, hs, hx]

theorem lead_of_unrecognized {x : Char} (hx : Text.isUnrecognized x = true) :
    Lead.of (.char x) = .unknown x := by
  simp only [Text.isUnrecognized, Bool.and_eq_true, Bool.not_eq_true', List.contains_eq_mem,
    decide_eq_false_iff_not, List.mem_cons, List.not_mem_nil, or_false, not_or] at hx
  simp [Lead.of, hx]

theorem lead_of_spelling {f : Spelling} (h : c.Over (.between before (f.text ++ rest)))
    (hv : f.Valid) : Lead.of c.seen.symbol = f.lead := by
  cases f with
  | lineEnd e =>
    have hs : c.seen.symbol = .endOfLine := by
      rw [h.seen]
      exact Place.symbol_between_lineEnd before rest e
    rw [hs]
    rfl
  | delimited d =>
    have ho : Text.isLineEnd d.opening = false := by cases d <;> rfl
    rw [h.symbol_cons ho]
    cases d <;> rfl
  | ruleName letters =>
    obtain ⟨x, more, rfl⟩ := List.exists_cons_of_ne_nil hv.1
    have hx : Text.isLetter x = true := hv.2 x (by simp)
    have hline : Text.isLineEnd x = false :=
      Text.isLineEnd_of_isTerminalBody (Text.isTerminalBody_of_isLetter hx)
    rw [h.symbol_cons hline]
    exact lead_of_letter hx
  | unknown x =>
    rw [h.symbol_cons (Text.isLineEnd_of_isUnrecognized hv)]
    exact lead_of_unrecognized hv
  | comment | terminalValue | alternative | equals =>
    rw [h.symbol_cons rfl]
    rfl

theorem read_of_spelling {f : Spelling} (h : c.Over (.between before (f.text ++ rest)))
    (hv : f.Valid) (he : f.EndsAt rest) (hb : IsBoundary before (f.text ++ rest)) :
    (read c).kind = f.kind ∧ (read c).value = f.value ∧ (read c).problem = f.problem? ∧
      (read c).cursor.place = .between (before ++ f.text) rest := by
  have hl := lead_of_spelling h hv
  cases f with
  | lineEnd e =>
    have hp : c.place = .between (before ++ e.text) rest := by
      rw [h.place]
      exact Place.next_between_lineEnd hb (he.append_left e.text_ne_nil before)
    rw [read, hl]
    exact ⟨rfl, rfl, rfl, hp⟩
  | comment body =>
    have hh := run_of_stops .comment (h.next_cons rfl) (fun x hx => ⟨hv x hx, rfl⟩)
      (he.stops fun _ => true)
    rw [read, hl]
    exact ⟨rfl, hh.1, rfl, by simpa [Spelling.lead, Spelling.text] using hh.2⟩
  | terminalValue body =>
    have hh := run_of_stops .terminalValue (h.next_cons rfl)
      (fun x hx => ⟨Text.isLineEnd_of_isTerminalBody (hv x hx), hv x hx⟩)
      (fun x hx _ => he x hx)
    rw [read, hl]
    exact ⟨rfl, hh.1, rfl, by simpa [Spelling.lead, Spelling.text] using hh.2⟩
  | delimited d body closed =>
    have hr : read c = delimited d.kind d.closing d.unterminated c := by
      rw [read, hl]
      cases d <;> rfl
    have ho : Text.isLineEnd d.opening = false := by cases d <;> rfl
    have hcl : Text.isLineEnd d.closing = false := by cases d <;> rfl
    rw [hr]
    cases closed with
    | true =>
      have hh : c.Over (.between before (d.opening :: (body ++ d.closing :: rest))) := by
        simpa [Spelling.text] using h
      exact delimited_of_close hh ho hcl hv
    | false =>
      -- nothing but the end of the line can stop the text when the closing delimiter is missing
      have hl : AtLineEnd rest := by simpa [Spelling.EndsAt] using he
      have ht : (Spelling.delimited d body false).text = d.opening :: body := by
        simp [Spelling.text]
      rw [ht] at h ⊢
      exact delimited_of_atLineEnd h ho hl hv
  | ruleName letters =>
    have hline : ∀ x ∈ letters, Text.isLineEnd x = false := fun x hx =>
      Text.isLineEnd_of_isTerminalBody (Text.isTerminalBody_of_isLetter (hv.2 x hx))
    have hh := run_of_stops .ruleName h (fun x hx => ⟨hline x hx, hv.2 x hx⟩)
      (fun x hx _ => he x hx)
    rw [read, hl]
    exact ⟨rfl, hh.1, rfl, hh.2⟩
  | alternative | equals =>
    rw [read, hl]
    exact ⟨rfl, rfl, rfl, h.place_cons rfl⟩
  | unknown x =>
    have hp := h.place_cons (Text.isLineEnd_of_isUnrecognized hv)
    rw [read, hl]
    exact ⟨rfl, rfl, rfl, hp⟩

end Lexer.Lexeme

/-- The token of a lexeme that starts behind `before`. -/
def Token.behind (kind : Kind) (value : String) (before : List Char) : Token :=
  ⟨kind, value, lineEnds before + 1, sinceLineEnd before + 1⟩

namespace Spelling

def reportBehind (f : Spelling) (before : List Char) : List Diagnostic :=
  (f.problem?.map (⟨·, lineEnds before + 1, sinceLineEnd before + 1⟩)).toList

theorem stops_isBlank {f : Spelling} (hv : f.Valid) (rest : List Char) :
    Stops Text.isBlank (f.text ++ rest) := by
  intro c hc hl
  cases f with
  | lineEnd e =>
    have hm : c ∈ e.text := by
      rw [text, List.head?_append_of_ne_nil _ e.text_ne_nil] at hc
      exact List.mem_of_head? hc
    simp [LineEnd.isLineEnd_of_mem_text hm] at hl
  | ruleName letters =>
    obtain ⟨x, more, rfl⟩ := List.exists_cons_of_ne_nil hv.1
    obtain rfl : x = c := by simpa [text] using hc
    exact Text.isBlank_of_isTerminalBody (Text.isTerminalBody_of_isLetter (hv.2 x (by simp)))
  | unknown x =>
    obtain rfl : x = c := by simpa [text] using hc
    exact Text.isBlank_of_isUnrecognized hv
  | delimited d body closed =>
    obtain rfl : d.opening = c := by simpa [text] using hc
    cases d <;> rfl
  | comment | terminalValue | alternative | equals =>
    simp only [text, List.cons_append, List.head?_cons, Option.mem_def, Option.some.injEq] at hc
    subst hc
    rfl

end Spelling

namespace Lexer

variable {l : Lexer} {before gap rest : List Char}

theorem seek_over (hl : l.cursor.place = .between before (gap ++ rest))
    (hg : ∀ x ∈ gap, Text.isSpacing x = true) (hs : Stops Text.isBlank rest) :
    l.seek.Over (.between (before ++ gap) rest) := by
  have h := l.cursor.over_next
  rw [hl] at h
  exact h.skipBlanks hg hs

theorem next_of_spelling {f : Spelling}
    (hl : l.cursor.place = .between before (gap ++ (f.text ++ rest)))
    (hg : ∀ x ∈ gap, Text.isSpacing x = true) (hv : f.Valid) (he : f.EndsAt rest)
    (hb : IsBoundary (before ++ gap) (f.text ++ rest)) :
    l.next.token = .behind f.kind f.value (before ++ gap) ∧
      l.next.lexer.cursor.place = .between (before ++ gap ++ f.text) rest ∧
      l.next.lexer.options = l.options ∧
      l.next.lexer.diagnostics = l.diagnostics ++
        (if l.options.collectDiagnostics then f.reportBehind (before ++ gap) else []).toArray := by
  have ho := seek_over hl hg (f.stops_isBlank hv rest)
  obtain ⟨hk, hval, hp, hc⟩ := Lexeme.read_of_spelling ho hv he hb
  have hs : l.seek.seen = Place.locate (.between (before ++ gap) (f.text ++ rest)) _ := ho.seen
  refine ⟨?_, hc, rfl, ?_⟩
  · simp [next, Token.behind, hk, hval, hs, Place.locate, Place.between]
  · simp only [next, hp, hs, Place.locate, Place.between, Spelling.reportBehind]
    cases l.options.collectDiagnostics <;> cases f.problem? <;> simp

theorem next_of_spacing (hl : l.cursor.place = .between before gap)
    (hg : ∀ x ∈ gap, Text.isSpacing x = true) :
    l.next.token = .behind .endOfInput "" (before ++ gap) ∧
      l.next.lexer.cursor.place = .between (before ++ gap) [] ∧
      l.next.lexer.options = l.options ∧ l.next.lexer.diagnostics = l.diagnostics := by
  have ho : l.seek.Over (.between (before ++ gap) []) :=
    seek_over (by simpa using hl) hg (by simp [Stops])
  have hs : l.seek.seen = Place.locate (.between (before ++ gap) []) .endOfInput := ho.seen
  have hr : Lexeme.read l.seek = Lexeme.single .endOfInput "" l.seek := by
    simp only [Lexeme.read, hs, Place.locate, Lead.of]
  refine ⟨?_, ?_, rfl, ?_⟩
  · simp [next, hr, Lexeme.single, hs, Token.behind, Place.locate, Place.between]
  · simpa [next, hr, Lexeme.single, Place.next_between_nil] using ho.place
  · simp [next, hr, Lexeme.single]

end Lexer

end Abnf
