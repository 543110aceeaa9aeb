import Abnf.Lexer.Basic

/-! Every token but the end of input leaves less text ahead. The cursor may step back at the end of
a lexeme, but only over the symbol that ended it, so what is given back was ahead all along. -/

namespace Abnf

namespace Cursor

/-- `c` has just advanced from a place with at most `n` characters ahead. -/
def AdvancedFrom (n : Nat) (c : Cursor) : Prop :=
  ∃ d : Cursor, c = d.next ∧ d.place.ahead.length ≤ n

theorem advancedFrom_next (c : Cursor) : c.next.AdvancedFrom c.place.ahead.length :=
  ⟨c, rfl, Nat.le_refl _⟩

theorem AdvancedFrom.next {n : Nat} {c : Cursor} (h : c.AdvancedFrom n) : c.next.AdvancedFrom n := by
  obtain ⟨d, rfl, hle⟩ := h
  exact ⟨d.next, rfl, Nat.le_trans d.place.length_ahead_next_le hle⟩

theorem AdvancedFrom.length_ahead_le {n : Nat} {c : Cursor} (h : c.AdvancedFrom n) :
    c.place.ahead.length ≤ n := by
  obtain ⟨d, rfl, hle⟩ := h
  exact Nat.le_trans d.place.length_ahead_next_le hle

theorem AdvancedFrom.length_ahead_lt {n : Nat} {c : Cursor} (h : c.AdvancedFrom n)
    (hs : c.seen.symbol ≠ .endOfInput) : c.place.ahead.length < n := by
  obtain ⟨d, rfl, hle⟩ := h
  exact Nat.lt_of_lt_of_le (Place.length_ahead_next_lt hs) hle

theorem AdvancedFrom.skipBlanks {n : Nat} {c : Cursor} (h : c.AdvancedFrom n) :
    c.skipBlanks.AdvancedFrom n := by
  fun_induction Cursor.skipBlanks c with
  | case1 c _ ih => exact ih h.next
  | case2 c _ => exact h

theorem AdvancedFrom.collect {n : Nat} {accept : Char → Bool} {taken : List Char} {c : Cursor}
    (h : c.AdvancedFrom n) : (c.collect accept taken).2.AdvancedFrom n := by
  fun_induction Cursor.collect accept taken c with
  | case1 _ c _ _ _ ih => exact ih h.next
  | case2 | case3 => exact h

theorem AdvancedFrom.takeWhile {n : Nat} {accept : Char → Bool} {c : Cursor}
    (h : c.AdvancedFrom n) : (c.takeWhile accept).2.AdvancedFrom n := h.collect

end Cursor

namespace Lexer

theorem seek_advancedFrom (l : Lexer) : l.seek.AdvancedFrom l.cursor.place.ahead.length :=
  l.cursor.advancedFrom_next.skipBlanks

namespace Lexeme

theorem giveBack_length_ahead_le {n : Nat} {c : Cursor} (h : c.AdvancedFrom n) :
    (giveBack c).1.place.ahead.length ≤ n := by
  obtain ⟨d, rfl, hle⟩ := h
  simpa [giveBack, Cursor.rewind_next] using hle

theorem run_length_ahead_le {n : Nat} {kind : Kind} {accept : Char → Bool} {c : Cursor}
    (h : c.AdvancedFrom n) : (run kind accept c).cursor.place.ahead.length ≤ n :=
  giveBack_length_ahead_le h.takeWhile

theorem delimited_length_ahead_le {kind : Kind} {close : Char} {problem : Problem} {c : Cursor} :
    (delimited kind close problem c).cursor.place.ahead.length ≤ c.place.ahead.length := by
  have h : (c.next.takeWhile (· != close)).2.AdvancedFrom c.place.ahead.length :=
    c.advancedFrom_next.takeWhile
  unfold delimited
  dsimp only
  split
  · exact h.length_ahead_le
  · exact giveBack_length_ahead_le h

/-- A run whose first character is accepted is read from behind that character. -/
theorem takeWhile_advancedFrom {accept : Char → Bool} {c : Cursor} {x : Char}
    (hx : c.seen.symbol = .char x) (ha : accept x = true) :
    (c.takeWhile accept).2.AdvancedFrom c.place.ahead.length := by
  unfold Cursor.takeWhile
  rw [Cursor.collect]
  split
  · next y hy =>
    have : y = x := by simpa [hx] using hy.symm
    subst this
    rw [if_pos ha]
    exact c.advancedFrom_next.collect
  · next hn => exact absurd hx (hn x)

theorem lead_bareRuleName {s : Symbol} (h : Lead.of s = .bareRuleName) :
    ∃ x, s = .char x ∧ Text.isLetter x = true := by
  cases s with
  | char x => exact ⟨x, rfl, by grind [Lead.of]⟩
  | endOfLine | endOfInput => simp [Lead.of] at h

theorem read_length_ahead_le (c : Cursor) :
    (read c).cursor.place.ahead.length ≤ c.place.ahead.length := by
  unfold read
  split
  case h_2 => exact run_length_ahead_le c.advancedFrom_next
  case h_3 => exact run_length_ahead_le c.advancedFrom_next
  case h_4 => exact delimited_length_ahead_le
  case h_5 h =>
    obtain ⟨x, hx, ha⟩ := lead_bareRuleName h
    exact giveBack_length_ahead_le (takeWhile_advancedFrom hx ha)
  case h_6 => exact delimited_length_ahead_le
  all_goals exact Nat.le_refl _

theorem lead_endOfInput {s : Symbol} : Lead.of s = .endOfInput ↔ s = .endOfInput := by
  cases s with
  | char x => grind [Lead.of]
  | endOfLine | endOfInput => simp [Lead.of]

theorem kind_read_eq_endOfInput {c : Cursor} :
    (read c).kind = .endOfInput ↔ c.seen.symbol = .endOfInput := by
  rw [← lead_endOfInput]
  unfold read
  split <;> simp_all [single, run, delimited]
  all_goals split <;> simp

end Lexeme

theorem next_isEndOfInput_iff (l : Lexer) :
    l.next.token.isEndOfInput = true ↔ l.seek.seen.symbol = .endOfInput := by
  simp [next, Token.isEndOfInput, Lexeme.kind_read_eq_endOfInput]

theorem next_length_ahead_lt {l : Lexer} (h : ¬ l.next.token.isEndOfInput = true) :
    l.next.lexer.cursor.place.ahead.length < l.cursor.place.ahead.length := by
  rw [next_isEndOfInput_iff] at h
  exact Nat.lt_of_le_of_lt (Lexeme.read_length_ahead_le _) (l.seek_advancedFrom.length_ahead_lt h)

end Lexer

end Abnf
