import Abnf.Proofs.Moves
import Abnf.Proofs.Schedule
import Mathlib.Logic.Relation

/-! The states of a lexer that was used in any way. All that it does with its cursor is to advance it
and to take it back, so the cursor stands rightly in the text given last. -/

namespace Abnf

namespace Cursor

/-- One advance, or one taken back. -/
def Step (c d : Cursor) : Prop := d = c.next ∨ c.rewind = .ok d

abbrev Leads : Cursor → Cursor → Prop := Relation.ReflTransGen Step

variable {c d : Cursor}

theorem Step.text_eq (h : c.Step d) : d.text = c.text := by
  rcases h with rfl | h
  · rfl
  · obtain ⟨p, s, -, rfl⟩ := rewind_eq_ok h
    rfl

theorem Step.sound (h : c.Step d) (hc : c.Sound) : d.Sound := by
  rcases h with rfl | h
  · exact hc.next
  · exact hc.rewind h

namespace Leads

theorem text_eq (h : c.Leads d) : d.text = c.text := by
  induction h with
  | refl => rfl
  | tail _ hs ih => exact hs.text_eq.trans ih

theorem sound (h : c.Leads d) (hc : c.Sound) : d.Sound := by
  induction h with
  | refl => exact hc
  | tail _ hs ih => exact hs.sound ih

theorem next (h : c.Leads d) : c.Leads d.next := h.tail (.inl rfl)

theorem skipBlanks (h : c.Leads d) : c.Leads d.skipBlanks := by
  fun_induction Cursor.skipBlanks d with
  | case1 d _ ih => exact ih h.next
  | case2 d _ => exact h

theorem collect {accept : Char → Bool} {taken : List Char} (h : c.Leads d) :
    c.Leads (d.collect accept taken).2 := by
  fun_induction Cursor.collect accept taken d with
  | case1 _ d _ _ _ ih => exact ih h.next
  | case2 | case3 => exact h

theorem giveBack (h : c.Leads d) : c.Leads (Lexer.Lexeme.giveBack d).1 := by
  unfold Lexer.Lexeme.giveBack
  split
  · next e he => exact h.tail (.inr he)
  · exact h

theorem run {kind : Kind} {accept : Char → Bool} (h : c.Leads d) :
    c.Leads (Lexer.Lexeme.run kind accept d).cursor := h.collect.giveBack

theorem delimited {kind : Kind} {close : Char} {problem : Problem} (h : c.Leads d) :
    c.Leads (Lexer.Lexeme.delimited kind close problem d).cursor := by
  have hstop : c.Leads (d.next.takeWhile (· != close)).2 := h.next.collect
  unfold Lexer.Lexeme.delimited
  dsimp only
  split
  · exact hstop
  · exact hstop.giveBack

theorem read (h : c.Leads d) : c.Leads (Lexer.Lexeme.read d).cursor := by
  unfold Lexer.Lexeme.read
  split
  case h_2 => exact h.next.run
  case h_3 => exact h.next.run
  case h_4 => exact h.delimited
  case h_5 => exact h.run
  case h_6 => exact h.delimited
  all_goals exact h

end Leads

namespace Sound

theorem ahead_eq (h : c.Sound) : c.place.ahead = c.text.drop c.place.offset := by
  obtain ⟨before, ahead, ht, hp, -, -⟩ := h.here
  rw [hp, ht]
  exact List.drop_left.symm

theorem offset_add_length (h : c.Sound) :
    c.place.offset + c.place.ahead.length = c.text.length := by
  obtain ⟨before, ahead, ht, hp, -, -⟩ := h.here
  rw [hp, ht]
  exact List.length_append.symm

end Sound

end Cursor

namespace Lexer

/-- What may be done with a lexer. -/
inductive Use where
  | load (text : String)
  | call (call : Call)
deriving DecidableEq, Repr

def use (l : Lexer) : Use → Lexer
  | .load text => l.load text
  | .call call => (l.answer call).2

def uses (l : Lexer) (us : List Use) : Lexer := us.foldl use l

variable {l : Lexer}

theorem leads_next (l : Lexer) : l.cursor.Leads l.next.lexer.cursor := by
  have h : l.cursor.Leads l.cursor := .refl
  exact h.next.skipBlanks.read

theorem leads_pulls (s : Stream) (n : Nat) : s.lexer.cursor.Leads (s.pulls n).2.lexer.cursor := by
  induction n generalizing s with
  | zero => exact .refl
  | succ n ih =>
    by_cases hd : s.done = true
    · simpa [Stream.pulls, Stream.next_of_done hd] using ih s
    · have hs := Stream.next_of_not_done hd
      have hfirst : s.lexer.cursor.Leads s.next.2.lexer.cursor := by
        rw [hs]
        exact s.lexer.leads_next
      exact hfirst.trans (ih s.next.2)

theorem leads_answer (l : Lexer) (call : Call) : l.cursor.Leads (l.answer call).2.cursor := by
  cases call with
  | next => exact l.leads_next
  | stream n => exact leads_pulls ⟨l, false⟩ n
  | diagnostics | takeDiagnostics => exact .refl

theorem sound_uses (options : Options) (us : List Use) :
    ((new options).uses us).cursor.Sound := by
  induction us using List.reverseRecOn with
  | nil => exact Cursor.sound_load ""
  | append_singleton us u ih =>
    rw [uses, List.foldl_append]
    cases u with
    | load text => exact Cursor.sound_load text
    | call call => exact (leads_answer _ call).sound ih

end Lexer

end Abnf
