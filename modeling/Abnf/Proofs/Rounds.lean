import Abnf.Proofs.Peeking

/-! How long a lexer works. Its loops end, a token takes at least one character with it unless it is
the end of input, and so a text has no more tokens than characters and one for its end. -/

namespace Abnf

namespace Cursor

/-- Advancing as long as the current symbol is a wanted one, `c` goes `n` rounds. -/
def EndsAfter (wanted : Symbol → Bool) (c : Cursor) (n : Nat) : Prop :=
  (∀ i < n, wanted (c.advance i).seen.symbol = true) ∧ wanted (c.advance n).seen.symbol = false

variable {wanted : Symbol → Bool} {c : Cursor} {n : Nat}

theorem endsAfter_zero (h : wanted c.seen.symbol = false) : c.EndsAfter wanted 0 :=
  ⟨by simp, h⟩

theorem EndsAfter.succ (h : c.next.EndsAfter wanted n) (hc : wanted c.seen.symbol = true) :
    c.EndsAfter wanted (n + 1) := by
  refine ⟨?_, h.2⟩
  intro i hi
  cases i with
  | zero => exact hc
  | succ i => exact h.1 i (by omega)

theorem EndsAfter.length_le (h : c.EndsAfter wanted n) (hend : wanted .endOfInput = false) :
    n ≤ c.place.ahead.length + 1 := by
  suffices hb : n ≤ c.budget by
    unfold budget at hb
    split at hb <;> omega
  induction n generalizing c with
  | zero => exact Nat.zero_le _
  | succ n ih =>
    have hc : c.seen.symbol ≠ .endOfInput := by
      intro he
      have hw := h.1 0 (by omega)
      rw [advance, he, hend] at hw
      exact Bool.false_ne_true hw
    have hn : c.next.EndsAfter wanted n := ⟨fun i hi => h.1 (i + 1) (by omega), h.2⟩
    have hlt := budget_next_lt hc
    have hle := ih hn
    omega

theorem exists_skipBlanks_eq_advance (c : Cursor) :
    ∃ n, c.EndsAfter Symbol.isBlank n ∧ c.skipBlanks = c.advance n := by
  fun_induction Cursor.skipBlanks c with
  | case1 c hc ih =>
    obtain ⟨n, hn, he⟩ := ih
    exact ⟨n + 1, hn.succ hc, he⟩
  | case2 c hc => exact ⟨0, endsAfter_zero (Bool.eq_false_iff.mpr hc), rfl⟩

theorem exists_collect_eq_advance (accept : Char → Bool) (taken : List Char) (c : Cursor) :
    ∃ n, c.EndsAfter (Symbol.isOf accept) n ∧ (c.collect accept taken).2 = c.advance n := by
  fun_induction Cursor.collect accept taken c with
  | case1 taken c x hx hok ih =>
    obtain ⟨n, hn, he⟩ := ih
    exact ⟨n + 1, hn.succ (by simp [hx, Symbol.isOf, Symbol.char?, hok]), he⟩
  | case2 taken c x hx hno =>
    exact ⟨0, endsAfter_zero (by simpa [hx, Symbol.isOf, Symbol.char?] using hno), rfl⟩
  | case3 taken c hn =>
    refine ⟨0, endsAfter_zero ?_, rfl⟩
    cases hc : c.seen.symbol with
    | char x => exact absurd hc (hn x)
    | endOfLine | endOfInput => rfl

end Cursor

namespace Lexer

/-- No stream gives more tokens than this from now on. -/
def Stream.budget (s : Stream) : Nat :=
  if s.done then 0 else s.lexer.cursor.place.ahead.length + 1

theorem Stream.budget_next_lt {s : Stream} (h : ¬ s.done = true) :
    s.next.2.budget < s.budget := by
  have hs : s.budget = s.lexer.cursor.place.ahead.length + 1 := by simp [budget, h]
  rw [hs, next_of_not_done h, budget]
  by_cases he : s.lexer.next.token.isEndOfInput = true
  · simp [he]
  · have hlt := next_length_ahead_lt he
    simp only [he, Bool.false_eq_true, if_false]
    omega

theorem Stream.length_reduceOption_pulls_le (s : Stream) (n : Nat) :
    (s.pulls n).1.reduceOption.length ≤ s.budget := by
  induction n generalizing s with
  | zero => simp [pulls]
  | succ n ih =>
    by_cases hd : s.done = true
    · simpa [pulls, next_of_done hd] using ih s
    · have hle := ih s.next.2
      have hlt := budget_next_lt hd
      have hs : s.next.1 = some s.lexer.next := by rw [next_of_not_done hd]
      simp only [pulls, hs, Option.map_some, List.reduceOption_cons_of_some, List.length_cons]
      omega

theorem Stream.done_pulls {s : Stream} {n : Nat} (h : s.budget ≤ n) : (s.pulls n).2.done = true := by
  induction n generalizing s with
  | zero =>
    by_contra hd
    have hs : s.budget = s.lexer.cursor.place.ahead.length + 1 := if_neg hd
    omega
  | succ n ih =>
    by_cases hd : s.done = true
    · have hle : s.budget ≤ n := by simp [budget, hd]
      simpa [pulls, next_of_done hd] using ih hle
    · have hlt := budget_next_lt hd
      exact ih (s := s.next.2) (by omega)

theorem size_tokens_pull_le (tokens : Array Token) (notices : Array Notice) (l : Lexer) :
    (pull tokens notices l).tokens.size ≤ tokens.size + l.cursor.place.ahead.length + 1 := by
  fun_induction pull tokens notices l with
  | case1 tokens notices l step tokens' notices' h => simp [tokens']
  | case2 tokens notices l step tokens' notices' h ih =>
    have hlt : step.lexer.cursor.place.ahead.length < l.cursor.place.ahead.length :=
      next_length_ahead_lt h
    have hsize : tokens'.size = tokens.size + 1 := Array.size_push _
    omega

/-- However a lexer was used before: the loops that read its next token end, and the token leaves the
cursor further on in the text, or at its end if it is the end of input. So a text of `n` characters
has at most `n + 1` tokens, and a stream ends with them. -/
theorem next_makes_progress (options : Options) (us : List Use) :
    let l := (new options).uses us
    let offset := l.next.lexer.cursor.place.offset
    (∃ n ≤ l.cursor.next.place.ahead.length + 1,
      l.cursor.next.EndsAfter Symbol.isBlank n ∧ l.seek = l.cursor.next.advance n) ∧
    (∀ accept : Char → Bool, ∀ c ∈ [l.seek, l.seek.next], ∃ n ≤ c.place.ahead.length + 1,
      c.EndsAfter (Symbol.isOf accept) n ∧ (c.takeWhile accept).2 = c.advance n) ∧
    l.next.lexer.cursor.text = l.cursor.text ∧
    (l.next.token.isEndOfInput = false → l.cursor.place.offset < offset) ∧
    (l.next.token.isEndOfInput = true → offset = l.cursor.text.length) ∧
    ∀ source : String,
      (tokens source).size ≤ source.length + 1 ∧
      ∀ n, let pulled := Stream.pulls ⟨l.load source, false⟩ n
        pulled.1.reduceOption.length ≤ source.length + 1 ∧
          (source.length + 1 ≤ n → pulled.2.done = true) := by
  intro l offset
  have hl : l.cursor.Sound := sound_uses options us
  have hnext : l.next.lexer.cursor.Sound := l.leads_next.sound hl
  have htext : l.next.lexer.cursor.text = l.cursor.text := l.leads_next.text_eq
  have hlen := hl.offset_add_length
  have hlen' := hnext.offset_add_length
  rw [htext] at hlen'
  refine ⟨?_, ?_, htext, ?_, ?_, ?_⟩
  · obtain ⟨n, hn, he⟩ := l.cursor.next.exists_skipBlanks_eq_advance
    exact ⟨n, hn.length_le rfl, hn, he⟩
  · intro accept c _
    obtain ⟨n, hn, he⟩ := c.exists_collect_eq_advance accept []
    exact ⟨n, hn.length_le rfl, hn, he⟩
  · intro hk
    have hlt := next_length_ahead_lt (l := l) (by simp [hk])
    omega
  · intro hk
    have ha := ahead_of_isEndOfInput hk
    rw [ha, List.length_nil, Nat.add_zero] at hlen'
    exact hlen'
  · intro source
    have hahead : (load l source).cursor.place.ahead.length = source.length :=
      String.length_toList
    have hbudget : Stream.budget ⟨l.load source, false⟩ = source.length + 1 := by
      simp [Stream.budget, hahead]
    refine ⟨?_, ?_⟩
    · have hh := size_tokens_pull_le #[] #[] (ofText {} source)
      have hs : (ofText {} source).cursor.place.ahead.length = source.length :=
        String.length_toList
      rw [hs, Array.size_empty, Nat.zero_add] at hh
      exact hh
    · intro n pulled
      rw [← hbudget]
      exact ⟨Stream.length_reduceOption_pulls_le _ n, Stream.done_pulls⟩

end Lexer

end Abnf
