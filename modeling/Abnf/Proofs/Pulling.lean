import Abnf.Proofs.Reading
import Abnf.Proofs.Tiling

/-! Tokens pulled one after another. Up to the end of input they are the tokens of the text, and
from there on the end of input comes again and again, in the same place and without a report. -/

namespace Abnf.Lexer

/-- The lexer from which `n` tokens were pulled. -/
def after (l : Lexer) : Nat → Lexer
  | 0 => l
  | n + 1 => (l.after n).next.lexer

def tokenAt (l : Lexer) (n : Nat) : Token := (l.after n).next.token

def firstTokens (l : Lexer) (n : Nat) : List Token := (List.range n).map l.tokenAt

theorem after_next (l : Lexer) (n : Nat) : l.next.lexer.after n = l.after (n + 1) := by
  induction n with
  | zero => rfl
  | succ n ih =>
    rw [after, ih]
    rfl

theorem tokenAt_next (l : Lexer) (n : Nat) : l.next.lexer.tokenAt n = l.tokenAt (n + 1) := by
  rw [tokenAt, after_next, tokenAt]

theorem firstTokens_succ (l : Lexer) (n : Nat) :
    l.firstTokens (n + 1) = l.next.token :: l.next.lexer.firstTokens n := by
  have hh : l.tokenAt ∘ Nat.succ = l.next.lexer.tokenAt := funext fun i => (tokenAt_next l i).symm
  rw [firstTokens, List.range_succ_eq_map, List.map_cons, List.map_map, hh]
  rfl

theorem firstTokens_add (l : Lexer) (m n : Nat) :
    l.firstTokens (m + n) = l.firstTokens m ++ (List.range n).map fun i => l.tokenAt (m + i) := by
  simp [firstTokens, List.range_add, Function.comp_def]

theorem length_firstTokens (l : Lexer) (n : Nat) : (l.firstTokens n).length = n := by
  simp [firstTokens]

theorem pull_eq_after (l : Lexer) (tokens : Array Token) (notices : Array Notice) :
    ∃ n, (pull tokens notices l).tokens = tokens ++ (l.firstTokens (n + 1)).toArray ∧
      (pull tokens notices l).lexer = l.after (n + 1) ∧
      (l.tokenAt n).isEndOfInput = true ∧ ∀ i < n, (l.tokenAt i).isEndOfInput = false := by
  fun_induction pull tokens notices l with
  | case1 tokens notices l step tokens' notices' h =>
    exact ⟨0, by simp [tokens', firstTokens, tokenAt, after, step], rfl, h, by simp⟩
  | case2 tokens notices l step tokens' notices' h ih =>
    obtain ⟨n, ht, hl, he, hi⟩ := ih
    refine ⟨n + 1, ?_, ?_, ?_, ?_⟩
    · rw [ht, firstTokens_succ l]
      simp [tokens', step]
    · rw [hl, after_next]
    · rwa [tokenAt_next] at he
    · intro i hlt
      cases i with
      | zero => exact Bool.eq_false_iff.mpr h
      | succ i =>
        have hh := hi i (by omega)
        rwa [tokenAt_next] at hh

/-- A lexer that finds the end of input leaves its cursor there. -/
theorem read_of_isEndOfInput {l : Lexer} (h : l.next.token.isEndOfInput = true) :
    Lexeme.read l.seek = .single .endOfInput "" l.seek ∧
      ∃ p : Place, p.ahead = [] ∧ l.seek.Over p ∧ l.seek.place = p := by
  have hs := l.next_isEndOfInput_iff.mp h
  obtain ⟨d, hd, -⟩ := l.seek_advancedFrom
  have ho : l.seek.Over d.place := ⟨d, rfl, hd⟩
  have hp : d.place.symbol = .endOfInput := by
    rw [ho.seen] at hs
    exact hs
  have ha : d.place.ahead = [] := by
    by_contra hne
    obtain ⟨c, rest, hc⟩ := List.exists_cons_of_ne_nil hne
    simp only [Place.symbol, hc] at hp
    split at hp <;> simp at hp
  have hplace : l.seek.place = d.place := by
    rw [ho.place]
    simp [Place.next, ha]
  exact ⟨by simp only [Lexeme.read, hs, Lead.of], d.place, ha, ho, hplace⟩

theorem ahead_of_isEndOfInput {l : Lexer} (h : l.next.token.isEndOfInput = true) :
    l.next.lexer.cursor.place.ahead = [] := by
  obtain ⟨hr, p, ha, -, hp⟩ := read_of_isEndOfInput h
  simp [next, hr, Lexeme.single, hp, ha]

/-- The end of input is where the lexer stays. -/
theorem next_of_isEndOfInput {l : Lexer} (h : l.next.token.isEndOfInput = true) :
    l.next.lexer.next.token = l.next.token ∧ l.next.lexer.diagnostics = l.diagnostics := by
  have hs := l.next_isEndOfInput_iff.mp h
  obtain ⟨hr, p, -, ho, hplace⟩ := read_of_isEndOfInput h
  have hc : l.next.lexer.cursor = l.seek := by simp [next, hr, Lexeme.single]
  -- looked at again, the end of input is in the same place, and no blank is skipped for it
  have hseen : l.seek.next.seen = l.seek.seen := by rw [Cursor.seen_next, hplace, ho.seen]
  have hseek : l.next.lexer.seek = l.seek.next := by
    rw [seek, hc, Cursor.skipBlanks, hseen, hs]
    simp [Symbol.isBlank]
  have hr' : Lexeme.read l.seek.next = .single .endOfInput "" l.seek.next := by
    simp only [Lexeme.read, hseen, hs, Lead.of]
  constructor
  · rw [next, hseek, hr', hseen]
    simp [next, hr, Lexeme.single]
  · simp [next, hr, Lexeme.single]

section

variable {l : Lexer} {n : Nat}

theorem tokenAt_add_of_isEndOfInput (h : (l.tokenAt n).isEndOfInput = true) (i : Nat) :
    l.tokenAt (n + i) = l.tokenAt n := by
  induction i with
  | zero => rfl
  | succ i ih =>
    have he : (l.after (n + i)).next.token.isEndOfInput = true := by
      change (l.tokenAt (n + i)).isEndOfInput = true
      rwa [ih]
    exact (next_of_isEndOfInput he).1.trans ih

theorem diagnostics_after_of_isEndOfInput (h : (l.tokenAt n).isEndOfInput = true) (i : Nat) :
    (l.after (n + i)).diagnostics = (l.after n).diagnostics := by
  induction i with
  | zero => rfl
  | succ i ih =>
    have he : (l.after (n + i)).next.token.isEndOfInput = true := by
      change (l.tokenAt (n + i)).isEndOfInput = true
      rwa [tokenAt_add_of_isEndOfInput h]
    exact (next_of_isEndOfInput he).2.trans ih

theorem firstTokens_prefix (h : (l.tokenAt n).isEndOfInput = true) (m : Nat) :
    l.firstTokens m <+: l.firstTokens (n + 1) ++ List.replicate m (l.tokenAt n) := by
  have hlast : ∀ i, l.tokenAt (n + 1 + i) = l.tokenAt n := by
    intro i
    rw [Nat.add_assoc]
    exact tokenAt_add_of_isEndOfInput h (1 + i)
  have hh : l.firstTokens (n + 1 + m) =
      l.firstTokens (n + 1) ++ List.replicate m (l.tokenAt n) := by
    rw [firstTokens_add]
    simp [hlast, List.map_const']
  rw [← hh, Nat.add_comm, firstTokens_add]
  exact List.prefix_append _ _

end

/-- A text's tokens are what is pulled up to the end of input, whatever the lexer keeps or logs. -/
theorem exists_tokens_eq_firstTokens (options : Options) (text : String) :
    ∃ n, (tokens text).toList = (ofText options text).firstTokens (n + 1) ∧
      (ofText options text).drain.lexer = (ofText options text).after (n + 1) ∧
      ((ofText options text).tokenAt n).isEndOfInput = true ∧
      ∀ i < n, ((ofText options text).tokenAt i).isEndOfInput = false := by
  obtain ⟨tiles, rest, h⟩ := exists_tiling text.toList
  obtain ⟨n, ht, hl, he, hi⟩ := pull_eq_after (ofText options text) #[] #[]
  refine ⟨n, ?_, hl, he, hi⟩
  have hd : (ofText options text).drain.tokens = tokens text :=
    (drain_of_tiling h options).1.trans (tokens_of_tiling h).symm
  rw [← hd, drain, ht]
  simp

end Abnf.Lexer
