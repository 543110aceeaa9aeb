import Abnf.Proofs.Pulling
import Mathlib.Data.List.ReduceOption

/-! A lexer may be asked for its tokens and its diagnostics in any order, by itself or through
streams. Whoever asks sees one sequence of tokens and loses no diagnostic. -/

namespace Abnf.Lexer

/-- What a lexer that has a text is asked for. A stream is pulled some times and then dropped. -/
inductive Call where
  | next
  | stream (pulls : Nat)
  | diagnostics
  | takeDiagnostics
deriving DecidableEq, Repr

inductive Answer where
  | token (k : Token)
  | pulled (tokens : List (Option Token))
  | held (diagnostics : List Diagnostic)
  | taken (diagnostics : List Diagnostic)
deriving DecidableEq, Repr

namespace Answer

def tokens : Answer → List Token
  | token k => [k]
  | pulled tokens => tokens.reduceOption
  | held _ | taken _ => []

/-- The diagnostics that the lexer no longer has. -/
def handedOver : Answer → List Diagnostic
  | taken diagnostics => diagnostics
  | token _ | pulled _ | held _ => []

end Answer

def Stream.pulls (s : Stream) : Nat → List (Option Token) × Stream
  | 0 => ([], s)
  | n + 1 =>
    let more := s.next.2.pulls n
    (s.next.1.map Step.token :: more.1, more.2)

def answer (l : Lexer) : Call → Answer × Lexer
  | .next => (.token l.next.token, l.next.lexer)
  | .stream n =>
    let pulled := Stream.pulls ⟨l, false⟩ n
    (.pulled pulled.1, pulled.2.lexer)
  | .diagnostics => (.held l.diagnostics.toList, l)
  | .takeDiagnostics => (.taken l.takeDiagnostics.1.toList, l.takeDiagnostics.2)

def serve (l : Lexer) : List Call → List Answer × Lexer
  | [] => ([], l)
  | call :: calls =>
    let more := (l.answer call).2.serve calls
    ((l.answer call).1 :: more.1, more.2)

theorem Stream.next_of_done {s : Stream} (h : s.done = true) : s.next = (none, s) := by
  simp [Stream.next, h]

theorem Stream.next_of_not_done {s : Stream} (h : ¬ s.done = true) :
    s.next = (some s.lexer.next, ⟨s.lexer.next.lexer, s.lexer.next.token.isEndOfInput⟩) := by
  simp [Stream.next, h]

/-- Diagnostics are only ever added to, and nothing else depends on them. -/
theorem next_of_cursor_eq {l m : Lexer} (ho : l.options = m.options) (hc : l.cursor = m.cursor) :
    l.next.token = m.next.token ∧ l.next.lexer.options = m.next.lexer.options ∧
      l.next.lexer.cursor = m.next.lexer.cursor ∧
      ∃ found, l.next.lexer.diagnostics = l.diagnostics ++ found ∧
        m.next.lexer.diagnostics = m.diagnostics ++ found := by
  have hs : l.seek = m.seek := by rw [seek, hc, seek]
  refine ⟨by simp [next, hs], ho, by simp [next, hs], ?_⟩
  cases hcollect : m.options.collectDiagnostics with
  | false => exact ⟨#[], by simp [next, ho, hcollect], by simp [next, hcollect]⟩
  | true =>
    let found := (Lexeme.read m.seek).problem.toArray.map
      (Diagnostic.mk · m.seek.seen.line m.seek.seen.column)
    exact ⟨found, by simp [found, next, hs, ho, hcollect], by simp [found, next, hcollect]⟩

/-- `l` has given `given` and handed over `gone` since it was like `fresh`. It stands where `fresh`
is after as many tokens, and lacks nothing but what it handed over. -/
structure Follows (fresh : Lexer) (given : List Token) (gone : List Diagnostic) (l : Lexer) :
    Prop where
  given_eq : given = fresh.firstTokens given.length
  options_eq : l.options = (fresh.after given.length).options
  cursor_eq : l.cursor = (fresh.after given.length).cursor
  diagnostics_eq : gone ++ l.diagnostics.toList = (fresh.after given.length).diagnostics.toList

namespace Follows

variable {fresh l : Lexer} {given : List Token} {gone : List Diagnostic}

theorem refl (fresh : Lexer) : Follows fresh [] [] fresh := ⟨rfl, rfl, rfl, rfl⟩

theorem next (h : Follows fresh given gone l) :
    Follows fresh (given ++ [l.next.token]) gone l.next.lexer := by
  obtain ⟨ht, ho, hc, found, hd, hd'⟩ := next_of_cursor_eq h.options_eq h.cursor_eq
  have hlen : (given ++ [l.next.token]).length = given.length + 1 := by simp
  constructor
  · rw [hlen, firstTokens_add, ← h.given_eq, ht]
    simp [tokenAt]
  · rw [hlen, ho, after]
  · rw [hlen, hc, after]
  · rw [hlen, hd, after, hd', Array.toList_append, Array.toList_append, ← h.diagnostics_eq,
      List.append_assoc]

theorem pulls {s : Stream} (h : Follows fresh given gone s.lexer) (n : Nat) :
    Follows fresh (given ++ (s.pulls n).1.reduceOption) gone (s.pulls n).2.lexer := by
  induction n generalizing s given with
  | zero => simpa [Stream.pulls] using h
  | succ n ih =>
    by_cases hd : s.done = true
    · simpa [Stream.pulls, Stream.next_of_done hd] using ih h
    · have hs := Stream.next_of_not_done hd
      have hnext : Follows fresh (given ++ [s.lexer.next.token]) gone s.next.2.lexer := by
        rw [hs]
        exact h.next
      have hh := ih hnext
      simpa [Stream.pulls, hs] using hh

theorem answer (h : Follows fresh given gone l) (call : Call) :
    Follows fresh (given ++ (l.answer call).1.tokens) (gone ++ (l.answer call).1.handedOver)
      (l.answer call).2 := by
  cases call with
  | next => simpa [Lexer.answer, Answer.tokens, Answer.handedOver] using h.next
  | stream n =>
    have hs : Follows fresh given gone (Stream.mk l false).lexer := h
    have hh := hs.pulls n
    simpa [Lexer.answer, Answer.tokens, Answer.handedOver] using hh
  | diagnostics => simpa [Lexer.answer, Answer.tokens, Answer.handedOver] using h
  | takeDiagnostics =>
    have hd := h.diagnostics_eq
    constructor
    · simpa [Lexer.answer, Answer.tokens] using h.given_eq
    · simpa [Lexer.answer, Answer.tokens, takeDiagnostics] using h.options_eq
    · simpa [Lexer.answer, Answer.tokens, takeDiagnostics] using h.cursor_eq
    · simpa [Lexer.answer, Answer.tokens, Answer.handedOver, takeDiagnostics] using hd

theorem serve (h : Follows fresh given gone l) (calls : List Call) :
    Follows fresh (given ++ (l.serve calls).1.flatMap Answer.tokens)
      (gone ++ (l.serve calls).1.flatMap Answer.handedOver) (l.serve calls).2 := by
  induction calls generalizing l given gone with
  | nil => simpa [Lexer.serve] using h
  | cons call calls ih =>
    have hh := ih (h.answer call)
    simpa [Lexer.serve] using hh

end Follows

theorem Stream.length_pulls (s : Stream) (n : Nat) : (s.pulls n).1.length = n := by
  induction n generalizing s with
  | zero => rfl
  | succ n ih => simp [Stream.pulls, ih]

/-- A stream has nothing to give exactly behind an end of input that it gave itself. -/
theorem Stream.getElem?_pulls_eq_none (s : Stream) (n i : Nat) :
    (s.pulls n).1[i]? = some none ↔ i < n ∧ (s.done = true ∨
      ∃ j < i, ∃ k, (s.pulls n).1[j]? = some (some k) ∧ k.isEndOfInput = true) := by
  induction n generalizing s i with
  | zero => simp [Stream.pulls]
  | succ n ih =>
    by_cases hd : s.done = true
    · have hs := Stream.next_of_done hd
      cases i with
      | zero => simp [Stream.pulls, hs, hd]
      | succ i => simpa [Stream.pulls, hs, hd] using ih s i
    · have hs := Stream.next_of_not_done hd
      cases i with
      | zero => simp [Stream.pulls, hs, hd]
      | succ i =>
        have hh := ih s.next.2 i
        simp only [hs] at hh
        simp only [Stream.pulls, hs, Option.map_some, List.getElem?_cons_succ, hh, hd,
          Nat.add_lt_add_iff_right, Nat.exists_lt_succ_left, List.getElem?_cons_zero,
          Option.some.injEq, exists_eq_left', Bool.false_eq_true, false_or]

theorem Stream.pulls_succ_of_none {s : Stream} {n i : Nat} (h : (s.pulls n).1[i]? = some none) :
    (s.pulls (i + 1)).2 = (s.pulls i).2 := by
  induction n generalizing s i with
  | zero => simp [Stream.pulls] at h
  | succ n ih =>
    cases i with
    | zero =>
      have hd : s.done = true := by
        by_contra hd
        simp [Stream.pulls, Stream.next_of_not_done hd] at h
      simp [Stream.pulls, Stream.next_of_done hd]
    | succ i => exact @ih s.next.2 i h

theorem exists_pulls_of_mem_serve {l : Lexer} {calls : List Call} {tokens : List (Option Token)}
    (h : .pulled tokens ∈ (l.serve calls).1) :
    ∃ m n, tokens = (Stream.pulls ⟨m, false⟩ n).1 := by
  induction calls generalizing l with
  | nil => simp [serve] at h
  | cons call calls ih =>
    rcases List.mem_cons.mp h with hcall | hmore
    · cases call with
      | stream n => exact ⟨l, n, Answer.pulled.inj hcall⟩
      | next | diagnostics | takeDiagnostics => simp [answer] at hcall
    · exact ih hmore

/-- However a lexer that was given a text is used, and whatever it did before: its tokens are the
text's, then the end of input again and again; a stream ends behind the end of input and leaves the
lexer alone from then on; and the diagnostics handed over and those kept are together the ones that
a new lexer has after as many tokens, with none for the end of input coming again. -/
theorem serve_gives_tokens_of_text (l : Lexer) (text : String) (calls : List Call) :
    let fresh := ofText l.options text
    let answers := ((l.load text).serve calls).1
    let left := ((l.load text).serve calls).2
    let given := answers.flatMap Answer.tokens
    (∃ last, (tokens text).toList.getLast? = some last ∧ last.isEndOfInput = true ∧
      given <+: (tokens text).toList ++ List.replicate given.length last) ∧
    (∀ ks, .pulled ks ∈ answers → ∀ i, ks[i]? = some none ↔
      i < ks.length ∧ ∃ j < i, ∃ k, ks[j]? = some (some k) ∧ k.isEndOfInput = true) ∧
    (∀ (s : Stream) (n i : Nat), (s.pulls n).1[i]? = some none →
      (s.pulls (i + 1)).2 = (s.pulls i).2) ∧
    left.cursor = (fresh.after given.length).cursor ∧
    answers.flatMap Answer.handedOver ++ left.diagnostics.toList =
      (fresh.after given.length).diagnostics.toList ∧
    ((tokens text).size ≤ given.length →
      (fresh.after given.length).diagnostics = fresh.drain.lexer.diagnostics) := by
  intro fresh answers left given
  have hf : Follows fresh given (answers.flatMap Answer.handedOver) left :=
    (Follows.refl fresh).serve calls
  obtain ⟨n, ht, hdrain, he, -⟩ := exists_tokens_eq_firstTokens l.options text
  refine ⟨⟨fresh.tokenAt n, ?_, he, ?_⟩, ?_, fun s n i => Stream.pulls_succ_of_none,
    hf.cursor_eq, hf.diagnostics_eq, ?_⟩
  · rw [ht, firstTokens_add]
    simp [fresh]
  · rw [ht, hf.given_eq, length_firstTokens]
    exact firstTokens_prefix he given.length
  · intro ks hks i
    obtain ⟨m, n, rfl⟩ := exists_pulls_of_mem_serve hks
    simpa [Stream.length_pulls] using Stream.getElem?_pulls_eq_none ⟨m, false⟩ n i
  · intro hlen
    have hsize : (tokens text).size = n + 1 := by
      rw [← Array.length_toList, ht, length_firstTokens]
    obtain ⟨more, hm⟩ := Nat.exists_eq_add_of_le (show n ≤ given.length by omega)
    rw [hdrain, hm, diagnostics_after_of_isEndOfInput he more]
    exact (diagnostics_after_of_isEndOfInput he 1).symm

end Abnf.Lexer
