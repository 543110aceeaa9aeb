import Abnf.Proofs.Marks

/-! A cursor that is given texts, advanced and taken back in any order. It always stands between two
marks of its text, and its current symbol is the one it has just passed. -/

namespace Abnf

inductive Move where
  | load (text : String)
  | next
  | rewind
deriving DecidableEq, Repr

def Move.text? : Move → Option String
  | load text => some text
  | next | rewind => none

/-- The text given last. -/
def lastText (moves : List Move) : String := (moves.filterMap Move.text?).getLast?.getD ""

namespace Cursor

/-- A cursor that cannot step back stays as it is. -/
def move (c : Cursor) : Move → Cursor
  | .load text => load text
  | .next => c.next
  | .rewind =>
    match c.rewind with
    | .ok d => d
    | .error _ => c

def moves (c : Cursor) (ms : List Move) : Cursor := ms.foldl move c

/-- The cursor advanced some times. -/
def advance (c : Cursor) : Nat → Cursor
  | 0 => c
  | n + 1 => c.next.advance n

end Cursor

/-- The symbol at the end of a text. -/
def endBehind (text : List Char) : Located :=
  ⟨.endOfInput, lineEnds text + 1, sinceLineEnd text + 1⟩

/-- What may be current between two parts of a text: nothing before the first mark, the end of input
behind the last one, or the mark that ends there. -/
inductive Passed : List Char → List Char → Option Located → Prop
  | nothing (ahead : List Char) : Passed [] ahead none
  | everything (before : List Char) : Passed before [] (some (endBehind before))
  | mark {start ahead : List Char} {m : Mark} (hm : m.WholeBefore ahead)
      (hb : IsBoundary start (m.text ++ ahead)) :
      Passed (start ++ m.text) ahead (some (m.behind start))

namespace Passed

variable {before ahead : List Char} {s : Located}

theorem eq_nil (h : Passed before ahead none) : before = [] := by
  cases h
  rfl

theorem of_endOfInput (h : Passed before ahead (some s)) (hs : s.symbol = .endOfInput) :
    ahead = [] ∧ s = endBehind before := by
  cases h with
  | everything => exact ⟨rfl, rfl⟩
  | mark _ _ => exact absurd hs (Mark.symbol_ne_endOfInput _)

theorem exists_mark (h : Passed before ahead (some s)) (hs : s.symbol ≠ .endOfInput) :
    ∃ (start : List Char) (m : Mark), before = start ++ m.text ∧
      IsBoundary start (m.text ++ ahead) ∧ m.WholeBefore ahead ∧ s = m.behind start := by
  cases h with
  | everything => exact absurd rfl hs
  | mark hm hb => exact ⟨_, _, rfl, hb, hm, rfl⟩

end Passed

def Stands (text : List Char) (p : Place) (current : Option Located) : Prop :=
  ∃ before ahead, text = before ++ ahead ∧ p = .between before ahead ∧ IsBoundary before ahead ∧
    Passed before ahead current

/-- The cursor stands rightly where it is, and so it did where it would go back to. -/
structure Cursor.Sound (c : Cursor) : Prop where
  here : Stands c.text c.place c.current
  undo : ∀ p s, c.undo = some (p, s) → Stands c.text p s

namespace Cursor

variable {c d : Cursor}

theorem sound_load (text : String) : (load text).Sound := by
  constructor
  · exact ⟨[], text.toList, rfl, Place.start_eq_between _, isBoundary_nil_left _, .nothing _⟩
  · intro p s hu
    simp [load] at hu

theorem Sound.next (h : c.Sound) : c.next.Sound := by
  constructor
  · obtain ⟨before, ahead, ht, hp, hb, -⟩ := h.here
    have hplace : c.next.place = c.place.next := c.place_next
    have hcurrent : c.next.current = some (c.place.locate c.place.symbol) := rfl
    rw [hplace, hcurrent, hp]
    by_cases ha : ahead = []
    · subst ha
      exact ⟨before, [], ht, Place.next_between_nil before, hb, .everything before⟩
    · obtain ⟨m, rest, rfl, hm⟩ := Mark.exists_mark ha
      rw [Mark.next_between hm hb, Mark.symbol_between hm]
      exact ⟨before ++ m.text, rest, by rw [List.append_assoc]; exact ht, rfl,
        Mark.isBoundary_text hm before, .mark hm hb⟩
  · intro p s hu
    obtain ⟨rfl, rfl⟩ : c.place = p ∧ c.current = s := by simpa [Cursor.next] using hu
    exact h.here

theorem rewind_eq_ok {d : Cursor} (h : c.rewind = .ok d) :
    ∃ p s, c.undo = some (p, s) ∧ d = { c with place := p, current := s, rewound := true } := by
  unfold rewind at h
  split at h
  · simp at h
  · split at h
    · simp at h
    · next p s hu => exact ⟨p, s, hu, (Except.ok.inj h).symm⟩

theorem Sound.rewind (h : c.Sound) (hd : c.rewind = .ok d) : d.Sound := by
  obtain ⟨p, s, hu, rfl⟩ := rewind_eq_ok hd
  exact ⟨h.undo p s hu, h.undo⟩

theorem Sound.move (h : c.Sound) (m : Move) : (c.move m).Sound := by
  cases m with
  | load text => exact sound_load text
  | next => exact h.next
  | rewind =>
    rw [Cursor.move]
    split
    · next d hd => exact h.rewind hd
    · exact h

theorem Sound.moves (h : c.Sound) (ms : List Move) : (c.moves ms).Sound := by
  induction ms generalizing c with
  | nil => exact h
  | cons m ms ih => exact ih (h.move m)

theorem moves_concat (c : Cursor) (ms : List Move) (m : Move) :
    c.moves (ms ++ [m]) = (c.moves ms).move m := by simp [moves]

theorem text_moves (c : Cursor) (ms : List Move) :
    (c.moves ms).text = ((ms.filterMap Move.text?).getLast?.map String.toList).getD c.text := by
  induction ms using List.reverseRecOn with
  | nil => rfl
  | append_singleton ms m ih =>
    rw [moves_concat]
    cases m with
    | load text => simp [move, load, Move.text?]
    | next => simpa [move, Cursor.next, Move.text?] using ih
    | rewind =>
      rw [move]
      split
      · next d hd =>
        obtain ⟨p, s, -, rfl⟩ := rewind_eq_ok hd
        simpa [Move.text?] using ih
      · simpa [Move.text?] using ih

theorem text_moves_blank (ms : List Move) : (blank.moves ms).text = (lastText ms).toList := by
  rw [text_moves, lastText]
  cases (ms.filterMap Move.text?).getLast? <;> rfl

/-- A cursor that is advanced again and again gives the marks ahead of it, one by one, and then the
end of input, where it stays. -/
theorem advance_of_between {before ahead : List Char} (hp : c.place = .between before ahead)
    (hb : IsBoundary before ahead) (n : Nat) :
    (c.advance n).next.seen =
        (Mark.allBehind before (marks ahead))[n]?.getD (endBehind (before ++ ahead)) ∧
      (c.advance n).place = .between (before ++ ((marks ahead).take n).flatMap Mark.text)
        (((marks ahead).drop n).flatMap Mark.text) := by
  induction n generalizing c before ahead with
  | zero =>
    simp only [advance, seen_next, hp, List.take_zero, List.drop_zero, List.flatMap_nil,
      List.append_nil, Mark.flatMap_text_marks, and_true]
    by_cases ha : ahead = []
    · subst ha
      rw [Place.symbol_between_nil, List.append_nil]
      rfl
    · obtain ⟨m, rest, rfl, hm⟩ := Mark.exists_mark ha
      rw [Mark.symbol_between hm, Mark.marks_append_text hm]
      rfl
  | succ n ih =>
    by_cases ha : ahead = []
    · subst ha
      have hp' : c.next.place = .between before [] := by rw [place_next, hp]; rfl
      simpa [advance, marks, Mark.allBehind] using ih hp' hb
    · obtain ⟨m, rest, rfl, hm⟩ := Mark.exists_mark ha
      have hp' : c.next.place = .between (before ++ m.text) rest := by
        rw [place_next, hp, Mark.next_between hm hb]
      have hh := ih hp' (Mark.isBoundary_text hm before)
      rw [Mark.marks_append_text hm]
      simpa [advance, Mark.allBehind] using hh

/-- Whatever was done with a cursor before, it stands between two marks of the text it was given last.
Its line counts the line ends before it and its column the characters since. What is current is the
mark just passed, where it starts; only at the start there may be none, and only at the end the end
of input. Advancing gives the marks ahead, each once and in order, and then the end of input. -/
theorem moves_between_marks (ms : List Move) :
    let c := blank.moves ms
    let before := c.text.take c.place.offset
    let ahead := c.text.drop c.place.offset
    c.text = (lastText ms).toList ∧
    c.place.offset ≤ c.text.length ∧ IsBoundary before ahead ∧
    c.place.line = lineEnds before ∧ c.place.column = sinceLineEnd before ∧
    c.place.ahead = ahead ∧
    (c.current = none → c.place.offset = 0) ∧
    (∀ s, c.current = some s → s.symbol = .endOfInput →
      c.place.offset = c.text.length ∧ s = endBehind c.text) ∧
    (∀ s, c.current = some s → s.symbol ≠ .endOfInput → ∃ (start : List Char) (m : Mark),
      before = start ++ m.text ∧ IsBoundary start (m.text ++ ahead) ∧ m.WholeBefore ahead ∧
        s = m.behind start) ∧
    (marks ahead).flatMap Mark.text = ahead ∧
    ∀ n, (c.advance n).next.seen =
        (Mark.allBehind before (marks ahead))[n]?.getD (endBehind c.text) ∧
      (c.advance n).place = .between (before ++ ((marks ahead).take n).flatMap Mark.text)
        (((marks ahead).drop n).flatMap Mark.text) := by
  intro c before ahead
  have hs : c.Sound := (sound_load "").moves ms
  obtain ⟨first, rest, ht, hp, hb, hpassed⟩ := hs.here
  have hoffset : c.place.offset = first.length := congrArg Place.offset hp
  have hbefore : before = first := by
    simp only [before, hoffset, ht, List.take_left]
  have hahead : ahead = rest := by
    simp only [ahead, hoffset, ht, List.drop_left]
  rw [hbefore, hahead]
  refine ⟨text_moves_blank ms, ?_, hb, congrArg Place.line hp, congrArg Place.column hp,
    congrArg Place.ahead hp, ?_, ?_, ?_, Mark.flatMap_text_marks rest, ?_⟩
  · rw [hoffset, ht, List.length_append]
    omega
  · intro hnone
    rw [hnone] at hpassed
    rw [hoffset, hpassed.eq_nil]
    rfl
  · intro s hsome hend
    rw [hsome] at hpassed
    obtain ⟨rfl, hs⟩ := hpassed.of_endOfInput hend
    rw [hoffset, ht, List.append_nil]
    exact ⟨rfl, hs⟩
  · intro s hsome hmark
    rw [hsome] at hpassed
    exact hpassed.exists_mark hmark
  · intro n
    rw [ht]
    exact advance_of_between hp hb n

end Cursor

end Abnf
