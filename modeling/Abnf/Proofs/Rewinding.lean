import Abnf.Proofs.Moves

/-! Taking a cursor back. It undoes the last advance and nothing else, and whether it succeeds can be
told from the moves made so far. -/

namespace Abnf

/-- The cursor was advanced, and no text was given since. -/
def Advanced (ms : List Move) : Prop :=
  ∃ first last, ms = first ++ .next :: last ∧ ∀ m ∈ last, m.text? = none

/-- The cursor could be taken back after its last advance, and no text was given since. -/
def TakenBack (ms : List Move) : Prop :=
  ∃ first tries last, ms = first ++ .next :: tries ++ .rewind :: last ∧
    (∀ m ∈ tries ++ last, m = .rewind) ∧
    ∃ d, (Cursor.blank.moves (first ++ .next :: tries)).rewind = .ok d

variable {ms : List Move} {m : Move}

theorem advanced_concat : Advanced (ms ++ [m]) ↔ m = .next ∨ m.text? = none ∧ Advanced ms := by
  constructor
  · rintro ⟨first, last, heq, hlast⟩
    cases last using List.reverseRecOn with
    | nil =>
      have hh := List.append_inj_right' heq rfl
      exact .inl (List.singleton_inj.mp hh)
    | append_singleton last m' =>
      rw [← List.cons_append, ← List.append_assoc] at heq
      obtain ⟨rfl, hm⟩ := List.append_inj' heq rfl
      obtain rfl := List.singleton_inj.mp hm
      exact .inr ⟨hlast m (by simp), first, last, rfl, fun x hx => hlast x (by simp [hx])⟩
  · rintro (rfl | ⟨hm, first, last, rfl, hlast⟩)
    · exact ⟨ms, [], rfl, by simp⟩
    · refine ⟨first, last ++ [m], by simp, ?_⟩
      intro x hx
      rcases List.mem_append.mp hx with hx | hx
      · exact hlast x hx
      · rwa [List.mem_singleton.mp hx]

theorem not_takenBack_concat (hm : m ≠ .rewind) : ¬ TakenBack (ms ++ [m]) := by
  rintro ⟨first, tries, last, heq, hall, -⟩
  have hlast : (ms ++ [m]).getLast? = some m := by simp
  cases last using List.reverseRecOn with
  | nil =>
    rw [heq, List.getLast?_concat] at hlast
    exact hm (Option.some.inj hlast).symm
  | append_singleton last m' =>
    have hm' : m' = m := by simpa [heq, List.getLast?_append, List.getLast?_cons] using hlast
    exact hm (hm' ▸ hall m' (by simp))

theorem TakenBack.advanced (h : TakenBack ms) : Advanced ms := by
  obtain ⟨first, tries, last, heq, hall, -⟩ := h
  refine ⟨first, tries ++ .rewind :: last, by simp [heq], ?_⟩
  intro m hm
  have hm' : m = .rewind := by
    rcases List.mem_append.mp hm with hm | hm
    · exact hall m (by simp [hm])
    · rcases List.mem_cons.mp hm with rfl | hm
      · rfl
      · exact hall m (by simp [hm])
  rw [hm']
  rfl

theorem Advanced.exists_tries (h : Advanced ms) :
    ∃ first tries, ms = first ++ .next :: tries ∧ ∀ m ∈ tries, m = .rewind := by
  induction ms using List.reverseRecOn with
  | nil =>
    obtain ⟨first, last, heq, -⟩ := h
    simp at heq
  | append_singleton ms m ih =>
    cases m with
    | next => exact ⟨ms, [], rfl, by simp⟩
    | load text => simp [advanced_concat, Move.text?] at h
    | rewind =>
      have hms : Advanced ms := by simpa [advanced_concat, Move.text?] using h
      obtain ⟨first, tries, rfl, hall⟩ := ih hms
      refine ⟨first, tries ++ [.rewind], by simp, ?_⟩
      intro x hx
      rcases List.mem_append.mp hx with hx | hx
      · exact hall x hx
      · exact List.mem_singleton.mp hx

namespace Cursor

variable {c d : Cursor}

theorem rewind_eq_notStarted :
    c.rewind = .error .notStarted ↔ c.rewound = false ∧ c.undo = none := by
  unfold rewind
  split
  · next h => simp [h]
  · next h =>
    split
    · next hu => simp [h, hu]
    · next hu => simp [hu]

theorem rewind_eq_alreadyRewound : c.rewind = .error .alreadyRewound ↔ c.rewound = true := by
  unfold rewind
  split
  · next h => simp [h]
  · next h => split <;> simp [h]

theorem exists_rewind_eq_ok : (∃ d, c.rewind = .ok d) ↔ c.rewound = false ∧ c.undo ≠ none := by
  unfold rewind
  split
  · next h => simp [h]
  · next h =>
    split
    · next hu => simp [hu]
    · next hu => simp [h, hu]

theorem undo_moves_ne_none (ms : List Move) : (blank.moves ms).undo ≠ none ↔ Advanced ms := by
  induction ms using List.reverseRecOn with
  | nil => simp [moves, blank, load, Advanced]
  | append_singleton ms m ih =>
    rw [moves_concat, advanced_concat]
    cases m with
    | load text => simp [move, load, Move.text?]
    | next => simp [move, Cursor.next]
    | rewind =>
      rw [move]
      split
      · next d hd =>
        obtain ⟨p, s, -, rfl⟩ := rewind_eq_ok hd
        simpa [Move.text?] using ih
      · simpa [Move.text?] using ih

theorem takenBack_concat_rewind (ms : List Move) :
    TakenBack (ms ++ [.rewind]) ↔ TakenBack ms ∨ ∃ d, (blank.moves ms).rewind = .ok d := by
  constructor
  · rintro ⟨first, tries, last, heq, hall, hok⟩
    cases last using List.reverseRecOn with
    | nil =>
      obtain ⟨rfl, -⟩ := List.append_inj' heq rfl
      exact .inr hok
    | append_singleton last m =>
      rw [← List.cons_append, ← List.append_assoc] at heq
      obtain ⟨rfl, -⟩ := List.append_inj' heq rfl
      refine .inl ⟨first, tries, last, rfl, ?_, hok⟩
      intro x hx
      apply hall
      simp only [List.mem_append] at hx ⊢
      tauto
  · rintro (⟨first, tries, last, rfl, hall, hok⟩ | hok)
    · refine ⟨first, tries, last ++ [.rewind], by simp, ?_, hok⟩
      intro x hx
      rw [← List.append_assoc, List.mem_append] at hx
      rcases hx with hx | hx
      · exact hall x hx
      · exact List.mem_singleton.mp hx
    · have hadvanced := (undo_moves_ne_none ms).mp (exists_rewind_eq_ok.mp hok).2
      obtain ⟨first, tries, rfl, hall⟩ := hadvanced.exists_tries
      exact ⟨first, tries, [], rfl, by simpa using hall, hok⟩

theorem rewound_moves (ms : List Move) : (blank.moves ms).rewound = true ↔ TakenBack ms := by
  induction ms using List.reverseRecOn with
  | nil => simp [moves, blank, load, TakenBack]
  | append_singleton ms m ih =>
    rw [moves_concat]
    cases m with
    | load text => simpa [move, load] using not_takenBack_concat (m := .load text) (by simp)
    | next => simpa [move, Cursor.next] using not_takenBack_concat (m := .next) (by simp)
    | rewind =>
      rw [takenBack_concat_rewind, ← ih, move]
      split
      · next d hd =>
        obtain ⟨p, s, -, rfl⟩ := rewind_eq_ok hd
        simp [hd]
      · next e he => simp [he]

/-- Whatever was done with a cursor before: an advance can be taken back, which leaves the cursor
where it was before, and made again with the same result. Taking back fails only when there was no
advance in the text given last, or when the last one has been taken back; then nothing changes. -/
theorem rewind_undoes_last_advance (ms : List Move) :
    let c := blank.moves ms
    (∃ d, c.next.rewind = .ok d ∧ d.text = c.text ∧ d.place = c.place ∧ d.current = c.current ∧
      d.isAtEnd = c.isAtEnd ∧ d.next.seen = c.next.seen ∧ d.next.place = c.next.place ∧
      d.next.current = c.next.current) ∧
    (c.rewind = .error .notStarted ↔ ¬ Advanced ms) ∧
    (c.rewind = .error .alreadyRewound ↔ TakenBack ms) ∧
    ((∃ d, c.rewind = .ok d) ↔ Advanced ms ∧ ¬ TakenBack ms) ∧
    ∀ e, c.rewind = .error e → c.move .rewind = c := by
  intro c
  have hundo : c.undo ≠ none ↔ Advanced ms := undo_moves_ne_none ms
  have hrewound : c.rewound = true ↔ TakenBack ms := rewound_moves ms
  refine ⟨⟨_, c.rewind_next, rfl, rfl, rfl, rfl, rfl, rfl, rfl⟩, ?_, ?_, ?_, ?_⟩
  · rw [rewind_eq_notStarted, ← hundo, not_not, and_iff_right_iff_imp]
    intro hnone
    by_contra htrue
    have hback := hrewound.mp (Bool.not_eq_false _ ▸ htrue)
    exact hundo.mpr hback.advanced hnone
  · rw [rewind_eq_alreadyRewound, hrewound]
  · rw [exists_rewind_eq_ok, hundo, ← hrewound, Bool.not_eq_true, and_comm]
  · intro e he
    rw [move, he]

end Cursor

end Abnf
