import Abnf.Proofs.Acts

/-! Which span a logger marks its records with while spans are left in any order. Leaving one closes
the innermost that is open, so a span that is left before one inside it stays on the records. -/

namespace Abnf.Log

/-- What is done with a logger. `leave i` leaves the span entered last but `i` of those not left yet. -/
inductive Turn where
  | enter (name : String)
  | leave (i : Nat)
  | log (clock : Readings) (entry : Entry)

/-- A network while a logger of it is used. `held` are the spans that were entered and not left, the
last one first; `entered` are all the spans that were, each with how many were held before. -/
structure Session where
  net : Network
  held : List Span := []
  entered : List (Span × Nat) := []

namespace Session

def turn (id : LoggerId) (s : Session) : Turn → Session
  | .enter name =>
    let (net, span) := s.net.enter id name
    ⟨net, span :: s.held, (span, s.held.length) :: s.entered⟩
  | .leave i =>
    match s.held[i]? with
    | some span => { s with net := s.net.leave span, held := s.held.eraseIdx i }
    | none => s
  | .log clock entry => { s with net := (s.net.logged clock id entry).1 }

def turns (id : LoggerId) (s : Session) (ts : List Turn) : Session := ts.foldl (turn id) s

/-- The span entered last of those that, once entered, made as many held as are held now. -/
def lastAtDepth (s : Session) : Option Nat :=
  (s.entered.find? fun e => e.2 + 1 == s.held.length).map (·.1.id)

end Session

/-- Open spans, innermost first, each the last one that was entered with so many around it. -/
inductive Stacked (entered : List (Span × Nat)) : List Nat → Prop
  | nil : Stacked entered []
  | cons {span : Span} {ids : List Nat}
      (hl : entered.find? (fun e => e.2 == ids.length) = some (span, ids.length))
      (h : Stacked entered ids) : Stacked entered (span.id :: ids)

namespace Stacked

variable {entered : List (Span × Nat)} {ids : List Nat}

theorem tail (h : Stacked entered ids) : Stacked entered ids.tail := by
  cases h with
  | nil => exact .nil
  | cons _ h => exact h

theorem deeper (h : Stacked entered ids) (span : Span) {depth : Nat} (hd : ids.length ≤ depth) :
    Stacked ((span, depth) :: entered) ids := by
  induction h with
  | nil => exact .nil
  | @cons last ids hl _ ih =>
    rw [List.length_cons] at hd
    have hne : depth ≠ ids.length := by omega
    refine .cons ?_ (ih (by omega))
    rw [List.find?_cons_of_neg (by simpa using hne)]
    exact hl

theorem enter (h : Stacked entered ids) (span : Span) :
    Stacked ((span, ids.length) :: entered) (span.id :: ids) :=
  .cons (List.find?_cons_of_pos (by simp)) (h.deeper span (Nat.le_refl _))

theorem head?_eq (h : Stacked entered ids) :
    ids.head? = (entered.find? fun e => e.2 + 1 == ids.length).map (·.1.id) := by
  cases h with
  | nil => simp
  | @cons span ids hl _ =>
    have hsucc : (fun e : Span × Nat => e.2 + 1 == (span.id :: ids).length) = fun e => e.2 == ids.length := by
      funext e
      simp
    rw [hsucc, hl]
    rfl

end Stacked

/-- A logger marks with `span` whatever it lets through to its own sinks. -/
def Network.Marks (net : Network) (id : LoggerId) (span : Option Nat) : Prop :=
  ∃ l, net.logger? id = some l ∧
    ∀ (clock : Readings) (entry : Entry), l.level.admits entry.level = true →
      net.log clock id entry = (l.outs { entry with time := clock [], span } clock
        (net.routes entry (net.loggers.size - 1))).map (Network.deliverAll · (net, []))

theorem Network.marks_head? {net : Network} {id : LoggerId} {l : Logger} (hl : net.logger? id = some l) :
    net.Marks id l.spans.head? :=
  ⟨l, hl, fun clock _ hadmits => log_of_admits hl hadmits clock⟩

namespace Session

variable {s : Session} {id : LoggerId} {l : Logger}

structure Sound (s : Session) (id : LoggerId) (l : Logger) : Prop where
  logger : s.net.logger? id = some l
  length : l.spans.length = s.held.length
  stacked : Stacked s.entered l.spans
  held : ∀ span ∈ s.held, span.logger = id

theorem sound_start {net : Network} (hl : net.logger? id = some l) (hspans : l.spans = []) :
    Sound { net } id l := by
  constructor
  · exact hl
  · rw [hspans]
    rfl
  · rw [hspans]
    exact .nil
  · simp

theorem Sound.enter (h : s.Sound id l) (name : String) :
    (s.turn id (.enter name)).Sound id
      { l with spans := l.nextSpan :: l.spans, nextSpan := l.nextSpan + 1 } := by
  have hspan : (s.net.enter id name).2 = ⟨id, l.nextSpan, name⟩ := by
    simp [Network.enter, h.logger]
  constructor
  · refine (Network.logger?_modifyLogger s.net id _).trans ?_
    rw [h.logger, Option.map_some, if_pos rfl]
  · exact congrArg (· + 1) h.length
  · show Stacked (((s.net.enter id name).2, s.held.length) :: s.entered) _
    rw [hspan, ← h.length]
    exact h.stacked.enter ⟨id, l.nextSpan, name⟩
  · show ∀ span ∈ (s.net.enter id name).2 :: s.held, span.logger = id
    rw [hspan]
    exact List.forall_mem_cons.mpr ⟨rfl, h.held⟩

theorem Sound.leave (h : s.Sound id l) {i : Nat} {span : Span} (hi : s.held[i]? = some span) :
    Sound { s with net := s.net.leave span, held := s.held.eraseIdx i } id
      { l with spans := l.spans.tail } := by
  have hspan : span.logger = id := h.held span (List.mem_of_getElem? hi)
  have hlt : i < s.held.length := (List.getElem?_eq_some_iff.mp hi).1
  constructor
  · refine (Network.logger?_modifyLogger s.net span.logger _).trans ?_
    rw [h.logger, Option.map_some, if_pos hspan]
  · show l.spans.tail.length = (s.held.eraseIdx i).length
    rw [List.length_tail, List.length_eraseIdx_of_lt hlt, h.length]
  · exact h.stacked.tail
  · intro span hmem
    exact h.held span (List.mem_of_mem_eraseIdx hmem)

/-- The spans open are those held, as long as always the one entered last is left. -/
theorem Sound.turn (h : s.Sound id l) (t : Turn) : ∃ l', (s.turn id t).Sound id l' ∧
    (l.spans = s.held.map (·.id) → (∀ i, t = .leave i → i = 0) →
      l'.spans = (s.turn id t).held.map (·.id)) := by
  cases t with
  | enter name =>
    refine ⟨_, h.enter name, ?_⟩
    intro hspans _
    simp [Session.turn, Network.enter, h.logger, hspans]
  | leave i =>
    rw [Session.turn]
    split
    · next span hi =>
      refine ⟨_, h.leave hi, ?_⟩
      intro hspans hi
      obtain rfl : i = 0 := hi i rfl
      simp [hspans]
    · exact ⟨l, h, fun hspans _ => hspans⟩
  | log clock entry =>
    refine ⟨l, ⟨?_, h.length, h.stacked, h.held⟩, fun hspans _ => hspans⟩
    show (s.net.logged clock id entry).1.logger? id = some l
    rw [Network.logger?, Network.loggers_logged]
    exact h.logger

theorem Sound.turns (h : s.Sound id l) (ts : List Turn) : ∃ l', (s.turns id ts).Sound id l' ∧
    (l.spans = s.held.map (·.id) → (∀ i, .leave i ∈ ts → i = 0) →
      l'.spans = (s.turns id ts).held.map (·.id)) := by
  induction ts generalizing s l with
  | nil => exact ⟨l, h, fun hspans _ => hspans⟩
  | cons t ts ih =>
    obtain ⟨l₁, hs₁, hone⟩ := h.turn t
    obtain ⟨l₂, hs₂, hrest⟩ := ih hs₁
    refine ⟨l₂, hs₂, ?_⟩
    intro hspans hnested
    have hspans₁ := hone hspans fun i hi => hnested i (by simp [hi])
    exact hrest hspans₁ fun i hi => hnested i (List.mem_cons_of_mem t hi)

/-- Whatever spans were entered and left in which order: what a logger hands to its sinks is marked with
the span that was entered last when as many spans came to be held as are held now, and is not marked
only if none is held. As long as spans are left innermost first, that is the span entered last of
those that are held. -/
theorem turns_mark_last_at_depth {net : Network} (hl : net.logger? id = some l) (hspans : l.spans = [])
    (ts : List Turn) :
    let s := Session.turns id { net } ts
    s.net.Marks id s.lastAtDepth ∧ (s.lastAtDepth = none ↔ s.held = []) ∧
      ((∀ i, .leave i ∈ ts → i = 0) → s.lastAtDepth = s.held.head?.map (·.id)) := by
  intro s
  have hstart := sound_start hl hspans
  obtain ⟨l', hs, hnested⟩ := hstart.turns ts
  have hlast : l'.spans.head? = s.lastAtDepth := by
    rw [hs.stacked.head?_eq, hs.length]
    rfl
  have hempty : l'.spans = [] ↔ s.held = [] := by
    rw [← List.length_eq_zero_iff, hs.length, List.length_eq_zero_iff]
  refine ⟨?_, ?_, ?_⟩
  · rw [← hlast]
    exact Network.marks_head? hs.logger
  · rw [← hlast, List.head?_eq_none_iff, hempty]
  · intro hinnermost
    have hspans' : l'.spans = s.held.map (·.id) := hnested (by rw [hspans]; rfl) hinnermost
    rw [← hlast, hspans', List.head?_map]

def watched : Network :=
  Network.empty.acts [.addLogger .info, .addRing 4, .attach ⟨0⟩ (.ring ⟨0⟩)]

theorem nested_turns_mark_held :
    (∃ l, watched.logger? ⟨0⟩ = some l ∧ l.spans = []) ∧
      (Session.turns ⟨0⟩ { net := watched } [.enter "outer", .enter "inner", .leave 0]).net.Marks ⟨0⟩
        (some 1) := by
  have hl : watched.logger? ⟨0⟩ = some { level := .info, sinks := #[.ring ⟨0⟩] } := rfl
  refine ⟨⟨_, hl, rfl⟩, ?_⟩
  obtain ⟨hmarks, -, hhead⟩ :=
    turns_mark_last_at_depth hl rfl [.enter "outer", .enter "inner", .leave 0]
  rw [hhead (by simp)] at hmarks
  exact hmarks

/-- Where the outer of two spans is left first, its mark stays on what is logged in the inner one. -/
theorem outer_left_first :
    let s := Session.turns ⟨0⟩ { net := watched } [.enter "outer", .enter "inner", .leave 1]
    let after := s.turn ⟨0⟩ (.log (fun _ => 0) ⟨.info, "t", "m"⟩)
    s.held = [⟨⟨0⟩, 2, "inner"⟩] ∧
      (after.net.ring? ⟨0⟩).map Ring.records = some [⟨⟨.info, "t", "m"⟩, 0, some 1⟩] :=
  ⟨rfl, rfl⟩

end Session

end Abnf.Log
