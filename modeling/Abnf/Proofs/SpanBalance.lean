import Abnf.Proofs.OpenSpans

/-! Spans of any number of loggers, entered and left in any order. Leaving a span closes one of its own
logger, whichever that is, so there are always as many open as were entered and not left. -/

namespace Abnf.Log

/-- A network in use. `alive` are the spans entered and not left yet, the last one first, and `entered`
are all that ever were, the first one first. -/
structure Usage where
  net : Network
  alive : List Span := []
  entered : List Span := []

namespace Usage

/-- A span can be left once, and be entered only where there is a logger. -/
def act (u : Usage) : Act → Usage
  | .enter id name =>
    if id.index < u.net.loggers.size then
      let (net, span) := u.net.enter id name
      ⟨net, span :: u.alive, u.entered ++ [span]⟩
    else u
  | .leave span =>
    if span ∈ u.alive then { u with net := u.net.leave span, alive := u.alive.erase span } else u
  | a => { u with net := u.net.act a }

def acts (u : Usage) (as : List Act) : Usage := as.foldl act u

/-- How many spans of a logger are alive. -/
def guards (u : Usage) (id : LoggerId) : Nat := u.alive.countP (·.logger = id)

/-- The numbers that a logger gave to its spans, the first one first. -/
def numbers (u : Usage) (id : LoggerId) : List Nat := (u.entered.filter (·.logger = id)).map (·.id)

end Usage

/-- The logger whose spans an act is about. -/
def Act.spanLogger? : Act → Option LoggerId
  | .enter id _ => some id
  | .leave span => some span.logger
  | _ => none

namespace Network

variable {net : Network} {id id' : LoggerId}

/-- The open spans of a logger, innermost first. One that is not there yet has none. -/
def stack (net : Network) (id : LoggerId) : List Nat := ((net.logger? id).map (·.spans)).getD []

/-- The number that the next span of a logger gets. -/
def fresh (net : Network) (id : LoggerId) : Nat := ((net.logger? id).map (·.nextSpan)).getD 1

theorem exists_logger? (h : id.index < net.loggers.size) : ∃ l, net.logger? id = some l :=
  ⟨_, Array.getElem?_eq_getElem h⟩

theorem id_enter (h : id.index < net.loggers.size) (name : String) :
    (net.enter id name).2 = ⟨id, net.fresh id, name⟩ := by
  obtain ⟨l, hl⟩ := exists_logger? h
  simp [enter, fresh, hl]

theorem stack_enter (h : id'.index < net.loggers.size) (name : String) :
    (net.enter id' name).1.stack id =
      if id' = id then net.fresh id :: net.stack id else net.stack id := by
  obtain ⟨l, hl⟩ := exists_logger? h
  have hmodify := @logger?_modifyLogger id net id' fun l =>
    { l with spans := l.nextSpan :: l.spans, nextSpan := l.nextSpan + 1 }
  by_cases hid : id' = id
  · subst hid
    simp [stack, fresh, enter, hmodify, hl]
  · simp [stack, enter, hmodify, hid]

theorem fresh_enter (h : id'.index < net.loggers.size) (name : String) :
    (net.enter id' name).1.fresh id = if id' = id then net.fresh id + 1 else net.fresh id := by
  obtain ⟨l, hl⟩ := exists_logger? h
  have hmodify := @logger?_modifyLogger id net id' fun l =>
    { l with spans := l.nextSpan :: l.spans, nextSpan := l.nextSpan + 1 }
  by_cases hid : id' = id
  · subst hid
    simp [fresh, enter, hmodify, hl]
  · simp [fresh, enter, hmodify, hid]

theorem stack_modifyLogger (f : Logger → Logger) {g : List Nat → List Nat} (hg : g [] = [])
    (hf : ∀ l, (f l).spans = g l.spans) :
    (net.modifyLogger id' f).stack id = if id' = id then g (net.stack id) else net.stack id := by
  rw [stack, logger?_modifyLogger]
  by_cases hid : id' = id
  · cases hl : net.logger? id <;> simp [stack, hid, hl, hf, hg]
  · simp [stack, hid]

theorem fresh_modifyLogger (f : Logger → Logger) (hf : ∀ l, (f l).nextSpan = l.nextSpan) :
    (net.modifyLogger id' f).fresh id = net.fresh id := by
  rw [fresh, logger?_modifyLogger]
  by_cases hid : id' = id
  · cases hl : net.logger? id <;> simp [fresh, hid, hl, hf]
  · simp [fresh, hid]

theorem stack_leave (span : Span) :
    (net.leave span).stack id = if span.logger = id then (net.stack id).tail else net.stack id :=
  stack_modifyLogger _ rfl fun _ => rfl

theorem fresh_leave (span : Span) : (net.leave span).fresh id = net.fresh id :=
  fresh_modifyLogger _ fun _ => rfl

theorem stack_modifyLogger_of_spans_eq (f : Logger → Logger) (hs : ∀ l, (f l).spans = l.spans)
    (hn : ∀ l, (f l).nextSpan = l.nextSpan) :
    (net.modifyLogger id' f).stack id = net.stack id ∧
      (net.modifyLogger id' f).fresh id = net.fresh id := by
  have hstack := @stack_modifyLogger net id id' f (fun spans => spans) rfl hs
  exact ⟨hstack.trans (ite_self _), fresh_modifyLogger f hn⟩

/-- What is not about a span leaves all spans as they are. -/
theorem stack_act {a : Act} (ha : a.spanLogger? = none) :
    (net.act a).stack id = net.stack id ∧ (net.act a).fresh id = net.fresh id := by
  cases a with
  | addLogger level =>
    have hadd : (net.act (.addLogger level)).logger? id =
        if id.index = net.loggers.size then some { level } else net.logger? id :=
      Array.getElem?_push
    by_cases hid : id.index = net.loggers.size
    · have hnone : net.logger? id = none := Array.getElem?_eq_none (by omega)
      simp [stack, fresh, hadd, hid, hnone]
    · simp [stack, fresh, hadd, hid]
  | attach id' sink =>
    exact stack_modifyLogger_of_spans_eq (fun l => { l with sinks := l.sinks.push sink })
      (fun _ => rfl) fun _ => rfl
  | setLevel id' level =>
    exact stack_modifyLogger_of_spans_eq (fun l => { l with level }) (fun _ => rfl) fun _ => rfl
  | log clock id' entry =>
    have hlog : (net.act (.log clock id' entry)).logger? id = net.logger? id := by
      show (net.logged clock id' entry).1.logger? id = _
      rw [logger?, loggers_logged]
      rfl
    simp [stack, fresh, hlog]
  | addRing capacity => exact ⟨rfl, rfl⟩
  | enter | leave => simp [Act.spanLogger?] at ha

end Network

namespace Usage

variable {u : Usage} {id : LoggerId}

/-- `length` is the balance; the other fields say that a span's number is its own and that spans are
numbered in the order in which they are entered. -/
structure Sound (u : Usage) : Prop where
  length : ∀ id, (u.net.stack id).length = u.guards id
  alive : u.alive.reverse.Sublist u.entered
  numbered : u.entered.Pairwise fun a b => a.logger = b.logger → a.id < b.id
  fresh : ∀ span ∈ u.entered, span.id < u.net.fresh span.logger
  stack : ∀ id, (u.net.stack id).Sublist (u.numbers id).reverse

theorem sound_empty : Sound ⟨.empty, [], []⟩ := by
  constructor <;> simp [Network.stack, Network.logger?, Network.empty, guards]

theorem act_of_spanLogger? {a : Act} (ha : a.spanLogger? = none) :
    u.act a = { u with net := u.net.act a } := by
  cases a with
  | enter | leave => simp [Act.spanLogger?] at ha
  | _ => rfl

theorem Sound.enter (h : u.Sound) {id : LoggerId} (hid : id.index < u.net.loggers.size)
    (name : String) : (u.act (.enter id name)).Sound := by
  have hact : u.act (.enter id name) =
      ⟨(u.net.enter id name).1, ⟨id, u.net.fresh id, name⟩ :: u.alive,
        u.entered ++ [⟨id, u.net.fresh id, name⟩]⟩ := by
    rw [act, if_pos hid, ← Network.id_enter hid]
  rw [hact]
  constructor
  · intro id'
    have hlen := h.length id'
    simp only [guards, Network.stack_enter hid, List.countP_cons] at hlen ⊢
    by_cases hid' : id = id'
    · simp [hid', hlen]
    · simp [hid', hlen]
  · rw [List.reverse_cons]
    exact h.alive.append (List.Sublist.refl _)
  · refine List.pairwise_append.mpr ⟨h.numbered, List.pairwise_singleton _ _, ?_⟩
    intro span hspan last hlast hlogger
    obtain rfl := List.mem_singleton.mp hlast
    have hlt := h.fresh span hspan
    rwa [hlogger] at hlt
  · intro span hspan
    rw [Network.fresh_enter hid]
    rcases List.mem_append.mp hspan with hold | hlast
    · have hlt := h.fresh span hold
      split
      · omega
      · exact hlt
    · obtain rfl := List.mem_singleton.mp hlast
      simp
  · intro id'
    have hsub := h.stack id'
    rw [Network.stack_enter hid]
    by_cases hid' : id = id'
    · subst hid'
      simpa [numbers] using hsub
    · simpa [numbers, hid'] using hsub

theorem Sound.leave (h : u.Sound) {span : Span} (hspan : span ∈ u.alive) :
    (u.act (.leave span)).Sound := by
  have hact : u.act (.leave span) =
      { u with net := u.net.leave span, alive := u.alive.erase span } := if_pos hspan
  rw [hact]
  constructor
  · intro id
    have hlen := h.length id
    have hcount := (List.perm_cons_erase hspan).countP_eq (fun span => span.logger = id)
    simp only [guards, Network.stack_leave, List.countP_cons] at hlen hcount ⊢
    by_cases hid : span.logger = id
    · simp only [hid, decide_true, if_true, List.length_tail] at hcount ⊢
      omega
    · simpa [hid, hlen] using hcount
  · exact (List.erase_sublist.reverse).trans h.alive
  · exact h.numbered
  · intro last hlast
    have hlt := h.fresh last hlast
    rwa [← Network.fresh_leave span] at hlt
  · intro id
    have hsub := h.stack id
    rw [Network.stack_leave]
    split
    · exact (List.tail_sublist _).trans hsub
    · exact hsub

theorem Sound.act (h : u.Sound) (a : Act) : (u.act a).Sound := by
  cases hl : a.spanLogger? with
  | none =>
    rw [act_of_spanLogger? hl]
    have hkeep := fun id => @Network.stack_act u.net id a hl
    constructor
    · exact fun id => (congrArg List.length (hkeep id).1).trans (h.length id)
    · exact h.alive
    · exact h.numbered
    · intro span hspan
      rw [(hkeep span.logger).2]
      exact h.fresh span hspan
    · intro id
      rw [(hkeep id).1]
      exact h.stack id
  | some id' =>
    cases a with
    | enter id name =>
      by_cases hid : id.index < u.net.loggers.size
      · exact h.enter hid name
      · rwa [Usage.act, if_neg hid]
    | leave span =>
      by_cases hspan : span ∈ u.alive
      · exact h.leave hspan
      · rwa [Usage.act, if_neg hspan]
    | _ => simp [Act.spanLogger?] at hl

theorem Sound.acts (h : u.Sound) (as : List Act) : (u.acts as).Sound := by
  induction as generalizing u with
  | nil => exact h
  | cons a as ih => exact ih (h.act a)

/-- An act on other loggers' spans leaves a logger's own alone. -/
theorem stack_act {a : Act} (ha : a.spanLogger? ≠ some id) :
    (u.act a).net.stack id = u.net.stack id := by
  cases hl : a.spanLogger? with
  | none =>
    rw [act_of_spanLogger? hl]
    exact (Network.stack_act hl).1
  | some id' =>
    cases a with
    | enter id' name =>
      have hne : id' ≠ id := by simpa [Act.spanLogger?] using ha
      rw [Usage.act]
      split
      · next hid => exact (Network.stack_enter hid name).trans (if_neg hne)
      · rfl
    | leave span =>
      have hne : span.logger ≠ id := by simpa [Act.spanLogger?] using ha
      rw [Usage.act]
      split
      · exact (Network.stack_leave span).trans (if_neg hne)
      · rfl
    | _ => simp [Act.spanLogger?] at hl

theorem exists_logger?_act {l : Logger} (hl : u.net.logger? id = some l) (a : Act) :
    ∃ l', (u.act a).net.logger? id = some l' := by
  obtain ⟨l', hl', -⟩ := Network.exists_logger?_act hl a
  cases a with
  | enter id' name =>
    rw [Usage.act]
    split
    · exact ⟨l', hl'⟩
    · exact ⟨l, hl⟩
  | leave span =>
    rw [Usage.act]
    split
    · exact ⟨l', hl'⟩
    · exact ⟨l, hl⟩
  | _ => exact ⟨l', hl'⟩

theorem guards_pos_iff : 0 < u.guards id ↔ ∃ span ∈ u.alive, span.logger = id := by
  simp [guards, List.countP_pos_iff]

/-- Whatever was done with any number of loggers, their spans entered and left in any order: the spans
of a logger have rising numbers, and as many are open on it as are alive, so that none is left where
none is open. The open ones have rising numbers from the outermost on, and a logger marks what it
lets through, whether it was logged there or handed on by another logger, exactly if one of its spans
is alive. What is done with one logger's spans, or with no span at all, leaves the open spans of
another as they are. -/
theorem open_spans_balance (as : List Act) :
    let u := Usage.acts ⟨.empty, [], []⟩ as
    u.alive.Nodup ∧ (∀ span ∈ u.alive, span ∈ u.entered) ∧
    (u.entered.Pairwise fun a b => a.logger = b.logger → a.id < b.id) ∧
    ∀ id l, u.net.logger? id = some l →
      u.net.depth id = (u.alive.filter (·.logger = id)).length ∧
      (∀ span ∈ u.alive, span.logger = id → l.spans ≠ []) ∧
      l.spans.reverse.Pairwise (· < ·) ∧
      (∃ mark, u.net.Marks id mark ∧
        (∀ (entry : Entry) hops (clock : Readings), l.level.admits entry.level = true →
          u.net.routes entry (hops + 1) clock id =
            l.outs { entry with time := clock [], span := mark } clock (u.net.routes entry hops)) ∧
        (mark.isSome ↔ ∃ span ∈ u.alive, span.logger = id)) ∧
      ∀ a : Act, a.spanLogger? ≠ some id →
        ∃ l', (u.act a).net.logger? id = some l' ∧ l'.spans = l.spans := by
  intro u
  have h : u.Sound := sound_empty.acts as
  have hnodup : u.entered.Nodup := by
    refine h.numbered.imp ?_
    rintro a b hab rfl
    exact Nat.lt_irrefl _ (hab rfl)
  refine ⟨List.nodup_reverse.mp (hnodup.sublist h.alive), ?_, h.numbered, ?_⟩
  · intro span hspan
    exact h.alive.subset (List.mem_reverse.mpr hspan)
  intro id l hl
  have hstack : u.net.stack id = l.spans := by simp [Network.stack, hl]
  have hlen : l.spans.length = u.guards id := hstack ▸ h.length id
  have hempty : l.spans = [] ↔ ¬ ∃ span ∈ u.alive, span.logger = id := by
    rw [← guards_pos_iff, ← hlen, List.length_pos_iff, not_not]
  refine ⟨?_, ?_, ?_, ⟨l.spans.head?, Network.marks_head? hl, ?_, ?_⟩, ?_⟩
  · rw [Network.depth, hl, ← List.countP_eq_length_filter]
    exact hlen
  · intro span hspan hlogger he
    exact hempty.mp he ⟨span, hspan, hlogger⟩
  · have hsub : l.spans.reverse.Sublist (u.numbers id) := by
      rw [← hstack, ← List.reverse_reverse (u.numbers id)]
      exact (h.stack id).reverse
    refine List.Pairwise.sublist hsub (List.pairwise_map.mpr ?_)
    refine (h.numbered.filter _).imp_of_mem ?_
    intro a b ha hb hab
    have ha' : a.logger = id := by simpa using (List.mem_filter.mp ha).2
    have hb' : b.logger = id := by simpa using (List.mem_filter.mp hb).2
    exact hab (ha'.trans hb'.symm)
  · intro entry hops clock hadmits
    exact Network.routes_succ hl hadmits hops clock
  · rw [List.isSome_head?, ← List.length_pos_iff, hlen, guards_pos_iff]
  · intro a ha
    obtain ⟨l', hl'⟩ := exists_logger?_act hl a
    have hkeep := (stack_act (u := u) ha).trans hstack
    exact ⟨l', hl', by simpa [Network.stack, hl'] using hkeep⟩

/-- Two loggers with spans in turns, of which the outer one is left first. -/
def crossed : List Act :=
  [.addLogger .info, .addLogger .warn, .enter ⟨0⟩ "outer", .enter ⟨1⟩ "other", .enter ⟨0⟩ "inner",
    .leave ⟨⟨0⟩, 1, "outer"⟩]

theorem open_spans_balance_crossed :
    let u := Usage.acts ⟨.empty, [], []⟩ crossed
    u.alive = [⟨⟨0⟩, 2, "inner"⟩, ⟨⟨1⟩, 1, "other"⟩] ∧ u.net.depth ⟨0⟩ = 1 ∧
      ∃ mark, u.net.Marks ⟨0⟩ mark ∧ mark.isSome := by
  obtain ⟨-, -, -, hall⟩ := open_spans_balance crossed
  obtain ⟨hdepth, -, -, ⟨mark, hmarks, -, hmark⟩, -⟩ :=
    hall ⟨0⟩ { level := .info, spans := [1], nextSpan := 3 } rfl
  exact ⟨rfl, hdepth, mark, hmarks, hmark.mpr ⟨⟨⟨0⟩, 2, "inner"⟩, by decide, rfl⟩⟩

end Usage

end Abnf.Log
