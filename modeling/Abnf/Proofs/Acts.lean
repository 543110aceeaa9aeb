import Abnf.Proofs.Rings
import Abnf.Proofs.SinkPaths

/-! Networks built, set and logged to, one act after the other, and what an act changes. -/

namespace Abnf.Log

inductive Act where
  | addLogger (level : Level)
  | addRing (capacity : Nat)
  | attach (id : LoggerId) (sink : Sink)
  | setLevel (id : LoggerId) (level : Level)
  | enter (id : LoggerId) (name : String)
  | leave (span : Span)
  | log (clock : Readings) (id : LoggerId) (entry : Entry)

namespace Network

/-- What is logged and never comes back counts as not logged. -/
def act (net : Network) : Act → Network
  | .addLogger level => (net.addLogger level).1
  | .addRing capacity => (net.addRing capacity).1
  | .attach id sink => net.attach id sink
  | .setLevel id level => net.setLevel id level
  | .enter id name => (net.enter id name).1
  | .leave span => net.leave span
  | .log clock id entry => (net.logged clock id entry).1

def acts (net : Network) (as : List Act) : Network := as.foldl act net

end Network

theorem getElem?_push_of_eq_some {α : Type} {xs : Array α} {i : Nat} {x : α} (h : xs[i]? = some x)
    (y : α) : (xs.push y)[i]? = some x := by
  obtain ⟨hlt, rfl⟩ := Array.getElem?_eq_some_iff.mp h
  exact Array.getElem?_push_lt hlt

theorem RingId.index_inj {a b : RingId} : a.index = b.index ↔ a = b := by
  cases a
  cases b
  simp

/-- Sinks stay where they are in the list. -/
def Logger.KeepsSinks (l l' : Logger) : Prop :=
  ∀ (i : Nat) (sink : Sink), l.sinks[i]? = some sink → l'.sinks[i]? = some sink

theorem Logger.KeepsSinks.refl (l : Logger) : l.KeepsSinks l := fun _ _ hs => hs

namespace Network

/-- The records that one act adds to a ring. -/
def gain (net : Network) (ring : RingId) : Act → List Record
  | .log clock id entry =>
    if (net.log clock id entry).isSome then
      entry.records clock (net.ways entry.level ring net.loggers.size id)
    else []
  | _ => []

variable {net : Network} {ring : RingId} {id : LoggerId} {path : List Nat} {passed : List Logger}
  {l : Logger} {r : Ring}

theorem acts_append (net : Network) (as bs : List Act) :
    net.acts (as ++ bs) = (net.acts as).acts bs := List.foldl_append

theorem loggers_deliver (net : Network) (sink : Sink) (record : Record) :
    (net.deliver sink record).1.loggers = net.loggers := by
  cases sink <;> rfl

theorem ring?_modifyRing (net : Network) (ring' : RingId) (f : Ring → Ring) :
    (net.modifyRing ring' f).ring? ring =
      (net.ring? ring).map fun r => if ring' = ring then f r else r := by
  unfold ring? modifyRing
  rw [Array.getElem?_modify]
  by_cases h : ring' = ring
  · simp [h]
  · simp [h, RingId.index_inj]

theorem ring?_deliver (net : Network) (sink : Sink) (record : Record) :
    (net.deliver sink record).1.ring? ring =
      (net.ring? ring).map fun r => r.pushAll (recordAt ring (sink, record)).toList := by
  cases sink with
  | ring ring' =>
    have hh := @ring?_modifyRing ring net ring' (·.push record)
    refine hh.trans (congrArg (Option.map · _) ?_)
    funext r
    by_cases h : ring' = ring
    · simp [h, recordAt, Ring.pushAll]
    · simp [h, recordAt, Ring.pushAll]
  | logger _ | outlet _ => simp [deliver, recordAt, Ring.pushAll]

theorem loggers_deliverAll (outs : List (Sink × Record)) (start : Network × List Line) :
    (deliverAll outs start).1.loggers = start.1.loggers := by
  induction outs generalizing start with
  | nil => rfl
  | cons out outs ih => exact (ih _).trans (loggers_deliver ..)

theorem ring?_deliverAll (outs : List (Sink × Record)) (start : Network × List Line) :
    (deliverAll outs start).1.ring? ring =
      (start.1.ring? ring).map fun r => r.pushAll (outs.filterMap (recordAt ring)) := by
  induction outs generalizing start with
  | nil => simp [deliverAll, Ring.pushAll]
  | cons out outs ih =>
    obtain ⟨sink, record⟩ := out
    refine (ih _).trans ?_
    rw [ring?_deliver start.1 sink record, Option.map_map]
    refine congrArg (Option.map · _) ?_
    funext r
    cases hs : recordAt ring (sink, record) <;> simp [hs, Ring.pushAll]

/-- What is logged either runs in a circle and leaves nothing behind, or is handed over on its routes. -/
theorem logged_cases (net : Network) (clock : Readings) (id : LoggerId) (entry : Entry) :
    (net.log clock id entry = none ∧ net.logged clock id entry = (net, [])) ∨
      ∃ outs, net.routes entry net.loggers.size clock id = some outs ∧
        net.log clock id entry = some (deliverAll outs (net, [])) ∧
        net.logged clock id entry = deliverAll outs (net, []) := by
  cases hroutes : net.routes entry net.loggers.size clock id with
  | none => exact .inl ⟨by rw [log, hroutes]; rfl, by rw [logged, log, hroutes]; rfl⟩
  | some outs => exact .inr ⟨outs, rfl, by rw [log, hroutes]; rfl, by rw [logged, log, hroutes]; rfl⟩

theorem loggers_logged (net : Network) (clock : Readings) (id : LoggerId) (entry : Entry) :
    (net.logged clock id entry).1.loggers = net.loggers := by
  rcases net.logged_cases clock id entry with ⟨-, hlogged⟩ | ⟨outs, -, -, hlogged⟩
  · rw [hlogged]
  · rw [hlogged]
    exact loggers_deliverAll outs (net, [])

theorem ring?_logged (net : Network) (clock : Readings) (id : LoggerId) (entry : Entry) :
    (net.logged clock id entry).1.ring? ring =
      (net.ring? ring).map fun r => r.pushAll (net.gain ring (.log clock id entry)) := by
  rcases net.logged_cases clock id entry with ⟨hlog, hlogged⟩ | ⟨outs, hroutes, hlog, hlogged⟩
  · simp [hlogged, gain, hlog, Ring.pushAll]
  · rw [hlogged, ring?_deliverAll, filterMap_routes hroutes, gain, hlog, Option.isSome_some, if_pos rfl]

theorem logger?_modifyLogger (net : Network) (id' : LoggerId) (f : Logger → Logger) :
    (net.modifyLogger id' f).logger? id =
      (net.logger? id).map fun l => if id' = id then f l else l := by
  unfold logger? modifyLogger
  rw [Array.getElem?_modify]
  by_cases h : id' = id
  · simp [h]
  · simp [h, LoggerId.index_inj]

/-- What a change leaves of each logger is left of the loggers of a network. -/
theorem map_logger?_modifyLogger {α : Type} {f : Logger → Logger} {g : Logger → α} (h : ∀ l, g (f l) = g l)
    (net : Network) (id' id : LoggerId) :
    ((net.modifyLogger id' f).logger? id).map g = (net.logger? id).map g := by
  rw [logger?_modifyLogger, Option.map_map]
  congr 1
  funext l
  by_cases hid : id' = id <;> simp [hid, h]

theorem exists_logger?_modifyLogger (h : net.logger? id = some l) (id' : LoggerId) {f : Logger → Logger}
    (hf : l.KeepsSinks (f l)) :
    ∃ l', (net.modifyLogger id' f).logger? id = some l' ∧ l.KeepsSinks l' := by
  refine ⟨if id' = id then f l else l, by rw [logger?_modifyLogger, h]; rfl, ?_⟩
  by_cases hi : id' = id
  · rw [if_pos hi]
    exact hf
  · rw [if_neg hi]
    exact .refl l

theorem exists_logger?_act (h : net.logger? id = some l) (a : Act) :
    ∃ l', (net.act a).logger? id = some l' ∧ l.KeepsSinks l' := by
  cases a with
  | addLogger level => exact ⟨l, getElem?_push_of_eq_some h _, .refl l⟩
  | addRing capacity => exact ⟨l, h, .refl l⟩
  | attach id' sink =>
    refine exists_logger?_modifyLogger h id' ?_
    intro i sink' hs
    exact getElem?_push_of_eq_some hs sink
  | setLevel id' level => exact exists_logger?_modifyLogger h id' fun _ _ hs => hs
  | enter id' name => exact exists_logger?_modifyLogger h id' fun _ _ hs => hs
  | leave span => exact exists_logger?_modifyLogger h span.logger fun _ _ hs => hs
  | log clock id' entry =>
    refine ⟨l, ?_, .refl l⟩
    show (net.logged clock id' entry).1.logger? id = some l
    rw [logger?, loggers_logged]
    exact h

theorem ring?_act (h : net.ring? ring = some r) (a : Act) :
    (net.act a).ring? ring = some (r.pushAll (net.gain ring a)) := by
  cases a with
  | addRing capacity => exact getElem?_push_of_eq_some h _
  | log clock id entry =>
    have hl : (net.act (.log clock id entry)).ring? ring = _ := ring?_logged net clock id entry
    rw [hl, h]
    rfl
  | addLogger _ | attach _ _ | setLevel _ _ | enter _ _ | leave _ => exact h

/-- A ring that an act brings in is empty. -/
theorem records_of_ring?_act (h : net.ring? ring = none) {a : Act}
    (ha : (net.act a).ring? ring = some r) : r.records = [] := by
  cases a with
  | addRing capacity =>
    have hp : (net.act (.addRing capacity)).rings = net.rings.push (.new capacity) := rfl
    rw [ring?, hp, Array.getElem?_push] at ha
    split at ha
    · rw [← Option.some.inj ha]
      rfl
    · exact absurd (h.symm.trans ha) (by simp)
  | log clock id entry =>
    have hl : (net.act (.log clock id entry)).ring? ring = _ := ring?_logged net clock id entry
    rw [hl, h] at ha
    simp at ha
  | addLogger _ | attach _ _ | setLevel _ _ | enter _ _ | leave _ =>
    exact absurd (h.symm.trans ha) (by simp)

/-- Sinks come only with being attached. -/
theorem sink_of_act {l' : Logger} {sink : Sink} {a : Act}
    (hl : (net.act a).logger? id = some l') (hs : sink ∈ l'.sinks) :
    a = .attach id sink ∨ ∃ l, net.logger? id = some l ∧ sink ∈ l.sinks := by
  -- setting a level, entering a span and leaving one leave all sinks where they are
  have hkeep : ∀ (id' : LoggerId) (f : Logger → Logger), (∀ l, (f l).sinks = l.sinks) →
      (net.modifyLogger id' f).logger? id = some l' → ∃ l, net.logger? id = some l ∧ sink ∈ l.sinks := by
    intro id' f hf hl'
    have hsinks := map_logger?_modifyLogger hf net id' id
    rw [hl', Option.map_some] at hsinks
    obtain ⟨l, hbefore, hsame⟩ := Option.map_eq_some_iff.mp hsinks.symm
    exact ⟨l, hbefore, hsame ▸ hs⟩
  cases a with
  | addLogger level =>
    have hpush : (net.loggers.push { level })[id.index]? = some l' := hl
    rw [Array.getElem?_push] at hpush
    split at hpush
    · obtain rfl := Option.some.inj hpush
      simp at hs
    · exact .inr ⟨l', hpush, hs⟩
  | addRing capacity => exact .inr ⟨l', hl, hs⟩
  | attach id' sink' =>
    have hmodify : (net.modifyLogger id' fun l => { l with sinks := l.sinks.push sink' }).logger? id =
        some l' := hl
    rw [logger?_modifyLogger] at hmodify
    obtain ⟨l, hbefore, rfl⟩ := Option.map_eq_some_iff.mp hmodify
    by_cases hid : id' = id
    · rw [if_pos hid] at hs
      rcases Array.mem_push.mp hs with hold | rfl
      · exact .inr ⟨l, hbefore, hold⟩
      · exact .inl (hid ▸ rfl)
    · rw [if_neg hid] at hs
      exact .inr ⟨l, hbefore, hs⟩
  | setLevel id' level => exact .inr (hkeep id' (fun l => { l with level }) (fun _ => rfl) hl)
  | enter id' name =>
    exact .inr (hkeep id' (fun l => { l with spans := l.nextSpan :: l.spans, nextSpan := l.nextSpan + 1 })
      (fun _ => rfl) hl)
  | leave span =>
    exact .inr (hkeep span.logger (fun l => { l with spans := l.spans.tail }) (fun _ => rfl) hl)
  | log clock id' entry =>
    have hsame : (net.logged clock id' entry).1.logger? id = some l' := hl
    rw [logger?, loggers_logged] at hsame
    exact .inr ⟨l', hsame, hs⟩

theorem Feeds.act {inner : LoggerId} (h : net.Feeds id inner) (a : Act) : (net.act a).Feeds id inner := by
  obtain ⟨l, hl, hs⟩ := h
  obtain ⟨i, hi⟩ := Array.mem_iff_getElem?.mp hs
  obtain ⟨l', hl', hkeep⟩ := exists_logger?_act hl a
  exact ⟨l', hl', Array.mem_of_getElem? (hkeep i _ hi)⟩

/-- A logger that was just added hands on to no other one. -/
theorem Acyclic.addLogger (h : net.Acyclic) (level : Level) : (net.addLogger level).1.Acyclic := by
  intro id hround
  refine h id (Relation.TransGen.mono ?_ _ _ hround)
  rintro x y ⟨l, hl, hs⟩
  exact (@sink_of_act net x l (.logger y) (.addLogger level) hl hs).resolve_left (by simp)

/-- Acts add joints and take none away, so a cycle once made would stay. -/
theorem Acyclic.of_acts {as : List Act} (h : (net.acts as).Acyclic) : net.Acyclic := by
  induction as generalizing net with
  | nil => exact h
  | cons a as ih =>
    have hact : (net.act a).Acyclic := ih h
    intro id hid
    exact hact id (Relation.TransGen.mono (fun _ _ hf => hf.act a) _ _ hid)

end Network

variable {net : Network} {ring : RingId} {id : LoggerId} {path : List Nat} {passed : List Logger}

theorem SinkPath.act (h : SinkPath net ring id path passed) (a : Act) :
    ∃ passed', SinkPath (net.act a) ring id path passed' := by
  induction h with
  | last hl hs =>
    obtain ⟨l', hl', hkeep⟩ := Network.exists_logger?_act hl a
    exact ⟨_, .last hl' (hkeep _ _ hs)⟩
  | pass hl hs _ ih =>
    obtain ⟨l', hl', hkeep⟩ := Network.exists_logger?_act hl a
    obtain ⟨passed', hpath⟩ := ih
    exact ⟨_, .pass hl' (hkeep _ _ hs) hpath⟩

theorem SinkPath.acts (h : SinkPath net ring id path passed) (as : List Act) :
    ∃ passed', SinkPath (net.acts as) ring id path passed' := by
  induction as generalizing net passed with
  | nil => exact ⟨passed, h⟩
  | cons a as ih =>
    obtain ⟨passed', hact⟩ := h.act a
    exact ih hact

/-- No ring is overfull, and no record is in a ring that nothing leads to. -/
structure Network.Orderly (net : Network) : Prop where
  fit : ∀ (ring : RingId) (r : Ring), net.ring? ring = some r → r.records.length ≤ r.capacity
  fed : ∀ (ring : RingId) (r : Ring), net.ring? ring = some r → r.records ≠ [] →
    ∃ id path passed, SinkPath net ring id path passed

namespace Network

theorem orderly_empty : empty.Orderly := by
  constructor <;> simp [empty, ring?]

theorem Orderly.act (h : net.Orderly) (a : Act) : (net.act a).Orderly := by
  constructor
  · intro ring r' hr'
    cases hr : net.ring? ring with
    | none => simp [records_of_ring?_act hr hr']
    | some r =>
      obtain rfl : r.pushAll (net.gain ring a) = r' := Option.some.inj ((ring?_act hr a).symm.trans hr')
      exact Ring.length_records_pushAll_le (h.fit ring r hr) _
  · intro ring r' hr' hne
    cases hr : net.ring? ring with
    | none => exact absurd (records_of_ring?_act hr hr') hne
    | some r =>
      obtain rfl : r.pushAll (net.gain ring a) = r' := Option.some.inj ((ring?_act hr a).symm.trans hr')
      have hpath : ∃ id path passed, SinkPath net ring id path passed := by
        by_cases hg : net.gain ring a = []
        · rw [hg] at hne
          exact h.fed ring r hr hne
        · cases a with
          | log clock id entry =>
            have hways : net.ways entry.level ring net.loggers.size id ≠ [] := by
              intro hnone
              simp [gain, hnone, Entry.records] at hg
            obtain ⟨⟨path, passed⟩, hway⟩ := List.exists_mem_of_ne_nil _ hways
            exact ⟨id, path, passed, (mem_ways.mp hway).1⟩
          | _ => exact absurd rfl hg
      obtain ⟨id, path, passed, hpath⟩ := hpath
      obtain ⟨passed', hpath'⟩ := hpath.act a
      exact ⟨id, path, passed', hpath'⟩

theorem Orderly.acts (h : net.Orderly) (as : List Act) : (net.acts as).Orderly := by
  induction as generalizing net with
  | nil => exact h
  | cons a as ih => exact ih (h.act a)

end Network

end Abnf.Log
