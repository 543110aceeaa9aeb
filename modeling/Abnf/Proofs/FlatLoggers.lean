import Abnf.Proofs.Logging

/-! What is handed over when an entry is logged: the records that leave, and what the sinks of a logger
get that hands on to no other logger. -/

namespace Abnf.Log

/-- What leaves of a record that is handed to a sink. -/
def Sink.line? (sink : Sink) (record : Record) : Option Line :=
  match sink with
  | .outlet way => some ⟨way, record⟩
  | _ => none

def Sink.ring? : Sink → Option RingId
  | .ring id => some id
  | _ => none

namespace Network

/-- Records handed to each of some sinks, one record after the other. Nothing else changes. -/
structure HandsOver (sinks : List Sink) (records : List Record) (before after : Network)
    (lines : List Line) : Prop where
  loggers : after.loggers = before.loggers
  ring? : ∀ ring, after.ring? ring =
    (before.ring? ring).map fun r => if .ring ring ∈ sinks then r.pushAll records else r
  lines : lines = records.flatMap fun record => sinks.filterMap (·.line? record)

variable {net a b c : Network} {sinks : List Sink} {id : LoggerId} {l : Logger}

theorem lines_deliverAll (outs : List (Sink × Record)) (start : Network × List Line) :
    (deliverAll outs start).2 = start.2 ++ outs.filterMap fun out => out.1.line? out.2 := by
  induction outs generalizing start with
  | nil => simp [deliverAll]
  | cons out outs ih =>
    obtain ⟨sink, record⟩ := out
    refine (ih _).trans ?_
    cases sink <;> simp [deliver, Sink.line?]

theorem HandsOver.refl (sinks : List Sink) (net : Network) : HandsOver sinks [] net net [] := by
  constructor <;> simp [Ring.pushAll]

theorem HandsOver.trans {records records' : List Record} {lines lines' : List Line}
    (h : HandsOver sinks records a b lines) (h' : HandsOver sinks records' b c lines') :
    HandsOver sinks (records ++ records') a c (lines ++ lines') := by
  constructor
  · exact h'.loggers.trans h.loggers
  · intro ring
    rw [h'.ring?, h.ring?, Option.map_map]
    refine congrArg (Option.map · _) ?_
    funext r
    by_cases hs : Sink.ring ring ∈ sinks <;> simp [hs, Ring.pushAll]
  · rw [h.lines, h'.lines, List.flatMap_append]

/-- A ring that is among some sinks once gets what is handed to them once. -/
theorem filterMap_recordAt (ring : RingId) (record : Record) (hnodup : (sinks.filterMap Sink.ring?).Nodup) :
    (sinks.map fun sink => (sink, record)).filterMap (recordAt ring) =
      if .ring ring ∈ sinks then [record] else [] := by
  induction sinks with
  | nil => rfl
  | cons sink sinks ih =>
    cases sink with
    | ring id =>
      obtain ⟨hnotin, hnodup⟩ := List.nodup_cons.mp hnodup
      rw [List.map_cons, List.filterMap_cons, ih hnodup]
      by_cases hs : id = ring
      · subst hs
        have hnotin' : .ring id ∉ sinks := fun hm => hnotin (List.mem_filterMap.mpr ⟨_, hm, rfl⟩)
        simp [recordAt, hnotin']
      · have hs' : ¬ ring = id := fun he => hs he.symm
        simp [recordAt, hs, hs']
    | logger _ | outlet _ =>
      rw [List.map_cons, List.filterMap_cons, ih hnodup]
      simp [recordAt]

theorem outs_of_flat (hlast : ∀ inner, .logger inner ∉ l.sinks) (record : Record) (clock : Readings)
    (beyond : Readings → LoggerId → Option (List (Sink × Record))) :
    l.outs record clock beyond = some (l.sinks.toList.map fun sink => (sink, record)) := by
  refine Logger.outs_eq_some_iff.mpr ⟨fun i inner hs => ?_, ?_⟩
  · exact absurd (Array.mem_of_getElem? hs) (hlast inner)
  · rw [← List.zipIdx_map_fst 0 l.sinks.toList, List.map_map, List.map_eq_flatMap, List.zipIdx_map_fst]
    refine List.flatMap_congr ?_
    rintro ⟨sink, i⟩ hsink
    cases sink with
    | logger inner => exact absurd (Array.mem_toList_iff.mp (List.fst_mem_of_mem_zipIdx hsink)) (hlast inner)
    | ring _ | outlet _ => rfl

/-- A logger that hands on to no other one hands what it lets through to each of its sinks. -/
theorem handsOver_log (hl : net.logger? id = some l) (hlast : ∀ inner, .logger inner ∉ l.sinks)
    (hnodup : (l.sinks.toList.filterMap Sink.ring?).Nodup) (clock : Readings) (entry : Entry) :
    ∃ after lines, net.log clock id entry = some (after, lines) ∧
      HandsOver l.sinks.toList (if l.level.admits entry.level then [l.record (clock []) entry] else [])
        net after lines := by
  by_cases hadmits : l.level.admits entry.level = true
  · let outs := l.sinks.toList.map fun sink => (sink, l.record (clock []) entry)
    have hlog : net.log clock id entry = some (deliverAll outs (net, [])) := by
      rw [log_of_admits hl hadmits, outs_of_flat hlast]
      rfl
    refine ⟨(deliverAll outs (net, [])).1, (deliverAll outs (net, [])).2, hlog, ?_⟩
    rw [if_pos hadmits]
    constructor
    · exact loggers_deliverAll outs (net, [])
    · intro ring
      rw [ring?_deliverAll, filterMap_recordAt ring _ hnodup]
      refine congrArg (Option.map · _) ?_
      funext r
      by_cases hs : Sink.ring ring ∈ l.sinks.toList <;> simp [hs, Ring.pushAll]
    · rw [lines_deliverAll, List.filterMap_map]
      simp
  · have hclosed : ¬ net.isEnabled id entry.level = true := by
      simpa [isEnabled, hl] using hadmits
    refine ⟨net, [], by rw [log, routes_of_not_isEnabled hclosed]; rfl, ?_⟩
    rw [if_neg hadmits]
    exact .refl l.sinks.toList net

/-- Entries logged one after the other are handed to each sink in that order. -/
theorem handsOver_logAll (hl : net.logger? id = some l) (hlast : ∀ inner, .logger inner ∉ l.sinks)
    (hnodup : (l.sinks.toList.filterMap Sink.ring?).Nodup) (clocks : Nat → Readings) (k : Nat)
    (entries : List Entry) :
    ∃ last lines, net.logAll clocks id k entries = some (last, lines) ∧
      HandsOver l.sinks.toList (l.heard clocks k entries) net last lines := by
  induction entries generalizing net k with
  | nil => exact ⟨net, [], rfl, .refl l.sinks.toList net⟩
  | cons entry entries ih =>
    obtain ⟨after, here, hlog, hone⟩ := handsOver_log hl hlast hnodup (clocks k) entry
    have hsame : after.logger? id = some l := by
      rw [logger?, hone.loggers]
      exact hl
    obtain ⟨last, more, hall, hrest⟩ := ih hsame (net.through id entry k)
    refine ⟨last, here ++ more, logAll_cons_eq_some.mpr ⟨after, here, more, hlog, hall, rfl⟩, ?_⟩
    rw [heard_cons hl]
    exact hone.trans hrest

end Network

end Abnf.Log
