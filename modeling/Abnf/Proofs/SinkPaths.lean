import Abnf.Proofs.Circles
import Mathlib.Data.List.Lex
import Mathlib.Data.List.Sort

/-! The ways from a logger to a ring, through other loggers. An entry that comes back took every way
whose loggers all let it through, each way once. -/

namespace Abnf.Log

/-- A way from a logger to a ring, told by the number of the sink to take at each of the loggers
passed. -/
inductive SinkPath (net : Network) (ring : RingId) : LoggerId → List Nat → List Logger → Prop
  | last {id : LoggerId} {l : Logger} {i : Nat} (hl : net.logger? id = some l)
      (hs : l.sinks[i]? = some (.ring ring)) : SinkPath net ring id [i] [l]
  | pass {id inner : LoggerId} {l : Logger} {i : Nat} {path : List Nat} {passed : List Logger}
      (hl : net.logger? id = some l) (hs : l.sinks[i]? = some (.logger inner))
      (h : SinkPath net ring inner path passed) : SinkPath net ring id (i :: path) (l :: passed)

abbrev Way := List Nat × List Logger

/-- The ways that are open for entries of a level, in the order in which a walk meets them that takes
the sinks of each logger in turn and follows every one to its end. -/
structure OpenWays (net : Network) (level : Level) (ring : RingId) (id : LoggerId) (ways : List Way) :
    Prop where
  sorted : ways.Pairwise (·.1 < ·.1)
  mem_iff : ∀ path passed, (path, passed) ∈ ways ↔
    SinkPath net ring id path passed ∧ ∀ l ∈ passed, l.level.admits level = true

/-- The innermost span of the last logger passed. -/
def Way.span (way : Way) : Option Nat := way.2.getLast?.bind (·.spans.head?)

/-- The records of an entry that took some ways, one for each. They tell the time at the last logger
passed, to which all sinks taken lead but the last one. -/
def Entry.records (entry : Entry) (clock : Readings) (ways : List Way) : List Record :=
  ways.map fun way => { entry with time := clock way.1.dropLast, span := way.span }

variable {net : Network} {level : Level} {entry : Entry} {clock : Readings} {ring : RingId}
  {id : LoggerId} {path : List Nat} {passed : List Logger}

namespace SinkPath

theorem ne_nil (h : SinkPath net ring id path passed) : path ≠ [] ∧ passed ≠ [] := by
  cases h <;> simp

theorem exists_first (h : SinkPath net ring id path passed) :
    ∃ l, net.logger? id = some l ∧ l ∈ passed := by
  cases h with
  | last hl _ | pass hl _ _ => exact ⟨_, hl, List.mem_cons_self⟩

theorem passed_unique {passed' : List Logger} (h : SinkPath net ring id path passed)
    (h' : SinkPath net ring id path passed') : passed = passed' := by
  induction h generalizing passed' with
  | last hl hs =>
    cases h' with
    | last hl' _ => rw [Option.some.inj (hl.symm.trans hl')]
    | pass _ _ h' => exact absurd rfl h'.ne_nil.1
  | pass hl hs h ih =>
    cases h' with
    | last _ _ => exact absurd rfl h.ne_nil.1
    | pass hl' hs' h' =>
      obtain rfl := Option.some.inj (hl.symm.trans hl')
      obtain ⟨rfl⟩ := Option.some.inj (hs.symm.trans hs')
      rw [ih h']

theorem exists_fewer (h : SinkPath net ring id path passed)
    (hopen : ∀ l ∈ passed, l.level.admits entry.level = true) {hops : Nat}
    (hroutes : net.routes entry hops clock id ≠ none) : ∃ fewer, hops = fewer + 1 := by
  refine Nat.exists_eq_succ_of_ne_zero ?_
  rintro rfl
  obtain ⟨l, hl, hmem⟩ := h.exists_first
  exact hroutes (if_pos (Network.isEnabled_iff.mpr ⟨l, hl, hopen l hmem⟩))

/-- An entry that comes back has passed no more loggers than it was to pass. -/
theorem length_le_of_routes (h : SinkPath net ring id path passed)
    (hopen : ∀ l ∈ passed, l.level.admits entry.level = true) {hops : Nat}
    (hroutes : net.routes entry hops clock id ≠ none) : path.length ≤ hops := by
  induction h generalizing hops clock with
  | last hl hs =>
    obtain ⟨fewer, rfl⟩ := (SinkPath.last hl hs).exists_fewer hopen hroutes
    simp
  | @pass id inner l i path passed hl hs h ih =>
    obtain ⟨fewer, rfl⟩ := (SinkPath.pass hl hs h).exists_fewer hopen hroutes
    obtain ⟨hadmits, hrest⟩ := List.forall_mem_cons.mp hopen
    rw [Network.routes_succ hl hadmits] at hroutes
    have hinner := mt (fun hnone => Logger.outs_eq_none_iff.mpr ⟨i, inner, hs, hnone⟩) hroutes
    simpa using ih hrest hinner

end SinkPath

/-- There is one such list only: it is sorted, and its members are given. -/
theorem OpenWays.unique {ways ways' : List Way} (h : OpenWays net level ring id ways)
    (h' : OpenWays net level ring id ways') : ways = ways' := by
  refine List.Pairwise.eq_of_mem_iff h.sorted h'.sorted ?_
  rintro ⟨path, passed⟩
  rw [h.mem_iff, h'.mem_iff]

namespace Network

def waysBehind (ring : RingId) (inner : LoggerId → List Way) : Sink → List Way
  | .ring r => if r = ring then [([], [])] else []
  | .logger id => inner id
  | .outlet _ => []

/-- The open ways that pass at most some loggers. -/
def ways (net : Network) (level : Level) (ring : RingId) : Nat → LoggerId → List Way
  | 0, _ => []
  | hops + 1, id =>
    match net.logger? id with
    | none => []
    | some l =>
      if l.level.admits level then
        l.sinks.toList.zipIdx.flatMap fun (sink, i) =>
          (waysBehind ring (net.ways level ring hops) sink).map fun way => (i :: way.1, l :: way.2)
      else []

theorem mem_ways_succ {hops : Nat} : (path, passed) ∈ net.ways level ring (hops + 1) id ↔
    ∃ l i sink path' passed', net.logger? id = some l ∧ l.level.admits level = true ∧
      l.sinks[i]? = some sink ∧
      (path', passed') ∈ waysBehind ring (net.ways level ring hops) sink ∧
      path = i :: path' ∧ passed = l :: passed' := by
  cases hl : net.logger? id with
  | none => simp [ways, hl]
  | some l =>
    by_cases hadmits : l.level.admits level = true
    · simp only [ways, hl, hadmits, if_true, List.mem_flatMap, List.mem_map,
        List.mem_zipIdx_iff_getElem?, Array.getElem?_toList, Prod.exists, Prod.mk.injEq]
      constructor
      · rintro ⟨sink, i, hs, path', passed', hway, rfl, rfl⟩
        exact ⟨l, i, sink, path', passed', rfl, hadmits, hs, hway, rfl, rfl⟩
      · rintro ⟨_, i, sink, path', passed', ⟨rfl⟩, -, hs, hway, rfl, rfl⟩
        exact ⟨sink, i, hs, path', passed', hway, rfl, rfl⟩
    · simp only [ways, hl, hadmits]
      constructor
      · intro h
        simp at h
      · rintro ⟨_, _, _, _, _, ⟨rfl⟩, h, -⟩
        exact absurd h hadmits

/-- The list has just the ways that are open and not too long. The induction is on the length, and one
logger more is put before ways that its sinks lead to. -/
theorem mem_ways {hops : Nat} : (path, passed) ∈ net.ways level ring hops id ↔
    SinkPath net ring id path passed ∧ (∀ l ∈ passed, l.level.admits level = true) ∧
      path.length ≤ hops := by
  induction hops generalizing id path passed with
  | zero =>
    simp only [ways, List.not_mem_nil, Nat.le_zero, List.length_eq_zero_iff, false_iff, not_and]
    intro h _
    exact h.ne_nil.1
  | succ hops ih =>
    rw [mem_ways_succ]
    constructor
    · rintro ⟨l, i, sink, path', passed', hl, hadmits, hs, hway, rfl, rfl⟩
      cases sink with
      | ring r =>
        by_cases hr : r = ring
        · subst hr
          obtain ⟨rfl, rfl⟩ : path' = [] ∧ passed' = [] := by simpa [waysBehind] using hway
          exact ⟨.last hl hs, by simpa using hadmits, by simp⟩
        · simp [waysBehind, hr] at hway
      | logger inner =>
        obtain ⟨hpath, hopen, hlen⟩ := ih.mp hway
        refine ⟨.pass hl hs hpath, List.forall_mem_cons.mpr ⟨hadmits, hopen⟩, ?_⟩
        simpa using hlen
      | outlet _ => simp [waysBehind] at hway
    · rintro ⟨hpath, hopen, hlen⟩
      cases hpath with
      | @last _ l i hl hs =>
        exact ⟨l, i, .ring ring, [], [], hl, hopen l (by simp), hs, by simp [waysBehind], rfl, rfl⟩
      | @pass _ inner l i path' passed' hl hs h =>
        obtain ⟨hadmits, hrest⟩ := List.forall_mem_cons.mp hopen
        have hlen' : path'.length ≤ hops := by simpa using hlen
        exact ⟨l, i, .logger inner, path', passed', hl, hadmits, hs, ih.mpr ⟨h, hrest, hlen'⟩,
          rfl, rfl⟩

theorem pairwise_ways (hops : Nat) (id : LoggerId) :
    (net.ways level ring hops id).Pairwise (·.1 < ·.1) := by
  induction hops generalizing id with
  | zero => simp [ways]
  | succ hops ih =>
    rw [ways]
    split
    · exact .nil
    · next l _ =>
      split
      · refine List.pairwise_flatMap.mpr ⟨?_, ?_⟩
        · rintro ⟨sink, i⟩ -
          have hbehind : (waysBehind ring (net.ways level ring hops) sink).Pairwise (·.1 < ·.1) := by
            cases sink with
            | ring r =>
              rw [waysBehind]
              split <;> simp
            | logger inner => exact ih inner
            | outlet _ => exact .nil
          refine List.pairwise_map.mpr (hbehind.imp ?_)
          intro a b hab
          exact List.cons_lt_cons_iff.mpr (.inr ⟨rfl, hab⟩)
        · have hnumbers : (l.sinks.toList.zipIdx.map Prod.snd).Pairwise (· < ·) := by
            rw [List.zipIdx_map_snd]
            exact List.pairwise_lt_range' 1
          refine (List.pairwise_map.mp hnumbers).imp ?_
          rintro ⟨_, i⟩ ⟨_, j⟩ hij way hway way' hway'
          obtain ⟨a, -, rfl⟩ := List.mem_map.mp hway
          obtain ⟨b, -, rfl⟩ := List.mem_map.mp hway'
          exact List.cons_lt_cons_iff.mpr (.inl hij)
      · exact .nil

/-- Where nothing runs in a circle, the ways that pass at most as many loggers as there are are all the
open ways. -/
theorem openWays_ways (hcircles : ¬ net.Circles level id) (ring : RingId) :
    OpenWays net level ring id (net.ways level ring net.loggers.size id) := by
  have hroutes : net.routes ⟨level, "", ""⟩ net.loggers.size (fun _ => 0) id ≠ none :=
    mt routes_eq_none_iff.mp hcircles
  constructor
  · exact pairwise_ways _ id
  · intro path passed
    rw [mem_ways]
    constructor
    · rintro ⟨hpath, hopen, -⟩
      exact ⟨hpath, hopen⟩
    · rintro ⟨hpath, hopen⟩
      exact ⟨hpath, hopen, hpath.length_le_of_routes hopen hroutes⟩

/-- The record that arrives at a ring, if that is where a route ends. -/
def recordAt (ring : RingId) (out : Sink × Record) : Option Record :=
  if out.1 = .ring ring then some out.2 else none

theorem records_cons (l : Logger) (i : Nat) {ways : List Way} (h : ∀ way ∈ ways, way.1 ≠ [] ∧ way.2 ≠ []) :
    entry.records clock (ways.map fun way => (i :: way.1, l :: way.2)) =
      entry.records (clock.behind i) ways := by
  rw [Entry.records, List.map_map]
  refine List.map_congr_left fun way hway => ?_
  obtain ⟨hpath, hpassed⟩ := h way hway
  simp only [Function.comp_apply, Way.span, List.dropLast_cons_of_ne_nil hpath,
    List.getLast?_cons_of_ne_nil hpassed, Readings.behind]

/-- Routes end at a ring as often as open ways lead there. -/
theorem filterMap_routes {hops : Nat} {outs : List (Sink × Record)}
    (h : net.routes entry hops clock id = some outs) :
    outs.filterMap (recordAt ring) = entry.records clock (net.ways entry.level ring hops id) := by
  induction hops using Nat.strong_induction_on generalizing clock id outs with
  | _ hops ih =>
    obtain ⟨hclosed, rfl⟩ | ⟨l, fewer, rfl, hl, hadmits, hinner, rfl⟩ := routes_eq_some h
    · have hnone : net.ways entry.level ring hops id = [] := by
        rw [List.eq_nil_iff_forall_not_mem]
        rintro ⟨path, passed⟩ hway
        obtain ⟨hpath, hopen, -⟩ := mem_ways.mp hway
        obtain ⟨l, hl, hmem⟩ := hpath.exists_first
        exact hclosed (isEnabled_iff.mpr ⟨l, hl, hopen l hmem⟩)
      rw [hnone]
      rfl
    · simp only [ways, hl, hadmits, if_true]
      rw [List.filterMap_flatMap, Entry.records, List.map_flatMap]
      refine List.flatMap_congr ?_
      rintro ⟨sink, i⟩ hsink
      cases sink with
      | ring r =>
        by_cases hr : r = ring
        · simp [Record.out, waysBehind, recordAt, hr, Way.span, Logger.record]
        · simp [Record.out, waysBehind, recordAt, hr]
      | logger inner =>
        have hs : l.sinks[i]? = some (.logger inner) := by
          simpa [List.mem_zipIdx_iff_getElem?] using hsink
        obtain ⟨there, hthere⟩ := hinner i inner hs
        have hne : ∀ way ∈ net.ways entry.level ring fewer inner, way.1 ≠ [] ∧ way.2 ≠ [] :=
          fun _ hway => (mem_ways.mp hway).1.ne_nil
        have hbehind := @records_cons entry clock l i _ hne
        rw [Entry.records] at hbehind
        rw [Record.out, hthere, Option.getD_some, ih fewer (Nat.lt_succ_self fewer) hthere, waysBehind,
          hbehind]
      | outlet _ => simp [Record.out, waysBehind, recordAt]

end Network

end Abnf.Log
