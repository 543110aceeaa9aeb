import Abnf.Log.Network
import Mathlib.Data.List.Chain
import Mathlib.Logic.Relation

/-! When something that is logged comes back: unless it is handed on in a circle, by loggers that all let it
through. On a way without a circle no logger is passed twice, so it is no longer than there are loggers. -/

namespace Abnf.Log

theorem LoggerId.index_inj {a b : LoggerId} : a.index = b.index ↔ a = b := by
  cases a
  cases b
  simp

theorem pairwise_transGen {r : LoggerId → LoggerId → Prop} {ids : List LoggerId} (h : ids.IsChain r) :
    ids.Pairwise (Relation.TransGen r) :=
  (h.imp fun _ _ hr => Relation.TransGen.single hr).pairwise

/-- More loggers in a row than there are: to one of them it is a way round from itself. -/
theorem exists_circle_of_chain {r : LoggerId → LoggerId → Prop} {ids : List LoggerId} {n : Nat}
    (hchain : ids.IsChain r) (hlt : ∀ x ∈ ids, x.index < n) (hlen : n < ids.length) :
    ∃ x ∈ ids, Relation.TransGen r x x := by
  by_contra hnone
  have hnodup : (ids.map LoggerId.index).Nodup := by
    refine List.pairwise_map.mpr ((pairwise_transGen hchain).imp_of_mem ?_)
    intro a b ha _ hab he
    obtain rfl : a = b := LoggerId.index_inj.mp he
    exact hnone ⟨a, ha, hab⟩
  have hsub : ids.map LoggerId.index ⊆ List.range n := by
    intro i hi
    obtain ⟨x, hx, rfl⟩ := List.mem_map.mp hi
    exact List.mem_range.mpr (hlt x hx)
  have hle := hnodup.length_le_of_subset hsub
  simp only [List.length_map, List.length_range] at hle
  omega

theorem flatten_mapM_eq_some {α β : Type} {f : α → Option (List β)} {xs : List α} {ys : List β} :
    List.flatten <$> xs.mapM f = some ys ↔
      (∀ x ∈ xs, f x ≠ none) ∧ ys = xs.flatMap fun x => (f x).getD [] := by
  induction xs generalizing ys with
  | nil => simp [eq_comm]
  | cons x xs ih =>
    have hcons : List.flatten <$> (x :: xs).mapM f =
        (f x).bind fun here => (List.flatten <$> xs.mapM f).map (here ++ ·) := by
      rw [List.mapM_cons]
      cases f x <;> cases xs.mapM f <;> rfl
    rw [hcons, List.flatMap_cons, List.forall_mem_cons]
    simp only [Option.bind_eq_some_iff, Option.map_eq_some_iff, ih]
    constructor
    · rintro ⟨here, hx, _, ⟨hsome, rfl⟩, rfl⟩
      exact ⟨⟨by simp [hx], hsome⟩, by rw [hx, Option.getD_some]⟩
    · rintro ⟨⟨hx, hsome⟩, rfl⟩
      obtain ⟨here, hx⟩ := Option.ne_none_iff_exists'.mp hx
      exact ⟨here, hx, _, ⟨hsome, rfl⟩, by rw [hx, Option.getD_some]⟩

section

variable {l : Logger} {record : Record} {clock : Readings}
  {beyond : Readings → LoggerId → Option (List (Sink × Record))}

theorem Logger.outs_eq_some_iff {outs : List (Sink × Record)} :
    l.outs record clock beyond = some outs ↔
      (∀ i inner, l.sinks[i]? = some (.logger inner) → beyond (clock.behind i) inner ≠ none) ∧
        outs = l.sinks.toList.zipIdx.flatMap fun s => (record.out clock beyond s).getD [] := by
  rw [Logger.outs, flatten_mapM_eq_some]
  refine and_congr_left fun _ => ?_
  constructor
  · intro h i inner hs
    exact h (.logger inner, i) (by simpa [List.mem_zipIdx_iff_getElem?] using hs)
  · rintro h ⟨sink, i⟩ hs
    cases sink with
    | logger inner => exact h i inner (by simpa [List.mem_zipIdx_iff_getElem?] using hs)
    | ring _ | outlet _ => simp [Record.out]

theorem Logger.outs_eq_none_iff : l.outs record clock beyond = none ↔
    ∃ i inner, l.sinks[i]? = some (.logger inner) ∧ beyond (clock.behind i) inner = none := by
  constructor
  · intro h
    by_contra hnone
    simp only [not_exists, not_and] at hnone
    exact absurd (h.symm.trans (outs_eq_some_iff.mpr ⟨hnone, rfl⟩)) (by simp)
  · rintro ⟨i, inner, hs, hbeyond⟩
    cases houts : l.outs record clock beyond with
    | none => rfl
    | some outs => exact absurd hbeyond ((outs_eq_some_iff.mp houts).1 i inner hs)

end

namespace Network

section

variable (net : Network)

/-- A logger hands on to another. -/
def Feeds (id inner : LoggerId) : Prop := ∃ l, net.logger? id = some l ∧ .logger inner ∈ l.sinks

def Acyclic : Prop := ∀ id, ¬ Relation.TransGen net.Feeds id id

/-- A logger lets entries of a level through and hands them on to another. -/
def Hands (level : Level) (id inner : LoggerId) : Prop :=
  ∃ l, net.logger? id = some l ∧ l.level.admits level = true ∧ .logger inner ∈ l.sinks

/-- Entries of a level that are logged get to a logger that hands them on, by itself or through others,
to itself again. -/
def Circles (level : Level) (id : LoggerId) : Prop :=
  ∃ x, Relation.ReflTransGen (net.Hands level) id x ∧ Relation.TransGen (net.Hands level) x x

end

variable {net net' : Network} {level : Level} {entry : Entry} {clock : Readings} {id : LoggerId}
  {l : Logger} {hops : Nat}

theorem isEnabled_iff : net.isEnabled id level = true ↔
    ∃ l, net.logger? id = some l ∧ l.level.admits level = true := by
  cases hl : net.logger? id <;> simp [isEnabled, hl]

theorem routes_of_not_isEnabled (h : ¬ net.isEnabled id entry.level = true) (hops : Nat) (clock : Readings) :
    net.routes entry hops clock id = some [] := by
  cases hops with
  | zero => rw [routes, if_neg h]
  | succ hops =>
    rw [routes]
    split
    · rfl
    · next l hl =>
      rw [if_neg]
      exact fun hadmits => h (isEnabled_iff.mpr ⟨l, hl, hadmits⟩)

theorem routes_succ (hl : net.logger? id = some l) (hadmits : l.level.admits entry.level = true)
    (hops : Nat) (clock : Readings) :
    net.routes entry (hops + 1) clock id =
      l.outs (l.record (clock []) entry) clock (net.routes entry hops) := by
  simp only [routes, hl]
  exact if_pos hadmits

/-- A logger that lets an entry through hands its record of it to its sinks. -/
theorem log_of_admits (hl : net.logger? id = some l) (hadmits : l.level.admits entry.level = true)
    (clock : Readings) : net.log clock id entry =
      (l.outs (l.record (clock []) entry) clock (net.routes entry (net.loggers.size - 1))).map
        (deliverAll · (net, [])) := by
  have hlt : id.index < net.loggers.size := (Array.getElem?_eq_some_iff.mp hl).1
  have hsize : net.loggers.size = (net.loggers.size - 1) + 1 := by omega
  rw [log, hsize, routes_succ hl hadmits, ← hsize]

/-- Routes end where they begin if the entry is not let through, and else behind the sinks. -/
theorem routes_eq_some {outs : List (Sink × Record)} (h : net.routes entry hops clock id = some outs) :
    (¬ net.isEnabled id entry.level = true ∧ outs = []) ∨
      ∃ l fewer, hops = fewer + 1 ∧ net.logger? id = some l ∧ l.level.admits entry.level = true ∧
        (∀ i inner, l.sinks[i]? = some (.logger inner) →
          ∃ there, net.routes entry fewer (clock.behind i) inner = some there) ∧
        outs = l.sinks.toList.zipIdx.flatMap fun s =>
          ((l.record (clock []) entry).out clock (net.routes entry fewer) s).getD [] := by
  by_cases henabled : net.isEnabled id entry.level = true
  · obtain ⟨l, hl, hadmits⟩ := isEnabled_iff.mp henabled
    cases hops with
    | zero =>
      rw [routes, if_pos henabled] at h
      cases h
    | succ fewer =>
      rw [routes_succ hl hadmits] at h
      obtain ⟨hinner, houts⟩ := Logger.outs_eq_some_iff.mp h
      exact .inr ⟨l, fewer, rfl, hl, hadmits,
        fun i inner hs => Option.ne_none_iff_exists'.mp (hinner i inner hs), houts⟩
  · rw [routes_of_not_isEnabled henabled] at h
    exact .inl ⟨henabled, (Option.some.inj h).symm⟩

/-- Without routes there is a way over more loggers than were to be passed. -/
theorem exists_chain_of_routes_eq_none (h : net.routes entry hops clock id = none) :
    ∃ ids : List LoggerId, ids.length = hops ∧ (id :: ids).IsChain (net.Hands entry.level) ∧
      ∀ x ∈ id :: ids, net.isEnabled x entry.level = true := by
  have henabled : net.isEnabled id entry.level = true := by
    by_contra hnot
    rw [routes_of_not_isEnabled hnot] at h
    cases h
  induction hops generalizing clock id with
  | zero => exact ⟨[], rfl, by simp, by simpa using henabled⟩
  | succ hops ih =>
    obtain ⟨l, hl, hadmits⟩ := isEnabled_iff.mp henabled
    rw [routes_succ hl hadmits] at h
    obtain ⟨i, inner, hs, hnone⟩ := Logger.outs_eq_none_iff.mp h
    have hinner : net.isEnabled inner entry.level = true := by
      by_contra hnot
      rw [routes_of_not_isEnabled hnot] at hnone
      cases hnone
    obtain ⟨ids, hlen, hchain, hall⟩ := ih hnone hinner
    have hhands : net.Hands entry.level id inner := ⟨l, hl, hadmits, Array.mem_of_getElem? hs⟩
    exact ⟨inner :: ids, by simp [hlen], List.isChain_cons_cons.mpr ⟨hhands, hchain⟩,
      List.forall_mem_cons.mpr ⟨henabled, hall⟩⟩

theorem Circles.exists_inner (h : net.Circles level id) :
    ∃ inner, net.Hands level id inner ∧ net.Circles level inner := by
  obtain ⟨x, hreach, hround⟩ := h
  rcases hreach.cases_head with rfl | ⟨inner, hhands, hrest⟩
  · obtain ⟨inner, hhands, hback⟩ := Relation.TransGen.head'_iff.mp hround
    exact ⟨inner, hhands, id, hback, hround⟩
  · exact ⟨inner, hhands, x, hrest, hround⟩

/-- In a circle an entry is handed on however many loggers it has passed. -/
theorem Circles.routes_eq_none (h : net.Circles entry.level id) (hops : Nat) (clock : Readings) :
    net.routes entry hops clock id = none := by
  induction hops generalizing clock id with
  | zero =>
    obtain ⟨_, ⟨l, hl, hadmits, -⟩, -⟩ := h.exists_inner
    rw [routes, if_pos (isEnabled_iff.mpr ⟨l, hl, hadmits⟩)]
  | succ hops ih =>
    obtain ⟨inner, ⟨l, hl, hadmits, hs⟩, hinner⟩ := h.exists_inner
    obtain ⟨i, hi⟩ := Array.mem_iff_getElem?.mp hs
    rw [routes_succ hl hadmits]
    exact Logger.outs_eq_none_iff.mpr ⟨i, inner, hi, ih hinner _⟩

/-- What passes more loggers than there are runs in a circle, and only that does. -/
theorem routes_eq_none_iff :
    net.routes entry net.loggers.size clock id = none ↔ net.Circles entry.level id := by
  constructor
  · intro h
    obtain ⟨ids, hlen, hchain, hall⟩ := exists_chain_of_routes_eq_none h
    have hlt : ∀ x ∈ id :: ids, x.index < net.loggers.size := by
      intro x hx
      obtain ⟨l, hl, -⟩ := isEnabled_iff.mp (hall x hx)
      exact (Array.getElem?_eq_some_iff.mp hl).1
    obtain ⟨x, hx, hround⟩ := exists_circle_of_chain hchain hlt (by simp [hlen])
    refine ⟨x, ?_, hround⟩
    rcases List.mem_cons.mp hx with rfl | hx
    · exact .refl
    · exact ((List.pairwise_cons.mp (pairwise_transGen hchain)).1 x hx).to_reflTransGen
  · intro h
    exact h.routes_eq_none _ _

theorem log_eq_none_iff : net.log clock id entry = none ↔ net.Circles entry.level id := by
  rw [log, Option.map_eq_none_iff, routes_eq_none_iff]

theorem Circles.mono (hhands : ∀ x y, net.Hands level x y → net'.Hands level x y)
    (h : net.Circles level id) : net'.Circles level id := by
  obtain ⟨x, hreach, hround⟩ := h
  exact ⟨x, Relation.ReflTransGen.mono hhands _ _ hreach, Relation.TransGen.mono hhands _ _ hround⟩

theorem acyclic_of_lt (h : ∀ id inner, net.Feeds id inner → id.index < inner.index) : net.Acyclic := by
  intro id hid
  have hlt : ∀ {a b : LoggerId}, Relation.TransGen net.Feeds a b → a.index < b.index := by
    intro a b hab
    induction hab with
    | single hf => exact h _ _ hf
    | tail _ hf ih => exact Nat.lt_trans ih (h _ _ hf)
  exact Nat.lt_irrefl _ (hlt hid)

theorem Acyclic.not_circles (h : net.Acyclic) : ¬ net.Circles level id := by
  rintro ⟨x, -, hround⟩
  exact h x (Relation.TransGen.mono (fun _ _ ⟨l, hl, _, hs⟩ => ⟨l, hl, hs⟩) _ _ hround)

/-- Where loggers form no cycle, all that is logged comes back. -/
theorem Acyclic.log_ne_none (h : net.Acyclic) (clock : Readings) (id : LoggerId) (entry : Entry) :
    net.log clock id entry ≠ none :=
  fun hnone => h.not_circles (log_eq_none_iff.mp hnone)

end Network

end Abnf.Log
