import Abnf.Proofs.Acts

/-! What a ring holds and what it counts, after any run of writes and clears. Records are written to it
by loggers or at once. -/

namespace Abnf.Log

namespace Ring

variable {r : Ring} {written : List Record}

/-- The state of a ring to which these were written since it was new or was cleared. -/
structure Follows (r : Ring) (written : List Record) : Prop where
  records : r.records = written.drop (written.length - r.capacity)
  dropped : r.dropped = written.length - r.capacity

theorem dropped_evict (hne : r.records ≠ []) : r.evict.dropped = r.dropped + 1 := by
  unfold evict
  split
  · rfl
  · next hf =>
    split
    · rfl
    · next hb => exact absurd (by simp [records, hf, hb]) hne

theorem dropped_push (h : r.records.length ≤ r.capacity) (record : Record) :
    (r.push record).dropped = r.dropped + (r.records.length + 1 - r.capacity) := by
  unfold push
  by_cases hc : r.capacity = 0
  · have hone : r.records.length + 1 - r.capacity = 1 := by omega
    rw [if_pos hc, hone]
  · rw [if_neg hc, size_eq_length]
    by_cases hfull : r.capacity ≤ r.records.length
    · have hone : r.records.length + 1 - r.capacity = 1 := by omega
      have hne : r.records ≠ [] := List.ne_nil_of_length_pos (by omega)
      rw [if_pos hfull, hone]
      exact dropped_evict hne
    · have hnone : r.records.length + 1 - r.capacity = 0 := by omega
      rw [if_neg hfull, hnone]
      rfl

theorem follows_new (capacity : Nat) : (new capacity).Follows [] := by
  constructor <;> simp [new, records]

theorem Follows.length_records (h : r.Follows written) :
    r.records.length = min written.length r.capacity := by
  rw [h.records, List.length_drop]
  omega

theorem Follows.push (h : r.Follows written) (record : Record) :
    (r.push record).Follows (written ++ [record]) := by
  have hlen := h.length_records
  have hfit : r.records.length ≤ r.capacity := by omega
  have hone : (written ++ [record]).length = written.length + 1 := List.length_append
  constructor
  · have hle : written.length - r.capacity ≤ written.length := by omega
    have hsum : written.length - r.capacity + (r.records.length + 1 - r.capacity) =
        written.length + 1 - r.capacity := by omega
    rw [records_push hfit, capacity_push, hone, h.records, ← List.drop_append_of_le_length hle,
      List.drop_drop, ← h.records, hsum]
  · rw [dropped_push hfit, capacity_push, hone, h.dropped]
    omega

theorem Follows.pushAll (h : r.Follows written) (records : List Record) :
    (r.pushAll records).Follows (written ++ records) := by
  induction records generalizing r written with
  | nil =>
    rw [List.append_nil]
    exact h
  | cons record records ih =>
    have hall := ih (h.push record)
    rw [List.append_assoc] at hall
    exact hall

end Ring

/-- What is done with loggers and rings, writing to a ring past all loggers and clearing one among it. -/
inductive Use where
  | act (a : Act)
  | write (ring : RingId) (record : Record)
  | clear (ring : RingId)

def Use.clears (ring : RingId) : Use → Bool
  | .clear ring' => ring' = ring
  | _ => false

namespace Network

def use (net : Network) : Use → Network
  | .act a => net.act a
  | .write ring record => net.modifyRing ring (·.push record)
  | .clear ring => net.modifyRing ring (·.clear)

def uses (net : Network) (us : List Use) : Network := us.foldl use net

/-- The records that arrive at a ring, one for each route of a logged entry that ends there. -/
def arrivals (net : Network) (ring : RingId) : Use → List Record
  | .act (.log clock id entry) =>
    ((net.routes entry net.loggers.size clock id).getD []).filterMap (recordAt ring)
  | .write ring' record => if ring' = ring then [record] else []
  | _ => []

/-- What was written to a ring since it was cleared last, with `written` before the first of the uses. -/
def sinceClear (ring : RingId) : Network → List Record → List Use → List Record
  | _, written, [] => written
  | net, written, u :: us =>
    sinceClear ring (net.use u) (if u.clears ring then [] else written ++ net.arrivals ring u) us

variable {net : Network} {ring : RingId} {r : Ring} {written : List Record}

theorem arrivals_act (net : Network) (ring : RingId) (a : Act) :
    net.arrivals ring (.act a) = net.gain ring a := by
  cases a with
  | log clock id entry =>
    rcases net.logged_cases clock id entry with ⟨hlog, -⟩ | ⟨outs, hroutes, hlog, -⟩
    · have hroutes : net.routes entry net.loggers.size clock id = none := Option.map_eq_none_iff.mp hlog
      simp [arrivals, gain, hroutes, hlog]
    · rw [arrivals, gain, hroutes, hlog, Option.isSome_some, if_pos rfl, Option.getD_some,
        filterMap_routes hroutes]
  | _ => rfl

theorem follows_use (hr : net.ring? ring = some r) (h : r.Follows written) (u : Use) :
    ∃ r', (net.use u).ring? ring = some r' ∧ r'.capacity = r.capacity ∧
      r'.Follows (if u.clears ring then [] else written ++ net.arrivals ring u) := by
  cases u with
  | act a =>
    rw [if_neg (by simp [Use.clears]), arrivals_act]
    exact ⟨_, ring?_act hr a, Ring.capacity_pushAll r _, h.pushAll _⟩
  | write ring' record =>
    have hw := @ring?_modifyRing ring net ring' (·.push record)
    rw [hr, Option.map_some] at hw
    rw [if_neg (by simp [Use.clears]), arrivals]
    by_cases hi : ring' = ring
    · rw [if_pos hi] at hw ⊢
      exact ⟨_, hw, Ring.capacity_push r record, h.push record⟩
    · rw [if_neg hi] at hw ⊢
      rw [List.append_nil]
      exact ⟨_, hw, rfl, h⟩
  | clear ring' =>
    have hw := @ring?_modifyRing ring net ring' (·.clear)
    rw [hr, Option.map_some] at hw
    by_cases hi : ring' = ring
    · rw [if_pos hi] at hw
      rw [if_pos (by simpa [Use.clears] using hi)]
      exact ⟨_, hw, rfl, Ring.follows_new r.capacity⟩
    · rw [if_neg hi] at hw
      rw [if_neg (by simpa [Use.clears] using hi), arrivals, List.append_nil]
      · exact ⟨_, hw, rfl, h⟩
      all_goals simp

theorem follows_uses (hr : net.ring? ring = some r) (h : r.Follows written) (us : List Use) :
    ∃ r', (net.uses us).ring? ring = some r' ∧ r'.capacity = r.capacity ∧
      r'.Follows (net.sinceClear ring written us) := by
  induction us generalizing net r written with
  | nil => exact ⟨r, hr, rfl, h⟩
  | cons u us ih =>
    obtain ⟨r₁, hr₁, hc₁, h₁⟩ := follows_use hr h u
    obtain ⟨r₂, hr₂, hc₂, h₂⟩ := ih hr₁ h₁
    exact ⟨r₂, hr₂, hc₂.trans hc₁, h₂⟩

/-- A ring holds the last records written to it since it was made or cleared, as many as it has room
for, and counts all the others. -/
theorem ring_holds_last_written (net : Network) (capacity : Nat) (us : List Use) :
    let made := (net.addRing capacity).1
    let ring := (net.addRing capacity).2
    let written := made.sinceClear ring [] us
    let kept := min written.length capacity
    ∃ r, (made.uses us).ring? ring = some r ∧ r.capacity = capacity ∧
      r.records = written.drop (written.length - kept) ∧ r.records.length = kept ∧
      r.size = kept ∧ r.size ≤ capacity ∧ (r.isEmpty = true ↔ kept = 0) ∧
      r.dropped = written.length - kept ∧ r.size + r.dropped = written.length := by
  intro made ring written kept
  have hmade : made.ring? ring = some (.new capacity) := Array.getElem?_push_size
  obtain ⟨r, hr, hcapacity, h⟩ := follows_uses hmade (Ring.follows_new capacity) us
  replace hcapacity : r.capacity = capacity := hcapacity
  have hlost : written.length - r.capacity = written.length - kept := by omega
  have hlen : r.records.length = kept := by rw [h.length_records, hcapacity]
  have hsize : r.size = kept := (Ring.size_eq_length r).trans hlen
  have hdropped : r.dropped = written.length - kept := h.dropped.trans hlost
  refine ⟨r, hr, hcapacity, ?_, hlen, hsize, by omega, ?_, hdropped, by omega⟩
  · rw [← hlost]
    exact h.records
  · rw [Ring.isEmpty, hsize, beq_iff_eq]

end Network

end Abnf.Log
