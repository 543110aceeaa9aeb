import Abnf.Log.Ring
import Mathlib.Data.List.Basic

/-! What a ring holds: the last of the records that were written to it, as many as it has room for. -/

namespace Abnf.Log.Ring

def pushAll (r : Ring) (records : List Record) : Ring := records.foldl push r

variable {r : Ring}

theorem pushAll_append (r : Ring) (records more : List Record) :
    r.pushAll (records ++ more) = (r.pushAll records).pushAll more := List.foldl_append

theorem size_eq_length (r : Ring) : r.size = r.records.length := by
  simp [r.size_eq, records]

@[simp] theorem capacity_evict (r : Ring) : r.evict.capacity = r.capacity := by
  unfold evict
  split
  · rfl
  · split <;> rfl

theorem records_evict (r : Ring) : r.evict.records = r.records.tail := by
  unfold evict
  split
  · next hf => simp [records, hf]
  · next hf =>
    split
    · next hb => simp [records, hf, hb]
    · next hb => simp [records, hf, hb]

theorem records_append (r : Ring) (record : Record) :
    (r.append record).records = r.records ++ [record] := by
  simp [append, records]

@[simp] theorem capacity_push (r : Ring) (record : Record) : (r.push record).capacity = r.capacity := by
  unfold push
  split
  · rfl
  · split
    · exact capacity_evict r
    · rfl

@[simp] theorem capacity_pushAll (r : Ring) (records : List Record) :
    (r.pushAll records).capacity = r.capacity := by
  induction records generalizing r with
  | nil => rfl
  | cons record records ih => exact (ih (r.push record)).trans (capacity_push r record)

/-- A ring that is not overfull lets go of its oldest record when the new one finds no room. -/
theorem records_push (h : r.records.length ≤ r.capacity) (record : Record) :
    (r.push record).records = (r.records ++ [record]).drop (r.records.length + 1 - r.capacity) := by
  unfold push
  by_cases hc : r.capacity = 0
  · have hr : r.records = [] := List.eq_nil_of_length_eq_zero (by omega)
    have hk : ({ r with dropped := r.dropped + 1 } : Ring).records = r.records := rfl
    rw [if_pos hc, hk, hr, hc]
    rfl
  · rw [if_neg hc, size_eq_length]
    by_cases hfull : r.capacity ≤ r.records.length
    · have hone : r.records.length + 1 - r.capacity = 1 := by omega
      have hne : r.records ≠ [] := List.ne_nil_of_length_pos (by omega)
      rw [if_pos hfull, records_append, records_evict, hone, List.drop_one, List.tail_append_of_ne_nil hne]
    · have hnone : r.records.length + 1 - r.capacity = 0 := by omega
      rw [if_neg hfull, records_append, hnone, List.drop_zero]

/-- A ring holds the last of what it held and of what was written to it since. -/
theorem records_pushAll (h : r.records.length ≤ r.capacity) (records : List Record) :
    (r.pushAll records).records =
      (r.records ++ records).drop (r.records.length + records.length - r.capacity) := by
  induction records generalizing r with
  | nil =>
    have hnone : r.records.length + 0 - r.capacity = 0 := by omega
    rw [List.append_nil, List.length_nil, hnone, List.drop_zero]
    rfl
  | cons record records ih =>
    have hp := records_push h record
    have hl : (r.push record).records.length = r.records.length + 1 - (r.records.length + 1 - r.capacity) := by
      rw [hp, List.length_drop, List.length_append, List.length_singleton]
    have hh : (r.push record).records.length ≤ (r.push record).capacity := by
      rw [hl, capacity_push]
      omega
    have hs := ih hh
    have hle : r.records.length + 1 - r.capacity ≤ (r.records ++ [record]).length := by
      rw [List.length_append, List.length_singleton]
      omega
    rw [hp, ← List.drop_append_of_le_length hle, List.drop_drop, ← hp, hl, capacity_push,
      List.append_assoc, List.singleton_append] at hs
    rw [pushAll, List.foldl_cons]
    have hcount : r.records.length + 1 - r.capacity +
        (r.records.length + 1 - (r.records.length + 1 - r.capacity) + records.length - r.capacity) =
          r.records.length + (record :: records).length - r.capacity := by
      rw [List.length_cons]
      omega
    rw [hcount] at hs
    exact hs

theorem length_records_pushAll_le (h : r.records.length ≤ r.capacity) (records : List Record) :
    (r.pushAll records).records.length ≤ (r.pushAll records).capacity := by
  rw [records_pushAll h, capacity_pushAll, List.length_drop, List.length_append]
  omega

end Abnf.Log.Ring
