import Abnf.Proofs.Logging

/-! A ring attached to a logger, with no other way from there to it. It gets what the logger lets through,
in order, and while a span is open around the logging all of it is marked with that span. -/

namespace Abnf.Log

variable {net net' : Network} {ring : RingId} {id : LoggerId} {path : List Nat}
  {passed : List Logger} {l : Logger} {r : Ring}

namespace Network

/-- The ring is attached to the logger, once, and no other way leads from there to it. -/
def AttachedOnce (net : Network) (id : LoggerId) (ring : RingId) : Prop :=
  ∃ i, ∀ path, (∃ passed, SinkPath net ring id path passed) ↔ path = [i]

theorem ways_of_attachedOnce (hl : net.logger? id = some l) (h : net.AttachedOnce id ring)
    (level : Level) :
    ∃ i, net.ways level ring net.loggers.size id = if l.level.admits level then [([i], [l])] else [] := by
  obtain ⟨i, hi⟩ := h
  obtain ⟨passed, hpath⟩ := (hi [i]).mpr rfl
  have hhops : 1 ≤ net.loggers.size := by
    have hlt := (Array.getElem?_eq_some_iff.mp hl).1
    omega
  obtain rfl : passed = [l] := by
    cases hpath with
    | last hl' _ => rw [Option.some.inj (hl.symm.trans hl')]
    | pass _ _ h => exact absurd rfl h.ne_nil.1
  refine ⟨i, List.Pairwise.eq_of_mem_iff (pairwise_ways _ id) ?_ ?_⟩
  · split <;> simp
  · rintro ⟨path, passed⟩
    rw [mem_ways]
    constructor
    · rintro ⟨hpath', hopen, -⟩
      obtain rfl := (hi path).mp ⟨passed, hpath'⟩
      obtain rfl := hpath'.passed_unique hpath
      rw [if_pos (hopen l (List.mem_singleton_self l))]
      exact List.mem_singleton_self _
    · intro hm
      split at hm
      · next hadmits =>
        obtain ⟨rfl, rfl⟩ : path = [i] ∧ passed = [l] := by simpa using hm
        exact ⟨hpath, by simpa using hadmits, hhops⟩
      · exact absurd hm List.not_mem_nil

theorem gain_of_attachedOnce (hl : net.logger? id = some l) (h : net.AttachedOnce id ring)
    {clock : Readings} {entry : Entry} (hback : net.log clock id entry ≠ none) :
    net.gain ring (.log clock id entry) =
      if l.level.admits entry.level then [l.record (clock []) entry] else [] := by
  obtain ⟨i, hways⟩ := ways_of_attachedOnce hl h entry.level
  rw [gain, if_pos (Option.isSome_iff_ne_none.mpr hback), hways]
  split <;> rfl

end Network

end Abnf.Log
