import Abnf.Proofs.Acts

/-! Entries logged one after the other, also within a span. Nothing of that changes who hands on to whom, so
a run of entries comes back exactly if each of them would by itself. -/

namespace Abnf.Log

/-- What a logger makes of a run of entries, as far as it lets them through. -/
def Logger.heard (l : Logger) (clocks : Nat → Readings) (k : Nat) (entries : List Entry) : List Record :=
  ((entries.filter (l.level.admits ·.level)).zipIdx k).map fun (entry, k) => l.record (clocks k []) entry

namespace Network

variable {net net' after last : Network} {level : Level} {clock : Readings} {clocks : Nat → Readings}
  {id : LoggerId} {k : Nat} {entry : Entry} {entries : List Entry} {lines : List Line}

/-- Whether something runs in a circle depends on the levels and the sinks of the loggers only. -/
theorem Circles.of_settings_eq
    (hsame : ∀ x, (net.logger? x).map (fun l => (l.level, l.sinks)) =
      (net'.logger? x).map fun l => (l.level, l.sinks))
    (h : net.Circles level id) : net'.Circles level id := by
  refine h.mono ?_
  rintro x y ⟨l, hl, hadmits, hs⟩
  have hx := hsame x
  rw [hl, Option.map_some] at hx
  obtain ⟨l', hl', hsettings⟩ := Option.map_eq_some_iff.mp hx.symm
  obtain ⟨hlevel, hsinks⟩ := Prod.mk.inj hsettings
  exact ⟨l', hl', hlevel ▸ hadmits, hsinks ▸ hs⟩

theorem circles_congr
    (hsame : ∀ x, (net.logger? x).map (fun l => (l.level, l.sinks)) =
      (net'.logger? x).map fun l => (l.level, l.sinks)) :
    net.Circles level id ↔ net'.Circles level id :=
  ⟨fun h => h.of_settings_eq hsame, fun h => h.of_settings_eq fun x => (hsame x).symm⟩

theorem circles_of_loggers_eq (h : net'.loggers = net.loggers) :
    net'.Circles level id ↔ net.Circles level id :=
  circles_congr fun x => by rw [logger?, logger?, h]

theorem isEnabled_of_loggers_eq (h : net'.loggers = net.loggers) : net'.isEnabled id = net.isEnabled id := by
  funext level
  rw [isEnabled, isEnabled, logger?, logger?, h]

theorem logger?_enter (net : Network) (id x : LoggerId) (name : String) :
    (net.enter id name).1.logger? x = (net.logger? x).map fun l => if id = x then
      { l with spans := l.nextSpan :: l.spans, nextSpan := l.nextSpan + 1 } else l :=
  logger?_modifyLogger net id _

theorem circles_enter {start : LoggerId} {name : String} :
    (net.enter start name).1.Circles level id ↔ net.Circles level id :=
  circles_congr fun x => map_logger?_modifyLogger (fun _ => by rfl) net start x

theorem circles_leave {span : Span} : (net.leave span).Circles level id ↔ net.Circles level id :=
  circles_congr fun x => map_logger?_modifyLogger (fun _ => by rfl) net span.logger x

theorem logged_of_log {done : Network × List Line} (h : net.log clock id entry = some done) :
    net.logged clock id entry = done := by
  rw [logged, h, Option.getD_some]

theorem loggers_log (h : net.log clock id entry = some (after, lines)) : after.loggers = net.loggers := by
  have hlogged := net.loggers_logged clock id entry
  rwa [logged_of_log h] at hlogged

theorem logAll_cons_eq_some : net.logAll clocks id k (entry :: entries) = some (last, lines) ↔
    ∃ after here more, net.log (clocks k) id entry = some (after, here) ∧
      after.logAll clocks id (net.through id entry k) entries = some (last, more) ∧
      lines = here ++ more := by
  simp only [logAll, Option.bind_eq_bind, Option.bind_eq_some_iff, Option.pure_def, Option.some.injEq,
    Prod.exists, Prod.mk.injEq]
  constructor
  · rintro ⟨after, here, hlog, _, more, hall, rfl, rfl⟩
    exact ⟨after, here, more, hlog, hall, rfl⟩
  · rintro ⟨after, here, more, hlog, hall, rfl⟩
    exact ⟨after, here, hlog, last, more, hall, rfl, rfl⟩

theorem loggers_logAll (h : net.logAll clocks id k entries = some (last, lines)) :
    last.loggers = net.loggers := by
  induction entries generalizing net k lines with
  | nil =>
    obtain ⟨rfl, -⟩ := Prod.mk.inj (Option.some.inj h)
    rfl
  | cons entry entries ih =>
    obtain ⟨after, here, more, hlog, hall, -⟩ := logAll_cons_eq_some.mp h
    exact (ih hall).trans (loggers_log hlog)

theorem heard_cons {l : Logger} (hl : net.logger? id = some l) (clocks : Nat → Readings) (k : Nat)
    (entry : Entry) (entries : List Entry) : l.heard clocks k (entry :: entries) =
      (if l.level.admits entry.level then [l.record (clocks k []) entry] else []) ++
        l.heard clocks (net.through id entry k) entries := by
  by_cases hadmits : l.level.admits entry.level = true
  · simp [Logger.heard, through, isEnabled, hl, hadmits]
  · simp [Logger.heard, through, isEnabled, hl, hadmits]

/-- A run of entries comes back unless one of them runs in a circle. -/
theorem logAll_eq_none_iff : net.logAll clocks id k entries = none ↔
    ∃ entry ∈ entries, net.Circles entry.level id := by
  induction entries generalizing net k with
  | nil => simp [logAll]
  | cons entry entries ih =>
    rw [List.exists_mem_cons_iff, logAll]
    cases hlog : net.log (clocks k) id entry with
    | none => simp [log_eq_none_iff.mp hlog]
    | some done =>
      obtain ⟨after, here⟩ := done
      have hthrough : ¬ net.Circles entry.level id := by
        rw [← log_eq_none_iff, hlog]
        simp
      have hrest := @ih after (net.through id entry k)
      simp only [circles_of_loggers_eq (loggers_log hlog)] at hrest
      rw [← hrest]
      cases hall : after.logAll clocks id (net.through id entry k) entries with
      | none => simp [hthrough, hall]
      | some done => simp [hthrough, hall]

end Network

end Abnf.Log
