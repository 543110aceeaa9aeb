import Abnf.Proofs.DirectRings

/-! What a ring gains while its network is built, set and logged to, in any order. -/

namespace Abnf.Log

/-- The records that a ring gains: for each entry logged, those of the ways open at that moment. -/
inductive Gains (ring : RingId) : Network → List Act → List Record → Prop
  | nil (net : Network) : Gains ring net [] []
  | log {net : Network} {clock : Readings} {id : LoggerId} {entry : Entry} {as : List Act}
      {ways : List Way} {records : List Record} (hw : OpenWays net entry.level ring id ways)
      (h : Gains ring (net.act (.log clock id entry)) as records) :
      Gains ring net (.log clock id entry :: as) (entry.records clock ways ++ records)
  | other {net : Network} {a : Act} {as : List Act} {records : List Record}
      (ha : ∀ clock id entry, a ≠ .log clock id entry) (h : Gains ring (net.act a) as records) :
      Gains ring net (a :: as) records

namespace Network

/-- Nothing leads to the ring but one sink of the logger. -/
def OnlyFrom (net : Network) (id : LoggerId) (ring : RingId) : Prop :=
  ∃ i, ∀ start path passed, SinkPath net ring start path passed → start = id ∧ path = [i]

/-- What one act makes a logger let through, told with its own innermost span. -/
def passes (net : Network) (id : LoggerId) : Act → List Record
  | .log clock start entry =>
    match net.logger? id with
    | some l =>
      if start = id ∧ l.level.admits entry.level = true then
        [{ entry with time := clock [], span := l.spans.head? }]
      else []
    | none => []
  | _ => []

def passesAll (id : LoggerId) : Network → List Act → List Record
  | _, [] => []
  | net, a :: as => net.passes id a ++ passesAll id (net.act a) as

def gainAll (ring : RingId) : Network → List Act → List Record
  | _, [] => []
  | net, a :: as => net.gain ring a ++ gainAll ring (net.act a) as

variable {net : Network} {ring : RingId} {id : LoggerId} {path : List Nat} {passed : List Logger}
  {as : List Act} {l : Logger} {r : Ring}

theorem gain_of_acyclic (h : net.Acyclic) (ring : RingId) (clock : Readings) (id : LoggerId)
    (entry : Entry) : net.gain ring (.log clock id entry) =
      entry.records clock (net.ways entry.level ring net.loggers.size id) := by
  rw [gain, if_pos (Option.isSome_iff_ne_none.mpr (h.log_ne_none clock id entry))]

theorem gains_gainAll (h : (net.acts as).Acyclic) (ring : RingId) :
    Gains ring net as (net.gainAll ring as) := by
  induction as generalizing net with
  | nil => exact .nil net
  | cons a as ih =>
    have hrest := ih h
    cases a with
    | log clock id entry =>
      have hacyclic : net.Acyclic := Acyclic.of_acts h
      rw [gainAll, gain_of_acyclic hacyclic]
      exact .log (openWays_ways hacyclic.not_circles ring) hrest
    | _ => exact .other (by simp) hrest

theorem ring?_acts (h : net.ring? ring = some r) (as : List Act) :
    (net.acts as).ring? ring = some (r.pushAll (net.gainAll ring as)) := by
  induction as generalizing net r with
  | nil => exact h
  | cons a as ih =>
    have hh := ih (ring?_act h a)
    rwa [← Ring.pushAll_append] at hh

theorem OnlyFrom.of_acts (h : (net.acts as).OnlyFrom id ring) : net.OnlyFrom id ring := by
  obtain ⟨i, honly⟩ := h
  refine ⟨i, ?_⟩
  intro start path passed hpath
  obtain ⟨passed', hlater⟩ := hpath.acts as
  exact honly start path passed' hlater

theorem OnlyFrom.attachedOnce (honly : net.OnlyFrom id ring)
    (hpath : SinkPath net ring id path passed) : net.AttachedOnce id ring := by
  obtain ⟨i, honly⟩ := honly
  refine ⟨i, fun path' => ⟨fun ⟨passed', hpath'⟩ => (honly id path' passed' hpath').2, ?_⟩⟩
  rintro rfl
  rw [← (honly id path passed hpath).2]
  exact ⟨passed, hpath⟩

/-- Where a single way leads to a ring, the ring gains what the logger at its start lets through. -/
theorem gain_eq_passes (hacyclic : net.Acyclic) (honly : net.OnlyFrom id ring)
    (hpath : SinkPath net ring id path passed) (a : Act) : net.gain ring a = net.passes id a := by
  have hattached := honly.attachedOnce hpath
  obtain ⟨i, honly⟩ := honly
  obtain ⟨l, hl, -⟩ := hpath.exists_first
  cases a with
  | log clock start entry =>
    simp only [passes, hl]
    by_cases hs : start = id
    · subst hs
      rw [gain_of_attachedOnce hl hattached (hacyclic.log_ne_none clock start entry)]
      simp [Logger.record]
    · have hnone : net.ways entry.level ring net.loggers.size start = [] := by
        rw [List.eq_nil_iff_forall_not_mem]
        rintro ⟨path', passed'⟩ hway
        exact hs (honly start path' passed' (mem_ways.mp hway).1).1
      rw [gain_of_acyclic hacyclic, hnone]
      simp [hs, Entry.records]
  | _ => rfl

theorem gainAll_eq_passesAll (hacyclic : (net.acts as).Acyclic) (honly : (net.acts as).OnlyFrom id ring)
    (hpath : SinkPath net ring id path passed) : net.gainAll ring as = net.passesAll id as := by
  induction as generalizing net passed with
  | nil => rfl
  | cons a as ih =>
    obtain ⟨passed', hlater⟩ := hpath.act a
    have hone := gain_eq_passes (Acyclic.of_acts hacyclic) (OnlyFrom.of_acts honly) hpath a
    rw [gainAll, passesAll, hone, ih hacyclic honly hlater]

theorem exists_sinkPath_attach (hl : net.logger? id = some l) (ring : RingId) :
    ∃ passed, SinkPath (net.act (.attach id (.ring ring))) ring id [l.sinks.size] passed := by
  refine ⟨[{ l with sinks := l.sinks.push (.ring ring) }], .last ?_ Array.getElem?_push_size⟩
  refine (logger?_modifyLogger net id _).trans ?_
  rw [hl, Option.map_some, if_pos rfl]

/-- Before the only sink was attached that ever leads to a ring, the ring had no records. -/
theorem Orderly.records_eq_nil (horderly : net.Orderly)
    (honly : (net.acts (.attach id (.ring ring) :: as)).OnlyFrom id ring)
    (hl : net.logger? id = some l) (hr : net.ring? ring = some r) : r.records = [] := by
  by_contra hne
  obtain ⟨start, path, passed, hpath⟩ := horderly.fed ring r hr hne
  obtain ⟨i, honly⟩ := honly
  obtain ⟨_, hearlier⟩ := hpath.acts (.attach id (.ring ring) :: as)
  obtain ⟨rfl, rfl⟩ := honly start path _ hearlier
  obtain ⟨_, hattach⟩ := exists_sinkPath_attach hl ring
  obtain ⟨_, hlater⟩ := hattach.acts as
  obtain rfl : l.sinks.size = i := by simpa using (honly start _ _ hlater).2
  cases hpath with
  | pass _ _ h => exact absurd rfl h.ne_nil.1
  | last hl' hs =>
    obtain rfl := Option.some.inj (hl.symm.trans hl')
    simp at hs

/-- Whatever was done with a network whose loggers form no cycle: an entry that is logged comes back, and
is written to a ring once for each way that is open at that moment, in the order of the sinks, with
the time and the innermost span of the last logger on the way. So what a ring holds in the end is what
it held at any moment and what it gained since, or the last of it that there is room for. A ring with a
single sink that leads to it holds what the logger of that sink let through since it was attached. -/
theorem rings_gain_along_open_ways (as : List Act) (hacyclic : (empty.acts as).Acyclic) :
    (∀ before clock id entry after, as = before ++ .log clock id entry :: after →
      (∃ lines, (empty.acts before).log clock id entry =
        some (empty.acts (before ++ [.log clock id entry]), lines)) ∧
      ∀ ring r, (empty.acts before).ring? ring = some r →
        ∃ ways, OpenWays (empty.acts before) entry.level ring id ways ∧
          (empty.acts (before ++ [.log clock id entry])).ring? ring =
            some (r.pushAll (entry.records clock ways))) ∧
    (∀ before after, as = before ++ after →
      ∀ ring r, (empty.acts before).ring? ring = some r →
        ∃ gained r', Gains ring (empty.acts before) after gained ∧
          (empty.acts as).ring? ring = some r' ∧ r'.capacity = r.capacity ∧
          r'.records =
            (r.records ++ gained).drop (r.records.length + gained.length - r.capacity)) ∧
    (∀ before id ring after, as = before ++ .attach id (.ring ring) :: after →
      (empty.acts as).OnlyFrom id ring →
      ∀ l r, (empty.acts before).logger? id = some l → (empty.acts before).ring? ring = some r →
        let heard := (empty.acts (before ++ [.attach id (.ring ring)])).passesAll id after
        heard.length ≤ r.capacity →
          ∃ r', (empty.acts as).ring? ring = some r' ∧ r'.records = heard) := by
  refine ⟨?_, ?_, ?_⟩
  · rintro before clock id entry after rfl
    rw [acts_append] at hacyclic
    have hbefore : (empty.acts before).Acyclic := Acyclic.of_acts hacyclic
    obtain ⟨⟨last, lines⟩, hlog⟩ :=
      Option.ne_none_iff_exists'.mp (hbefore.log_ne_none clock id entry)
    refine ⟨⟨lines, ?_⟩, fun ring r hr => ⟨_, openWays_ways hbefore.not_circles ring, ?_⟩⟩
    · rw [hlog, acts_append]
      show _ = some (((empty.acts before).logged clock id entry).1, lines)
      rw [logged_of_log hlog]
    · rw [acts_append, ← gain_of_acyclic hbefore]
      exact ring?_act hr (.log clock id entry)
  · rintro before after rfl ring r hr
    have horderly : (empty.acts before).Orderly := orderly_empty.acts before
    rw [acts_append] at hacyclic ⊢
    refine ⟨_, _, gains_gainAll hacyclic ring, ring?_acts hr after, ?_, ?_⟩
    · exact Ring.capacity_pushAll r _
    · exact Ring.records_pushAll (horderly.fit ring r hr) _
  · rintro before id ring after rfl honly l r hl hr heard hroom
    have horderly : (empty.acts before).Orderly := orderly_empty.acts before
    rw [acts_append] at hacyclic honly ⊢
    have hempty : r.records = [] := horderly.records_eq_nil honly hl hr
    obtain ⟨passed, hattach⟩ := exists_sinkPath_attach hl ring
    have hgained : (empty.acts before).gainAll ring (.attach id (.ring ring) :: after) = heard := by
      have hafter : ((empty.acts before).act (.attach id (.ring ring))).gainAll ring after = _ :=
        gainAll_eq_passesAll hacyclic honly hattach
      show _ = passesAll id (empty.acts (before ++ [.attach id (.ring ring)])) after
      rw [acts_append]
      exact hafter
    refine ⟨_, ring?_acts hr (.attach id (.ring ring) :: after), ?_⟩
    rw [Ring.records_pushAll (horderly.fit ring r hr), hempty, hgained, List.nil_append,
      List.length_nil, Nat.zero_add, Nat.sub_eq_zero_of_le hroom, List.drop_zero]

/-- Two ways from the first logger to the ring, one over each of the others, and a span open on the first
and on the last of them. -/
def crossing : List Act :=
  [.addLogger .info, .addLogger .warn, .addLogger .trace, .addRing 4,
    .attach ⟨0⟩ (.logger ⟨1⟩), .attach ⟨0⟩ (.logger ⟨2⟩), .attach ⟨1⟩ (.ring ⟨0⟩), .attach ⟨2⟩ (.ring ⟨0⟩),
    .enter ⟨0⟩ "run", .enter ⟨2⟩ "step", .setLevel ⟨1⟩ .error,
    .log (fun path => 5 + path.headD 0) ⟨0⟩ ⟨.error, "lexer", "lost"⟩,
    .log (fun path => 7 + path.headD 0) ⟨0⟩ ⟨.info, "lexer", "done"⟩]

theorem acyclic_crossing : (empty.acts crossing).Acyclic := by
  refine acyclic_of_lt ?_
  rintro ⟨n⟩ ⟨m⟩ ⟨l, hl, hs⟩
  have hloggers : (empty.acts crossing).loggers =
      #[{ level := .info, sinks := #[.logger ⟨1⟩, .logger ⟨2⟩], spans := [1], nextSpan := 2 },
        { level := .error, sinks := #[.ring ⟨0⟩] },
        { level := .trace, sinks := #[.ring ⟨0⟩], spans := [1], nextSpan := 2 }] := rfl
  rw [logger?, hloggers] at hl
  rcases n with _ | _ | _ | n
  · obtain rfl := Option.some.inj hl
    have hm : m = 1 ∨ m = 2 := by simpa using hs
    show 0 < m
    omega
  · obtain rfl := Option.some.inj hl
    simp at hs
  · obtain rfl := Option.some.inj hl
    simp at hs
  · simp at hl

theorem rings_gain_crossing :
    (empty.acts crossing).Acyclic ∧
      (∃ gained r', Gains ⟨0⟩ (empty.acts (crossing.take 11)) (crossing.drop 11) gained ∧
        (empty.acts crossing).ring? ⟨0⟩ = some r' ∧ r'.records = gained.drop (gained.length - 4)) ∧
      ((empty.acts crossing).ring? ⟨0⟩).map Ring.records =
        some [⟨⟨.error, "lexer", "lost"⟩, 5, none⟩, ⟨⟨.error, "lexer", "lost"⟩, 6, some 1⟩,
          ⟨⟨.info, "lexer", "done"⟩, 8, some 1⟩] := by
  refine ⟨acyclic_crossing, ?_, rfl⟩
  obtain ⟨gained, r', hgains, hr', -, hrecords⟩ :=
    (rings_gain_along_open_ways crossing acyclic_crossing).2.1 (crossing.take 11) (crossing.drop 11)
      rfl ⟨0⟩ (.new 4) rfl
  refine ⟨gained, r', hgains, hr', hrecords.trans ?_⟩
  simp [Ring.new, Ring.records]

end Network

end Abnf.Log
