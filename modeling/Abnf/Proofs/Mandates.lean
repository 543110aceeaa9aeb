import Abnf.Proofs.Verdict
import Abnf.Service

/-! The mandate of a service. The first request that offers one settles it for good, and with it
what every later request is answered. Requests are answered as long as no log entry runs in a circle. -/

namespace Abnf

/-- What was found in a source, however long that took. -/
def findings (result : Except Failure Tokenization) :
    Except Failure (List Token × List Diagnostic) :=
  result.map fun t => (t.tokens, t.diagnostics)

namespace Mandate

/-- `result` has what any run under `m` finds in the source, on whatever network. -/
def Yields (m : Mandate) (source : String) (result : Except Failure Tokenization) : Prop :=
  ∀ (network : Log.Network) (clock : Nat → Log.Readings) (elapsed : Nat) (done : Tokenized),
    m.policy.tokenize network clock m.logger source elapsed = some done →
      findings result = findings done.result

theorem yields_of_tokenize (m : Mandate) {network : Log.Network} {clock : Nat → Log.Readings}
    {logger : Log.LoggerId} {source : String} {elapsed : Nat} {done : Tokenized}
    (h : m.policy.tokenize network clock logger source elapsed = some done) :
    m.Yields source done.result := by
  intro network' clock' elapsed' other hother
  rw [Policy.result_of_tokenize h, Policy.result_of_tokenize hother]
  unfold Policy.judge
  split <;> rfl

end Mandate

namespace Service

/-- The mandate that a request settles where there is none yet. -/
def Request.offer (silent : Log.LoggerId) : Request → Option Mandate
  | .init m => some m
  | .quickTokenize _ _ _ => some ⟨{}, silent⟩
  | .tokenize _ _ _ => none
  | .isInitialized => none

variable {s next : Service} {m : Mandate} {policy : Policy} {source : String}
  {clock : Nat → Log.Readings} {elapsed : Nat} {request : Request} {reply : Reply}

theorem note_eq_some {clock : Log.Readings} {entry : Log.Entry} (h : s.note clock entry = some next) :
    ∃ network lines, s.network.log clock s.logger entry = some (network, lines) ∧
      next = { s with network, lines := s.lines ++ lines } := by
  obtain ⟨⟨network, lines⟩, hlog, hnext⟩ := Option.bind_eq_some_iff.mp h
  exact ⟨network, lines, hlog, (Option.some.inj hnext).symm⟩

theorem run_eq_some (h : s.run policy source clock elapsed = some (reply, next)) :
    ∃ done, policy.tokenize s.network clock s.logger source elapsed = some done ∧
      reply = .result done.result ∧
      next = { s with network := done.network, lines := s.lines ++ done.lines } := by
  obtain ⟨done, hdone, hboth⟩ := Option.bind_eq_some_iff.mp h
  obtain ⟨rfl, rfl⟩ := Prod.mk.inj (Option.some.inj hboth)
  exact ⟨done, hdone, rfl, rfl⟩

theorem policy_of_mandate? (h : s.mandate? = some m) : s.standing.policy = some m.policy := by
  obtain ⟨policy, hp, rfl⟩ := Option.map_eq_some_iff.mp h
  exact hp

theorem policy_of_no_mandate (h : s.mandate? = none) : s.standing.policy = none :=
  Option.map_eq_none_iff.mp h

theorem answer_init (s : Service) (m : Mandate) : s.answer (.init m) = some
    (if s.mandate?.isSome then (.refused (.alreadySet m.policy), s)
      else (.done, { s with standing := ⟨some m.policy⟩, logger := m.logger })) := by
  cases hm : s.mandate? with
  | none => simp [answer, StandingPolicy.set, policy_of_no_mandate hm]
  | some m' => simp [answer, StandingPolicy.set, policy_of_mandate? hm]

theorem answer_tokenize_of_no_mandate (h : s.mandate? = none) (source : String)
    (clock : Nat → Log.Readings) (elapsed : Nat) :
    s.answer (.tokenize source clock elapsed) = some (.refused .notSet, s) := by
  simp [answer, StandingPolicy.get, policy_of_no_mandate h]

/-- Under a mandate a source is tokenized, and the loggers alone notice. -/
theorem answer_tokenize_of_mandate (h : s.mandate? = some m)
    (ha : s.answer (.tokenize source clock elapsed) = some (reply, next)) :
    ∃ noted done, s.note (clock 0) StandingPolicy.entry = some noted ∧
      m.policy.tokenize noted.network (fun k => clock (k + 1)) s.logger source elapsed = some done ∧
      reply = .result done.result ∧ next.standing = s.standing ∧ next.logger = s.logger ∧
      next.network = done.network := by
  simp only [answer, StandingPolicy.get, policy_of_mandate? h, Option.bind_eq_bind] at ha
  obtain ⟨noted, hnoted, hrun⟩ := Option.bind_eq_some_iff.mp ha
  obtain ⟨done, hdone, hreply, rfl⟩ := run_eq_some hrun
  obtain ⟨network, lines, -, rfl⟩ := note_eq_some hnoted
  exact ⟨_, done, hnoted, hdone, hreply, rfl, rfl, rfl⟩

theorem answer_quickTokenize (ha : s.answer (.quickTokenize source clock elapsed) = some (reply, next)) :
    ∃ done, (s.standing.policy.getD {}).tokenize s.network clock s.logger source elapsed = some done ∧
      reply = .result done.result ∧ next.standing = ⟨some (s.standing.policy.getD {})⟩ ∧
      next.logger = s.logger ∧ next.network = done.network := by
  obtain ⟨done, hdone, hreply, rfl⟩ := run_eq_some ha
  exact ⟨done, hdone, hreply, rfl, rfl, rfl⟩

theorem mandate?_answer (h : s.answer request = some (reply, next)) :
    next.mandate? = s.mandate?.or (request.offer s.logger) := by
  cases request with
  | init m =>
    rw [answer_init] at h
    cases hm : s.mandate? with
    | none =>
      simp only [hm, Option.isSome_none, Bool.false_eq_true, if_false] at h
      obtain ⟨-, rfl⟩ := Prod.mk.inj (Option.some.inj h)
      rfl
    | some m' =>
      simp only [hm, Option.isSome_some, if_true] at h
      obtain ⟨-, rfl⟩ := Prod.mk.inj (Option.some.inj h)
      exact hm
  | tokenize source clock elapsed =>
    cases hm : s.mandate? with
    | none =>
      rw [answer_tokenize_of_no_mandate hm] at h
      obtain ⟨-, rfl⟩ := Prod.mk.inj (Option.some.inj h)
      exact hm
    | some m =>
      obtain ⟨_, _, -, -, -, hstanding, hlogger, -⟩ := answer_tokenize_of_mandate hm h
      rw [← hm, mandate?, hstanding, hlogger]
      exact (Option.or_none).symm
  | quickTokenize source clock elapsed =>
    obtain ⟨_, -, -, hstanding, hlogger, -⟩ := answer_quickTokenize h
    rw [mandate?, hstanding, hlogger, mandate?]
    cases s.standing.policy <;> rfl
  | isInitialized =>
    obtain ⟨-, rfl⟩ := Prod.mk.inj (Option.some.inj h)
    exact Option.or_none.symm

/-- The logger comes with the mandate: a request that offers none leaves it as it is. -/
theorem logger_answer (h : s.answer request = some (reply, next)) {silent : Log.LoggerId}
    (hoffer : request.offer silent = none) : next.logger = s.logger := by
  cases request with
  | init m => cases hoffer
  | quickTokenize source clock elapsed => cases hoffer
  | isInitialized =>
    obtain ⟨-, rfl⟩ := Prod.mk.inj (Option.some.inj h)
    rfl
  | tokenize source clock elapsed =>
    cases hm : s.mandate? with
    | none =>
      rw [answer_tokenize_of_no_mandate hm] at h
      obtain ⟨-, rfl⟩ := Prod.mk.inj (Option.some.inj h)
      rfl
    | some m =>
      obtain ⟨_, _, -, -, -, -, hlogger, -⟩ := answer_tokenize_of_mandate hm h
      exact hlogger

/-- What is logged on behalf of a request does not change which entries run in circles. -/
theorem circles_answer (h : s.answer request = some (reply, next)) {level : Log.Level} {id : Log.LoggerId} :
    next.network.Circles level id ↔ s.network.Circles level id := by
  cases request with
  | init m =>
    rw [answer_init] at h
    split at h <;> obtain ⟨-, rfl⟩ := Prod.mk.inj (Option.some.inj h) <;> rfl
  | isInitialized =>
    obtain ⟨-, rfl⟩ := Prod.mk.inj (Option.some.inj h)
    rfl
  | tokenize source clock elapsed =>
    cases hm : s.mandate? with
    | none =>
      rw [answer_tokenize_of_no_mandate hm] at h
      obtain ⟨-, rfl⟩ := Prod.mk.inj (Option.some.inj h)
      rfl
    | some m =>
      obtain ⟨noted, done, hnoted, hdone, -, -, -, hnetwork⟩ := answer_tokenize_of_mandate hm h
      obtain ⟨network, lines, hlog, rfl⟩ := note_eq_some hnoted
      rw [hnetwork, Policy.circles_tokenize hdone]
      exact Log.Network.circles_of_loggers_eq (Log.Network.loggers_log hlog)
  | quickTokenize source clock elapsed =>
    obtain ⟨done, hdone, -, -, -, hnetwork⟩ := answer_quickTokenize h
    rw [hnetwork, Policy.circles_tokenize hdone]

theorem note_eq_none_iff {clock : Log.Readings} {entry : Log.Entry} :
    s.note clock entry = none ↔ s.network.Circles entry.level s.logger := by
  have hmap : s.note clock entry = (s.network.log clock s.logger entry).map fun logged =>
      { s with network := logged.1, lines := s.lines ++ logged.2 } := Option.map_eq_bind.symm
  rw [hmap, Option.map_eq_none_iff, Log.Network.log_eq_none_iff]

theorem run_eq_none_iff : s.run policy source clock elapsed = none ↔
    ∃ entry ∈ policy.entries (s.network.isEnabled s.logger) source (policy.lex source) elapsed,
      s.network.Circles entry.level s.logger := by
  have hmap : s.run policy source clock elapsed =
      (policy.tokenize s.network clock s.logger source elapsed).map fun done =>
        (.result done.result, { s with network := done.network, lines := s.lines ++ done.lines }) :=
    Option.map_eq_bind.symm
  rw [hmap, Option.map_eq_none_iff, Policy.tokenize_eq_none_iff]

/-- What the logger is told of a request. -/
def told (s : Service) : Request → List Log.Entry
  | .init _ | .isInitialized => []
  | .tokenize source _ elapsed =>
    match s.standing.policy with
    | some policy => StandingPolicy.entry ::
        policy.entries (s.network.isEnabled s.logger) source (policy.lex source) elapsed
    | none => []
  | .quickTokenize source _ elapsed =>
    let policy := s.standing.policy.getD {}
    policy.entries (s.network.isEnabled s.logger) source (policy.lex source) elapsed

/-- A request is answered unless something that is told of it runs in a circle. -/
theorem answer_eq_none_iff (request : Request) : s.answer request = none ↔
    ∃ entry ∈ s.told request, s.network.Circles entry.level s.logger := by
  cases request with
  | init m => simp [answer_init, told]
  | isInitialized => simp [answer, told]
  | quickTokenize source clock elapsed => exact run_eq_none_iff
  | tokenize source clock elapsed =>
    cases hm : s.mandate? with
    | none => simp [answer_tokenize_of_no_mandate hm, told, policy_of_no_mandate hm]
    | some m =>
      have hanswer : s.answer (.tokenize source clock elapsed) =
          (s.note (clock 0) StandingPolicy.entry).bind
            (·.run m.policy source (fun k => clock (k + 1)) elapsed) := by
        simp only [answer, StandingPolicy.get, policy_of_mandate? hm]
        rfl
      simp only [hanswer, told, policy_of_mandate? hm, List.exists_mem_cons_iff]
      rw [← @note_eq_none_iff s (clock 0)]
      cases hnoted : s.note (clock 0) StandingPolicy.entry with
      | none => simp
      | some noted =>
        obtain ⟨network, lines, hlog, rfl⟩ := note_eq_some hnoted
        -- the loggers are as they were, so the rest of the run is told to them as it would have been
        have hloggers := Log.Network.loggers_log hlog
        rw [Option.bind_some, run_eq_none_iff]
        simp only [Log.Network.circles_of_loggers_eq hloggers, Log.Network.isEnabled_of_loggers_eq hloggers]
        simp

theorem serve_cons_eq_some {requests : List Request} {replies : List Reply} {last : Service} :
    s.serve (request :: requests) = some (replies, last) ↔ ∃ reply next more,
      s.answer request = some (reply, next) ∧ next.serve requests = some (more, last) ∧
        replies = reply :: more := by
  simp only [serve, Option.bind_eq_bind, Option.bind_eq_some_iff, Option.pure_def, Option.some.injEq,
    Prod.exists, Prod.mk.injEq]
  constructor
  · rintro ⟨reply, next, hanswer, more, _, hserve, rfl, rfl⟩
    exact ⟨reply, next, more, hanswer, hserve, rfl⟩
  · rintro ⟨reply, next, more, hanswer, hserve, rfl⟩
    exact ⟨reply, next, hanswer, more, last, hserve, rfl, rfl⟩

theorem mandate?_serve {requests : List Request} {replies : List Reply} {last : Service}
    (h : s.serve requests = some (replies, last)) :
    last.mandate? = s.mandate?.or (requests.findSome? (·.offer s.logger)) := by
  induction requests generalizing s replies with
  | nil =>
    obtain ⟨-, rfl⟩ := Prod.mk.inj (Option.some.inj h)
    exact Option.or_none.symm
  | cons request requests ih =>
    obtain ⟨reply, next, more, hanswer, hserve, rfl⟩ := serve_cons_eq_some.mp h
    rw [ih hserve, mandate?_answer hanswer, List.findSome?_cons]
    cases ho : request.offer s.logger with
    | none => rw [Option.or_none, logger_answer hanswer ho]
    | some m => rw [Option.or_assoc, Option.some_or]

theorem serve_ne_none (h : ∀ level id, ¬ s.network.Circles level id) (requests : List Request) :
    s.serve requests ≠ none := by
  induction requests generalizing s with
  | nil => simp [serve]
  | cons request requests ih =>
    obtain ⟨⟨reply, next⟩, hanswer⟩ := Option.ne_none_iff_exists'.mp
      (mt (answer_eq_none_iff request).mp fun ⟨_, _, hcircles⟩ => h _ _ hcircles)
    have hnext := @ih next fun level id => (circles_answer hanswer).not.mpr (h level id)
    obtain ⟨⟨more, last⟩, hserve⟩ := Option.ne_none_iff_exists'.mp hnext
    simp [serve_cons_eq_some.mpr ⟨reply, next, more, hanswer, hserve, rfl⟩]

theorem length_serve {requests : List Request} {replies : List Reply} {last : Service}
    (h : s.serve requests = some (replies, last)) : replies.length = requests.length := by
  induction requests generalizing s replies with
  | nil =>
    obtain ⟨rfl, -⟩ := Prod.mk.inj (Option.some.inj h)
    rfl
  | cons request requests ih =>
    obtain ⟨reply, next, more, -, hserve, rfl⟩ := serve_cons_eq_some.mp h
    simp [ih hserve]

theorem serve_append {first last : List Request} {replies : List Reply} {middle final : Service}
    {more : List Reply} (hfirst : s.serve first = some (replies, middle))
    (h : s.serve (first ++ last) = some (more, final)) :
    ∃ rest, middle.serve last = some (rest, final) ∧ more = replies ++ rest := by
  induction first generalizing s replies more with
  | nil =>
    obtain ⟨rfl, rfl⟩ := Prod.mk.inj (Option.some.inj hfirst)
    exact ⟨more, h, rfl⟩
  | cons request first ih =>
    obtain ⟨reply, next, replies, hanswer, hnext, rfl⟩ := serve_cons_eq_some.mp hfirst
    obtain ⟨reply', next', more, hanswer', hmore, rfl⟩ := serve_cons_eq_some.mp h
    obtain ⟨rfl, rfl⟩ := Prod.mk.inj (Option.some.inj (hanswer.symm.trans hanswer'))
    obtain ⟨rest, hrest, rfl⟩ := ih hnext hmore
    exact ⟨rest, hrest, rfl⟩

theorem yields_of_quick (hm : s.mandate?.getD ⟨{}, m.logger⟩ = m) {done : Tokenized}
    (hdone : (s.standing.policy.getD {}).tokenize s.network clock s.logger source elapsed = some done) :
    m.Yields source done.result := by
  have hpolicy : m.policy = s.standing.policy.getD {} := by
    rw [← hm]
    cases hs : s.mandate? with
    | none => rw [policy_of_no_mandate hs]; rfl
    | some m' => rw [policy_of_mandate? hs]; rfl
  rw [← hpolicy] at hdone
  exact m.yields_of_tokenize hdone

/-- In a run of requests, the mandate is the one that the first request to offer any offered, and it
stays. A second one is refused, without effect. Before there is a mandate, a source is refused unless
the default policy will do, and afterwards every source is answered as by a run of its own under the
mandate. No request is left without an answer but one of which something is told that runs in a circle. -/
theorem first_mandate_stands (network : Log.Network) (before : List Request) :
    let start := start network
    let settled := before.findSome? (·.offer start.logger)
    (network.Acyclic → start.serve before ≠ none) ∧
    ∀ replies s, start.serve before = some (replies, s) →
      s.mandate? = settled ∧
      (∀ m, settled = some m → ∀ after more last, start.serve (before ++ after) = some (more, last) →
        last.mandate? = some m) ∧
      (∀ request, s.answer request = none ↔
        ∃ entry ∈ s.told request, s.network.Circles entry.level s.logger) ∧
      s.answer .isInitialized = some (.initialized settled.isSome, s) ∧
      (∀ m, ∃ next, s.answer (.init m) = some (if settled.isSome then
        (.refused (.alreadySet m.policy), s) else (.done, next))) ∧
      (∀ source clock elapsed, settled = none →
        s.answer (.tokenize source clock elapsed) = some (.refused .notSet, s)) ∧
      (∀ source clock elapsed m reply next, settled = some m →
        s.answer (.tokenize source clock elapsed) = some (reply, next) →
          ∃ result, reply = .result result ∧ m.Yields source result) ∧
      (∀ source clock elapsed reply next,
        s.answer (.quickTokenize source clock elapsed) = some (reply, next) →
          ∃ result, reply = .result result ∧ (settled.getD ⟨{}, start.logger⟩).Yields source result) ∧
      ∀ request after more last, start.serve (before ++ request :: after) = some (more, last) →
        ∃ reply next, s.answer request = some (reply, next) ∧ more[before.length]? = some reply := by
  intro start settled
  refine ⟨fun hacyclic => ?_, fun replies s hs => ?_⟩
  · exact serve_ne_none (fun _ _ => (hacyclic.addLogger .error).not_circles) before
  have hp : s.mandate? = settled := mandate?_serve hs
  refine ⟨hp, ?_, answer_eq_none_iff, ?_, ?_, ?_, ?_, ?_, ?_⟩
  · intro m hm after more last hlast
    obtain ⟨rest, hrest, -⟩ := serve_append hs hlast
    rw [mandate?_serve hrest, hp, hm, Option.some_or]
  · rw [← hp, mandate?, Option.isSome_map]
    rfl
  · intro m
    rw [answer_init, hp]
    exact ⟨_, rfl⟩
  · intro source clock elapsed hnone
    exact answer_tokenize_of_no_mandate (hp.trans hnone) source clock elapsed
  · intro source clock elapsed m reply next hm hreply
    obtain ⟨_, done, -, hdone, hresult, -⟩ := answer_tokenize_of_mandate (hp.trans hm) hreply
    exact ⟨done.result, hresult, m.yields_of_tokenize hdone⟩
  · intro source clock elapsed reply next hreply
    obtain ⟨done, hdone, hresult, -⟩ := answer_quickTokenize hreply
    refine ⟨done.result, hresult, yields_of_quick ?_ hdone⟩
    rw [hp]
    cases settled <;> rfl
  · intro request after more last hlast
    obtain ⟨rest, hrest, rfl⟩ := serve_append hs hlast
    obtain ⟨reply, next, more, hanswer, -, rfl⟩ := serve_cons_eq_some.mp hrest
    refine ⟨reply, next, hanswer, ?_⟩
    rw [List.getElem?_append_right (by rw [length_serve hs]), length_serve hs, Nat.sub_self]
    rfl

end Service

end Abnf
