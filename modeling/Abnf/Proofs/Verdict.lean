import Abnf.Proofs.Logging
import Abnf.Proofs.Reports
import Abnf.Tokenization

/-! What becomes of a source. Whether it is turned down, and what is said of it then, depends on the
source and on whether diagnostics are kept, and on nothing else of the run. Only a log in which
something runs in a circle keeps a run from its end. -/

namespace Abnf

/-- Some lexeme starts with an unrecognized character or lacks its closing delimiter. -/
def HasProblem (source : String) : Prop :=
  ∃ (tiles : List Tile) (rest : List Char), Tiling source.toList tiles rest ∧
    ∃ t ∈ tiles, (∃ c, t.form = .unknown c) ∨ ∃ d body, t.form = .delimited d body false

theorem Spelling.problem?_ne_none_iff {f : Spelling} :
    f.problem? ≠ none ↔ (∃ c, f = .unknown c) ∨ ∃ d body, f = .delimited d body false := by
  cases f with
  | delimited d body closed => cases closed <;> simp [problem?]
  | unknown c => simp [problem?]
  | lineEnd | comment | terminalValue | ruleName | alternative | equals => simp [problem?]

theorem reportsBehind_ne_nil_iff {before : List Char} {tiles : List Tile} :
    reportsBehind before tiles ≠ [] ↔ ∃ t ∈ tiles, t.form.problem? ≠ none := by
  induction tiles generalizing before with
  | nil => simp [reportsBehind]
  | cons t tiles ih =>
    cases hp : t.form.problem? with
    | none => simpa [reportsBehind, Spelling.reportBehind, hp] using ih
    | some problem => simp [reportsBehind, Spelling.reportBehind, hp]

theorem Tiling.hasProblem_iff {source : String} {rest : List Char} {tiles : List Tile}
    (h : Tiling source.toList tiles rest) :
    HasProblem source ↔ reportsBehind [] tiles ≠ [] := by
  constructor
  · rintro ⟨tiles', rest', h', t, ht, hp⟩
    have hne : reportsBehind [] tiles' ≠ [] :=
      reportsBehind_ne_nil_iff.mpr ⟨t, ht, Spelling.problem?_ne_none_iff.mpr hp⟩
    -- both tilings are what one and the same lexer reports
    have heq := (Lexer.drain_of_tiling h {}).2.symm.trans (Lexer.drain_of_tiling h' {}).2
    have hlist : reportsBehind [] tiles = reportsBehind [] tiles' := by simpa using heq
    rwa [hlist]
  · intro hne
    obtain ⟨t, ht, hp⟩ := reportsBehind_ne_nil_iff.mp hne
    exact ⟨tiles, rest, h, t, ht, Spelling.problem?_ne_none_iff.mp hp⟩

namespace Policy

section

variable {source : String} {rest : List Char} {tiles : List Tile}

theorem tokens_lex (p : Policy) (h : Tiling source.toList tiles rest) :
    (p.lex source).tokens = Lexer.tokens source :=
  (Lexer.drain_of_tiling h p.lexer).1.trans (Lexer.tokens_of_tiling h).symm

theorem diagnostics_lex (p : Policy) (h : Tiling source.toList tiles rest) :
    (p.lex source).lexer.diagnostics =
      (if p.lexer.collectDiagnostics then reportsBehind [] tiles else []).toArray :=
  (Lexer.drain_of_tiling h p.lexer).2

/-- What a policy makes of a source: the diagnostics of its tiles are kept or not, and if there are
any that a strict policy keeps, the source is turned down. -/
theorem judge_of_tiling (p : Policy) (h : Tiling source.toList tiles rest) (elapsed : Nat) :
    p.judge (p.lex source) elapsed =
      let ds := if p.lexer.collectDiagnostics then reportsBehind [] tiles else []
      if p.strict = true ∧ ds ≠ [] then .error (.rejected ds)
      else .ok ⟨(Lexer.tokens source).toList, ds, elapsed⟩ := by
  have hkept : (p.lex source).lexer.diagnostics.toList =
      if p.lexer.collectDiagnostics then reportsBehind [] tiles else [] := by
    rw [p.diagnostics_lex h]
  have hrejects : p.rejects (p.lex source) = true ↔ p.strict = true ∧
      (p.lex source).lexer.diagnostics.toList ≠ [] := by
    simp [rejects]
  simp only [judge, hrejects, hkept, p.tokens_lex h]

end

section

variable {p : Policy} {network : Log.Network} {clock : Nat → Log.Readings} {logger : Log.LoggerId}
  {source : String} {elapsed : Nat}

theorem isEnabled_enter (network : Log.Network) (logger : Log.LoggerId) (name : String) :
    (network.enter logger name).1.isEnabled logger = network.isEnabled logger := by
  funext level
  rw [Log.Network.isEnabled, Log.Network.logger?_enter, Log.Network.isEnabled]
  cases network.logger? logger <;> simp

theorem tokenize_eq : p.tokenize network clock logger source elapsed =
    ((network.enter logger "tokenize").1.logAll clock logger 0
      (p.entries (network.isEnabled logger) source (p.lex source) elapsed)).map fun logged =>
        ⟨p.judge (p.lex source) elapsed, logged.1.leave (network.enter logger "tokenize").2, logged.2⟩ := by
  rw [← isEnabled_enter network logger "tokenize", Option.map_eq_bind]
  rfl

/-- A run has a result unless something that is told of it runs in a circle. -/
theorem tokenize_eq_none_iff : p.tokenize network clock logger source elapsed = none ↔
    ∃ entry ∈ p.entries (network.isEnabled logger) source (p.lex source) elapsed,
      network.Circles entry.level logger := by
  rw [tokenize_eq, Option.map_eq_none_iff, Log.Network.logAll_eq_none_iff]
  simp only [Log.Network.circles_enter]

theorem circles_tokenize {done : Tokenized}
    (h : p.tokenize network clock logger source elapsed = some done) {level : Log.Level}
    {id : Log.LoggerId} : done.network.Circles level id ↔ network.Circles level id := by
  obtain ⟨⟨after, lines⟩, hlogged, rfl⟩ := Option.map_eq_some_iff.mp (tokenize_eq.symm.trans h)
  rw [Log.Network.circles_leave, Log.Network.circles_of_loggers_eq (Log.Network.loggers_logAll hlogged),
    Log.Network.circles_enter]

end

end Policy

/-- The first entry of a run never comes back from a logger that is its own sink. -/
example : (({} : Policy).tokenize ⟨#[{ level := .info, sinks := #[.logger ⟨0⟩] }], #[]⟩ (fun _ _ => 0)
    ⟨0⟩ "a" 0).isNone = true := by
  decide

end Abnf
