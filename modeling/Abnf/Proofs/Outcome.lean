import Abnf.Proofs.JsonTexts
import Abnf.Proofs.OutputRows
import Abnf.Proofs.Running
import Abnf.Proofs.Verdict

/-! How runs end and what they print, over all settings. -/

namespace Abnf

theorem Lexer.exists_last_token (source : String) :
    ∃ front last, (tokens source).toList = front ++ [last] ∧ last.kind = .endOfInput ∧
      ∀ k ∈ front, k.kind ≠ .endOfInput := by
  obtain ⟨tiles, rest, h⟩ := exists_tiling source.toList
  obtain ⟨front, ends, happ, hfront, hends⟩ := List.map_eq_append_iff.mp (contents_of_tiling h)
  obtain ⟨last, rfl, hlast⟩ := List.map_eq_singleton_iff.mp hends
  refine ⟨front, last, happ, congrArg Prod.fst hlast, ?_⟩
  intro k hk
  have hm : k.content ∈ tiles.map (·.form.content) := hfront ▸ List.mem_map_of_mem hk
  obtain ⟨t, -, ht⟩ := List.mem_map.mp hm
  have hkind : t.form.kind = k.kind := congrArg Prod.fst ht
  rw [← hkind]
  exact t.form.kind_ne_endOfInput

theorem Policy.judge_cases (p : Policy) (source : String) (elapsed : Nat) :
    let refused := p.strict = true ∧ p.lexer.collectDiagnostics = true ∧ HasProblem source
    (refused ∧ ∃ ds, p.judge (p.lex source) elapsed = .error (.rejected ds)) ∨
      (¬ refused ∧ ∃ ds, p.judge (p.lex source) elapsed =
        .ok ⟨(Lexer.tokens source).toList, ds, elapsed⟩) := by
  intro refused
  obtain ⟨tiles, rest, h⟩ := exists_tiling source.toList
  have hjudge := p.judge_of_tiling h elapsed
  have hrefused : refused ↔ p.strict = true ∧
      (if p.lexer.collectDiagnostics then reportsBehind [] tiles else []) ≠ [] := by
    have hproblem := h.hasProblem_iff
    cases hc : p.lexer.collectDiagnostics <;> simp [refused, hc, hproblem]
  dsimp only at hjudge
  by_cases hr : refused
  · rw [if_pos (hrefused.mp hr)] at hjudge
    exact .inl ⟨hr, _, hjudge⟩
  · rw [if_neg (mt hrefused.mpr hr)] at hjudge
    exact .inr ⟨hr, _, hjudge⟩

namespace Settings

variable {s : Settings} {fs : FileSystem}

/-- The failures of runs with these settings. -/
inductive Fails (s : Settings) (fs : FileSystem) : Failure → Prop
  | unreadable {cause : FileError} (h : s.found fs = .error cause) :
      Fails s fs (.unreadable s.grammar cause)
  | rejected {source : String} {e : Failure} (h : s.found fs = .ok source)
      (he : s.policy.judge (s.policy.lex source) 0 = .error e) : Fails s fs e

theorem verdict_of_unreadable {cause : FileError} (h : s.found fs = .error cause) :
    s.verdict fs = .error (.unreadable s.grammar cause) := by
  rw [verdict, h]

theorem verdict_of_found {source : String} (h : s.found fs = .ok source) :
    s.verdict fs = s.policy.judge (s.policy.lex source) 0 := by
  rw [verdict, h]

theorem verdict_eq_error_iff {e : Failure} : s.verdict fs = .error e ↔ s.Fails fs e := by
  constructor
  · intro h
    cases hfound : s.found fs with
    | error cause =>
      rw [verdict_of_unreadable hfound] at h
      obtain rfl := Except.error.inj h
      exact .unreadable hfound
    | ok source =>
      rw [verdict_of_found hfound] at h
      exact .rejected hfound h
  · intro h
    cases h with
    | unreadable hfound => exact verdict_of_unreadable hfound
    | rejected hfound he => exact (verdict_of_found hfound).trans he

theorem heading_of_json (h : s.format = .json) (found : Except FileError String) :
    s.heading found = "" := by
  cases found <;> simp [heading, h]

theorem heading_of_text (h : s.format = .text) (source : String) :
    s.heading (.ok source) = joinRows (if s.showSource then sourceRows source else []) := by
  cases hshow : s.showSource with
  | false => simp [heading, h, hshow, joinRows]
  | true => simp [heading, h, hshow, joinRows_sourceRows]

theorem printed_of_text (h : s.format = .text) (t : Tokenization) :
    s.printed (.ok t) = joinRows (t.rows s.showTiming) := by
  rw [printed, h, t.joinRows_rows]

end Settings

namespace Program

theorem perform_showSource {s : Settings} (h : s.format = .json) (shown : Bool) :
    perform World.host { s with showSource := shown } = perform World.host s := by
  let other := { s with showSource := shown }
  have hformat : other.format = .json := h
  have hpolicy : other.policy = s.policy := rfl
  have hpresent : present World.host other = present World.host s := rfl
  have htext : (Format.json == Format.text) = false := rfl
  have htokenize : tokenize World.host other = tokenize World.host s := by
    funext network logger source
    simp only [tokenize, hpolicy, hpresent, hformat, h, htext, Bool.and_false, Bool.false_eq_true,
      if_false]
  have hsetup : logSetup other = logSetup s := rfl
  have hgrammar : other.grammar = s.grammar := rfl
  have hperform : perform World.host other = perform World.host s := by
    simp only [perform, htokenize, hsetup, hgrammar, hformat, h]
  exact hperform

/-- A run ends with 0 if the grammar can be read and is not refused, and else with 1 for a failure. -/
theorem exitCode_perform (s : Settings) (w : World) :
    let done := (perform World.host s).run w
    (done.1 = 0 ↔ ∃ source, s.found w.files = .ok source ∧
      ¬ (s.strict = true ∧ s.lexer.collectDiagnostics = true ∧ HasProblem source)) ∧
    (done.1 = 0 ∨ done.1 = 1 ∧ ∃ e, s.Fails w.files e) := by
  intro done
  have hcode : done.1 = exitCode (s.verdict w.files) := (run_perform s w).1
  cases hfound : s.found w.files with
  | error cause =>
    rw [hcode, Settings.verdict_of_unreadable hfound]
    exact ⟨by simp [exitCode], .inr ⟨rfl, _, .unreadable hfound⟩⟩
  | ok source =>
    have hv := Settings.verdict_of_found hfound
    rcases s.policy.judge_cases source 0 with ⟨hrefused, ds, he⟩ | ⟨hrefused, ds, ht⟩
    · rw [hcode, hv, he]
      refine ⟨?_, .inr ⟨rfl, _, .rejected hfound he⟩⟩
      constructor
      · simp [exitCode]
      · rintro ⟨source', hsource, hnot⟩
        obtain rfl := Except.ok.inj hsource
        exact absurd hrefused hnot
    · rw [hcode, hv, ht]
      exact ⟨⟨fun _ => ⟨source, rfl, hrefused⟩, fun _ => rfl⟩, .inl rfl⟩

/-- A run as JSON prints one document. -/
theorem output_of_json {s : Settings} (h : s.format = .json) (w : World) :
    ∃ document : Json.Value,
      ((perform World.host s).run w).2.output = w.output ++ (document.pretty ++ "\n") ∧
      Json.Document document (document.pretty ++ "\n") ∧
      (∀ e, s.verdict w.files = .error e → document = e.json) ∧
      (∀ t, s.verdict w.files = .ok t → document = t.json s.showTiming) := by
  have hout := (run_perform s w).2
  rw [Settings.heading_of_json h, String.append_empty] at hout
  cases hv : s.verdict w.files with
  | error e =>
    rw [hv, Settings.printed, h] at hout
    exact ⟨e.json, hout, e.fits_json.holds_pretty, by simp, by simp⟩
  | ok t =>
    rw [hv, Settings.printed, h] at hout
    exact ⟨t.json s.showTiming, hout, (t.fits_json _).holds_pretty, by simp, by simp⟩

/-- A run as text prints the source, if it is shown and was read, and the rows of a success. -/
theorem output_of_text {s : Settings} (h : s.format = .text) (w : World) :
    ∃ rows : List String,
      ((perform World.host s).run w).2.output = w.output ++ joinRows rows ∧
      (∀ row ∈ rows, OneLine row) ∧
      (∀ cause, s.found w.files = .error cause → rows = []) ∧
      ∀ source, s.found w.files = .ok source →
        ∃ more, rows = (if s.showSource then sourceRows source else []) ++ more ∧
          (∀ e, s.verdict w.files = .error e → more = []) ∧
          (∀ t, s.verdict w.files = .ok t → more = t.rows s.showTiming) := by
  have hout := (run_perform s w).2
  cases hfound : s.found w.files with
  | error cause =>
    have hv := Settings.verdict_of_unreadable hfound
    rw [hv, hfound, Settings.heading, Settings.printed, h, String.append_empty] at hout
    exact ⟨[], hout, by simp, by simp, by simp⟩
  | ok source =>
    rw [hfound, Settings.heading_of_text h] at hout
    have hshown : ∀ row ∈ (if s.showSource then sourceRows source else []), OneLine row := by
      split
      · exact oneLine_sourceRows source
      · simp
    cases hv : s.verdict w.files with
    | error e =>
      rw [hv, Settings.printed, h, String.append_empty] at hout
      refine ⟨_, hout, hshown, by simp, ?_⟩
      rintro source' hsource
      obtain rfl := Except.ok.inj hsource
      exact ⟨[], by simp, by simp, by simp⟩
    | ok t =>
      rw [hv, Settings.printed_of_text h, String.append_assoc, ← joinRows_append] at hout
      refine ⟨_, hout, ?_, by simp, ?_⟩
      · intro row hm
        rcases List.mem_append.mp hm with hm | hm
        · exact hshown row hm
        · exact t.oneLine_rows _ row hm
      · rintro source' hsource
        obtain rfl := Except.ok.inj hsource
        exact ⟨t.rows s.showTiming, rfl, by simp, by simp⟩

/-- A run with settings ends with 0 exactly if the grammar can be read and is not refused, as it is by
whatever else tokenizes it under the same policy. As JSON it prints one document and nothing else, and
whether the source is to be shown makes no difference. As text it prints the source if that is shown
and was read, and then, unless it fails, each token up to the end of input and the time. What is read
as the grammar is what was there at first, unless the log goes to it or stands in its way. -/
theorem run_ends_and_prints {arguments : List String} {o : Overrides} {s : Settings} {w : World}
    (hparse : CommandLine.parse arguments = .ok o)
    (hs : Settings.resolve (m := Id) w.files.readText o = .ok s) :
    let found := s.found w.files
    let judged source := s.policy.judge (s.policy.lex source) 0
    let done := (run World.host arguments).run w
    (done.1 = 0 ↔ ∃ source, found = .ok source ∧
      ¬ (s.strict = true ∧ s.lexer.collectDiagnostics = true ∧ HasProblem source)) ∧
    (done.1 = 0 ∨ done.1 = 1 ∧ ∃ e, s.Fails w.files e) ∧
    (∀ network clock logger source run, s.policy.tokenize network clock logger source 0 = some run →
      run.result = judged source) ∧
    ((∀ path, s.logFile = some path → w.files.Spares s.grammar path) →
      found = w.files.readText s.grammar) ∧
    (s.format = .json →
      (∃ document : Json.Value, done.2.output = w.output ++ (document.pretty ++ "\n") ∧
        Json.Document document (document.pretty ++ "\n") ∧
        (∀ e, s.Fails w.files e → document = .object [("error", e.report.json)]) ∧
        (∀ source t, found = .ok source → judged source = .ok t →
          document = .object (("diagnostics", .array (t.diagnostics.map (·.json))) ::
            (if s.showTiming then [("elapsed_us", .ofNat (t.elapsed / 1000))] else []) ++
            [("tokens", .array (t.tokens.map (·.json)))]))) ∧
      ∀ shown, (perform World.host { s with showSource := shown }).run w = done) ∧
    (s.format = .text → ∃ rows, done.2.output = w.output ++ joinRows rows ∧
      (∀ row ∈ rows, OneLine row) ∧ (∀ cause, found = .error cause → rows = []) ∧
      ∀ source, found = .ok source →
        ∃ more, rows = (if s.showSource then sourceRows source else []) ++ more ∧
          (done.1 ≠ 0 → more = []) ∧
          (done.1 = 0 → ∃ t front last, judged source = .ok t ∧
            t.tokens = (Lexer.tokens source).toList ∧ t.tokens = front ++ [last] ∧
            last.kind = .endOfInput ∧ (∀ k ∈ front, k.kind ≠ .endOfInput) ∧
            more = t.tokens.map Token.text ++ if s.showTiming then [t.timingRow] else [])) := by
  intro found judged done
  have hdone : done = (perform World.host s).run w := run_of_settings hparse hs
  have hverdict : ∀ source, found = .ok source → s.verdict w.files = judged source :=
    fun source hsource => Settings.verdict_of_found hsource
  obtain ⟨hzero, hcodes⟩ := exitCode_perform s w
  rw [hdone]
  refine ⟨hzero, hcodes, fun _ _ _ _ _ hrun => Policy.result_of_tokenize hrun,
    Settings.found_of_spares, ?_, ?_⟩
  · intro hformat
    obtain ⟨document, hout, hdocument, herror, hok⟩ := output_of_json hformat w
    refine ⟨⟨document, hout, hdocument, ?_, ?_⟩, ?_⟩
    · intro e he
      exact herror e (Settings.verdict_eq_error_iff.mpr he)
    · intro source t hsource ht
      exact hok t ((hverdict source hsource).trans ht)
    · intro shown
      rw [perform_showSource hformat]
  · intro hformat
    obtain ⟨rows, hout, hline, hnone, hsome⟩ := output_of_text hformat w
    refine ⟨rows, hout, hline, hnone, ?_⟩
    intro source hsource
    obtain ⟨more, hrows, herror, hok⟩ := hsome source hsource
    refine ⟨more, hrows, ?_, ?_⟩
    · intro hne
      obtain ⟨e, he⟩ := (hcodes.resolve_left hne).2
      exact herror e (Settings.verdict_eq_error_iff.mpr he)
    · intro h0
      obtain ⟨source', hsource', hnot⟩ := hzero.mp h0
      obtain rfl := Except.ok.inj (hsource.symm.trans hsource')
      obtain ⟨front, last, htokens, hlast, hfront⟩ := Lexer.exists_last_token source
      rcases s.policy.judge_cases source 0 with ⟨hrefused, -⟩ | ⟨-, ds, ht⟩
      · exact absurd hrefused hnot
      · have hmore := hok _ ((hverdict source hsource).trans ht)
        exact ⟨_, front, last, ht, rfl, htokens, hlast, hfront, hmore⟩

theorem strict_run_prints_source_alone :
    let source := "a = @\n"
    let w : World := { files := (FileSystem.scratch ["work"]).create ⟨"g.abnf"⟩ (.file source.toUTF8) }
    let arguments := ["g.abnf", "--strict", "--show-source", "--log-file", "run.log"]
    let o : Overrides :=
      { grammar := some ⟨"g.abnf"⟩, logFile := some ⟨"run.log"⟩, strict := true, showSource := true }
    CommandLine.parse arguments = .ok o ∧
      Settings.resolve (m := Id) w.files.readText o = .ok (.merge ⟨"g.abnf"⟩ {} o) ∧
      ((run World.host arguments).run w).1 ≠ 0 ∧
      ((run World.host arguments).run w).2.output = w.output ++ joinRows (sourceRows source) := by
  intro source w arguments o
  have hparse : CommandLine.parse arguments = .ok o := by decide +kernel
  have hs : Settings.resolve (m := Id) w.files.readText o = .ok (.merge ⟨"g.abnf"⟩ {} o) :=
    toOption_eq_some.mp (by decide +kernel)
  have hfound : (Settings.merge ⟨"g.abnf"⟩ {} o).found w.files = .ok source := by decide +kernel
  have hcode : ((run World.host arguments).run w).1 ≠ 0 := by decide +kernel
  obtain ⟨-, -, -, -, -, htext⟩ := run_ends_and_prints hparse hs
  obtain ⟨rows, hout, -, -, hread⟩ := htext rfl
  obtain ⟨more, hrows, hfail, -⟩ := hread source hfound
  have hall : rows = sourceRows source := by
    rw [hrows, hfail hcode, List.append_nil]
    exact if_pos rfl
  rw [hall] at hout
  exact ⟨hparse, hs, hcode, hout⟩

end Program

end Abnf
