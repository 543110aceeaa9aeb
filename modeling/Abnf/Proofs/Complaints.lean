import Abnf.Proofs.Outcome

/-! Where a run that was asked for JSON tells why it failed. Once its settings are known it prints a
document; a failure of the settings themselves goes to the other stream as a line of text. -/

namespace Abnf

namespace Settings

variable {o : Overrides} {s : Settings}

theorem eq_merge_of_ofOverrides (h : ofOverrides o = .ok s) : ∃ grammar p, s = merge grammar p o := by
  unfold ofOverrides at h
  cases hg : o.grammar with
  | none => simp [hg] at h
  | some grammar =>
    rw [hg] at h
    exact ⟨grammar, {}, (Except.ok.inj h).symm⟩

theorem eq_merge_of_ofProject {path : Path} {p : Project} (h : ofProject path p o = .ok s) :
    ∃ grammar q, s = merge grammar q o := by
  unfold ofProject at h
  cases hg : o.grammar with
  | none =>
    rw [hg] at h
    obtain ⟨grammar, -, hs⟩ := FileSystem.bind_eq_ok.mp h
    exact ⟨grammar, _, (Except.ok.inj hs).symm⟩
  | some grammar =>
    rw [hg] at h
    exact ⟨grammar, _, (Except.ok.inj h).symm⟩

/-- Whatever the project says, the format is the one asked for. -/
theorem format_of_resolve {readText : Path → Except FileError String} {format : Format}
    (hformat : o.format = some format) (h : resolve (m := Id) readText o = .ok s) :
    s.format = format := by
  have hmerge : ∃ grammar p, s = merge grammar p o := by
    unfold resolve at h
    cases hpath : o.projectPath with
    | none =>
      rw [hpath] at h
      exact eq_merge_of_ofOverrides h
    | some path =>
      rw [hpath] at h
      dsimp only [bind, pure] at h
      cases hload : Project.load (m := Id) readText path with
      | error e => simp [hload] at h
      | ok p =>
        rw [hload] at h
        exact eq_merge_of_ofProject h
  obtain ⟨grammar, p, rfl⟩ := hmerge
  exact congrArg (Option.getD · p.output.format) hformat

end Settings

namespace Program

/-- A run that was asked for JSON on the command line and fails ends with 1. If its settings are known
the failure is the one document it prints. A failure of the settings is told in a line of text on the
other stream, and nothing is printed. -/
theorem failures_with_settings_print_documents {arguments : List String} {o : Overrides} {w : World}
    (hparse : CommandLine.parse arguments = .ok o) (hformat : o.format = some .json) :
    let settled := Settings.resolve (m := Id) w.files.readText o
    let done := (run World.host arguments).run w
    (∀ s e, settled = .ok s → s.Fails w.files e → ∃ document : Json.Value,
      document = .object [("error", .object [("column", .ofOption .ofNat e.column),
        ("line", .ofOption .ofNat e.line), ("message", .string e.message),
        ("phase", .string e.phase.name)])] ∧
      Json.Document document (document.pretty ++ "\n") ∧
      done.1 = 1 ∧ done.2.output = w.output ++ (document.pretty ++ "\n")) ∧
    (∀ e, settled = .error e →
      done = (1, { w with errors := w.errors ++ ("Error: " ++ e.message ++ "\n") })) ∧
    (done.1 ≠ 0 → (∃ s e, settled = .ok s ∧ s.Fails w.files e) ∨ ∃ e, settled = .error e) := by
  intro settled done
  refine ⟨?_, fun e he => run_without_settings hparse he, ?_⟩
  · intro s e hs hfails
    have hdone : done = (perform World.host s).run w := run_of_settings hparse hs
    have hverdict : s.verdict w.files = .error e := Settings.verdict_eq_error_iff.mpr hfails
    obtain ⟨document, hout, hdocument, herror, -⟩ :=
      output_of_json (Settings.format_of_resolve hformat hs) w
    have hcode := (run_perform s w).1
    rw [hverdict] at hcode
    rw [hdone]
    exact ⟨document, herror e hverdict, hdocument, hcode, hout⟩
  · intro hne
    cases hs : settled with
    | error e => exact .inr ⟨e, rfl⟩
    | ok s =>
      have hdone : done = (perform World.host s).run w := run_of_settings hparse hs
      rw [hdone] at hne
      obtain ⟨-, e, he⟩ := (exitCode_perform s w).2.resolve_left hne
      exact .inl ⟨s, e, rfl, he⟩

theorem strict_rejection_prints_document :
    let source := "a = @\n"
    let w : World := { files := (FileSystem.scratch ["work"]).create ⟨"g.abnf"⟩ (.file source.toUTF8) }
    let arguments := ["g.abnf", "--strict", "--format=json"]
    let o : Overrides := { grammar := some ⟨"g.abnf"⟩, format := some .json, strict := true }
    CommandLine.parse arguments = .ok o ∧ o.format = some .json ∧
      ((run World.host arguments).run w).1 = 1 ∧ ∃ document : Json.Value,
        Json.Document document (document.pretty ++ "\n") ∧
        ((run World.host arguments).run w).2.output = "" ++ (document.pretty ++ "\n") := by
  intro source w arguments o
  have hparse : CommandLine.parse arguments = .ok o := by decide +kernel
  have hs : Settings.resolve (m := Id) w.files.readText o = .ok (.merge ⟨"g.abnf"⟩ {} o) :=
    toOption_eq_some.mp (by decide +kernel)
  have hfound : (Settings.merge ⟨"g.abnf"⟩ {} o).found w.files = .ok source := by decide +kernel
  have hrejects : Policy.rejects ⟨{}, true⟩ (Policy.lex ⟨{}, true⟩ source) = true := by
    decide +kernel
  have hfails := Settings.Fails.rejected hfound (if_pos hrejects)
  obtain ⟨document, -, hdocument, hcode, hout⟩ :=
    (failures_with_settings_print_documents hparse rfl).1 _ _ hs hfails
  exact ⟨hparse, rfl, hcode, document, hdocument, hout⟩

/-- Without a grammar and without a project the format is known but the settings are not. -/
theorem missing_project_prints_nothing :
    let w : World := { files := .scratch ["work"] }
    let e := Failure.unreadable ⟨"abnf.json"⟩ .notFound
    CommandLine.parse ["--format", "json"] = .ok { format := some .json } ∧
      Settings.resolve (m := Id) w.files.readText { format := some .json } = .error e ∧
      ((run World.host ["--format", "json"]).run w).2.output = "" ∧
      ((run World.host ["--format", "json"]).run w).2.output ≠ e.json.pretty ++ "\n" := by
  intro w e
  exact ⟨by decide +kernel, rfl, by decide +kernel, by decide +kernel⟩

end Program

end Abnf
