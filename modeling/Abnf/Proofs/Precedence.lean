import Abnf.Proofs.Openings
import Abnf.Settings

/-! Where the settings of a run come from: the command line goes before the project file, which is read
only if the run needs one, and the defaults come last. -/

namespace Abnf

/-- The project file that a run looks into: the one that is named, or the default one if neither a
project nor a grammar is. -/
inductive Overrides.Consults (o : Overrides) : Path → Prop
  | named {path : Path} (h : o.config = some path) : Consults o path
  | unnamed (hc : o.config = none) (hg : o.grammar = none) : Consults o ⟨"abnf.json"⟩

theorem Overrides.consults_iff {o : Overrides} {path : Path} :
    o.Consults path ↔ o.projectPath = some path := by
  constructor
  · rintro (h | ⟨hc, hg⟩)
    · simp [projectPath, h]
    · simp [projectPath, hc, hg, Project.defaultPath]
  · intro h
    unfold projectPath at h
    split at h
    · next hc =>
      obtain rfl := Option.some.inj h
      exact .named hc
    · next hc hg =>
      obtain rfl := Option.some.inj h
      exact .unnamed hc hg
    · simp at h

namespace Settings

/-- Settings of which the command line has the first say, then a project whose paths start at `dir`,
and then the defaults. A switch is on if either of the two turns it on. -/
structure Layered (o : Overrides) (dir : Path) (p : Project) (s : Settings) : Prop where
  grammar : o.grammar = some s.grammar ∨
    o.grammar = none ∧ ∃ entry, p.entry = some entry ∧ s.grammar = dir.join ⟨entry⟩
  format : s.format = o.format.getD p.output.format
  logLevel : s.logLevel = (o.logLevel.or p.logLevel).getD .warn
  logFile : s.logFile = o.logFile.or (p.logFile.map fun file => dir.join ⟨file⟩)
  lexer : s.lexer = p.lexer
  strict : s.strict = true ↔ o.strict = true ∨ p.strict = true
  showSource : s.showSource = true ↔ o.showSource = true ∨ p.output.showSource = true
  showTiming : s.showTiming = true ↔ o.timing = true ∨ p.output.showTiming = true

variable {o : Overrides} {p : Project} {path grammar : Path}

/-- Merging is layering, once the paths of the project start where they should. -/
theorem layered_merge {dir : Path} {q : Project}
    (hgrammar : o.grammar = some grammar ∨
      o.grammar = none ∧ ∃ entry, p.entry = some entry ∧ grammar = dir.join ⟨entry⟩)
    (hq : q = { p with logFile := p.logFile.map fun file => (dir.join ⟨file⟩).text }) :
    (merge grammar q o).Layered o dir p := by
  subst hq
  constructor
  · exact hgrammar
  · rfl
  · cases hl : o.logLevel <;> simp [merge, hl, defaultLogLevel]
  · cases hl : o.logFile <;> simp [merge, hl, Function.comp_def]
  · rfl
  all_goals simp [merge]

theorem ofProject_eq_error (hg : o.grammar = none) (he : p.entry = none) :
    ofProject path p o = .error .noGrammar := by
  simp [ofProject, hg, Project.grammar, he, bind, Except.bind]

theorem exists_ofProject_eq_ok (h : ¬ (o.grammar = none ∧ p.entry = none)) :
    ∃ s, ofProject path p o = .ok s ∧ s.Layered o (path.parent?.getD ⟨""⟩) p := by
  cases hg : o.grammar with
  | some grammar =>
    refine ⟨_, ?_, layered_merge (.inl hg) rfl⟩
    rw [ofProject, hg]
    rfl
  | none =>
    cases he : p.entry with
    | none => exact absurd ⟨hg, he⟩ h
    | some entry =>
      refine ⟨_, ?_, layered_merge (.inr ⟨hg, entry, he, rfl⟩) rfl⟩
      rw [ofProject, hg, he]
      rfl

theorem ofOverrides_eq_ok (hg : o.grammar = some grammar) :
    ∃ s, ofOverrides o = .ok s ∧ s.Layered o ⟨""⟩ {} := by
  refine ⟨merge grammar {} o, ?_, layered_merge (.inl hg) rfl⟩
  rw [ofOverrides, hg]

section

variable {readText : Path → Except FileError String} {text : String}

theorem resolve_of_none (h : o.projectPath = none) :
    resolve (m := Id) readText o = ofOverrides o := by
  simp only [resolve, h]
  rfl

/-- How it can go with a project file. -/
inductive Outcome (o : Overrides) (path : Path) (found : Except FileError String) :
    Except Failure Settings → Prop
  | unreadable {cause : FileError} (hread : found = .error cause) :
      Outcome o path found (.error (.unreadable path cause))
  | invalid {text : String} {e : Json.Error} (hread : found = .ok text)
      (hparse : Project.parse text = .error e) : Outcome o path found (.error (.badProject path e))
  | noGrammar {text : String} {p : Project} (hread : found = .ok text)
      (hparse : Project.parse text = .ok p) (hnone : o.grammar = none ∧ p.entry = none) :
      Outcome o path found (.error .noGrammar)
  | settled {text : String} {p : Project} {s : Settings} (hread : found = .ok text)
      (hparse : Project.parse text = .ok p) (hsome : ¬ (o.grammar = none ∧ p.entry = none))
      (h : s.Layered o (path.parent?.getD ⟨""⟩) p) : Outcome o path found (.ok s)

theorem outcome_resolve (h : o.projectPath = some path) :
    Outcome o path (readText path) (resolve (m := Id) readText o) := by
  have hresolve : resolve (m := Id) readText o = (match readText path with
      | .error cause => .error (.unreadable path cause)
      | .ok text => match Project.parse text with
        | .error e => .error (.badProject path e)
        | .ok p => ofProject path p o) := by
    simp only [resolve, h, Project.load, loadSource]
    cases readText path with
    | error cause => rfl
    | ok text =>
      dsimp only [Except.mapError, bind, pure]
      cases Project.parse text <;> rfl
  rw [hresolve]
  cases hread : readText path with
  | error cause => exact .unreadable rfl
  | ok text =>
    dsimp only
    cases hparse : Project.parse text with
    | error e => exact .invalid rfl hparse
    | ok p =>
      by_cases hnone : o.grammar = none ∧ p.entry = none
      · dsimp only
        rw [ofProject_eq_error hnone.1 hnone.2]
        exact .noGrammar rfl hparse hnone
      · obtain ⟨s, hs, hlayered⟩ := @exists_ofProject_eq_ok o p path hnone
        dsimp only
        rw [hs]
        exact .settled rfl hparse hnone hlayered

/-- All that a run takes from the files is the text of its project. -/
theorem resolve_congr {readText' : Path → Except FileError String}
    (h : ∀ path, o.projectPath = some path → readText' path = readText path) :
    resolve (m := Id) readText' o = resolve (m := Id) readText o := by
  cases hpath : o.projectPath with
  | none => rw [resolve_of_none hpath, resolve_of_none hpath]
  | some path =>
    have hsame := h path hpath
    simp only [resolve, hpath, Project.load, loadSource, hsame]

end

/-- The settings of a run. A run with a grammar and no project takes nothing from the files and always
has settings. Any other run takes the text of one project file from them, and has settings unless that
cannot be read as text, or is no project, or has no entry while the command line has no grammar; the
first of these that is so is the failure. The command line goes before the project, and the project
before the defaults. -/
theorem command_line_goes_first (o : Overrides) (fs : FileSystem) :
    let settled (fs : FileSystem) := resolve (m := Id) fs.readText o
    (∀ grammar, o.config = none → o.grammar = some grammar →
      (∀ path, ¬ o.Consults path) ∧ (∀ fs', settled fs' = settled fs) ∧
      ∃ s, settled fs = .ok s ∧ s.Layered o ⟨""⟩ {}) ∧
    ((o.config = none → o.grammar = none) → ∃ path, o.Consults path ∧
      (∀ path', o.Consults path' → path' = path) ∧
      (∀ fs', fs'.readText path = fs.readText path → settled fs' = settled fs) ∧
      ((∃ cause, settled fs = .error (.unreadable path cause)) ↔ ∀ text, ¬ fs.Holds path text) ∧
      ∀ text, fs.Holds path text →
        ((∃ e, settled fs = .error (.badProject path e)) ↔ ∀ p, Project.parse text ≠ .ok p) ∧
        ∀ p, Project.parse text = .ok p →
          (settled fs = .error .noGrammar ↔ o.grammar = none ∧ p.entry = none) ∧
          (¬ (o.grammar = none ∧ p.entry = none) →
            ∃ s, settled fs = .ok s ∧ s.Layered o (path.parent?.getD ⟨""⟩) p)) := by
  intro settled
  refine ⟨?_, ?_⟩
  · intro grammar hc hg
    have hnone : o.projectPath = none := by simp [Overrides.projectPath, hc, hg]
    obtain ⟨s, hs, hlayered⟩ := ofOverrides_eq_ok hg
    refine ⟨?_, fun fs' => ?_, s, (resolve_of_none hnone).trans hs, hlayered⟩
    · intro path hpath
      simp [Overrides.consults_iff, hnone] at hpath
    · refine resolve_congr fun path hpath => ?_
      simp [hnone] at hpath
  · intro hneeds
    obtain ⟨path, hpath⟩ : ∃ path, o.projectPath = some path := by
      cases hc : o.config with
      | some path => exact ⟨path, by simp [Overrides.projectPath, hc]⟩
      | none => exact ⟨Project.defaultPath, by simp [Overrides.projectPath, hc, hneeds hc]⟩
    have hsame : ∀ path', o.projectPath = some path' → path' = path := by
      intro path' hpath'
      exact Option.some.inj (hpath'.symm.trans hpath)
    have hout : Outcome o path (fs.readText path) (settled fs) := outcome_resolve hpath
    refine ⟨path, Overrides.consults_iff.mpr hpath,
      fun path' hpath' => hsame path' (Overrides.consults_iff.mp hpath'), ?_, ?_, ?_⟩
    · intro fs' hread
      refine resolve_congr fun path' hpath' => ?_
      rw [hsame path' hpath', hread]
    · simp only [← FileSystem.readText_eq_ok]
      generalize settled fs = result at hout
      cases hout with
      | @unreadable cause hread => exact ⟨fun _ text => by simp [hread], fun _ => ⟨cause, rfl⟩⟩
      | invalid hread _ | noGrammar hread _ _ | settled hread _ _ _ =>
        exact ⟨(fun ⟨_, he⟩ => nomatch he), fun h => absurd hread (h _)⟩
    · intro text htext
      rw [FileSystem.readText_eq_ok.mpr htext] at hout
      generalize settled fs = result at hout
      cases hout with
      | unreadable hread => cases hread
      | @invalid text' e hread hparse =>
        obtain rfl := Except.ok.inj hread
        exact ⟨⟨fun _ p => by simp [hparse], fun _ => ⟨e, rfl⟩⟩, fun p hp => by simp [hparse] at hp⟩
      | @noGrammar text' p hread hparse hnone =>
        obtain rfl := Except.ok.inj hread
        refine ⟨⟨(fun ⟨_, he⟩ => nomatch he), fun h => absurd hparse (h p)⟩, ?_⟩
        intro p' hparse'
        obtain rfl := Except.ok.inj (hparse.symm.trans hparse')
        exact ⟨⟨fun _ => hnone, fun _ => rfl⟩, fun hsome => absurd hnone hsome⟩
      | @settled text' p s hread hparse hsome hlayered =>
        obtain rfl := Except.ok.inj hread
        refine ⟨⟨(fun ⟨_, he⟩ => nomatch he), fun h => absurd hparse (h p)⟩, ?_⟩
        intro p' hparse'
        obtain rfl := Except.ok.inj (hparse.symm.trans hparse')
        exact ⟨⟨(fun he => nomatch he), fun hnone => absurd hnone hsome⟩, fun _ => ⟨s, rfl, hlayered⟩⟩

end Settings

end Abnf
