import Abnf.Proofs.Running

/-! Runs that differ only in what is logged and where to. Each stage of a run keeps them together, and
the log can part them only through the grammar that is read. -/

namespace Abnf

/-- Two failures, or two results that are related. -/
inductive BothOrNeither {ε α : Type} (Related : α → α → Prop) : Except ε α → Except ε α → Prop
  | neither (e e' : ε) : BothOrNeither Related (.error e) (.error e')
  | both {a b : α} (h : Related a b) : BothOrNeither Related (.ok a) (.ok b)

def Overrides.SameButLog (a b : Overrides) : Prop :=
  ∃ logLevel logFile, b = { a with logLevel, logFile }

def Project.SameButLog (p q : Project) : Prop := ∃ logLevel logFile, q = { p with logLevel, logFile }

def Settings.SameButLog (s t : Settings) : Prop :=
  ∃ logLevel logFile, t = { s with logLevel, logFile }

/-- Two command lines that stop a run in the same way, or lead to runs that differ in log settings. -/
inductive CommandLine.SameButLog : Except Stop Overrides → Except Stop Overrides → Prop
  | help : SameButLog (.error .help) (.error .help)
  | version : SameButLog (.error .version) (.error .version)
  | misused (e e' : UsageError) : SameButLog (.error (.misused e)) (.error (.misused e'))
  | runs {a b : Overrides} (h : a.SameButLog b) : SameButLog (.ok a) (.ok b)

namespace Settings

variable {s t : Settings} {a b : Overrides} {p q : Project} {v w : FileSystem}

theorem sameButLog_merge (hp : p.SameButLog q) (ho : a.SameButLog b) (grammar : Path) :
    (merge grammar p a).SameButLog (merge grammar q b) := by
  obtain ⟨_, _, rfl⟩ := hp
  obtain ⟨_, _, rfl⟩ := ho
  exact ⟨_, _, rfl⟩

theorem ofProject_sameButLog (hp : p.SameButLog q) (ho : a.SameButLog b) (path : Path) :
    BothOrNeither SameButLog (ofProject path p a) (ofProject path q b) := by
  have hgrammar : b.grammar = a.grammar := by
    obtain ⟨_, _, rfl⟩ := ho
    rfl
  have hentry : q.entry = p.entry := by
    obtain ⟨_, _, rfl⟩ := hp
    rfl
  let located (p : Project) : Project :=
    { p with logFile := p.logFile.map fun file => (Project.locate path ⟨file⟩).text }
  have hlocated : (located p).SameButLog (located q) := by
    obtain ⟨_, _, rfl⟩ := hp
    exact ⟨_, _, rfl⟩
  rw [ofProject, ofProject, hgrammar, hentry]
  cases a.grammar with
  | some grammar => exact .both (sameButLog_merge hlocated ho grammar)
  | none =>
    cases Project.grammar path p.entry with
    | error e => exact .neither e e
    | ok grammar => exact .both (sameButLog_merge hlocated ho grammar)

theorem ofOverrides_sameButLog (ho : a.SameButLog b) :
    BothOrNeither SameButLog (ofOverrides a) (ofOverrides b) := by
  obtain ⟨_, _, rfl⟩ := id ho
  cases hg : a.grammar with
  | none =>
    rw [ofOverrides, ofOverrides, hg]
    exact .neither _ _
  | some grammar =>
    rw [ofOverrides, ofOverrides, hg]
    exact .both (sameButLog_merge ⟨none, none, rfl⟩ ho grammar)

theorem resolve_sameButLog (ho : a.SameButLog b)
    (hp : ∀ path, a.projectPath = some path → BothOrNeither Project.SameButLog
      (Project.load (m := Id) v.readText path) (Project.load (m := Id) w.readText path)) :
    BothOrNeither SameButLog (resolve (m := Id) v.readText a) (resolve (m := Id) w.readText b) := by
  have hpath : b.projectPath = a.projectPath := by
    obtain ⟨_, _, rfl⟩ := ho
    rfl
  cases hproject : a.projectPath with
  | none =>
    have hnone : b.projectPath = none := hpath.trans hproject
    simp only [resolve, hproject, hnone]
    exact ofOverrides_sameButLog ho
  | some path =>
    have hsome : b.projectPath = some path := hpath.trans hproject
    have hload := hp path hproject
    simp only [resolve, hproject, hsome]
    generalize Project.load (m := Id) v.readText path = loaded at hload
    generalize Project.load (m := Id) w.readText path = loaded' at hload
    cases hload with
    | neither e e' => exact .neither e e'
    | both hp => exact ofProject_sameButLog hp ho path

theorem SameButLog.verdict_eq (h : s.SameButLog t) (hfound : s.found v = t.found w) :
    s.verdict v = t.verdict w := by
  rw [verdict, verdict, hfound]
  obtain ⟨_, _, rfl⟩ := h
  rfl

theorem SameButLog.heading_eq (h : s.SameButLog t) (found : Except FileError String) :
    s.heading found = t.heading found := by
  obtain ⟨_, _, rfl⟩ := h
  rfl

theorem SameButLog.printed_eq (h : s.SameButLog t) (verdict : Except Failure Tokenization) :
    s.printed verdict = t.printed verdict := by
  obtain ⟨_, _, rfl⟩ := h
  rfl

end Settings

namespace Program

/-- The log file of a run, if there is one, has no part in what is read as the grammar. -/
def LogSparesGrammar (arguments : List String) (fs : FileSystem) : Prop :=
  ∀ o s path, CommandLine.parse arguments = .ok o →
    Settings.resolve (m := Id) fs.readText o = .ok s → s.logFile = some path → fs.Spares s.grammar path

theorem perform_sameButLog {s t : Settings} {v w : World} (h : s.SameButLog t)
    (hout : v.output = w.output) (hfound : s.found v.files = t.found w.files) :
    ((perform World.host s).run v).1 = ((perform World.host t).run w).1 ∧
      ((perform World.host s).run v).2.output = ((perform World.host t).run w).2.output := by
  obtain ⟨hcode, hprint⟩ := run_perform s v
  obtain ⟨hcode', hprint'⟩ := run_perform t w
  have hverdict := h.verdict_eq hfound
  constructor
  · rw [hcode, hcode', hverdict]
  · rw [hprint, hprint', hout, hfound, hverdict, h.heading_eq, h.printed_eq]

/-- Two runs that differ in log settings only, on the command line or in the project file, end with
the same code and print the same. Their logs may be of any level, and may go to files that cannot be
opened; a file that can must not have a part in what is read as the grammar. -/
theorem log_settings_are_unobservable {first second : List String} {v w : World}
    (hout : v.output = w.output)
    (hline : CommandLine.SameButLog (CommandLine.parse first) (CommandLine.parse second))
    (hproject : ∀ o path, CommandLine.parse first = .ok o → o.projectPath = some path →
      BothOrNeither Project.SameButLog (Project.load (m := Id) v.files.readText path)
        (Project.load (m := Id) w.files.readText path))
    (hgrammar : ∀ o s, CommandLine.parse first = .ok o →
      Settings.resolve (m := Id) v.files.readText o = .ok s →
        v.files.readText s.grammar = w.files.readText s.grammar)
    (hspares : LogSparesGrammar first v.files) (hspares' : LogSparesGrammar second w.files) :
    ((run World.host first).run v).1 = ((run World.host second).run w).1 ∧
      ((run World.host first).run v).2.output = ((run World.host second).run w).2.output := by
  generalize hfirst : CommandLine.parse first = parsed at hline
  generalize hsecond : CommandLine.parse second = parsed' at hline
  cases hline with
  | help =>
    rw [run_of_stop hfirst, run_of_stop hsecond]
    exact ⟨rfl, congrArg (· ++ CommandLine.help) hout⟩
  | version =>
    rw [run_of_stop hfirst, run_of_stop hsecond]
    exact ⟨rfl, congrArg (· ++ CommandLine.version) hout⟩
  | misused e e' =>
    rw [run_of_stop hfirst, run_of_stop hsecond]
    exact ⟨rfl, hout⟩
  | @runs a b ho =>
    have hsettings := Settings.resolve_sameButLog ho fun path => hproject a path hfirst
    generalize hs : Settings.resolve (m := Id) v.files.readText a = settled at hsettings
    generalize ht : Settings.resolve (m := Id) w.files.readText b = settled' at hsettings
    cases hsettings with
    | neither e e' =>
      rw [run_without_settings hfirst hs, run_without_settings hsecond ht]
      exact ⟨rfl, hout⟩
    | @both s t h =>
      have hsame : s.grammar = t.grammar := by
        obtain ⟨_, _, rfl⟩ := h
        rfl
      -- the only way from the log to the result is the grammar as it is read
      have hfound : s.found v.files = t.found w.files := by
        rw [Settings.found_of_spares fun path => hspares a s path hfirst hs,
          Settings.found_of_spares fun path => hspares' b t path hsecond ht,
          hgrammar a s hfirst hs, hsame]
      rw [run_of_settings hfirst hs, run_of_settings hsecond ht]
      exact perform_sameButLog h hout hfound

/-- One project asks for a log and the other does not, and the second run has a level of its own. -/
theorem log_file_of_project_is_unobservable :
    let files (project : String) := ((FileSystem.scratch ["work"]).create ⟨"g.abnf"⟩
      (.file "a = @\n".toUTF8)).create ⟨"abnf.json"⟩ (.file project.toUTF8)
    let v : World := { files := files "\x7b\"entry\": \"g.abnf\", \"log_file\": \"run.log\"\x7d" }
    let w : World := { files := files "\x7b\"entry\": \"g.abnf\"\x7d" }
    LogSparesGrammar [] v.files ∧ LogSparesGrammar ["--log-level", "trace"] w.files ∧
      ((run World.host []).run v).1 = ((run World.host ["--log-level", "trace"]).run w).1 ∧
      ((run World.host []).run v).2.output =
        ((run World.host ["--log-level", "trace"]).run w).2.output := by
  intro files v w
  have hfirst : CommandLine.parse [] = .ok {} := by decide +kernel
  have hsecond : CommandLine.parse ["--log-level", "trace"] = .ok { logLevel := some .trace } := by
    decide +kernel
  have hv : Project.load (m := Id) v.files.readText Project.defaultPath =
      .ok { entry := some "g.abnf", logFile := some "run.log" } :=
    toOption_eq_some.mp (by decide +kernel)
  have hw : Project.load (m := Id) w.files.readText Project.defaultPath =
      .ok { entry := some "g.abnf" } :=
    toOption_eq_some.mp (by decide +kernel)
  have hs : Settings.resolve (m := Id) v.files.readText {} =
      .ok (.merge ⟨"g.abnf"⟩ { entry := some "g.abnf", logFile := some "run.log" } {}) :=
    toOption_eq_some.mp (by decide +kernel)
  have ht : Settings.resolve (m := Id) w.files.readText { logLevel := some .trace } =
      .ok (.merge ⟨"g.abnf"⟩ { entry := some "g.abnf" } { logLevel := some .trace }) :=
    toOption_eq_some.mp (by decide +kernel)
  have hnew : v.files.Spares ⟨"g.abnf"⟩ ⟨"run.log"⟩ :=
    @FileSystem.Spares.fresh _ _ _ (v.files.put ["work", "run.log"] (.file .empty))
      ["work", "run.log"] (by decide +kernel) (by decide +kernel) (by decide +kernel)
      (by decide +kernel)
  have hspares : LogSparesGrammar [] v.files := by
    intro o s path ho hsettled hfile
    obtain rfl := Except.ok.inj (hfirst.symm.trans ho)
    obtain rfl := Except.ok.inj (hs.symm.trans hsettled)
    obtain rfl := Option.some.inj hfile
    exact hnew
  have hspares' : LogSparesGrammar ["--log-level", "trace"] w.files := by
    intro o s path ho hsettled hfile
    obtain rfl := Except.ok.inj (hsecond.symm.trans ho)
    obtain rfl := Except.ok.inj (ht.symm.trans hsettled)
    simp [Settings.merge] at hfile
  have hline : CommandLine.SameButLog (CommandLine.parse [])
      (CommandLine.parse ["--log-level", "trace"]) := by
    rw [hfirst, hsecond]
    exact .runs ⟨_, _, rfl⟩
  refine ⟨hspares, hspares', log_settings_are_unobservable rfl hline ?_ ?_ hspares hspares'⟩
  · intro o path ho hpath
    obtain rfl := Except.ok.inj (hfirst.symm.trans ho)
    obtain rfl := Option.some.inj hpath
    rw [hv, hw]
    exact .both ⟨_, _, rfl⟩
  · intro o s ho hsettled
    obtain rfl := Except.ok.inj (hfirst.symm.trans ho)
    obtain rfl := Except.ok.inj (hs.symm.trans hsettled)
    decide +kernel

/-- A log file that is new and not the grammar, but in its way: without it there is nothing at the
grammar's path, and with it the path runs through a file. -/
theorem log_file_in_the_way_shows :
    let w : World := { files := .scratch ["work"] }
    let opened := w.files.put ["work", "logs"] (.file .empty)
    let plain := ["logs/g.abnf", "--format", "json"]
    let logged := ["logs/g.abnf", "--format", "json", "--log-file", "logs"]
    CommandLine.SameButLog (CommandLine.parse plain) (CommandLine.parse logged) ∧
      w.files.node? ["work", "logs"] = none ∧ w.files.openAppend ⟨"logs"⟩ = .ok opened ∧
      opened.resolve ⟨"logs"⟩ ≠ opened.resolve ⟨"logs/g.abnf"⟩ ∧
      ((run World.host plain).run w).2.output ≠ ((run World.host logged).run w).2.output := by
  intro w opened plain logged
  have hplain : CommandLine.parse plain =
      .ok { grammar := some ⟨"logs/g.abnf"⟩, format := some .json } := by decide +kernel
  have hlogged : CommandLine.parse logged =
      .ok { grammar := some ⟨"logs/g.abnf"⟩, format := some .json, logFile := some ⟨"logs"⟩ } := by
    decide +kernel
  refine ⟨?_, by decide +kernel, by decide +kernel, by decide +kernel, by decide +kernel⟩
  rw [hplain, hlogged]
  exact .runs ⟨_, _, rfl⟩

end Program

end Abnf
