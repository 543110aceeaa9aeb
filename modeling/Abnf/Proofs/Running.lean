import Abnf.Program
import Abnf.Proofs.Appending
import Abnf.Proofs.FlatLoggers

/-! Runs of the program in a world: what the log does to the files before the grammar is read, what is
printed on the output stream, and with which code the run ends. -/

namespace Abnf

theorem toOption_eq_some {ε α : Type} {x : Except ε α} {a : α} :
    x.toOption = some a ↔ x = .ok a := by
  cases x <;> simp [Except.toOption]

/-- The line that the log gets for the grammar. -/
def Settings.grammarLine (s : Settings) : String :=
  ({ Program.grammarEntry s.grammar with time := 0, span := none } : Log.Record).text ++ "\n"

/-- The files as they are when the grammar is read. By then the log file is open and has its first
line. -/
def Settings.filesAtRead (s : Settings) (fs : FileSystem) : FileSystem :=
  match s.logFile with
  | none => fs
  | some path =>
    match fs.openAppend path with
    | .error _ => fs
    | .ok fs => if s.logLevel.admits .info then fs.append path s.grammarLine.toUTF8 else fs

/-- What is read as the grammar. -/
def Settings.found (s : Settings) (fs : FileSystem) : Except FileError String :=
  (s.filesAtRead fs).readText s.grammar

/-- What becomes of the grammar: it cannot be read, or it is judged. -/
def Settings.verdict (s : Settings) (fs : FileSystem) : Except Failure Tokenization :=
  match s.found fs with
  | .error cause => .error (.unreadable s.grammar cause)
  | .ok source => s.policy.judge (s.policy.lex source) 0

/-- What is printed before a source is tokenized. -/
def Settings.heading (s : Settings) : Except FileError String → String
  | .ok source =>
    if s.showSource && s.format == .text then "[Source]\n" ++ numbered source ++ "[Tokens]\n" else ""
  | .error _ => ""

/-- What is printed of a result. A failure shows up on the output stream only as a document. -/
def Settings.printed (s : Settings) : Except Failure Tokenization → String
  | .ok t =>
    match s.format with
    | .json => (t.json s.showTiming).pretty ++ "\n"
    | .text => t.listing ++ if s.showTiming then t.timing else ""
  | .error e =>
    match s.format with
    | .json => e.json.pretty ++ "\n"
    | .text => ""

def exitCode : Except Failure Tokenization → Nat
  | .ok _ => 0
  | .error _ => 1

/-- The outlets of a log, and the files once they are open. -/
inductive Settings.Opens (s : Settings) (fs : FileSystem) : FileSystem → List Log.Outlet → Prop
  | standardError (h : s.logFile = none) : Opens s fs fs [.standardError]
  | failed {path : Path} {e : FileError} (h : s.logFile = some path)
      (he : fs.openAppend path = .error e) : Opens s fs fs [.standardError]
  | file {path : Path} {fs' : FileSystem} (h : s.logFile = some path)
      (ho : fs.openAppend path = .ok fs') : Opens s fs fs' [.standardError, .file path]

/-- A network of one logger, which writes to outlets only. -/
def Log.Network.ofOutlets (level : Log.Level) (outlets : List Log.Outlet) : Log.Network :=
  ⟨#[{ level, sinks := (outlets.map .outlet).toArray }], #[]⟩

namespace Log.Network

theorem deliverAll_outlets (record : Record) (outlets : List Outlet) (start : Network × List Line) :
    deliverAll (outlets.map fun outlet => (.outlet outlet, record)) start =
      (start.1, start.2 ++ outlets.map fun outlet => ⟨outlet, record⟩) := by
  induction outlets generalizing start with
  | nil => simp [deliverAll]
  | cons outlet outlets ih =>
    refine (ih _).trans ?_
    simp [deliver]

theorem logged_ofOutlets (level : Level) (outlets : List Outlet) (clock : Readings) (entry : Entry) :
    (ofOutlets level outlets).logged clock ⟨0⟩ entry = (ofOutlets level outlets,
      if level.admits entry.level then
        outlets.map fun outlet => ⟨outlet, { entry with time := clock [], span := none }⟩
      else []) := by
  have hl : (ofOutlets level outlets).logger? ⟨0⟩ =
      some { level, sinks := (outlets.map .outlet).toArray } := rfl
  have hlast : ∀ inner, .logger inner ∉ (outlets.map Sink.outlet).toArray := by simp
  by_cases hadmits : level.admits entry.level = true
  · have hroutes : (ofOutlets level outlets).routes entry 1 clock ⟨0⟩ =
        some (outlets.map fun outlet => (.outlet outlet, { entry with time := clock [], span := none })) := by
      rw [routes_succ hl hadmits, outs_of_flat hlast, List.map_map]
      rfl
    have hlog : (ofOutlets level outlets).log clock ⟨0⟩ entry = _ := congrArg (Option.map _) hroutes
    rw [logged_of_log (hlog.trans (Option.map_some _ _)), deliverAll_outlets, if_pos hadmits,
      List.nil_append]
  · have hclosed : ¬ (ofOutlets level outlets).isEnabled ⟨0⟩ entry.level = true := by
      simpa [isEnabled, hl] using hadmits
    rw [logged, log, routes_of_not_isEnabled hclosed, if_neg hadmits]
    rfl

theorem logAll_singleton (net : Network) (clocks : Nat → Readings) (id : LoggerId) (k : Nat)
    (entry : Entry) : net.logAll clocks id k [entry] = net.log (clocks k) id entry := by
  cases hlog : net.log (clocks k) id entry <;> simp [logAll, hlog]

end Log.Network

namespace World

theorem run_bind {α β : Type} {x : StateM World α} {a : α} {v w : World} (h : x.run w = (a, v))
    (f : α → StateM World β) : (x >>= f).run w = (f a).run v := by
  rw [StateT.run_bind, h]
  rfl

theorem run_writeLines_cons (line : Log.Line) (lines : List Log.Line) (w : World) :
    (host.writeLines (line :: lines)).run w =
      (host.writeLines lines).run ((host.writeLine line).run w).2 := rfl

theorem output_writeLines (lines : List Log.Line) (w : World) :
    ((host.writeLines lines).run w).2.output = w.output := by
  induction lines generalizing w with
  | nil => rfl
  | cons line lines ih =>
    rw [run_writeLines_cons, ih]
    obtain ⟨outlet, record⟩ := line
    cases outlet <;> rfl

theorem files_writeLines {lines : List Log.Line} (h : ∀ line ∈ lines, line.outlet = .standardError)
    (w : World) : ((host.writeLines lines).run w).2.files = w.files := by
  induction lines generalizing w with
  | nil => rfl
  | cons line lines ih =>
    obtain ⟨hline, hlines⟩ := List.forall_mem_cons.mp h
    obtain ⟨outlet, record⟩ := line
    obtain rfl : outlet = .standardError := hline
    rw [run_writeLines_cons, ih hlines]
    rfl

end World

namespace Program

variable {s : Settings} {w : World}

theorem run_load (path : Path) (w : World) :
    (Project.load World.host.readText path).run w =
      (Project.load (m := Id) w.files.readText path, w) := by
  have hread : (loadSource World.host.readText path).run w =
      (loadSource (m := Id) w.files.readText path, w) := rfl
  rw [Project.load, World.run_bind hread, Project.load]
  dsimp only [bind]
  cases loadSource (m := Id) w.files.readText path <;> rfl

theorem run_resolve (o : Overrides) (w : World) :
    (Settings.resolve World.host.readText o).run w =
      (Settings.resolve (m := Id) w.files.readText o, w) := by
  unfold Settings.resolve
  cases o.projectPath with
  | none => rfl
  | some path =>
    dsimp only
    rw [World.run_bind (run_load path w)]
    dsimp only [bind]
    cases Project.load (m := Id) w.files.readText path <;> rfl

/-- The logger that a run starts with, and the world then. -/
theorem run_start (s : Settings) (w : World) : ∃ files outlets lines,
    ((logSetup s).start World.host.openLog (fun _ _ => 0) .empty).run w =
      (⟨.ofOutlets s.logLevel outlets, ⟨0⟩, none, lines⟩, { w with files }) ∧
    s.Opens w.files files outlets ∧ ∀ line ∈ lines, line.outlet = .standardError := by
  cases hfile : s.logFile with
  | none =>
    refine ⟨w.files, [.standardError], [], ?_, .standardError hfile, by simp⟩
    rw [logSetup, hfile]
    rfl
  | some path =>
    have hsetup : logSetup s = ⟨s.logLevel, [.standardError, .file path]⟩ := by
      rw [logSetup, hfile]
      rfl
    rw [hsetup]
    let add := Log.Setup.Draft.add World.host.openLog ⟨0⟩
    let draft : Log.Setup.Draft := { network := .ofOutlets s.logLevel [] }
    let shown : Log.Setup.Draft := { network := .ofOutlets s.logLevel [.standardError] }
    have hshown : (add draft .standardError).run w = (shown, w) := rfl
    cases hopen : w.files.openAppend path with
    | error e =>
      have hrun : (World.host.openLog path).run w = (some e, w) := by
        show World.openLog path w = _
        rw [World.openLog, hopen]
      have hadd : (add shown (.file path)).run w = ({ shown with failed := [(path, e)] }, w) :=
        World.run_bind hrun _
      have hdraft : ([.standardError, .file path].foldlM add draft).run w =
          ({ shown with failed := [(path, e)] }, w) := by
        rw [List.foldlM_cons, World.run_bind hshown, List.foldlM_cons, World.run_bind hadd]
        rfl
      let warned := shown.network.logged (fun _ => 0) ⟨0⟩ (Log.Setup.warning path e)
      have hwarned : warned = _ := Log.Network.logged_ofOutlets s.logLevel [.standardError] _ _
      have hnet : warned.1 = shown.network := congrArg Prod.fst hwarned
      -- the outlet that is left is told of the file that is not
      have hlogged : (shown.network.logAll (fun _ _ => 0) ⟨0⟩ 0 [Log.Setup.warning path e]).getD
          (shown.network, []) = (shown.network, warned.2) := by
        rw [Log.Network.logAll_singleton]
        exact Prod.ext hnet rfl
      have hsize : Log.Network.empty.loggers.size = 0 := rfl
      refine ⟨w.files, [.standardError], warned.2, ?_, .failed hfile hopen, ?_⟩
      · refine (World.run_bind hdraft _).trans ?_
        simp only [hsize, List.map_cons, List.map_nil, hlogged]
        rfl
      · rw [hwarned]
        split <;> simp
    | ok files =>
      have hrun : (World.host.openLog path).run w = (none, { w with files }) := by
        show World.openLog path w = _
        rw [World.openLog, hopen]
      have hadd : (add shown (.file path)).run w =
          ({ network := .ofOutlets s.logLevel [.standardError, .file path] }, { w with files }) :=
        World.run_bind hrun _
      have hdraft : ([.standardError, .file path].foldlM add draft).run w =
          ({ network := .ofOutlets s.logLevel [.standardError, .file path] }, { w with files }) := by
        rw [List.foldlM_cons, World.run_bind hshown, List.foldlM_cons, World.run_bind hadd]
        rfl
      refine ⟨files, [.standardError, .file path], [], ?_, .file hfile hopen, by simp⟩
      exact World.run_bind hdraft _

theorem run_note (logger : Log.LoggerId) (net : Log.Network) (entry : Log.Entry) (w : World) :
    (note World.host logger net entry).run w = ((net.logged (fun _ => 0) logger entry).1,
      ((World.host.writeLines (net.logged (fun _ => 0) logger entry).2).run w).2) := by
  by_cases henabled : net.isEnabled logger entry.level = true
  · rw [note, if_pos henabled]
    rfl
  · rw [note, if_neg henabled, Log.Network.logged, Log.Network.log,
      Log.Network.routes_of_not_isEnabled henabled]
    rfl

theorem output_note (logger : Log.LoggerId) (net : Log.Network) (entry : Log.Entry) (w : World) :
    ((note World.host logger net entry).run w).2.output = w.output := by
  rw [run_note]
  exact World.output_writeLines _ w

theorem output_noteWithin (logger : Log.LoggerId) (name : String) (net : Log.Network)
    (entries : List Log.Entry) (w : World) :
    ((noteWithin World.host logger name net entries).run w).2.output = w.output := by
  have hall : ∀ (net : Log.Network) (w : World),
      ((entries.foldlM (note World.host logger) net).run w).2.output = w.output := by
    induction entries with
    | nil => exact fun _ _ => rfl
    | cons entry entries ih =>
      intro net w
      rw [List.foldlM_cons, StateT.run_bind]
      exact (ih _ _).trans (output_note logger net entry w)
  exact hall _ w

/-- The first line of the log is in the file by the time the grammar is read. -/
theorem files_note {fs : FileSystem} {outlets : List Log.Outlet} (h : s.Opens fs w.files outlets) :
    ((note World.host ⟨0⟩ (.ofOutlets s.logLevel outlets) (grammarEntry s.grammar)).run w).2.files =
      s.filesAtRead fs := by
  have hstandard : ∀ net : Log.Network, net = .ofOutlets s.logLevel [.standardError] →
      ((note World.host ⟨0⟩ net (grammarEntry s.grammar)).run w).2.files = w.files := by
    rintro net rfl
    rw [run_note, Log.Network.logged_ofOutlets]
    refine World.files_writeLines ?_ w
    split <;> simp
  generalize hw : w.files = files at h hstandard
  cases h with
  | standardError hfile =>
    rw [Settings.filesAtRead, hfile]
    exact hstandard _ rfl
  | failed hfile hopen =>
    simp only [Settings.filesAtRead, hfile, hopen]
    exact hstandard _ rfl
  | @file path files hfile hopen =>
    have hinfo : (grammarEntry s.grammar).level = .info := rfl
    rw [run_note, Log.Network.logged_ofOutlets, hinfo]
    simp only [Settings.filesAtRead, hfile, hopen]
    by_cases hadmits : s.logLevel.admits .info = true
    · rw [if_pos hadmits, if_pos hadmits]
      exact congrArg (·.append path s.grammarLine.toUTF8) hw
    · rw [if_neg hadmits, if_neg hadmits]
      exact hw

theorem run_present (s : Settings) (source : String) (t : Tokenization) (w : World) :
    ((present World.host s source t).run w).1 = 0 ∧
      ((present World.host s source t).run w).2.output = w.output ++ s.printed (.ok t) := by
  unfold present Settings.printed
  cases s.format with
  | json => exact ⟨rfl, rfl⟩
  | text =>
    cases s.showTiming with
    | false => exact ⟨rfl, congrArg (w.output ++ ·) (String.append_empty (s := t.listing)).symm⟩
    | true => exact ⟨rfl, String.append_assoc⟩

theorem run_complain (s : Settings) (source : String) (e : Failure) (w : World) :
    ((complain World.host s.format source e).run w).1 = 1 ∧
      ((complain World.host s.format source e).run w).2.output = w.output ++ s.printed (.error e) := by
  unfold complain Settings.printed
  cases s.format with
  | json => exact ⟨rfl, rfl⟩
  | text => exact ⟨rfl, String.append_empty.symm⟩

theorem run_tokenize (s : Settings) (net : Log.Network) (logger : Log.LoggerId) (source : String)
    (w : World) :
    let verdict := s.policy.judge (s.policy.lex source) 0
    ((tokenize World.host s net logger source).run w).1 = exitCode verdict ∧
      ((tokenize World.host s net logger source).run w).2.output =
        w.output ++ s.heading (.ok source) ++ s.printed verdict := by
  intro verdict
  let show? : StateM World PUnit :=
    if s.showSource && s.format == .text then
      World.host.print ("[Source]\n" ++ numbered source ++ "[Tokens]\n")
    else pure ()
  let noted := (note World.host logger net StandingPolicy.entry).run (show?.run w).2
  let entries := s.policy.entries (noted.1.isEnabled logger) source (s.policy.lex source) 0
  let logged := ((noteWithin World.host logger "tokenize" noted.1 entries).run noted.2).2
  have hrun : (tokenize World.host s net logger source).run w =
      (match verdict with
        | .ok t => present World.host s source t
        | .error e => complain World.host s.format source e).run logged := by
    simp only [logged, entries, noted, show?]
    unfold tokenize
    cases s.showSource && s.format == .text <;> rfl
  have hshown : (show?.run w).2.output = w.output ++ s.heading (.ok source) := by
    simp only [show?, Settings.heading]
    cases s.showSource && s.format == .text with
    | false => exact String.append_empty.symm
    | true => rfl
  have hlogged : logged.output = w.output ++ s.heading (.ok source) := by
    rw [← hshown]
    exact (output_noteWithin logger "tokenize" noted.1 entries noted.2).trans (output_note ..)
  rw [hrun, ← hlogged]
  cases hv : verdict with
  | ok t => exact run_present s source t logged
  | error e => exact run_complain s source e logged

/-- How a run with its settings known ends, and what it prints. -/
theorem run_perform (s : Settings) (w : World) :
    ((perform World.host s).run w).1 = exitCode (s.verdict w.files) ∧
      ((perform World.host s).run w).2.output =
        w.output ++ s.heading (s.found w.files) ++ s.printed (s.verdict w.files) := by
  obtain ⟨files, outlets, lines, hstart, hopens, hlines⟩ := run_start s w
  let opened := ((World.host.writeLines lines).run { w with files }).2
  let noted := (note World.host ⟨0⟩ (.ofOutlets s.logLevel outlets) (grammarEntry s.grammar)).run opened
  have hopened : opened.files = files := World.files_writeLines hlines _
  have hread : noted.2.files = s.filesAtRead w.files := files_note (by rw [hopened]; exact hopens)
  have hout : noted.2.output = w.output :=
    (output_note _ _ _ opened).trans (World.output_writeLines lines _)
  have hload : (loadSource World.host.readText s.grammar).run noted.2 =
      ((s.found w.files).mapError (.unreadable s.grammar), noted.2) := by
    have hfound : noted.2.files.readText s.grammar = s.found w.files :=
      congrArg (·.readText s.grammar) hread
    rw [← hfound]
    rfl
  have hnow : World.host.now.run w = (0, w) := rfl
  have hopen : (World.host.writeLines lines).run { w with files } = ((), opened) := rfl
  have hnote : (note World.host ⟨0⟩ (.ofOutlets s.logLevel outlets) (grammarEntry s.grammar)).run
      opened = (noted.1, noted.2) := rfl
  rw [perform, World.run_bind hnow, World.run_bind hstart, World.run_bind hopen,
    World.run_bind hnote, World.run_bind hload, ← hout, Settings.verdict]
  cases s.found w.files with
  | error cause =>
    rw [Settings.heading, String.append_empty]
    exact run_complain s "" _ noted.2
  | ok source => exact run_tokenize s noted.1 ⟨0⟩ source noted.2

/-- A run that the command line stops leaves the files alone. -/
theorem run_of_stop {arguments : List String} {stop : CommandLine.Stop}
    (h : CommandLine.parse arguments = .error stop) (w : World) :
    (run World.host arguments).run w =
      match stop with
      | .help => (0, { w with output := w.output ++ CommandLine.help })
      | .version => (0, { w with output := w.output ++ CommandLine.version })
      | .misused e => (2, { w with errors := w.errors ++ e.text }) := by
  cases stop with
  | help | version | misused e =>
    simp only [run, h]
    rfl

/-- A run that the command line does not stop goes as its settings say. -/
theorem run_of_settings {arguments : List String} {o : Overrides}
    (h : CommandLine.parse arguments = .ok o)
    (hs : Settings.resolve (m := Id) w.files.readText o = .ok s) :
    (run World.host arguments).run w = (perform World.host s).run w := by
  have hsettled := run_resolve o w
  rw [hs] at hsettled
  simp only [run, h]
  rw [World.run_bind hsettled]

/-- Without settings a run says why there are none. -/
theorem run_without_settings {arguments : List String} {o : Overrides} {e : Failure}
    (h : CommandLine.parse arguments = .ok o)
    (he : Settings.resolve (m := Id) w.files.readText o = .error e) :
    (run World.host arguments).run w =
      (1, { w with errors := w.errors ++ ("Error: " ++ e.message ++ "\n") }) := by
  have hsettled := run_resolve o w
  rw [he] at hsettled
  simp only [run, h]
  rw [World.run_bind hsettled]
  rfl

end Program

/-- Unless the log goes to the grammar or stands in its way, the grammar is what it was at first. -/
theorem Settings.found_of_spares {s : Settings} {fs : FileSystem}
    (h : ∀ path, s.logFile = some path → fs.Spares s.grammar path) :
    s.found fs = fs.readText s.grammar := by
  rw [found, filesAtRead]
  cases hfile : s.logFile with
  | none => rfl
  | some path =>
    dsimp only
    cases hopen : fs.openAppend path with
    | error e => rfl
    | ok opened =>
      obtain ⟨hmade, happended⟩ := (h path hfile).readText_eq hopen
      dsimp only
      split
      · exact happended _
      · exact hmade

end Abnf
