import Abnf.Host
import Abnf.Log.Setup
import Abnf.Proofs.FlatLoggers
import Abnf.Proofs.Openings

/-! What a setup asks for is what the logger gets. Files that cannot be opened are left out without harm to the
other outputs, and each of them is told of at all the others. -/

namespace Abnf.Log

inductive Demand where
  | level (wanted : Level)
  | output (wanted : Output)

def Demand.level? : Demand → Option Level
  | .level wanted => some wanted
  | .output _ => none

def Demand.output? : Demand → Option Output
  | .level _ => none
  | .output wanted => some wanted

namespace Output

def file? : Output → Option Path
  | .file path => some path
  | _ => none

def capacity? : Output → Option Nat
  | .ring capacity => some capacity
  | _ => none

/-- Whether the output can be made. Only files may fail. -/
def opens (fs : FileSystem) : Output → Bool
  | .file path => fs.opens path
  | _ => true

/-- The sinks of outputs that are in place. The rings among them are numbered from `next` on. -/
def sinks (next : Nat) : List Output → List Sink
  | [] => []
  | .standardError :: outputs => .outlet .standardError :: sinks next outputs
  | .file path :: outputs => .outlet (.file path) :: sinks next outputs
  | .ring _ :: outputs => .ring ⟨next⟩ :: sinks (next + 1) outputs

/-- Opens the files among some outputs in order: those that cannot be opened, and what the others leave. -/
def openFiles (fs : FileSystem) : List Output → List (Path × FileError) × FileSystem
  | [] => ([], fs)
  | .file path :: outputs =>
    match fs.openAppend path with
    | .ok fs' => openFiles fs' outputs
    | .error e => ((path, e) :: (openFiles fs outputs).1, (openFiles fs outputs).2)
  | .standardError :: outputs | .ring _ :: outputs => openFiles fs outputs

/-- Only the first of several requests for the standard error stream counts. -/
def once : List Output → List Output
  | [] => []
  | .standardError :: outputs => .standardError :: outputs.filter (· ≠ .standardError)
  | output :: outputs => output :: once outputs

variable {fs fs' : FileSystem} {path : Path} {e : FileError} {output : Output} {outputs : List Output}

theorem once_cons (h : output ≠ .standardError) (outputs : List Output) :
    once (output :: outputs) = output :: once outputs := by
  cases output with
  | standardError => exact absurd rfl h
  | file _ | ring _ => rfl

theorem once_of_notMem (h : .standardError ∉ outputs) : once outputs = outputs := by
  induction outputs with
  | nil => rfl
  | cons output outputs ih =>
    obtain ⟨hne, hrest⟩ := not_or.mp (mt List.mem_cons.mpr h)
    rw [once_cons (Ne.symm hne), ih hrest]

theorem once_append {before after : List Output} (h : .standardError ∉ before) :
    once (before ++ .standardError :: after) =
      before ++ .standardError :: after.filter (· ≠ .standardError) := by
  induction before with
  | nil => rfl
  | cons output before ih =>
    obtain ⟨hne, hrest⟩ := not_or.mp (mt List.mem_cons.mpr h)
    rw [List.cons_append, once_cons (Ne.symm hne), ih hrest, List.cons_append]

theorem count_once_le (outputs : List Output) : (once outputs).count .standardError ≤ 1 := by
  induction outputs with
  | nil => simp [once]
  | cons output outputs ih =>
    cases output with
    | standardError => simp [once, List.count_eq_zero]
    | file _ | ring _ => simpa [once] using ih

theorem filterMap_once {α : Type} {f : Output → Option α} (hf : f .standardError = none)
    (outputs : List Output) : (once outputs).filterMap f = outputs.filterMap f := by
  have hrest : ∀ outputs : List Output,
      (outputs.filter (· ≠ .standardError)).filterMap f = outputs.filterMap f := by
    intro outputs
    rw [List.filterMap_filter]
    refine List.filterMap_congr fun output _ => ?_
    by_cases h : output = .standardError
    · simp [h, hf]
    · simp [h]
  induction outputs with
  | nil => rfl
  | cons output outputs ih =>
    cases output with
    | standardError => rw [once, List.filterMap_cons, List.filterMap_cons, hrest]
    | file _ | ring _ => rw [once_cons (by simp), List.filterMap_cons, List.filterMap_cons, ih]

theorem logger_notMem_sinks (next : Nat) (outputs : List Output) (inner : LoggerId) :
    .logger inner ∉ sinks next outputs := by
  induction outputs generalizing next with
  | nil => exact List.not_mem_nil
  | cons output outputs ih => cases output <;> simp [sinks, ih]

theorem filterMap_ring?_sinks (next : Nat) (outputs : List Output) : (sinks next outputs).filterMap Sink.ring? =
    (List.range' next (outputs.filterMap capacity?).length).map RingId.mk := by
  induction outputs generalizing next with
  | nil => rfl
  | cons output outputs ih =>
    cases output <;> simp [sinks, ih, Sink.ring?, capacity?, List.filterMap_cons, List.range'_succ]

theorem nodup_rings_sinks (next : Nat) (outputs : List Output) :
    ((sinks next outputs).filterMap Sink.ring?).Nodup := by
  rw [filterMap_ring?_sinks]
  refine List.Nodup.map ?_ List.nodup_range'
  intro a b h
  exact RingId.mk.inj h

theorem opens_congr (h : fs.SameDirectories fs') (output : Output) : output.opens fs' = output.opens fs := by
  cases output with
  | file path => exact h.opens path
  | standardError | ring _ => rfl

theorem opens_of_ok (h : fs.openAppend path = .ok fs') : (Output.file path).opens fs = true := by
  simp [opens, FileSystem.opens, h, Except.isOk, Except.toBool]

theorem opens_of_error (h : fs.openAppend path = .error e) : (Output.file path).opens fs = false := by
  simp [opens, FileSystem.opens, h, Except.isOk, Except.toBool]

theorem filterMap_capacity?_filter (fs : FileSystem) (outputs : List Output) :
    (outputs.filter (·.opens fs)).filterMap capacity? = outputs.filterMap capacity? := by
  rw [List.filterMap_filter]
  refine List.filterMap_congr fun output _ => ?_
  cases output with
  | file path => exact ite_self none
  | standardError | ring _ => rfl

/-- The files that cannot be opened are those that could not be before any other was. -/
theorem refused_openFiles (fs : FileSystem) (outputs : List Output) :
    (openFiles fs outputs).1.map Prod.fst = (outputs.filter fun o => !o.opens fs).filterMap file? := by
  induction outputs generalizing fs with
  | nil => rfl
  | cons output outputs ih =>
    cases output with
    | standardError | ring _ => simpa [openFiles, opens] using ih fs
    | file path =>
      cases hopen : fs.openAppend path with
      | ok fs' =>
        have hsame := FileSystem.sameDirectories_openAppend hopen
        simp only [openFiles, hopen, ih fs', opens_congr hsame]
        simp [opens_of_ok hopen]
      | error e =>
        simp only [openFiles, hopen, List.map_cons, ih fs]
        simp [opens_of_error hopen, file?]

/-- Files that cannot be opened do not matter to the others. -/
theorem openFiles_filter_opens (fs : FileSystem) (outputs : List Output) :
    openFiles fs (outputs.filter (·.opens fs)) = ([], (openFiles fs outputs).2) := by
  induction outputs generalizing fs with
  | nil => rfl
  | cons output outputs ih =>
    cases output with
    | standardError | ring _ => simpa [openFiles, opens] using ih fs
    | file path =>
      cases hopen : fs.openAppend path with
      | ok fs' =>
        have hsame := FileSystem.sameDirectories_openAppend hopen
        have hrest : outputs.filter (·.opens fs) = outputs.filter (·.opens fs') := by
          simp only [opens_congr hsame]
        rw [List.filter_cons_of_pos (opens_of_ok hopen), hrest]
        simp only [openFiles, hopen, ih fs']
      | error e =>
        have hclosed : ¬ (Output.file path).opens fs = true := by simp [opens_of_error hopen]
        rw [List.filter_cons_of_neg hclosed, ih fs]
        simp only [openFiles, hopen]

end Output

namespace Setup

def meet (s : Setup) : Demand → Setup
  | .level wanted => s.withLevel wanted
  | .output .standardError => s.withStandardError
  | .output (.file path) => s.withFile path
  | .output (.ring capacity) => s.withRing capacity

def meetAll (s : Setup) (demands : List Demand) : Setup := demands.foldl meet s

theorem level_meet (s : Setup) (demand : Demand) :
    (s.meet demand).level = demand.level?.getD s.level := by
  rcases demand with _ | (_ | _ | _)
  · rfl
  · simp only [meet, withStandardError]
    split <;> rfl
  · rfl
  · rfl

theorem level_meetAll (s : Setup) (demands : List Demand) :
    (s.meetAll demands).level = ((demands.filterMap Demand.level?).getLast?).getD s.level := by
  induction demands generalizing s with
  | nil => rfl
  | cons demand demands ih =>
    refine (ih (s.meet demand)).trans ?_
    rw [level_meet]
    cases demand <;> simp [Demand.level?, List.filterMap_cons, List.getLast?_cons]

theorem outputs_meetAll (s : Setup) (demands : List Demand) : (s.meetAll demands).outputs = s.outputs ++
    if .standardError ∈ s.outputs then (demands.filterMap Demand.output?).filter (· ≠ .standardError)
    else Output.once (demands.filterMap Demand.output?) := by
  induction demands generalizing s with
  | nil => simp [meetAll, Output.once]
  | cons demand demands ih =>
    refine (ih (s.meet demand)).trans ?_
    rcases demand with _ | (_ | _ | _)
    · rfl
    · by_cases h : .standardError ∈ s.outputs
      · simp [meet, withStandardError, h, Demand.output?]
      · simp [meet, withStandardError, h, Demand.output?, Output.once]
    · by_cases h : .standardError ∈ s.outputs <;> simp [meet, withFile, h, Demand.output?, Output.once]
    · by_cases h : .standardError ∈ s.outputs <;> simp [meet, withRing, h, Demand.output?, Output.once]

end Setup

theorem modify_push_size {α : Type} (xs : Array α) (x : α) (f : α → α) :
    (xs.push x).modify xs.size f = xs.push (f x) := by
  ext i hi hi'
  · simp
  · rw [Array.getElem_modify, Array.getElem_push, Array.getElem_push]
    have hsize : i < xs.size ∨ i = xs.size := by
      rw [Array.size_push] at hi'
      omega
    rcases hsize with hlt | heq
    · simp [hlt, Nat.ne_of_gt hlt]
    · simp [heq]

namespace Network

/-- The network with one more logger, and its rings. -/
def placed (net : Network) (level : Level) (sinks : List Sink) (rings : List Ring) : Network :=
  ⟨net.loggers.push { level, sinks := sinks.toArray }, net.rings ++ rings.toArray⟩

variable (net : Network) (level : Level) (sinks : List Sink) (rings : List Ring)

theorem logger?_placed : (net.placed level sinks rings).logger? ⟨net.loggers.size⟩ =
    some { level, sinks := sinks.toArray } := by
  simp [logger?, placed]

theorem attach_placed (sink : Sink) : (net.placed level sinks rings).attach ⟨net.loggers.size⟩ sink =
    net.placed level (sinks ++ [sink]) rings := by
  simp [attach, modifyLogger, placed, modify_push_size]

theorem addRing_placed (capacity : Nat) : (net.placed level sinks rings).addRing capacity =
    (net.placed level sinks (rings ++ [.new capacity]), ⟨net.rings.size + rings.length⟩) := by
  simp [addRing, placed]

end Network

namespace Setup

section

variable (net : Network) (level : Level) (sinks : List Sink) (rings : List Ring) (ring : Option RingId)
  (failed : List (Path × FileError)) {w : World} {fs : FileSystem} {path : Path} {e : FileError}

theorem run_add_standardError : (Draft.add World.host.openLog ⟨net.loggers.size⟩
    ⟨net.placed level sinks rings, ring, failed⟩ .standardError).run w =
      (⟨net.placed level (sinks ++ [.outlet .standardError]) rings, ring, failed⟩, w) := by
  rw [← net.attach_placed]
  rfl

theorem run_add_ring (capacity : Nat) : (Draft.add World.host.openLog ⟨net.loggers.size⟩
    ⟨net.placed level sinks rings, ring, failed⟩ (.ring capacity)).run w =
      (⟨net.placed level (sinks ++ [.ring ⟨net.rings.size + rings.length⟩]) (rings ++ [.new capacity]),
        some ⟨net.rings.size + rings.length⟩, failed⟩, w) := by
  rw [← net.attach_placed]
  simp only [Draft.add, net.addRing_placed]
  rfl

theorem run_add_file_of_ok (h : w.files.openAppend path = .ok fs) :
    (Draft.add World.host.openLog ⟨net.loggers.size⟩
      ⟨net.placed level sinks rings, ring, failed⟩ (.file path)).run w =
      (⟨net.placed level (sinks ++ [.outlet (.file path)]) rings, ring, failed⟩,
        { w with files := fs }) := by
  have hopen : World.host.openLog path w = (none, { w with files := fs }) := by
    show World.openLog path w = _
    rw [World.openLog, h]
  rw [← net.attach_placed, Draft.add, StateT.run_bind, StateT.run, hopen]
  rfl

theorem run_add_file_of_error (h : w.files.openAppend path = .error e) :
    (Draft.add World.host.openLog ⟨net.loggers.size⟩
      ⟨net.placed level sinks rings, ring, failed⟩ (.file path)).run w =
      (⟨net.placed level sinks rings, ring, failed ++ [(path, e)]⟩, w) := by
  have hopen : World.host.openLog path w = (some e, w) := by
    show World.openLog path w = _
    rw [World.openLog, h]
  rw [Draft.add, StateT.run_bind, StateT.run, hopen]
  rfl

/-- The outputs made one after the other, whatever was made before them. -/
theorem run_foldlM_add (outputs : List Output) :
    (outputs.foldlM (Draft.add World.host.openLog ⟨net.loggers.size⟩)
      ⟨net.placed level sinks rings, ring, failed⟩).run w =
    (⟨net.placed level
        (sinks ++ Output.sinks (net.rings.size + rings.length) (outputs.filter (·.opens w.files)))
        (rings ++ (outputs.filterMap Output.capacity?).map Ring.new),
      ((Output.sinks (net.rings.size + rings.length) outputs).filterMap Sink.ring?).getLast?.or ring,
      failed ++ (Output.openFiles w.files outputs).1⟩,
    { w with files := (Output.openFiles w.files outputs).2 }) := by
  induction outputs generalizing sinks rings ring failed w with
  | nil =>
    simp only [Output.sinks, Output.openFiles, List.filter_nil, List.filterMap_nil, List.map_nil,
      List.append_nil]
    rfl
  | cons output outputs ih =>
    rw [List.foldlM_cons, StateT.run_bind]
    cases output with
    | standardError =>
      rw [run_add_standardError]
      refine (ih (sinks ++ [.outlet .standardError]) rings ring failed).trans ?_
      simp [Output.sinks, Output.openFiles, Output.opens, Output.capacity?, Sink.ring?, List.filterMap_cons]
    | ring capacity =>
      rw [run_add_ring]
      refine (ih _ (rings ++ [.new capacity]) _ failed).trans ?_
      simp [Output.sinks, Output.openFiles, Output.opens, Output.capacity?, Sink.ring?, Nat.add_assoc,
        List.getLast?_cons]
    | file path =>
      cases hopen : w.files.openAppend path with
      | ok fs =>
        have hsame := FileSystem.sameDirectories_openAppend hopen
        rw [run_add_file_of_ok _ _ _ _ _ _ hopen]
        refine (ih (sinks ++ [.outlet (.file path)]) rings ring failed).trans ?_
        simp [Output.sinks, Output.openFiles, hopen, Output.opens_of_ok hopen, Output.opens_congr hsame,
          Output.capacity?, Sink.ring?, List.filterMap_cons]
      | error e =>
        rw [run_add_file_of_error _ _ _ _ _ _ hopen]
        refine (ih sinks rings ring (failed ++ [(path, e)])).trans ?_
        simp [Output.sinks, Output.openFiles, hopen, Output.opens_of_error hopen,
          Output.capacity?, Sink.ring?, List.filterMap_cons]

theorem addLogger_eq_placed : net.addLogger level = (net.placed level [] [], ⟨net.loggers.size⟩) := by
  simp [Network.addLogger, Network.placed]

/-- The network of a logger that is in place, before anything is logged. -/
def ready (s : Setup) (fs : FileSystem) : Network :=
  net.placed s.level (Output.sinks net.rings.size (s.outputs.filter (·.opens fs)))
    ((s.outputs.filterMap Output.capacity?).map Ring.new)

theorem run_start_eq (clock : Nat → Readings) (s : Setup) {after : Network} {lines : List Line}
    (hback : (s.ready net w.files).logAll clock ⟨net.loggers.size⟩ 0
      ((Output.openFiles w.files s.outputs).1.map fun (path, e) => warning path e) = some (after, lines)) :
    (start World.host.openLog clock net s).run w =
      (⟨after, ⟨net.loggers.size⟩,
        ((Output.sinks net.rings.size s.outputs).filterMap Sink.ring?).getLast?, lines⟩,
      { w with files := (Output.openFiles w.files s.outputs).2 }) := by
  have hfold := run_foldlM_add net s.level [] [] none [] (w := w) s.outputs
  simp only [List.nil_append, List.length_nil, Nat.add_zero, Option.or_none] at hfold
  have hlogged : ((s.ready net w.files).logAll clock ⟨net.loggers.size⟩ 0
      ((Output.openFiles w.files s.outputs).1.map fun (path, e) => warning path e)).getD
        (s.ready net w.files, []) = (after, lines) := by
    rw [hback, Option.getD_some]
  rw [start, addLogger_eq_placed]
  simp only
  rw [StateT.run_bind, hfold]
  exact congrArg (fun done : Network × List Line => ((⟨done.1, ⟨net.loggers.size⟩,
    ((Output.sinks net.rings.size s.outputs).filterMap Sink.ring?).getLast?, done.2⟩ : Started),
    { w with files := (Output.openFiles w.files s.outputs).2 })) hlogged

end

variable {net : Network} {s : Setup} {fs : FileSystem}

theorem admits_warn_iff {level : Level} : level.admits .warn = true ↔ level ≠ .error := by
  cases level <;> decide

/-- The last ring that was asked for is the last of the rings. -/
theorem last_ring_ready (s : Setup) (net : Network) (fs : FileSystem) :
    (((Output.sinks net.rings.size s.outputs).filterMap Sink.ring?).getLast?).bind (s.ready net fs).ring? =
      (s.outputs.filterMap Output.capacity?).getLast?.map Ring.new := by
  rw [Output.filterMap_ring?_sinks]
  generalize hrings : s.outputs.filterMap Output.capacity? = rings
  rcases List.eq_nil_or_concat rings with rfl | ⟨rings, capacity, rfl⟩
  · rfl
  · simp [ready, Network.placed, Network.ring?, hrings, List.range'_concat]

/-- The files that cannot be opened do not matter to the other outputs. -/
theorem run_start_opened (net : Network) (clock : Nat → Readings) (s : Setup) (w : World) :
    (start World.host.openLog clock net { s with outputs := s.outputs.filter (·.opens w.files) }).run w =
      (⟨s.ready net w.files, ⟨net.loggers.size⟩,
        ((Output.sinks net.rings.size s.outputs).filterMap Sink.ring?).getLast?, []⟩,
      { w with files := (Output.openFiles w.files s.outputs).2 }) := by
  have hagain : (s.outputs.filter (·.opens w.files)).filter (·.opens w.files) =
      s.outputs.filter (·.opens w.files) := by simp
  let kept : Setup := { s with outputs := s.outputs.filter (·.opens w.files) }
  have hready : kept.ready net w.files = s.ready net w.files := by
    simp only [ready, kept, hagain, Output.filterMap_capacity?_filter]
  have hback : (kept.ready net w.files).logAll clock ⟨net.loggers.size⟩ 0
      ((Output.openFiles w.files kept.outputs).1.map fun (path, e) => warning path e) =
        some (s.ready net w.files, []) := by
    rw [hready, Output.openFiles_filter_opens]
    rfl
  rw [run_start_eq net clock kept hback]
  simp only [kept, Output.filterMap_capacity?_filter, Output.filterMap_ring?_sinks,
    Output.openFiles_filter_opens]

theorem message_warning (path : Path) (e : FileError) : (warning path e).message =
    "Cannot open log file '" ++ path.text ++ "': IO error: " ++ e.message := by
  have hmiddle : "': IO error: " = "': " ++ "IO error: " := by decide
  rw [hmiddle, warning, fileErrorText]
  simp only [String.append_assoc]

/-- Warnings come through unless errors alone do. -/
theorem heard_warnings {l : Logger} (hspans : l.spans = []) (clock : Nat → Readings)
    (refused : List (Path × FileError)) :
    l.heard clock 0 (refused.map fun (path, e) => warning path e) =
    if l.level = .error then [] else refused.mapIdx fun k (path, e) => ⟨⟨.warn, "abnf_log::config",
      "Cannot open log file '" ++ path.text ++ "': IO error: " ++ e.message⟩, clock k [], none⟩ := by
  have hadmits : ∀ entry ∈ refused.map fun (path, e) => warning path e,
      l.level.admits entry.level = true ↔ l.level ≠ .error := by
    intro entry hentry
    obtain ⟨_, -, rfl⟩ := List.mem_map.mp hentry
    exact admits_warn_iff
  rw [Logger.heard]
  by_cases herror : l.level = .error
  · rw [if_pos herror, List.filter_eq_nil_iff.mpr, List.zipIdx_nil, List.map_nil]
    intro entry hentry hthrough
    exact (hadmits entry hentry).mp hthrough herror
  · rw [if_neg herror, List.filter_eq_self.mpr, List.zipIdx_map, List.map_map, List.mapIdx_eq_zipIdx_map]
    · refine List.map_congr_left fun refusal _ => ?_
      simp only [Function.comp_apply, ← message_warning, Logger.record, hspans]
      rfl
    · intro entry hentry
      exact (hadmits entry hentry).mpr herror

/-- What becomes of a setup that is asked for one thing after the other, on any file system. The standard error
stream is among the outputs once, where it was asked for first, and the other outputs are there as often as they
were asked for. The logger has the level that was asked for last and hands on to all outputs but the files that
cannot be opened, which does not depend on the other outputs; to rings other than the last one too, although
only that is given back. Once all are in place, each file that was refused is told of to every one of them,
unless only errors come through. Without the refused files the same would be in place. -/
theorem start_places_outputs (net : Network) (clock : Nat → Readings) (first : Level) (demands : List Demand)
    (w : World) :
    let asked := demands.filterMap Demand.output?
    let s := (new first).meetAll demands
    let kept := s.outputs.filter (·.opens w.files)
    let sinks := Output.sinks net.rings.size kept
    let rings := asked.filterMap Output.capacity?
    let placed := net.placed s.level sinks (rings.map Ring.new)
    let refused := (Output.openFiles w.files s.outputs).1
    let warnings := refused.mapIdx fun k (path, e) => (⟨⟨.warn, "abnf_log::config",
      "Cannot open log file '" ++ path.text ++ "': IO error: " ++ e.message⟩, clock k [], none⟩ : Record)
    let after := { w with files := (Output.openFiles w.files s.outputs).2 }
    s.level = (demands.filterMap Demand.level?).getLast?.getD first ∧
    s.outputs.count .standardError ≤ 1 ∧ (.standardError ∉ asked → s.outputs = asked) ∧
    (∀ earlier later, asked = earlier ++ .standardError :: later → .standardError ∉ earlier →
      s.outputs = earlier ++ .standardError :: later.filter (· ≠ .standardError)) ∧
    refused.map Prod.fst = (s.outputs.filter fun o => !o.opens w.files).filterMap Output.file? ∧
    ∃ done, (start World.host.openLog clock net s).run w = (done, after) ∧
      done.logger = ⟨net.loggers.size⟩ ∧ done.ring = (sinks.filterMap Sink.ring?).getLast? ∧
      done.ring.bind placed.ring? = rings.getLast?.map Ring.new ∧
      Network.HandsOver sinks (if s.level = .error then [] else warnings) placed done.network done.lines ∧
      (∀ (clock : Readings) entry, ∃ next lines,
        done.network.log clock done.logger entry = some (next, lines) ∧
        Network.HandsOver sinks (if s.level.admits entry.level then
          [{ entry with time := clock [], span := none }] else []) done.network next lines) ∧
      (start World.host.openLog clock net { s with outputs := kept }).run w =
        (⟨placed, done.logger, done.ring, []⟩, after) := by
  intro asked s kept sinks rings placed refused warnings after
  have houtputs : s.outputs = Output.once asked := by
    rw [outputs_meetAll]
    simp [new, asked]
  have hrings : s.outputs.filterMap Output.capacity? = rings := by
    rw [houtputs]
    exact Output.filterMap_once rfl asked
  have hplaced : s.ready net w.files = placed := by rw [ready, hrings]
  have hl : ∀ net' : Network, net'.loggers = placed.loggers →
      net'.logger? ⟨net.loggers.size⟩ = some { level := s.level, sinks := sinks.toArray } := by
    intro net' hsame
    rw [Network.logger?, hsame]
    exact Network.logger?_placed ..
  have hlast : ∀ inner, .logger inner ∉ sinks.toArray := by
    intro inner
    rw [List.mem_toArray]
    exact Output.logger_notMem_sinks _ _ inner
  have hring : ((Output.sinks net.rings.size s.outputs).filterMap Sink.ring?).getLast? =
      (sinks.filterMap Sink.ring?).getLast? := by
    rw [Output.filterMap_ring?_sinks, Output.filterMap_ring?_sinks, Output.filterMap_capacity?_filter]
  -- the rings are made in one go, so no ring stands twice among the sinks and each gets a record once
  have hnodup := Output.nodup_rings_sinks net.rings.size kept
  obtain ⟨warned, lines, hback, hwarned⟩ := Network.handsOver_logAll (hl placed rfl) hlast hnodup clock 0
    (refused.map fun (path, e) => warning path e)
  rw [heard_warnings rfl] at hwarned
  refine ⟨(new first).level_meetAll demands, ?_, ?_, ?_, Output.refused_openFiles _ _, ?_⟩
  · rw [houtputs]
    exact Output.count_once_le asked
  · intro hnone
    rw [houtputs, Output.once_of_notMem hnone]
  · intro earlier later hsplit hfirst
    rw [houtputs, hsplit, Output.once_append hfirst]
  · rw [← hplaced] at hback
    refine ⟨_, run_start_eq net clock s hback, rfl, hring, ?_, hwarned, ?_, ?_⟩
    · rw [← hrings, ← hplaced]
      exact last_ring_ready s net w.files
    · intro clock' entry
      exact Network.handsOver_log (hl warned hwarned.loggers) hlast hnodup clock' entry
    · rw [← hplaced]
      exact run_start_opened net clock s w

end Setup

end Abnf.Log
