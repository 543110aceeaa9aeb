import Abnf.Host
import Abnf.Proofs.FlatLoggers
import Abnf.Proofs.HandingOn
import Abnf.Proofs.Openings

/-! Log files in use: opened, attached to loggers and logged to, in any order. What is in a file stays there,
and what is handed to a sink that leads to it comes behind. -/

namespace Abnf

namespace Log

/-- One line for each record. -/
def written (records : List Record) : String := String.join (records.map fun r => r.text ++ "\n")

theorem toUTF8_written_append (records more : List Record) :
    (written (records ++ more)).toUTF8 = (written records).toUTF8 ++ (written more).toUTF8 := by
  have hjoin : written (records ++ more) = written records ++ written more := by simp [written]
  rw [hjoin]
  exact String.toByteArray_append

/-- What stands at a place, before and after some records were filed there. -/
inductive Gathers (records : List Record) : Option Node → Option Node → Prop
  | directory (h : records = []) : Gathers records (some .directory) (some .directory)
  | nothing (h : records = []) : Gathers records none none
  | file (content : ByteArray) :
      Gathers records (some (.file content)) (some (.file (content ++ (written records).toUTF8)))
  | made : Gathers records none (some (.file (written records).toUTF8))

variable {records more : List Record} {a b c : Option Node}

theorem Gathers.refl (a : Option Node) : Gathers [] a a := by
  match a with
  | none => exact .nothing rfl
  | some .directory => exact .directory rfl
  | some (.file content) =>
    have hsame := @Gathers.file [] content
    simpa [written] using hsame

theorem Gathers.trans (h : Gathers records a b) (h' : Gathers more b c) :
    Gathers (records ++ more) a c := by
  cases h with
  | directory hnil =>
    cases h' with
    | directory hnil' => exact .directory (by simp [hnil, hnil'])
  | nothing hnil =>
    subst hnil
    cases h' with
    | nothing hnil' => exact .nothing (by simp [hnil'])
    | made => exact .made
  | file content =>
    cases h' with
    | file =>
      have hboth := @Gathers.file (records ++ more) content
      rwa [toUTF8_written_append, ← ByteArray.append_assoc] at hboth
  | made =>
    cases h' with
    | file =>
      have hboth := @Gathers.made (records ++ more)
      rwa [toUTF8_written_append] at hboth

theorem Gathers.exists_file {content : ByteArray} (h : Gathers records (some (.file content)) b) :
    ∃ content', b = some (.file content') := by
  cases h
  exact ⟨_, rfl⟩

end Log

namespace FileSystem

variable {fs fs' : FileSystem} {path : Path}

def HasFile (fs : FileSystem) (path : Path) : Prop :=
  ∃ place content, fs.resolve path = .ok place ∧ fs.node? place = some (.file content)

theorem HasFile.of_gathers (h : fs.HasFile path)
    (hresolve : ∀ place, fs.resolve path = .ok place → fs'.resolve path = .ok place)
    (hgathers : ∀ place, ∃ records, Log.Gathers records (fs.node? place) (fs'.node? place)) :
    fs'.HasFile path := by
  obtain ⟨place, content, hplace, hfile⟩ := h
  obtain ⟨records, hg⟩ := hgathers place
  rw [hfile] at hg
  obtain ⟨content', hfile'⟩ := hg.exists_file
  exact ⟨place, content', hresolve place hplace, hfile'⟩

theorem Grows.resolve (h : fs.Grows fs') (hwd : fs'.workingDirectory = fs.workingDirectory)
    {place : List String} (hr : fs.resolve path = .ok place) : fs'.resolve path = .ok place := by
  obtain ⟨start, ho, hw, hslash⟩ := resolve_eq_ok.mp hr
  refine resolve_eq_ok.mpr ⟨start, ?_, h.foldlM_enter hw, ?_⟩
  · rw [← ho, FileSystem.origin, FileSystem.origin, hwd]
  · intro hs
    exact requireDirectory_eq_ok.mpr (h place _ (requireDirectory_eq_ok.mp (hslash hs)))

theorem grows_openAppend (h : fs.openAppend path = .ok fs') :
    fs.Grows fs' ∧ fs'.workingDirectory = fs.workingDirectory ∧ fs'.HasFile path := by
  obtain ⟨made, hmade, ⟨⟨content, hfile⟩, rfl⟩ | ⟨hnone, -, rfl⟩⟩ := openAppend_eq_ok h
  · exact ⟨fun _ _ hf => hf, rfl, made, content, hmade, hfile⟩
  · have hne : made ≠ [] := @ne_nil_of_node?_ne fs made (by simp [hnone])
    exact ⟨grows_put hnone _, rfl, made, .empty, hmade, by rw [node?_put hne, if_pos rfl]⟩

theorem gathers_openAppend (h : fs.openAppend path = .ok fs') (place : List String) :
    Log.Gathers [] (fs.node? place) (fs'.node? place) := by
  obtain ⟨made, -, ⟨-, rfl⟩ | ⟨hnone, -, rfl⟩⟩ := openAppend_eq_ok h
  · exact .refl _
  · have hne : made ≠ [] := @ne_nil_of_node?_ne fs made (by simp [hnone])
    rw [node?_put hne]
    by_cases hm : place = made
    · subst hm
      rw [if_pos rfl, hnone]
      exact .made
    · rw [if_neg hm]
      exact .refl _

theorem resolve_append (fs : FileSystem) (path : Path) (bytes : ByteArray) (p : Path) :
    (fs.append path bytes).resolve p = fs.resolve p := by
  rcases fs.append_cases path bytes with hsame | ⟨place, content, -, hfile, hput⟩
  · rw [hsame]
  · rw [hput]
    exact resolve_put_of_file hfile _ p

theorem gathers_append (h : fs.HasFile path) (record : Log.Record) (place : List String) :
    Log.Gathers (if fs.resolve path = .ok place then [record] else []) (fs.node? place)
      ((fs.append path (record.text ++ "\n").toUTF8).node? place) := by
  obtain ⟨found, content, hfound, hfile⟩ := h
  have hne : found ≠ [] := @ne_nil_of_node?_ne fs found (by simp [hfile])
  have hput : fs.append path (record.text ++ "\n").toUTF8 =
      fs.put found (.file (content ++ (record.text ++ "\n").toUTF8)) := by
    simp only [append, hfound, hfile]
  rw [hput, node?_put hne, hfound]
  by_cases hp : place = found
  · subst hp
    have hone := @Log.Gathers.file [record] content
    rw [if_pos rfl, if_pos rfl, hfile]
    simpa [Log.written] using hone
  · have hp' : ¬ (Except.ok found : Except FileError (List String)) = .ok place := by
      simpa using Ne.symm hp
    rw [if_neg hp, if_neg hp']
    exact .refl _

theorem HasFile.append (h : fs.HasFile path) {q : Path} (hq : fs.HasFile q) (record : Log.Record) :
    (fs.append q (record.text ++ "\n").toUTF8).HasFile path :=
  h.of_gathers (fun _ hplace => (resolve_append ..).trans hplace)
    fun place => ⟨_, gathers_append hq record place⟩

end FileSystem

namespace Log

/-- The record that is filed at a place, if the sink it is handed to leads there. -/
def filedAt (fs : FileSystem) (place : List String) (out : Sink × Record) : Option Record :=
  match out.1 with
  | .outlet (.file path) => if fs.resolve path = .ok place then some out.2 else none
  | _ => none

theorem filedAt_congr {fs fs' : FileSystem} (h : ∀ path, fs'.resolve path = fs.resolve path)
    (place : List String) : filedAt fs' place = filedAt fs place := by
  funext ⟨sink, record⟩
  match sink with
  | .outlet (.file path) => simp only [filedAt, h]
  | .outlet .standardError | .outlet (.receiver _) | .ring _ | .logger _ => rfl

theorem gathers_writeLines {outs : List (Sink × Record)} {w : World}
    (h : ∀ path record, (.outlet (.file path), record) ∈ outs → w.files.HasFile path) :
    let lines := outs.filterMap fun out => out.1.line? out.2
    let after := ((World.host.writeLines lines).run w).2.files
    (∀ path, after.resolve path = w.files.resolve path) ∧ ∀ place,
      Gathers (outs.filterMap (filedAt w.files place)) (w.files.node? place) (after.node? place) := by
  induction outs generalizing w with
  | nil => exact ⟨fun _ => rfl, fun place => .refl _⟩
  | cons out outs ih =>
    obtain ⟨sink, record⟩ := out
    have hrest : ∀ path record, (.outlet (.file path), record) ∈ outs → w.files.HasFile path :=
      fun path record hm => h path record (List.mem_cons_of_mem _ hm)
    match sink with
    | .ring _ | .logger _ => exact ih hrest
    | .outlet .standardError => exact @ih { w with errors := _ } hrest
    | .outlet (.receiver _) => exact @ih { w with received := _ } hrest
    | .outlet (.file path) =>
      have hpath : w.files.HasFile path := h path record List.mem_cons_self
      have hsame := fun p => w.files.resolve_append path (record.text ++ "\n").toUTF8 p
      obtain ⟨hresolve, hgathers⟩ := @ih { w with files := w.files.append path (record.text ++ "\n").toUTF8 }
        fun q other hm => (hrest q other hm).append hpath record
      refine ⟨fun p => (hresolve p).trans (hsame p), fun place => ?_⟩
      have hboth := (FileSystem.gathers_append hpath record place).trans (hgathers place)
      rw [filedAt_congr hsame] at hboth
      have hfiled : ((Sink.outlet (.file path), record) :: outs).filterMap (filedAt w.files place) =
          (if w.files.resolve path = .ok place then [record] else []) ++
            outs.filterMap (filedAt w.files place) := by
        by_cases hp : w.files.resolve path = .ok place <;> simp [filedAt, hp]
      rw [hfiled]
      exact hboth

/-- Loggers at work in a world. `opened` are the paths of the log files that were opened. -/
structure Site where
  network : Network
  world : World
  opened : List Path := []

inductive Deed where
  | open (path : Path)
  | act (a : Act)

namespace Site

def fresh (world : World) : Site := { network := .empty, world }

/-- A file can be attached to a logger once it is open. What is logged is written at once. -/
def deed (s : Site) : Deed → Site
  | .open path =>
    match (World.host.openLog path).run s.world with
    | (none, world) => { s with world, opened := path :: s.opened }
    | (some _, world) => { s with world }
  | .act (.attach id (.outlet (.file path))) =>
    if path ∈ s.opened then { s with network := s.network.attach id (.outlet (.file path)) } else s
  | .act (.log clock id entry) =>
    let (network, lines) := s.network.logged clock id entry
    { s with network, world := ((World.host.writeLines lines).run s.world).2 }
  | .act a => { s with network := s.network.act a }

def deeds (s : Site) (ds : List Deed) : Site := ds.foldl deed s

def routes (s : Site) (entry : Entry) (clock : Readings) (id : LoggerId) : Option (List (Sink × Record)) :=
  s.network.routes entry s.network.loggers.size clock id

/-- The records that one deed leaves at a place. -/
def filed (s : Site) (place : List String) : Deed → List Record
  | .act (.log clock id entry) =>
    ((s.routes entry clock id).getD []).filterMap (filedAt s.world.files place)
  | _ => []

def filedAll (place : List String) : Site → List Deed → List Record
  | _, [] => []
  | s, d :: ds => s.filed place d ++ filedAll place (s.deed d) ds

/-- Files that are open are there, and only they are attached. -/
structure Sound (s : Site) : Prop where
  opened : ∀ path ∈ s.opened, s.world.files.HasFile path
  attached : ∀ id l path, s.network.logger? id = some l → .outlet (.file path) ∈ l.sinks → path ∈ s.opened

end Site

theorem Network.sink_of_delivers {net : Network} {entry : Entry} {clock : Readings} {record : Record}
    {sinks : List (Sink × Nat)} {outs : List (Sink × Record)} {out : Sink × Record}
    (h : net.Delivers entry clock record sinks outs) (hout : out ∈ outs) :
    (∃ i, (out.1, i) ∈ sinks) ∨ ∃ id l, net.logger? id = some l ∧ out.1 ∈ l.sinks := by
  induction h with
  | nil => exact absurd hout List.not_mem_nil
  | @keep _ _ sink i _ _ _ _ ih =>
    rcases List.mem_cons.mp hout with rfl | hout
    · exact .inl ⟨i, List.mem_cons_self⟩
    · exact (ih hout).imp_left fun ⟨j, hj⟩ => ⟨j, List.mem_cons_of_mem _ hj⟩
  | refuse _ _ ih => exact (ih hout).imp_left fun ⟨j, hj⟩ => ⟨j, List.mem_cons_of_mem _ hj⟩
  | @pass _ _ inner l _ _ _ _ hl _ _ _ ihhere ihthere =>
    rcases List.mem_append.mp hout with hout | hout
    · refine .inr ((ihhere hout).elim (fun ⟨j, hj⟩ => ⟨inner, l, hl, ?_⟩) id)
      exact Array.mem_toList_iff.mp (List.fst_mem_of_mem_zipIdx hj)
    · exact (ihthere hout).imp_left fun ⟨j, hj⟩ => ⟨j, List.mem_cons_of_mem _ hj⟩

namespace Site

variable {s : Site} {path : Path}

theorem sound_fresh (w : World) : (fresh w).Sound := by
  constructor <;> simp [fresh, Network.empty, Network.logger?]

theorem deed_open_of_error {e : FileError} (h : s.world.files.openAppend path = .error e) :
    s.deed (.open path) = s := by
  have hopen : (World.host.openLog path).run s.world = (some e, s.world) := by
    show World.openLog path s.world = _
    rw [World.openLog, h]
  rw [deed, hopen]

theorem deed_open_of_ok {fs : FileSystem} (h : s.world.files.openAppend path = .ok fs) :
    s.deed (.open path) = ⟨s.network, { s.world with files := fs }, path :: s.opened⟩ := by
  have hopen : (World.host.openLog path).run s.world = (none, { s.world with files := fs }) := by
    show World.openLog path s.world = _
    rw [World.openLog, h]
  rw [deed, hopen]

theorem Sound.hasFile (h : s.Sound) {entry : Entry} {clock : Readings} {id : LoggerId} {record : Record}
    {outs : List (Sink × Record)} (hroutes : s.routes entry clock id = some outs)
    (hout : (.outlet (.file path), record) ∈ outs) : s.world.files.HasFile path := by
  -- the logger is looked at as the one sink, of number 0, that somebody hands `record` to
  have hdelivers := @Network.delivers_of_routes s.network entry (fun path => clock path.tail) outs id _ 0
    hroutes record
  rcases Network.sink_of_delivers hdelivers hout with ⟨_, hs⟩ | ⟨id, l, hl, hs⟩
  · simp at hs
  · exact h.opened path (h.attached id l path hl hs)

/-- What is so once some records were filed at each place. -/
structure After (s : Site) (filed : List String → List Record) (s' : Site) : Prop where
  sound : s'.Sound
  gathers : ∀ place, Gathers (filed place) (s.world.files.node? place) (s'.world.files.node? place)
  resolve : ∀ path place, s.world.files.resolve path = .ok place → s'.world.files.resolve path = .ok place

theorem After.refl (h : s.Sound) : s.After (fun _ => []) s := ⟨h, fun _ => .refl _, fun _ _ hr => hr⟩

theorem After.trans {s' s'' : Site} {filed filed' : List String → List Record} (h : s.After filed s')
    (h' : s'.After filed' s'') : s.After (fun place => filed place ++ filed' place) s'' :=
  ⟨h'.sound, fun place => (h.gathers place).trans (h'.gathers place),
    fun path place hr => h'.resolve path place (h.resolve path place hr)⟩

theorem Sound.open (h : s.Sound) (path : Path) : s.After (fun _ => []) (s.deed (.open path)) := by
  cases hopen : s.world.files.openAppend path with
  | error e =>
    rw [deed_open_of_error hopen]
    exact .refl h
  | ok fs =>
    have hgathers := FileSystem.gathers_openAppend hopen
    obtain ⟨hgrows, hwd, hthere⟩ := FileSystem.grows_openAppend hopen
    rw [deed_open_of_ok hopen]
    refine ⟨⟨List.forall_mem_cons.mpr ⟨hthere, ?_⟩, fun id l q hl hs => ?_⟩, hgathers,
      fun _ _ hr => hgrows.resolve hwd hr⟩
    · intro q hq
      exact (h.opened q hq).of_gathers (fun _ hplace => hgrows.resolve hwd hplace)
        fun place => ⟨[], hgathers place⟩
    · exact List.mem_cons_of_mem _ (h.attached id l q hl hs)

theorem Sound.log (h : s.Sound) (clock : Readings) (id : LoggerId) (entry : Entry) :
    s.After (s.filed · (.act (.log clock id entry))) (s.deed (.act (.log clock id entry))) := by
  let outs := (s.routes entry clock id).getD []
  have hlines : (s.network.logged clock id entry).2 = outs.filterMap fun out => out.1.line? out.2 := by
    rcases s.network.logged_cases clock id entry with ⟨hlog, hlogged⟩ | ⟨found, hroutes, -, hlogged⟩
    · have hroutes : s.routes entry clock id = none := Option.map_eq_none_iff.mp hlog
      rw [hlogged, show outs = [] by simp [outs, hroutes]]
      rfl
    · rw [hlogged, Network.lines_deliverAll, show outs = found by simp [outs, Site.routes, hroutes]]
      exact List.nil_append _
  have hfiles : ∀ path record, (.outlet (.file path), record) ∈ outs → s.world.files.HasFile path := by
    intro path record hout
    cases hroutes : s.routes entry clock id with
    | none => simp [outs, hroutes] at hout
    | some found => exact h.hasFile hroutes (by simpa [outs, hroutes] using hout)
  obtain ⟨hresolve, hgathers⟩ := gathers_writeLines hfiles
  rw [← hlines] at hresolve hgathers
  refine ⟨⟨fun path hpath => ?_, fun id' l path hl hs => ?_⟩, hgathers,
    fun path _ hr => (hresolve path).trans hr⟩
  · exact (h.opened path hpath).of_gathers (fun _ hplace => (hresolve path).trans hplace)
      fun place => ⟨_, hgathers place⟩
  · have hsame : (s.network.logged clock id entry).1.logger? id' = some l := hl
    rw [Network.logger?, Network.loggers_logged] at hsame
    exact h.attached id' l path hsame hs

theorem Sound.deed (h : s.Sound) (d : Deed) : s.After (s.filed · d) (s.deed d) := by
  -- what is not about a file changes the loggers at most
  have hact : ∀ a : Act, s.deed (.act a) = { s with network := s.network.act a } →
      (∀ place, s.filed place (.act a) = []) →
      (∀ id path, a = .attach id (.outlet (.file path)) → path ∈ s.opened) →
      s.After (s.filed · (.act a)) (s.deed (.act a)) := by
    intro a hdeed hfiled hattach
    rw [hdeed]
    refine ⟨⟨h.opened, fun id l path hl hs => ?_⟩, fun place => hfiled place ▸ .refl _, fun _ _ hr => hr⟩
    rcases Network.sink_of_act hl hs with hnew | ⟨l', hl', hs'⟩
    · exact hattach id path hnew
    · exact h.attached id l' path hl' hs'
  match d with
  | .open path => exact h.open path
  | .act (.log clock id entry) => exact h.log clock id entry
  | .act (.attach id (.outlet (.file path))) =>
    by_cases hopen : path ∈ s.opened
    · refine hact _ (by simp only [Site.deed, if_pos hopen]; rfl) (fun _ => rfl) ?_
      rintro _ _ ⟨rfl, rfl⟩
      exact hopen
    · have hsame : s.deed (.act (.attach id (.outlet (.file path)))) = s := by
        simp only [Site.deed, if_neg hopen]
      rw [hsame]
      exact .refl h
  | .act (.attach _ (.ring _)) | .act (.attach _ (.logger _)) | .act (.attach _ (.outlet .standardError))
  | .act (.attach _ (.outlet (.receiver _))) | .act (.addLogger _) | .act (.addRing _)
  | .act (.setLevel _ _) | .act (.enter _ _) | .act (.leave _) =>
    exact hact _ rfl (fun _ => rfl) (by simp)

theorem Sound.deeds (h : s.Sound) (ds : List Deed) : s.After (s.filedAll · ds) (s.deeds ds) := by
  -- a site is sound after each deed, and so the next one finds the files that it writes to
  induction ds generalizing s with
  | nil => exact .refl h
  | cons d ds ih => exact (h.deed d).trans (ih (h.deed d).sound)

theorem After.holds {s' : Site} {filed : List String → List Record} (h : s.After filed s') {text : String}
    (htext : s.world.files.Holds path text) : ∃ place, s.world.files.resolve path = .ok place ∧
      s'.world.files.Holds path (text ++ written (filed place)) := by
  obtain ⟨place, hplace, hfile⟩ := FileSystem.holds_iff.mp htext
  refine ⟨place, hplace, FileSystem.holds_iff.mpr ⟨place, h.resolve path place hplace, ?_⟩⟩
  have hgathers := h.gathers place
  rw [hfile] at hgathers
  generalize hnode : s'.world.files.node? place = node at hgathers
  cases hgathers with
  | file =>
    refine congrArg (some ∘ Node.file) ?_
    exact String.toByteArray_append.symm

theorem After.of_holds {s' : Site} {filed : List String → List Record} (h : s.After filed s') {text : String}
    (htext : s'.world.files.Holds path text) : ∃ place, s'.world.files.resolve path = .ok place ∧
      (s.world.files.node? place = none ∧ text = written (filed place) ∨
        ∃ content, s.world.files.node? place = some (.file content) ∧
          text.toUTF8 = content ++ (written (filed place)).toUTF8) := by
  obtain ⟨place, hplace, hfile⟩ := FileSystem.holds_iff.mp htext
  refine ⟨place, hplace, ?_⟩
  have hgathers := h.gathers place
  rw [hfile] at hgathers
  generalize hnode : s.world.files.node? place = node at hgathers
  generalize hbytes : text.toUTF8 = bytes at hgathers
  cases hgathers with
  | file content => exact .inr ⟨content, rfl, rfl⟩
  | made => exact .inl ⟨rfl, String.toByteArray_inj.mp hbytes⟩

/-- A file either cannot be opened, which changes nothing, or it is there afterwards: as it was before, or
empty if there was nothing. -/
theorem deed_open_cases (s : Site) (path : Path) :
    (∃ e, s.world.files.openAppend path = .error e) ∧ s.deed (.open path) = s ∨
    path ∈ (s.deed (.open path)).opened ∧
      ∃ place, (s.deed (.open path)).world.files.resolve path = .ok place ∧
        (∀ other, other ≠ place →
          (s.deed (.open path)).world.files.node? other = s.world.files.node? other) ∧
        (s.world.files.node? place = none ∧
            (s.deed (.open path)).world.files.node? place = some (.file .empty) ∨
          ∃ content, s.world.files.node? place = some (.file content) ∧
            (s.deed (.open path)).world.files.node? place = some (.file content)) := by
  cases hopen : s.world.files.openAppend path with
  | error e => exact .inl ⟨⟨e, rfl⟩, deed_open_of_error hopen⟩
  | ok fs =>
    rw [deed_open_of_ok hopen]
    refine .inr ⟨List.mem_cons_self, ?_⟩
    obtain ⟨place, hplace, ⟨⟨content, hfile⟩, rfl⟩ | ⟨hnone, -, rfl⟩⟩ := FileSystem.openAppend_eq_ok hopen
    · exact ⟨place, hplace, fun _ _ => rfl, .inr ⟨content, hfile, hfile⟩⟩
    · have hne : place ≠ [] := @FileSystem.ne_nil_of_node?_ne s.world.files place (by simp [hnone])
      refine ⟨place, hplace, fun other ho => ?_, .inl ⟨hnone, ?_⟩⟩
      · rw [FileSystem.node?_put hne, if_neg ho]
      · rw [FileSystem.node?_put hne, if_pos rfl]

/-- Log files after any number of deeds: what was at a place is there still, and behind it, line by line, are
the records that were handed to sinks that lead there, in order and once for each sink. Nothing else
changes. All that is handed to a file finds it, and opening a file takes nothing away. What is logged is
handed on from sink to sink, and arrives at last where loggers form no cycle. -/
theorem log_files_gather (w : World) (ds : List Deed) :
    let site := (fresh w).deeds ds
    let filed := fun place => (fresh w).filedAll place ds
    (∀ place, Gathers (filed place) (w.files.node? place) (site.world.files.node? place)) ∧
    (∀ path text, w.files.Holds path text → ∃ place, w.files.resolve path = .ok place ∧
      site.world.files.Holds path (text ++ written (filed place))) ∧
    (∀ path text, site.world.files.Holds path text → ∃ place, site.world.files.resolve path = .ok place ∧
      (w.files.node? place = none ∧ text = written (filed place) ∨
        ∃ content, w.files.node? place = some (.file content) ∧
          text.toUTF8 = content ++ (written (filed place)).toUTF8)) ∧
    (∀ entry clock id outs path record, site.routes entry clock id = some outs →
      (.outlet (.file path), record) ∈ outs → site.world.files.HasFile path) ∧
    (∀ path, let next := site.deed (.open path)
      (∃ e, site.world.files.openAppend path = .error e) ∧ next = site ∨
      path ∈ next.opened ∧ ∃ place, next.world.files.resolve path = .ok place ∧
        (∀ other, other ≠ place → next.world.files.node? other = site.world.files.node? other) ∧
        (site.world.files.node? place = none ∧ next.world.files.node? place = some (.file .empty) ∨
          ∃ content, site.world.files.node? place = some (.file content) ∧
            next.world.files.node? place = some (.file content))) ∧
    (∀ entry (clock : Readings) record id i outs,
      site.network.Delivers entry clock record [(.logger id, i)] outs ↔
        site.routes entry (clock.behind i) id = some outs) ∧
    (site.network.Acyclic → ∀ entry clock id, site.routes entry clock id ≠ none) := by
  intro site filed
  have hafter : (fresh w).After filed site := (sound_fresh w).deeds ds
  refine ⟨hafter.gathers, ?_, ?_, ?_, ?_, ?_, ?_⟩
  · intro path text htext
    exact hafter.holds htext
  · intro path text htext
    exact hafter.of_holds htext
  · intro entry clock id outs path record hroutes hout
    exact hafter.sound.hasFile hroutes hout
  · intro path
    exact deed_open_cases site path
  · intro entry clock record id i outs
    exact Network.delivers_iff_routes
  · intro hacyclic entry clock id hnone
    exact hacyclic.not_circles (Network.routes_eq_none_iff.mp hnone)

end Site

end Log

end Abnf
