import Abnf.Proofs.Appending

/-! Whether a file can be opened to append to is a matter of the directories alone. Opening files makes no
directory and takes none away, so it has no part in what can be opened. -/

namespace Abnf.FileSystem

variable {fs fs' : FileSystem} {place : List String} {p q : Path}

/-- Whether a file can be opened to append to. -/
def opens (fs : FileSystem) (q : Path) : Bool := (fs.openAppend q).isOk

/-- The same directories in the same places, one of which is the working directory. -/
structure SameDirectories (fs fs' : FileSystem) : Prop where
  workingDirectory : fs'.workingDirectory = fs.workingDirectory
  node? : ∀ dir, fs'.node? dir = some .directory ↔ fs.node? dir = some .directory

theorem SameDirectories.refl (fs : FileSystem) : fs.SameDirectories fs := ⟨rfl, fun _ => .rfl⟩

theorem SameDirectories.symm (h : fs.SameDirectories fs') : fs'.SameDirectories fs :=
  ⟨h.workingDirectory.symm, fun dir => (h.node? dir).symm⟩

/-- A file in a place that is no directory. -/
theorem sameDirectories_put (h : fs.node? place ≠ some .directory) (content : ByteArray) :
    fs.SameDirectories (fs.put place (.file content)) := by
  refine ⟨rfl, fun dir => ?_⟩
  rw [node?_put (ne_nil_of_node?_ne h)]
  by_cases hd : dir = place
  · subst hd
    simpa using h
  · rw [if_neg hd]

theorem sameDirectories_openAppend (h : fs.openAppend q = .ok fs') : fs.SameDirectories fs' := by
  obtain ⟨place, -, ⟨-, rfl⟩ | ⟨hnone, -, rfl⟩⟩ := openAppend_eq_ok h
  · exact .refl fs'
  · exact sameDirectories_put (by simp [hnone]) _

theorem SameDirectories.requireDirectory (h : fs.SameDirectories fs') {dir : List String}
    (hd : fs.requireDirectory dir = .ok ()) : fs'.requireDirectory dir = .ok () :=
  requireDirectory_eq_ok.mpr ((h.node? dir).mpr (requireDirectory_eq_ok.mp hd))

theorem SameDirectories.enter (h : fs.SameDirectories fs') {dir next : List String} {name : String}
    (hn : fs.enter dir name = .ok next) (hd : fs.node? next = some .directory) :
    fs'.enter dir name = .ok next := by
  obtain ⟨hdir, hnext⟩ := enter_eq_ok.mp hn
  refine enter_eq_ok.mpr ⟨(h.node? dir).mpr hdir, ?_⟩
  rcases hnext with hsame | hup | ⟨hname, hnext, -⟩
  · exact .inl hsame
  · exact .inr (.inl hup)
  · exact .inr (.inr ⟨hname, hnext, by simp [(h.node? next).mpr hd]⟩)

/-- A walk to a directory is one through directories. -/
theorem SameDirectories.foldlM_enter (h : fs.SameDirectories fs') {start last names : List String}
    (hw : names.foldlM fs.enter start = .ok last) (hd : fs.node? last = some .directory) :
    names.foldlM fs'.enter start = .ok last := by
  induction names generalizing start with
  | nil => exact hw
  | cons name names ih =>
    rw [List.foldlM_cons, bind_eq_ok] at hw ⊢
    obtain ⟨next, hn, hw⟩ := hw
    have hnext : fs.node? next = some .directory := by
      cases names with
      | nil =>
        obtain rfl := Except.ok.inj hw
        exact hd
      | cons after names =>
        obtain ⟨_, hafter, -⟩ := bind_eq_ok.mp hw
        exact (enter_eq_ok.mp hafter).1
    exact ⟨next, h.enter hn hnext, ih hw⟩

theorem LastName.of_sameDirectories {start dir : List String} {name : String}
    (h : fs.LastName q start dir name) (hsame : fs.SameDirectories fs') :
    fs'.LastName q start dir name where
  origin := by rw [← h.origin, FileSystem.origin, FileSystem.origin, hsame.workingDirectory]
  names := h.names
  walk := hsame.foldlM_enter h.walk (requireDirectory_eq_ok.mp h.directory)
  directory := hsame.requireDirectory h.directory
  slash := h.slash
  ordinary := h.ordinary

theorem LastName.isOk_openAppend {start dir : List String} {name : String}
    (h : fs.LastName q start dir name) (hd : fs.node? (dir ++ [name]) ≠ some .directory) :
    (fs.openAppend q).isOk = true := by
  obtain ⟨hsame, hup, hlong⟩ := h.ordinary
  have hlast : q.names.getLast? = some name := by rw [h.names, List.getLast?_concat]
  have hplain : ¬ (q.endsInSlash = true ∨ name = "." ∨ name = "..") := by
    simp [h.slash, hsame, hup]
  simp only [openAppend, h.origin, hlast, h.walk, h.directory, hplain, Nat.not_lt.mpr hlong, if_false,
    bind, Except.bind, pure, Except.pure]
  cases hnode : fs.node? (dir ++ [name]) with
  | none => rfl
  | some node =>
    cases node with
    | file _ => rfl
    | directory => exact absurd hnode hd

theorem opens_iff : fs.opens q = true ↔
    ∃ start dir name, fs.LastName q start dir name ∧ fs.node? (dir ++ [name]) ≠ some .directory := by
  constructor
  · intro h
    cases hopen : fs.openAppend q with
    | error e => simp [opens, hopen, Except.isOk, Except.toBool] at h
    | ok fs' =>
      obtain ⟨start, dir, name, hlast, ⟨⟨content, hfile⟩, -⟩ | ⟨hnone, -⟩⟩ := openAppend_cases hopen
      · exact ⟨start, dir, name, hlast, by simp [hfile]⟩
      · exact ⟨start, dir, name, hlast, by simp [hnone]⟩
  · rintro ⟨start, dir, name, hlast, hd⟩
    exact hlast.isOk_openAppend hd

theorem SameDirectories.opens (h : fs.SameDirectories fs') (q : Path) : fs'.opens q = fs.opens q := by
  rw [Bool.eq_iff_iff, opens_iff, opens_iff]
  constructor
  · rintro ⟨start, dir, name, hlast, hd⟩
    exact ⟨start, dir, name, hlast.of_sameDirectories h.symm, fun hdir => hd ((h.node? _).mpr hdir)⟩
  · rintro ⟨start, dir, name, hlast, hd⟩
    exact ⟨start, dir, name, hlast.of_sameDirectories h, fun hdir => hd ((h.node? _).mp hdir)⟩

end Abnf.FileSystem
