import Abnf.Proofs.Walks

/-! Opening files to append to, and appending: what is read elsewhere stays the same. -/

deriving instance DecidableEq for Abnf.FileSystem

namespace Abnf.FileSystem

variable {fs fs' : FileSystem} {place : List String} {p q : Path}

/-- What was there is still there. -/
def Grows (fs fs' : FileSystem) : Prop :=
  ∀ names node, fs.node? names = some node → fs'.node? names = some node

theorem grows_put (h : fs.node? place = none) (node : Node) : fs.Grows (fs.put place node) := by
  intro names found hf
  have hne : names ≠ place := by
    rintro rfl
    exact absurd (h.symm.trans hf) (by simp)
  have hp : place ≠ [] := @ne_nil_of_node?_ne fs place (by simp [h])
  rw [node?_put hp, if_neg hne]
  exact hf

theorem Grows.enter (h : fs.Grows fs') {dir next : List String} {name : String}
    (hn : fs.enter dir name = .ok next) : fs'.enter dir name = .ok next := by
  obtain ⟨hd, hnext⟩ := enter_eq_ok.mp hn
  refine enter_eq_ok.mpr ⟨h dir _ hd, ?_⟩
  rcases hnext with hsame | hup | ⟨hname, hnext, hne⟩
  · exact .inl hsame
  · exact .inr (.inl hup)
  · obtain ⟨node, hnode⟩ := Option.ne_none_iff_exists'.mp hne
    exact .inr (.inr ⟨hname, hnext, by simp [h next node hnode]⟩)

theorem Grows.foldlM_enter (h : fs.Grows fs') {start last names : List String}
    (hw : names.foldlM fs.enter start = .ok last) : names.foldlM fs'.enter start = .ok last := by
  induction names generalizing start with
  | nil => exact hw
  | cons name names ih =>
    rw [List.foldlM_cons, bind_eq_ok] at hw ⊢
    obtain ⟨next, hn, hw⟩ := hw
    exact ⟨next, h.enter hn, ih hw⟩

/-- A path walked up to its last name, which is an ordinary one. -/
structure LastName (fs : FileSystem) (q : Path) (start dir : List String) (name : String) : Prop where
  origin : fs.origin q = .ok start
  names : q.names = q.names.dropLast ++ [name]
  walk : q.names.dropLast.foldlM fs.enter start = .ok dir
  directory : fs.requireDirectory dir = .ok ()
  slash : ¬ q.endsInSlash = true
  ordinary : name ≠ "." ∧ name ≠ ".." ∧ name.utf8ByteSize ≤ maxName

theorem LastName.resolve_of_grows {start dir : List String} {name : String}
    (h : fs.LastName q start dir name) (hgrows : fs.Grows fs')
    (hwd : fs'.workingDirectory = fs.workingDirectory) (hne : fs'.node? (dir ++ [name]) ≠ none) :
    fs'.resolve q = .ok (dir ++ [name]) := by
  have ho : fs'.origin q = .ok start := by rw [← h.origin, FileSystem.origin, FileSystem.origin, hwd]
  have hdir := hgrows dir _ (requireDirectory_eq_ok.mp h.directory)
  have hnext : fs'.enter dir name = .ok (dir ++ [name]) :=
    enter_eq_ok.mpr ⟨hdir, .inr (.inr ⟨h.ordinary, rfl, hne⟩)⟩
  refine resolve_eq_ok.mpr ⟨start, ho, ?_, fun hs => absurd hs h.slash⟩
  rw [h.names, foldlM_enter_concat (hgrows.foldlM_enter h.walk)]
  exact hnext

theorem LastName.resolve_of_none {start dir : List String} {name : String}
    (h : fs.LastName q start dir name) (hnone : fs.node? (dir ++ [name]) = none) :
    fs.resolve q = .error .notFound := by
  obtain ⟨hsame, hup, hlong⟩ := h.ordinary
  have hnext : fs.enter dir name = .error .notFound := by
    rw [enter_of_ok h.directory, if_neg hsame, if_neg hup, if_neg (by omega), if_pos hnone]
  have hwalk : q.names.foldlM fs.enter start = .error .notFound := by
    rw [h.names, foldlM_enter_concat h.walk]
    exact hnext
  rw [resolve, h.origin]
  simp [bind, Except.bind, hwalk]

theorem openAppend_cases (h : fs.openAppend q = .ok fs') : ∃ start dir name,
    fs.LastName q start dir name ∧
      ((∃ content, fs.node? (dir ++ [name]) = some (.file content)) ∧ fs' = fs ∨
        fs.node? (dir ++ [name]) = none ∧ fs' = fs.put (dir ++ [name]) (.file .empty)) := by
  have hthrow : ∀ (α β : Type) (e : FileError) (f : α → Except FileError β) (b : β),
      (throw e >>= f) ≠ .ok b := by
    intro α β e f b
    simp [bind_eq_ok, throw, throwThe, MonadExceptOf.throw]
  unfold openAppend at h
  obtain ⟨start, ho, h⟩ := bind_eq_ok.mp h
  cases hl : q.names.getLast? with
  | none => simp [hl, throw, throwThe, MonadExceptOf.throw] at h
  | some name =>
    simp only [hl, bind_eq_ok] at h
    obtain ⟨dir, hw, ⟨⟩, hd, h⟩ := h
    by_cases hdir : q.endsInSlash ∨ name = "." ∨ name = ".."
    · rw [if_pos hdir] at h
      exact absurd h (hthrow _ _ _ _ _)
    by_cases hlong : maxName < name.utf8ByteSize
    · rw [if_neg hdir, if_pos hlong] at h
      exact absurd h (hthrow _ _ _ _ _)
    rw [if_neg hdir, if_neg hlong] at h
    obtain ⟨hslash, hsame, hup⟩ : ¬ q.endsInSlash = true ∧ name ≠ "." ∧ name ≠ ".." := by
      simpa using hdir
    have hlast : fs.LastName q start dir name :=
      ⟨ho, (List.dropLast_append_getLast? name hl).symm, hw, hd, hslash, hsame, hup, by omega⟩
    refine ⟨start, dir, name, hlast, ?_⟩
    cases hn : fs.node? (dir ++ [name]) with
    | none =>
      rw [hn] at h
      exact .inr ⟨rfl, (Except.ok.inj h).symm⟩
    | some node =>
      rw [hn] at h
      cases node with
      | directory => simp [throw, throwThe, MonadExceptOf.throw] at h
      | file content => exact .inl ⟨⟨content, rfl⟩, (Except.ok.inj h).symm⟩

/-- Opening a file to append to makes the file if nothing is there, and the path leads to it then. -/
theorem openAppend_eq_ok (h : fs.openAppend q = .ok fs') : ∃ place, fs'.resolve q = .ok place ∧
    ((∃ content, fs.node? place = some (.file content)) ∧ fs' = fs ∨
      fs.node? place = none ∧ fs.resolve q = .error .notFound ∧
        fs' = fs.put place (.file .empty)) := by
  obtain ⟨start, dir, name, hlast, ⟨⟨content, hfile⟩, rfl⟩ | ⟨hnone, rfl⟩⟩ := openAppend_cases h
  · have hleads := hlast.resolve_of_grows (fun _ _ hf => hf) rfl (by simp [hfile])
    exact ⟨dir ++ [name], hleads, .inl ⟨⟨content, hfile⟩, rfl⟩⟩
  · have hp : dir ++ [name] ≠ [] := by simp
    have hleads := hlast.resolve_of_grows (grows_put hnone (.file .empty)) rfl
      (by simp [node?_put hp])
    exact ⟨dir ++ [name], hleads, .inr ⟨hnone, hlast.resolve_of_none hnone, rfl⟩⟩

theorem append_cases (fs : FileSystem) (q : Path) (bytes : ByteArray) : fs.append q bytes = fs ∨
    ∃ place content, fs.resolve q = .ok place ∧ fs.node? place = some (.file content) ∧
      fs.append q bytes = fs.put place (.file (content ++ bytes)) := by
  unfold append
  split
  · exact .inl rfl
  · next place hplace =>
    split
    · next content hfile => exact .inr ⟨place, content, hplace, hfile, rfl⟩
    · exact .inl rfl

/-- There is a file at the path, with these characters and no others. -/
def Holds (fs : FileSystem) (p : Path) (text : String) : Prop := fs.read p = .ok text.toUTF8

theorem textOf_eq_ok {content : ByteArray} {text : String} :
    textOf content = .ok text ↔ content = text.toUTF8 := by
  have hbytes : ∀ s : String, s.toUTF8.IsValidUTF8 := fun s => s.isValidUTF8
  unfold textOf String.fromUTF8?
  by_cases hvalid : content.IsValidUTF8
  · simp only [dif_pos hvalid, Except.ok.injEq]
    constructor
    · rintro rfl
      rfl
    · rintro rfl
      rfl
  · simp only [dif_neg hvalid]
    constructor
    · intro h
      cases h
    · rintro rfl
      exact absurd (hbytes text) hvalid

theorem readText_eq_ok {text : String} : fs.readText p = .ok text ↔ fs.Holds p text := by
  rw [readText, bind_eq_ok, Holds]
  constructor
  · rintro ⟨content, hread, htext⟩
    rw [hread, textOf_eq_ok.mp htext]
  · intro hread
    exact ⟨_, hread, textOf_eq_ok.mpr rfl⟩

theorem holds_iff {text : String} : fs.Holds p text ↔
    ∃ place, fs.resolve p = .ok place ∧ fs.node? place = some (.file text.toUTF8) := by
  rw [Holds, read, bind_eq_ok]
  refine exists_congr fun place => and_congr_right fun _ => ?_
  cases fs.node? place with
  | none => simp [throw, throwThe, MonadExceptOf.throw]
  | some node => cases node <;> simp [throw, throwThe, MonadExceptOf.throw, pure, Except.pure]

theorem readText_congr (hr : fs'.resolve p = fs.resolve p)
    (hn : ∀ found, fs.resolve p = .ok found → fs'.node? found = fs.node? found) :
    fs'.readText p = fs.readText p := by
  rw [readText, readText, read, read, hr]
  cases hf : fs.resolve p with
  | error e => rfl
  | ok found =>
    have hnode := hn found hf
    simp only [bind, Except.bind, hnode]

theorem resolve_put_of_file {content : ByteArray} (hfile : fs.node? place = some (.file content))
    (changed : ByteArray) (p : Path) : (fs.put place (.file changed)).resolve p = fs.resolve p := by
  have hp : place ≠ [] := @ne_nil_of_node?_ne fs place (by simp [hfile])
  refine resolve_congr rfl ?_ ?_
  · intro names hnone
    rw [node?_put hp] at hnone
    split at hnone
    · exact absurd hnone (by simp)
    · exact hnone
  · intro dir _
    by_cases h : dir = place
    · subst h
      rw [requireDirectory, requireDirectory, node?_put hp, if_pos rfl, hfile]
    · exact requireDirectory_congr (by rw [node?_put hp, if_neg h])

theorem readText_append (h : ∀ place, fs.resolve q = .ok place → fs.resolve p ≠ .ok place)
    (bytes : ByteArray) : (fs.append q bytes).readText p = fs.readText p := by
  rcases fs.append_cases q bytes with hsame | ⟨place, content, hplace, hfile, hput⟩
  · rw [hsame]
  · rw [hput]
    refine readText_congr (resolve_put_of_file hfile _ p) ?_
    intro found hf
    have hp : place ≠ [] := @ne_nil_of_node?_ne fs place (by simp [hfile])
    have hne : found ≠ place := by
      rintro rfl
      exact h found hplace hf
    rw [node?_put hp, if_neg hne]

theorem readText_put_of_none (hnone : fs.node? place = none) {content : ByteArray}
    (hpass : ¬ (fs.put place (.file content)).Passes p place) :
    (fs.put place (.file content)).readText p = fs.readText p := by
  have hp : place ≠ [] := @ne_nil_of_node?_ne fs place (by simp [hnone])
  have hkeep : ∀ names, names ≠ place →
      (fs.put place (.file content)).node? names = fs.node? names := by
    intro names hne
    rw [node?_put hp, if_neg hne]
  have hresolve : (fs.put place (.file content)).resolve p = fs.resolve p := by
    refine resolve_congr rfl ?_ ?_
    · intro names hlost
      by_cases h : names = place
      · rw [h]
        exact hnone
      · rwa [hkeep names h] at hlost
    · intro dir hd
      have hne : dir ≠ place := by
        rintro rfl
        exact hpass hd
      exact requireDirectory_congr (hkeep dir hne)
  refine readText_congr hresolve ?_
  intro found hf
  refine hkeep found ?_
  rintro rfl
  exact hpass (passes_of_resolve (hresolve.trans hf))

/-- Appending to the file `q` has no part in what is read from `p`: the file cannot be opened, or it is
there already and is another one, or it is made and `p` does not run through it. -/
inductive Spares (fs : FileSystem) (p q : Path) : Prop
  | unopenable {e : FileError} (hopen : fs.openAppend q = .error e)
  | existing {place : List String} {content : ByteArray} (hplace : fs.resolve q = .ok place)
      (hfile : fs.node? place = some (.file content)) (hne : fs.resolve p ≠ .ok place)
  | fresh {fs' : FileSystem} {place : List String} (hopen : fs.openAppend q = .ok fs')
      (hplace : fs'.resolve q = .ok place) (hnew : fs.node? place = none)
      (hpass : ¬ fs'.Passes p place)

theorem Spares.readText_eq (h : fs.Spares p q) (hopen : fs.openAppend q = .ok fs') :
    fs'.readText p = fs.readText p ∧
      ∀ bytes, (fs'.append q bytes).readText p = fs.readText p := by
  obtain ⟨place, hplace, hcases⟩ := openAppend_eq_ok hopen
  cases h with
  | unopenable hclosed => exact absurd (hopen.symm.trans hclosed) (by simp)
  | @existing place' content hplace' hfile hne =>
    rcases hcases with ⟨-, rfl⟩ | ⟨-, hmissing, -⟩
    · have hone : ∀ found, fs'.resolve q = .ok found → fs'.resolve p ≠ .ok found := by
        intro found hf
        rw [← Except.ok.inj (hplace'.symm.trans hf)]
        exact hne
      exact ⟨rfl, readText_append hone⟩
    · exact absurd (hplace'.symm.trans hmissing) (by simp)
  | @fresh fs₁ place' hopen' hplace' hnew hpass =>
    obtain rfl : fs' = fs₁ := Except.ok.inj (hopen.symm.trans hopen')
    obtain rfl : place = place' := Except.ok.inj (hplace.symm.trans hplace')
    rcases hcases with ⟨⟨content, hfile⟩, -⟩ | ⟨-, -, rfl⟩
    · exact absurd (hnew.symm.trans hfile) (by simp)
    · -- appending could matter only at the place itself, and the path would run through it
      have hmade := readText_put_of_none hnew hpass
      refine ⟨hmade, fun bytes => ?_⟩
      rw [← hmade]
      refine readText_append ?_ bytes
      intro found hf hp
      rw [← Except.ok.inj (hplace.symm.trans hf)] at hp
      exact hpass (passes_of_resolve hp)

end Abnf.FileSystem
