import Abnf.Files.System
import Mathlib.Data.List.Basic

/-! Paths walked in two file systems that differ in one file. Making a file or adding to it changes
what another path leads to only if that path runs through the file. -/

namespace Abnf.FileSystem

variable {fs fs' : FileSystem} {place : List String} {p q : Path}

/-- Some first part of a path, or all of it, leads to a place. -/
def Passes (fs : FileSystem) (p : Path) (place : List String) : Prop :=
  ∃ start n, fs.origin p = .ok start ∧ (p.names.take n).foldlM fs.enter start = .ok place

theorem bind_eq_ok {α β ε : Type} {x : Except ε α} {f : α → Except ε β} {b : β} :
    x >>= f = .ok b ↔ ∃ a, x = .ok a ∧ f a = .ok b := by
  cases x <;> simp [bind, Except.bind]

theorem passes_iff : fs.Passes p place ↔ ∃ n < p.names.length + 1,
    (fs.origin p >>= fun start => (p.names.take n).foldlM fs.enter start) = .ok place := by
  constructor
  · rintro ⟨start, n, ho, hw⟩
    by_cases hn : n ≤ p.names.length
    · exact ⟨n, by omega, bind_eq_ok.mpr ⟨start, ho, hw⟩⟩
    · refine ⟨p.names.length, by omega, bind_eq_ok.mpr ⟨start, ho, ?_⟩⟩
      rw [List.take_length]
      rwa [List.take_of_length_le (by omega)] at hw
  · rintro ⟨n, -, hw⟩
    obtain ⟨start, ho, hw⟩ := bind_eq_ok.mp hw
    exact ⟨start, n, ho, hw⟩

instance : Decidable (fs.Passes p place) := decidable_of_iff _ passes_iff.symm

theorem lookup_filter_ne {names : List String} (h : names ≠ place) (nodes : List (List String × Node)) :
    (nodes.filter (·.1 != place)).lookup names = nodes.lookup names := by
  induction nodes with
  | nil => rfl
  | cons e nodes ih =>
    obtain ⟨key, node⟩ := e
    by_cases hk : key = place
    · subst hk
      have hne : (names == key) = false := by simpa using h
      simp [List.lookup_cons, hne, ih]
    · simp [List.lookup_cons, hk, ih]

theorem node?_of_ne_nil {names : List String} (h : names ≠ []) :
    fs.node? names = fs.nodes.lookup names := by
  cases names with
  | nil => exact absurd rfl h
  | cons name names => rfl

theorem node?_put (hp : place ≠ []) (node : Node) (names : List String) :
    (fs.put place node).node? names = if names = place then some node else fs.node? names := by
  by_cases hn : names = []
  · subst hn
    rw [if_neg hp.symm]
    rfl
  · have hput : (fs.put place node).node? names =
        ((place, node) :: fs.nodes.filter (·.1 != place)).lookup names := node?_of_ne_nil hn
    rw [hput, List.lookup_cons]
    by_cases h : names = place
    · simp [h]
    · have hne : (names == place) = false := by simpa using h
      rw [hne, if_neg h, node?_of_ne_nil hn]
      exact lookup_filter_ne h fs.nodes

theorem ne_nil_of_node?_ne (h : fs.node? place ≠ some .directory) : place ≠ [] := by
  rintro rfl
  exact h rfl

theorem requireDirectory_congr {names : List String} (h : fs'.node? names = fs.node? names) :
    fs'.requireDirectory names = fs.requireDirectory names := by
  rw [requireDirectory, requireDirectory, h]

theorem requireDirectory_eq_notFound {names : List String} :
    fs.requireDirectory names = .error .notFound ↔ fs.node? names = none := by
  unfold requireDirectory
  split <;> simp_all

theorem enter_of_error {dir : List String} {e : FileError} (h : fs.requireDirectory dir = .error e)
    (name : String) : fs.enter dir name = .error e := by
  rw [enter, h]
  rfl

theorem enter_of_ok {dir : List String} (h : fs.requireDirectory dir = .ok ()) (name : String) :
    fs.enter dir name =
      if name = "." then .ok dir
      else if name = ".." then .ok dir.dropLast
      else if maxName < name.utf8ByteSize then .error .nameTooLong
      else if fs.node? (dir ++ [name]) = none then .error .notFound
      else .ok (dir ++ [name]) := by
  rw [enter, h]
  simp only [Option.isNone_iff_eq_none]
  repeat' split
  all_goals rfl

/-- A name leads to the same place as before, as long as nothing was lost and what it starts from and
what it leads to are of the same kind as before. -/
theorem enter_congr {dir : List String} {name : String}
    (hlost : ∀ names, fs'.node? names = none → fs.node? names = none)
    (hdir : fs'.requireDirectory dir = fs.requireDirectory dir)
    (hnext : ∀ next, fs'.enter dir name = .ok next →
      fs'.requireDirectory next = fs.requireDirectory next) :
    fs'.enter dir name = fs.enter dir name := by
  cases hr : fs.requireDirectory dir with
  | error e => rw [enter_of_error hr, enter_of_error (hdir.trans hr)]
  | ok =>
    have hthere := enter_of_ok (hdir.trans hr) name
    rw [enter_of_ok hr, hthere]
    by_cases hsame : name = "."
    · rw [if_pos hsame, if_pos hsame]
    by_cases hup : name = ".."
    · rw [if_neg hsame, if_neg hsame, if_pos hup, if_pos hup]
    by_cases hlong : maxName < name.utf8ByteSize
    · rw [if_neg hsame, if_neg hsame, if_neg hup, if_neg hup, if_pos hlong, if_pos hlong]
    -- a name that is new would lead to a node where there was none
    have hmissing : fs'.node? (dir ++ [name]) = none ↔ fs.node? (dir ++ [name]) = none := by
      refine ⟨hlost _, ?_⟩
      intro hnone
      by_contra hfound
      rw [if_neg hsame, if_neg hup, if_neg hlong, if_neg hfound] at hthere
      have hkind := hnext _ hthere
      rw [requireDirectory_eq_notFound.mpr hnone] at hkind
      exact hfound (requireDirectory_eq_notFound.mp hkind)
    simp only [hmissing]

theorem foldlM_enter_congr {start names : List String}
    (hlost : ∀ names, fs'.node? names = none → fs.node? names = none)
    (hkind : ∀ n dir, (names.take n).foldlM fs'.enter start = .ok dir →
      fs'.requireDirectory dir = fs.requireDirectory dir) :
    names.foldlM fs'.enter start = names.foldlM fs.enter start := by
  induction names generalizing start with
  | nil => rfl
  | cons name names ih =>
    have hstart := hkind 0 start rfl
    have hnext : ∀ next, fs'.enter start name = .ok next →
        fs'.requireDirectory next = fs.requireDirectory next := by
      intro next hn
      refine hkind 1 next ?_
      rw [List.take_succ_cons, List.take_zero, List.foldlM_cons, hn]
      rfl
    have hone := enter_congr hlost hstart hnext
    rw [List.foldlM_cons, List.foldlM_cons, ← hone]
    cases hn : fs'.enter start name with
    | error e => rfl
    | ok next =>
      refine ih ?_
      intro n dir hd
      refine hkind (n + 1) dir ?_
      rw [List.take_succ_cons, List.foldlM_cons, hn]
      exact hd

/-- A path leads to the same place as before if every place on its way is of the same kind as before. -/
theorem resolve_congr (hwd : fs'.workingDirectory = fs.workingDirectory)
    (hlost : ∀ names, fs'.node? names = none → fs.node? names = none)
    (hkind : ∀ dir, fs'.Passes p dir → fs'.requireDirectory dir = fs.requireDirectory dir) :
    fs'.resolve p = fs.resolve p := by
  have horigin : fs'.origin p = fs.origin p := by rw [origin, origin, hwd]
  rw [resolve, resolve, ← horigin]
  cases ho : fs'.origin p with
  | error e => rfl
  | ok start =>
    have hpasses : ∀ n dir, (p.names.take n).foldlM fs'.enter start = .ok dir → fs'.Passes p dir :=
      fun n dir hd => ⟨start, n, ho, hd⟩
    have hwalk := foldlM_enter_congr hlost fun n dir hd => hkind dir (hpasses n dir hd)
    simp only [bind, Except.bind]
    rw [← hwalk]
    cases hfound : p.names.foldlM fs'.enter start with
    | error e => rfl
    | ok found =>
      have hend : fs'.requireDirectory found = fs.requireDirectory found := by
        refine hkind found (hpasses p.names.length found ?_)
        rwa [List.take_length]
      simp only [hend]

theorem resolve_eq_ok {found : List String} :
    fs.resolve p = .ok found ↔ ∃ start, fs.origin p = .ok start ∧
      p.names.foldlM fs.enter start = .ok found ∧
      (p.endsInSlash = true → fs.requireDirectory found = .ok ()) := by
  have hresolve : fs.resolve p = fs.origin p >>= fun start =>
      p.names.foldlM fs.enter start >>= fun found =>
        if p.endsInSlash then fs.requireDirectory found >>= fun _ => .ok found else .ok found := rfl
  simp only [hresolve, bind_eq_ok]
  refine exists_congr fun start => and_congr_right fun _ => ?_
  by_cases hslash : p.endsInSlash = true
  · simp only [hslash, if_true, bind_eq_ok, Except.ok.injEq, forall_const]
    constructor
    · rintro ⟨last, hw, ⟨⟩, hd, rfl⟩
      exact ⟨hw, hd⟩
    · rintro ⟨hw, hd⟩
      exact ⟨found, hw, (), hd, rfl⟩
  · simp [hslash]

theorem passes_of_resolve {found : List String} (h : fs.resolve p = .ok found) : fs.Passes p found := by
  obtain ⟨start, ho, hw, -⟩ := resolve_eq_ok.mp h
  refine ⟨start, p.names.length, ho, ?_⟩
  rwa [List.take_length]

theorem requireDirectory_eq_ok {names : List String} :
    fs.requireDirectory names = .ok () ↔ fs.node? names = some .directory := by
  unfold requireDirectory
  split <;> simp_all

theorem enter_eq_ok {dir next : List String} {name : String} :
    fs.enter dir name = .ok next ↔ fs.node? dir = some .directory ∧
      (name = "." ∧ next = dir ∨ name = ".." ∧ next = dir.dropLast ∨
        (name ≠ "." ∧ name ≠ ".." ∧ name.utf8ByteSize ≤ maxName) ∧ next = dir ++ [name] ∧
          fs.node? next ≠ none) := by
  cases hr : fs.requireDirectory dir with
  | error e =>
    have hd : fs.node? dir ≠ some .directory := by
      rw [Ne, ← requireDirectory_eq_ok, hr]
      simp
    simp [enter_of_error hr, hd]
  | ok =>
    have hd := requireDirectory_eq_ok.mp hr
    rw [enter_of_ok hr]
    by_cases hsame : name = "."
    · simp [hsame, hd, eq_comm]
    by_cases hup : name = ".."
    · simp [hup, hd, eq_comm]
    by_cases hlong : maxName < name.utf8ByteSize
    · simp [hsame, hup, hlong, Nat.not_le.mpr hlong]
    by_cases hnone : fs.node? (dir ++ [name]) = none
    · simp only [hsame, hup, hlong, hnone, if_true, if_false]
      simp only [reduceCtorEq, false_iff]
      rintro ⟨-, h | h | ⟨-, rfl, hne⟩⟩
      · exact h.1
      · exact h.1
      · exact hne hnone
    · simp only [hsame, hup, hlong, hnone, if_false, Except.ok.injEq]
      constructor
      · rintro rfl
        exact ⟨hd, .inr (.inr ⟨⟨hsame, hup, by omega⟩, rfl, hnone⟩)⟩
      · rintro ⟨-, h | h | h⟩
        · exact h.1.elim
        · exact h.1.elim
        · exact h.2.1.symm

/-- A name further than a path that leads to a directory. -/
theorem foldlM_enter_concat {start dir names : List String} {name : String}
    (hw : names.foldlM fs.enter start = .ok dir) :
    (names ++ [name]).foldlM fs.enter start = fs.enter dir name := by
  rw [List.foldlM_append, hw]
  exact bind_pure (fs.enter dir name)

end Abnf.FileSystem
