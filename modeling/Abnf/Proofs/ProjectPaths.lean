import Abnf.Project.Basic
import Mathlib.Data.List.Basic

/-! A path from a project file starts at the directory of that file, whatever the file is called and
whatever idle endings stand behind its name. -/

namespace Abnf

namespace Path

/-- Texts that add nothing to the name before them. -/
inductive Idle : List Char → Prop
  | nil : Idle []
  | slash {t : List Char} (h : Idle t) : Idle ('/' :: t)
  | dot {t : List Char} (h : Idle t) : Idle ('/' :: '.' :: t)

/-- The text is one name, and not the one that stands for where it is. -/
structure IsName (f : List Char) : Prop where
  ne_nil : f ≠ []
  slash_notMem : '/' ∉ f
  ne_dot : f ≠ ['.']

/-- The text names a directory other than the root, without an idle ending. -/
structure IsDirectory (d : List Char) : Prop where
  ne_nil : d ≠ []
  not_slash : ¬ ['/'] <:+ d
  not_dot : ¬ ['/', '.'] <:+ d

theorem dropIdle_of_idle {t : List Char} (h : Idle t) (before : List Char) :
    dropIdle (t.reverse ++ before) = dropIdle before := by
  induction h generalizing before with
  | nil => rfl
  | @slash t h ih =>
    have hrest := ih ('/' :: before)
    simpa [dropIdle] using hrest
  | @dot t h ih =>
    have hrest := ih ('.' :: '/' :: before)
    simpa [dropIdle] using hrest

theorem dropIdle_of_ne {text : List Char} (hslash : ¬ ['/'] <+: text) (hdot : ¬ ['.', '/'] <+: text)
    (hne : text ≠ ['.']) : dropIdle text = text := by
  unfold dropIdle
  split
  · simp at hslash
  · simp at hdot
  · exact absurd rfl hne
  · rfl

theorem IsName.dropIdle {f : List Char} (hf : IsName f) (before : List Char) :
    Path.dropIdle (f.reverse ++ before) = f.reverse ++ before := by
  obtain ⟨x, more, hx⟩ := List.exists_cons_of_ne_nil (List.reverse_ne_nil_iff.mpr hf.ne_nil)
  have hslash : '/' ∉ x :: more := by
    rw [← hx, List.mem_reverse]
    exact hf.slash_notMem
  have hdot : x :: more ≠ ['.'] := by
    rw [← hx]
    exact fun h => hf.ne_dot (List.reverse_eq_iff.mp h)
  obtain ⟨hfirst, hmore⟩ : '/' ≠ x ∧ '/' ∉ more := by simpa using hslash
  rw [hx]
  apply dropIdle_of_ne
  · simpa using hfirst
  · -- only the name `.` could be such a beginning
    cases more with
    | nil =>
      have hx' : '.' ≠ x := fun h => hdot (by rw [h])
      simp [hx']
    | cons y more =>
      have hy : '/' ≠ y := List.ne_of_not_mem_cons hmore
      simp [hy]
  · intro h
    obtain ⟨hx', hmore', -⟩ : x = '.' ∧ more = [] ∧ before = [] := by simpa using h
    exact hdot (by rw [hx', hmore'])

variable {p : Path} {a front f t : List Char}

/-- A path with a name at its end, but for an idle ending, has what stands before the name for parent. -/
theorem parent?_of_name (hp : p.text.toList = a ++ (front ++ (f ++ t)))
    (ha : anchor p.text.toList = a) (hfront : ∀ c ∈ front.getLast?, c = '/') (hf : IsName f)
    (ht : Idle t) : p.parent? = some ⟨String.ofList (a ++ (dropIdle front.reverse.tail).reverse)⟩ := by
  have hdrop : p.text.toList.drop a.length = front ++ (f ++ t) := by rw [hp, List.drop_left]
  have hname : dropIdle (front ++ (f ++ t)).reverse = f.reverse ++ front.reverse := by
    have hidle := dropIdle_of_idle ht (f.reverse ++ front.reverse)
    rw [hf.dropIdle] at hidle
    simpa using hidle
  have hpast : (f.reverse ++ front.reverse).dropWhile (· != '/') = front.reverse := by
    have hname : ∀ c ∈ f.reverse, (c != '/') = true := by
      intro c hc
      simpa using ne_of_mem_of_not_mem (List.mem_reverse.mp hc) hf.slash_notMem
    rw [List.dropWhile_append_of_pos hname]
    cases hrest : front.reverse with
    | nil => rfl
    | cons c rest =>
      obtain rfl : c = '/' := hfront c (by simp [← List.head?_reverse, hrest])
      rfl
  obtain ⟨c, more, hcons⟩ := List.exists_cons_of_ne_nil
    (show f.reverse ++ front.reverse ≠ [] by simp [hf.ne_nil])
  simp only [parent?, ha, hdrop, hname]
  rw [hcons]
  dsimp only
  rw [← hcons, hpast, List.drop_one]

theorem anchor_append_slash {d : List Char} (hd : d ≠ []) (more : List Char) :
    anchor (d ++ '/' :: more) = anchor d := by
  obtain ⟨x, rest, rfl⟩ := List.exists_cons_of_ne_nil hd
  by_cases hslash : x = '/'
  · simp [anchor, hslash]
  by_cases hdot : x = '.'
  · cases rest with
    | nil => simp [anchor, hdot]
    | cons y rest => by_cases hy : y = '/' <;> simp [anchor, hdot, hy]
  · simp [anchor, hslash, hdot]

theorem exists_anchor_append (d : List Char) : ∃ rest, d = anchor d ++ rest := by
  unfold anchor
  split
  · exact ⟨_, rfl⟩
  · exact ⟨[], rfl⟩
  · exact ⟨_, rfl⟩
  · exact ⟨d, rfl⟩

theorem IsName.anchor_append {f t : List Char} (hf : IsName f) : anchor (f ++ t) = [] := by
  obtain ⟨x, more, rfl⟩ := List.exists_cons_of_ne_nil hf.ne_nil
  obtain ⟨hx, hmore⟩ : '/' ≠ x ∧ '/' ∉ more := by simpa using hf.slash_notMem
  cases more with
  | nil =>
    have hdot : x ≠ '.' := fun h => hf.ne_dot (by rw [h])
    simp [anchor, hx.symm, hdot]
  | cons y more =>
    have hy : '/' ≠ y := List.ne_of_not_mem_cons hmore
    simp [anchor, hx.symm, hy.symm]

theorem ne_anchor_append_dot {d : List Char} (hd : ¬ ['/', '.'] <:+ d) : d ≠ anchor d ++ ['.'] := by
  intro h
  unfold anchor at h
  split at h
  · exact hd (by rw [h]; exact List.suffix_rfl)
  · simp at h
  · simp at h
  · next hdot _ => exact hdot h

theorem IsDirectory.dropIdle {d rest : List Char} (hd : IsDirectory d) (hrest : d = anchor d ++ rest) :
    Path.dropIdle rest.reverse = rest.reverse := by
  have hends : rest <:+ d := ⟨anchor d, hrest.symm⟩
  apply dropIdle_of_ne
  · intro h
    have hslash : ['/'] <:+ rest := List.reverse_prefix.mp h
    exact hd.not_slash (hslash.trans hends)
  · intro h
    have hdot : ['/', '.'] <:+ rest := List.reverse_prefix.mp h
    exact hd.not_dot (hdot.trans hends)
  · intro h
    rw [List.reverse_eq_iff.mp h] at hrest
    exact ne_anchor_append_dot hd.not_dot hrest

section

variable {d f t : String}

theorem parent?_beside (hd : IsDirectory d.toList) (hf : IsName f.toList) (ht : Idle t.toList) :
    parent? ⟨d ++ "/" ++ f ++ t⟩ = some ⟨d⟩ := by
  obtain ⟨rest, hrest⟩ := exists_anchor_append d.toList
  have htext : (d ++ "/" ++ f ++ t).toList = d.toList ++ '/' :: (f.toList ++ t.toList) := by simp
  have hp : (d ++ "/" ++ f ++ t).toList =
      anchor d.toList ++ (rest ++ ['/'] ++ (f.toList ++ t.toList)) := by
    rw [htext]
    conv_lhs => rw [hrest]
    simp
  have ha : anchor (d ++ "/" ++ f ++ t).toList = anchor d.toList := by
    rw [htext, anchor_append_slash hd.ne_nil]
  rw [parent?_of_name hp ha (by simp) hf ht]
  simp [hd.dropIdle hrest, ← hrest]

theorem parent?_of_name_alone (hf : IsName f.toList) (ht : Idle t.toList) :
    parent? ⟨f ++ t⟩ = some ⟨""⟩ := by
  have hp : (f ++ t).toList = [] ++ ([] ++ (f.toList ++ t.toList)) := by simp
  have ha : anchor (f ++ t).toList = [] := by rw [String.toList_append, hf.anchor_append]
  rw [parent?_of_name hp ha (by simp) hf ht]
  rfl

theorem parent?_of_name_in_root (hf : IsName f.toList) (ht : Idle t.toList) :
    parent? ⟨"/" ++ f ++ t⟩ = some ⟨"/"⟩ := by
  have hp : ("/" ++ f ++ t).toList = ['/'] ++ ([] ++ (f.toList ++ t.toList)) := by simp
  have ha : anchor ("/" ++ f ++ t).toList = ['/'] := by
    rw [hp]
    rfl
  rw [parent?_of_name hp ha (by simp) hf ht]
  rfl

variable {e : Path}

theorem join_directory (hd : IsDirectory d.toList) (he : e.isAbsolute = false) :
    join ⟨d⟩ e = ⟨d ++ "/" ++ e.text⟩ := by
  have hlast : ¬ (d.toList.getLast? = none ∨ d.toList.getLast? = some '/') := by
    rintro (h | h)
    · exact hd.ne_nil (List.getLast?_eq_none_iff.mp h)
    · obtain ⟨before, hbefore⟩ := List.getLast?_eq_some_iff.mp h
      exact hd.not_slash ⟨before, hbefore.symm⟩
  simp only [join, he, Bool.false_eq_true, if_false]
  rw [if_neg hlast]

theorem join_empty (he : e.isAbsolute = false) : join ⟨""⟩ e = e := by
  simp [join, he]

theorem join_root (he : e.isAbsolute = false) : join ⟨"/"⟩ e = ⟨"/" ++ e.text⟩ := by
  simp [join, he]

end

end Path

namespace Project

/-- The grammar of a project lies beside the project file, if its path is relative. What the file is called,
and what idle ending its path has, does not matter. -/
theorem grammar_lies_beside_project (e : String) :
    ((Path.mk e).isAbsolute = false → ∀ f t : String, Path.IsName f.toList → Path.Idle t.toList →
      grammar ⟨f ++ t⟩ (some e) = .ok ⟨e⟩ ∧
      grammar ⟨"/" ++ f ++ t⟩ (some e) = .ok ⟨"/" ++ e⟩ ∧
      ∀ d : String, Path.IsDirectory d.toList →
        grammar ⟨d ++ "/" ++ f ++ t⟩ (some e) = .ok ⟨d ++ "/" ++ e⟩) ∧
    ((Path.mk e).isAbsolute = true → ∀ path, grammar path (some e) = .ok ⟨e⟩) ∧
    ∀ path, grammar path none = .error .noGrammar := by
  refine ⟨?_, ?_, fun _ => rfl⟩
  · intro he f t hf ht
    refine ⟨?_, ?_, ?_⟩
    · rw [grammar, locate, Path.parent?_of_name_alone hf ht, Option.getD_some, Path.join_empty he]
    · rw [grammar, locate, Path.parent?_of_name_in_root hf ht, Option.getD_some, Path.join_root he]
    · intro d hd
      rw [grammar, locate, Path.parent?_beside hd hf ht, Option.getD_some, Path.join_directory hd he]
  · intro he path
    simp only [grammar, locate, Path.join, he, if_true]

theorem grammar_lies_beside_dotted_project :
    let d := "./a/.."
    let f := "..json"
    let t := "/.//."
    let e := "./g.abnf"
    (Path.mk e).isAbsolute = false ∧ Path.IsName f.toList ∧ Path.Idle t.toList ∧
      Path.IsDirectory d.toList ∧ grammar ⟨f ++ t⟩ (some e) = .ok ⟨e⟩ ∧
      grammar ⟨"./a/../..json/.//."⟩ (some e) = .ok ⟨"./a/.././g.abnf"⟩ ∧
      grammar ⟨d⟩ (some "/g.abnf") = .ok ⟨"/g.abnf"⟩ := by
  intro d f t e
  have he : (Path.mk e).isAbsolute = false := by decide
  have hf : Path.IsName f.toList := ⟨by decide, by decide, by decide⟩
  have hpieces : t.toList = ['/', '.', '/', '/', '.'] := by decide
  have ht : Path.Idle t.toList := by
    rw [hpieces]
    exact .dot (.slash (.dot .nil))
  have hd : Path.IsDirectory d.toList := ⟨by decide, by decide, by decide⟩
  obtain ⟨halone, -, hbeside⟩ := (grammar_lies_beside_project e).1 he f t hf ht
  have habsolute := (grammar_lies_beside_project "/g.abnf").2.1 (by decide) ⟨d⟩
  exact ⟨he, hf, ht, hd, halone, hbeside d hd, habsolute⟩

end Project

end Abnf
