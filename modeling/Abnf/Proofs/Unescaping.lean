import Abnf.Json.Text
import Abnf.Proofs.Boundary
import Abnf.Text.Escape

/-! Escaped text is read back. A character is written in one of three ways, each of which shows where it
ends, so it does not matter which characters count as hidden. -/

namespace Abnf.Text

/-- What a letter behind a backslash stands for, but for the `u` before a code point. -/
def short? : Char → Option Char
  | '0' => some '\x00'
  | 't' => some '\t'
  | 'r' => some '\r'
  | 'n' => some '\n'
  | '\\' => some '\\'
  | '"' => some '"'
  | '\'' => some '\''
  | _ => none

/-- The texts that a character is written as. -/
inductive Writes (c : Char) : List Char → Prop
  | short {letter : Char} (h : short? letter = some c) : Writes c ['\\', letter]
  | code : Writes c (codePoint c)
  | plain (hslash : c ≠ '\\') (hline : isLineEnd c = false) : Writes c [c]

theorem writes_escapeChar (q : Quoting) (c : Char) : Writes c (escapeChar q c) := by
  unfold escapeChar
  split
  · next hc => exact .short (by rw [hc]; rfl)
  split
  · next hc => exact .short (by rw [hc]; rfl)
  split
  · next hc => exact .short (by rw [hc]; rfl)
  split
  · next hc => exact .short (by rw [hc]; rfl)
  split
  · next hc => exact .short (by rw [hc]; rfl)
  next hreturn hfeed hslash =>
  have hline : isLineEnd c = false := by simp [isLineEnd, hreturn, hfeed]
  split
  · next hc =>
    obtain ⟨rfl, -⟩ : c = '"' ∧ q.double = true := by simpa using hc
    exact .short rfl
  split
  · next hc =>
    obtain ⟨rfl, -⟩ : c = '\'' ∧ q.single = true := by simpa using hc
    exact .short rfl
  split
  · exact .code
  · exact .plain hslash hline

/-- What stands before the first `c`, and what stands behind it. -/
def cut (c : Char) (text : List Char) : List Char × List Char :=
  (text.takeWhile (· != c), (text.dropWhile (· != c)).tail)

theorem cut_append {c : Char} {first : List Char} (h : c ∉ first) (rest : List Char) :
    cut c (first ++ c :: rest) = (first, rest) := by
  have hfirst : ∀ x ∈ first, (x != c) = true := by
    intro x hx
    simpa using ne_of_mem_of_not_mem hx h
  simp [cut, List.takeWhile_append_of_pos hfirst, List.dropWhile_append_of_pos hfirst]

theorem length_snd_cut_le (c : Char) (text : List Char) : (cut c text).2.length ≤ text.length := by
  have hle := (List.dropWhile_sublist (l := text) (· != c)).length_le
  simp only [cut, List.length_tail]
  omega

theorem notMem_toDigits {b : Nat} (hb : 1 < b) {c : Char} (hc : ∀ d : Nat, d.digitChar ≠ c) (n : Nat) :
    c ∉ Nat.toDigits b n := by
  induction n using Nat.strongRecOn with
  | ind n ih =>
    have hdigit : ∀ d : Nat, c ≠ d.digitChar := fun d => (hc d).symm
    rw [Nat.toDigits_eq_if hb]
    by_cases hn : n < b
    · simp [hn, hdigit]
    · have hlt : n / b < n := Nat.div_lt_self (by omega) hb
      simp [hn, hdigit, ih (n / b) hlt]

theorem inline_toDigits {b : Nat} (hb : 1 < b) (n : Nat) :
    ∀ c ∈ Nat.toDigits b n, isLineEnd c = false := by
  intro c hc
  have hfeed : '\n' ∉ Nat.toDigits b n := notMem_toDigits hb (fun _ => Nat.digitChar_ne '\n' rfl) n
  have hreturn : '\r' ∉ Nat.toDigits b n := notMem_toDigits hb (fun _ => Nat.digitChar_ne '\r' rfl) n
  have hne : c ≠ '\n' ∧ c ≠ '\r' :=
    ⟨ne_of_mem_of_not_mem hc hfeed, ne_of_mem_of_not_mem hc hreturn⟩
  simpa [isLineEnd] using hne

/-- The number that digits stand for; letters go on behind the nine. -/
def number? (b : Nat) (digits : List Char) : Option Nat :=
  digits.foldlM (fun n c => (Json.Text.hexValue? c).map (b * n + ·)) 0

theorem hexValue?_digitChar : ∀ d < 16, Json.Text.hexValue? d.digitChar = some d := by decide

theorem number?_toDigits {b : Nat} (hb : 1 < b) (hle : b ≤ 16) (n : Nat) :
    number? b (Nat.toDigits b n) = some n := by
  induction n using Nat.strongRecOn with
  | ind n ih =>
    rw [Nat.toDigits_eq_if hb]
    by_cases hn : n < b
    · simp [hn, number?, hexValue?_digitChar n (by omega)]
    · have hrest := ih (n / b) (Nat.div_lt_self (by omega) hb)
      have hmod : n % b < b := Nat.mod_lt n (by omega)
      have hlast := hexValue?_digitChar (n % b) (by omega)
      rw [number?] at hrest
      simp only [hn, if_false, number?, List.foldlM_append, hrest]
      simp [hlast, Nat.div_add_mod]

/-- The character that a text starts with, and what is behind it. -/
def readChar? : List Char → Option (Char × List Char)
  | '\\' :: 'u' :: '\x7b' :: text =>
    (number? 16 (cut '\x7d' text).1).map fun n => (Char.ofNat n, (cut '\x7d' text).2)
  | '\\' :: letter :: text => (short? letter).map (·, text)
  | ['\\'] => none
  | c :: text => some (c, text)
  | [] => none

theorem length_lt_of_readChar? {c : Char} {text rest : List Char}
    (h : readChar? text = some (c, rest)) : rest.length < text.length := by
  unfold readChar? at h
  split at h
  · next text =>
    have hle := length_snd_cut_le '\x7d' text
    obtain ⟨n, -, hn⟩ := Option.map_eq_some_iff.mp h
    obtain rfl := (Prod.mk.inj hn).2
    simp only [List.length_cons]
    omega
  · obtain ⟨x, -, hx⟩ := Option.map_eq_some_iff.mp h
    obtain rfl := (Prod.mk.inj hx).2
    simp only [List.length_cons]
    omega
  · simp at h
  · obtain ⟨-, rfl⟩ := Prod.mk.inj (Option.some.inj h)
    simp
  · simp at h

namespace Writes

variable {c : Char} {t : List Char}

theorem readChar?_append (h : Writes c t) (rest : List Char) :
    readChar? (t ++ rest) = some (c, rest) := by
  cases h with
  | @short letter h =>
    have hu : letter ≠ 'u' := by
      rintro rfl
      simp [short?] at h
    simp [readChar?, h, hu]
  | code =>
    have hclose : '\x7d' ∉ Nat.toDigits 16 c.toNat :=
      notMem_toDigits (by decide) (fun _ => Nat.digitChar_ne '\x7d' rfl) c.toNat
    have hcut := cut_append hclose rest
    simp [codePoint, readChar?, hcut, number?_toDigits]
  | plain hslash hline => simp [readChar?, hslash]

theorem inline (h : Writes c t) : ∀ x ∈ t, isLineEnd x = false := by
  cases h with
  | @short letter h =>
    have hletter : isLineEnd letter = false := by
      have hne : letter ≠ '\n' ∧ letter ≠ '\r' := by
        constructor <;> rintro rfl <;> simp [short?] at h
      simpa [isLineEnd] using hne
    simpa [isLineEnd] using hletter
  | code =>
    have hdigits := inline_toDigits (b := 16) (by decide) c.toNat
    simpa [codePoint, or_imp, forall_and, isLineEnd] using hdigits
  | plain hslash hline => simpa using hline

end Writes

/-- The text that an escaped text stands for. -/
def unescape? (text : List Char) : Option (List Char) :=
  match _h : readChar? text with
  | some (c, rest) => (unescape? rest).map (c :: ·)
  | none => if text.isEmpty then some [] else none
termination_by text.length
decreasing_by exact length_lt_of_readChar? _h

theorem unescape?_append {c : Char} {t : List Char} (h : Writes c t) (rest : List Char) :
    unescape? (t ++ rest) = (unescape? rest).map (c :: ·) := by
  have hread := h.readChar?_append rest
  rw [unescape?]
  split
  · next x more hx =>
    obtain ⟨rfl, rfl⟩ := Prod.mk.inj (Option.some.inj (hx.symm.trans hread))
    rfl
  · next hnone => simp [hread] at hnone

theorem unescape?_escape (q : Quoting) (s : List Char) : unescape? (escape q s) = some s := by
  induction s with
  | nil =>
    rw [unescape?]
    rfl
  | cons c s ih =>
    have hc := unescape?_append (writes_escapeChar q c) (escape q s)
    rw [escape, List.flatMap_cons, ← escape, hc, ih, Option.map_some]

/-- The text between two quotation marks. -/
def unquoted? (text : List Char) : Option String :=
  (unescape? text.tail.dropLast).map String.ofList

theorem unquoted?_quoted (s : String) : unquoted? (quoted s).toList = some s := by
  have hs := unescape?_escape .text s.toList
  simp [unquoted?, quoted, hs]

theorem inline_quoted (s : String) : ∀ c ∈ (quoted s).toList, isLineEnd c = false := by
  have hs : ∀ c ∈ escape .text s.toList, isLineEnd c = false := by
    intro c hc
    obtain ⟨x, -, hx⟩ := List.mem_flatMap.mp hc
    exact (writes_escapeChar .text x).inline c hx
  simpa [quoted, or_imp, forall_and, isLineEnd] using hs

end Abnf.Text
