import Abnf.Json.Text
import Abnf.Output
import Mathlib.Data.List.Basic

/-! The texts that denote a JSON value. Blanks may stand around values, and characters may be escaped. How
else a character may be written, and how a number, is left open. A text that is put out is one of them, and
so are the documents of a run. -/

namespace Abnf.Json

inductive DenotesChar (c : Char) : List Char → Prop
  | plain (hc : 0x20 ≤ c.toNat) (hquote : c ≠ '"') (hslash : c ≠ '\\') : DenotesChar c [c]
  | short {letter : Char} (h : Text.short? letter = some c) : DenotesChar c ['\\', letter]
  | unicode {digits : List Char} {i j k l : Nat} (h : digits.mapM Text.hexValue? = some [i, j, k, l])
      (hc : ((i * 16 + j) * 16 + k) * 16 + l = c.toNat) : DenotesChar c ('\\' :: 'u' :: digits)

/-- The ways in which the characters of a string may be written, and numbers. -/
structure Manner where
  character : Char → List Char → Prop
  number : Number → List Char → Prop
  single : ∀ {c : Char} {t : List Char}, DenotesChar c t → character c t

/-- Every character is written by itself, and all numbers are whole. -/
def Manner.plain : Manner where
  character := DenotesChar
  number n t := ∃ i : Int, n = .integer i ∧ t = (toString i).toList
  single := id

inductive DenotesString (w : Manner) : List Char → List Char → Prop
  | nil : DenotesString w [] []
  | cons {c : Char} {s t u : List Char} (hc : w.character c t) (h : DenotesString w s u) :
      DenotesString w (c :: s) (t ++ u)

def Blank (t : List Char) : Prop := ∀ c ∈ t, Input.isBlank c = true

/-- One or more items with commas between them. -/
inductive DenotesItems {α : Type} (Item : α → List Char → Prop) : List α → List Char → Prop
  | last {a : α} {before t after : List Char} (hb : Blank before) (h : Item a t) (ha : Blank after) :
      DenotesItems Item [a] (before ++ t ++ after)
  | cons {a : α} {as : List α} {before t after more : List Char} (hb : Blank before) (h : Item a t)
      (ha : Blank after) (hs : DenotesItems Item as more) :
      DenotesItems Item (a :: as) (before ++ t ++ after ++ ',' :: more)

inductive DenotesMember (w : Manner) (Item : Value → List Char → Prop) :
    String × Value → List Char → Prop
  | mk {name : String} {v : Value} {s before after t : List Char} (hn : DenotesString w name.toList s)
      (hb : Blank before) (ha : Blank after) (h : Item v t) :
      DenotesMember w Item (name, v) ('"' :: s ++ '"' :: before ++ ':' :: after ++ t)

/-- A text without blanks around it denotes a value. -/
inductive Denotes (w : Manner) : Value → List Char → Prop
  | null : Denotes w .null "null".toList
  | true : Denotes w (.boolean true) "true".toList
  | false : Denotes w (.boolean false) "false".toList
  | number {n : Number} {t : List Char} (h : w.number n t) : Denotes w (.number n) t
  | string {s : String} {t : List Char} (h : DenotesString w s.toList t) :
      Denotes w (.string s) ('"' :: t ++ ['"'])
  | noItems {blanks : List Char} (h : Blank blanks) : Denotes w (.array []) ('[' :: blanks ++ [']'])
  | items {vs : List Value} {t : List Char} (h : DenotesItems (Denotes w) vs t) :
      Denotes w (.array vs) ('[' :: t ++ [']'])
  | noMembers {blanks : List Char} (h : Blank blanks) :
      Denotes w (.object []) ('\x7b' :: blanks ++ ['\x7d'])
  | members {ms : List (String × Value)} {t : List Char}
      (h : DenotesItems (DenotesMember w (Denotes w)) ms t) :
      Denotes w (.object ms) ('\x7b' :: t ++ ['\x7d'])

/-- A text that is one value and nothing else but blanks. -/
def Holds (w : Manner) (v : Value) (text : String) : Prop :=
  ∃ before t after, Blank before ∧ Denotes w v t ∧ Blank after ∧ text.toList = before ++ t ++ after

def Document (v : Value) (text : String) : Prop := Holds .plain v text

/-- All numbers in the value may be written as they are put out. -/
inductive Value.Fits (w : Manner) : Value → Prop
  | null : Fits w .null
  | boolean (b : Bool) : Fits w (.boolean b)
  | number {n : Number} (h : w.number n n.text.toList) : Fits w (.number n)
  | string (s : String) : Fits w (.string s)
  | array {vs : List Value} (h : ∀ v ∈ vs, Fits w v) : Fits w (.array vs)
  | object {ms : List (String × Value)} (h : ∀ m ∈ ms, Fits w m.2) : Fits w (.object ms)

variable {w : Manner}

theorem mapM_hexValue?_toDigits : ∀ n < 0x20,
    ((Nat.toDigits 16 n).leftpad 4 '0').mapM Text.hexValue? = some [0, 0, n / 16, n % 16] := by
  decide

theorem denotesChar_escapeChar (c : Char) : DenotesChar c (escapeChar c) := by
  unfold escapeChar
  split
  case h_8 hquote hslash _ _ _ _ _ =>
    by_cases hc : c.toNat < 0x20
    · rw [if_pos hc]
      exact .unicode (mapM_hexValue?_toDigits c.toNat hc) (by omega)
    · rw [if_neg hc]
      exact .plain (by omega) hquote hslash
  all_goals exact .short rfl

theorem denotesString_flatMap (s : List Char) : DenotesString w s (s.flatMap escapeChar) := by
  induction s with
  | nil => exact .nil
  | cons c s ih =>
    rw [List.flatMap_cons]
    exact .cons (w.single (denotesChar_escapeChar c)) ih

theorem toList_quoted (s : String) : (quoted s).toList = '"' :: s.toList.flatMap escapeChar ++ ['"'] := by
  simp [quoted]

theorem blank_nil : Blank [] := by simp [Blank]

theorem blank_space : Blank [' '] := by simp [Blank, Input.isBlank]

theorem blank_lineBreak (depth : Nat) : Blank (Value.lineBreak depth).toList := by
  intro c hc
  have hor : c = '\n' ∨ c = ' ' := by
    rw [Value.lineBreak, String.toList_append] at hc
    rcases List.mem_append.mp hc with hc | hc
    · exact .inl (by simpa using hc)
    · rw [String.toList_ofList] at hc
      exact .inr (List.eq_of_mem_replicate hc)
  rcases hor with rfl | rfl <;> rfl

namespace Value

theorem renderItems_eq (depth : Nat) (written : String) (vs : List Value) :
    renderItems depth written vs =
      written ++ String.join (vs.map fun v => "," ++ lineBreak depth ++ v.render depth) := by
  induction vs generalizing written with
  | nil => simp [renderItems]
  | cons v vs ih => simp [renderItems, ih, String.append_assoc]

theorem renderMembers_eq (depth : Nat) (written : String) (ms : List (String × Value)) :
    renderMembers depth written ms = written ++ String.join (ms.map fun m =>
      "," ++ lineBreak depth ++ (quoted m.1 ++ ": " ++ m.2.render depth)) := by
  induction ms generalizing written with
  | nil => simp [renderMembers]
  | cons m ms ih =>
    obtain ⟨name, v⟩ := m
    simp [renderMembers, ih, String.append_assoc]

theorem denotesItems_join {α : Type} {Item : α → List Char → Prop} {write : α → String} {a : α}
    {as : List α} (h : ∀ b ∈ a :: as, Item b (write b).toList) (inner outer : Nat) :
    DenotesItems Item (a :: as) (lineBreak inner ++ write a ++
      String.join (as.map fun b => "," ++ lineBreak inner ++ write b) ++ lineBreak outer).toList := by
  have hin := blank_lineBreak inner
  have hout := blank_lineBreak outer
  induction as generalizing a with
  | nil =>
    have hlast := DenotesItems.last hin (h a List.mem_cons_self) hout
    simpa using hlast
  | cons b bs ih =>
    have hrest := ih fun c hc => h c (List.mem_cons_of_mem a hc)
    have hcons := DenotesItems.cons hin (h a List.mem_cons_self) blank_nil hrest
    simpa [String.join_cons, String.append_assoc] using hcons

theorem Fits.denotes {v : Value} (h : v.Fits w) (depth : Nat) : Denotes w v (v.render depth).toList := by
  induction h generalizing depth with
  | null =>
    rw [render]
    exact .null
  | boolean b =>
    cases b <;> rw [render]
    · exact .false
    · exact .true
  | number h =>
    rw [render]
    exact .number h
  | string s =>
    rw [render, toList_quoted]
    exact .string (denotesString_flatMap s.toList)
  | @array vs h ih =>
    cases vs with
    | nil =>
      rw [render]
      exact .noItems blank_nil
    | cons v vs =>
      have hitems := denotesItems_join (fun v hv => ih v hv (depth + 1)) (depth + 1) depth
      have hdenotes := Denotes.items hitems
      rw [render, renderItems_eq]
      simpa [String.append_assoc] using hdenotes
  | @object ms h ih =>
    cases ms with
    | nil =>
      rw [render]
      exact .noMembers blank_nil
    | cons m ms =>
      have hmember : ∀ n ∈ m :: ms,
          DenotesMember w (Denotes w) n (quoted n.1 ++ ": " ++ n.2.render (depth + 1)).toList := by
        intro n hn
        have hmade := DenotesMember.mk (denotesString_flatMap (w := w) n.1.toList) blank_nil blank_space
          (ih n hn (depth + 1))
        simpa [toList_quoted] using hmade
      have hdenotes := Denotes.members (denotesItems_join hmember (depth + 1) depth)
      obtain ⟨name, v⟩ := m
      rw [render, renderMembers_eq]
      simpa [String.append_assoc] using hdenotes

/-- What is put out on lines of its own. -/
theorem Fits.holds_pretty {v : Value} (h : v.Fits w) : Holds w v (v.pretty ++ "\n") :=
  ⟨[], _, ['\n'], blank_nil, h.denotes 0, by simp [Blank, Input.isBlank], by simp [pretty]⟩

theorem fits_ofNat (n : Nat) : (ofNat n).Fits .plain := .number ⟨n, rfl, rfl⟩

theorem fits_ofOption {α : Type} {write : α → Value} (h : ∀ a, (write a).Fits w) (a? : Option α) :
    (ofOption write a?).Fits w := by
  cases a? with
  | none => exact .null
  | some a => exact h a

theorem Fits.array_map {α : Type} {write : α → Value} (h : ∀ a, (write a).Fits w) (as : List α) :
    (Value.array (as.map write)).Fits w := by
  refine .array fun v hv => ?_
  obtain ⟨a, -, rfl⟩ := List.mem_map.mp hv
  exact h a

end Value

end Abnf.Json

namespace Abnf

open Json

theorem Token.fits_json (t : Token) : t.json.Fits .plain := by
  refine .object ?_
  simp [Value.fits_ofNat, Value.Fits.string]

theorem Diagnostic.fits_json (d : Diagnostic) : d.json.Fits .plain := by
  have hproblem : d.problem.json.Fits .plain := by
    cases d.problem <;> exact .object (by simp [Value.Fits.string])
  refine .object ?_
  simp [Value.fits_ofNat, Value.Fits.string, hproblem]

theorem Tokenization.fits_json (t : Tokenization) (withTime : Bool) : (t.json withTime).Fits .plain := by
  have htokens := Value.Fits.array_map Token.fits_json t.tokens
  have hdiagnostics := Value.Fits.array_map Diagnostic.fits_json t.diagnostics
  refine .object ?_
  cases withTime <;> simp [htokens, hdiagnostics, Value.fits_ofNat]

theorem Failure.fits_json (e : Failure) : e.json.Fits .plain := by
  have hreport : e.report.json.Fits .plain := by
    refine .object ?_
    simp [Value.fits_ofOption Value.fits_ofNat, Value.Fits.string]
  refine .object ?_
  simpa using hreport

end Abnf
