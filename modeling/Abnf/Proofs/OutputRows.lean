import Abnf.Output
import Abnf.Proofs.ExcerptRows
import Abnf.Proofs.Unescaping

/-! What is printed as text, row by row. No row holds a line feed, so each is one line. -/

namespace Abnf

def OneLine (row : String) : Prop := '\n' ∉ row.toList

instance (row : String) : Decidable (OneLine row) := inferInstanceAs (Decidable ('\n' ∉ row.toList))

@[simp]
theorem oneLine_append {a b : String} : OneLine (a ++ b) ↔ OneLine a ∧ OneLine b := by
  simp [OneLine, not_or]

theorem notMem_of_inline {text : List Char} (h : ∀ c ∈ text, Text.isLineEnd c = false) :
    '\n' ∉ text ∧ '\r' ∉ text := by
  refine ⟨fun hfeed => ?_, fun hreturn => ?_⟩
  · simpa [Text.isLineEnd] using h _ hfeed
  · simpa [Text.isLineEnd] using h _ hreturn

theorem toList_toString (n : Nat) : (toString n).toList = Nat.toDigits 10 n := by
  rw [Nat.toString_eq_ofList_toDigits, String.toList_ofList]

theorem lineFeed_notMem_toDigits {b : Nat} (hb : 1 < b) (n : Nat) : '\n' ∉ Nat.toDigits b n :=
  (notMem_of_inline (Text.inline_toDigits hb n)).1

theorem oneLine_toString (n : Nat) : OneLine (toString n) := by
  rw [OneLine, toList_toString]
  exact lineFeed_notMem_toDigits (by decide) n

/-- The form in which a text that is written out can be tested. -/
theorem Text.inline_of_all {text : List Char} (h : (text.all fun c => !isLineEnd c) = true) :
    ∀ c ∈ text, isLineEnd c = false := by
  simpa using h

theorem Kind.inline_name (k : Kind) : ∀ c ∈ k.name.toList, Text.isLineEnd c = false :=
  Text.inline_of_all (by cases k <;> decide)

namespace Token

theorem toList_text (t : Token) : t.text.toList =
    (toString t.line).toList ++ ':' :: ((toString t.column).toList ++ ' ' :: (t.kind.name.toList ++
      ' ' :: (Text.quoted t.value).toList)) := by
  simp [text]

theorem inline_text (t : Token) : ∀ c ∈ t.text.toList, Text.isLineEnd c = false := by
  have hline := Text.inline_toDigits (b := 10) (by decide) t.line
  have hcolumn := Text.inline_toDigits (b := 10) (by decide) t.column
  have hname := t.kind.inline_name
  have hvalue := Text.inline_quoted t.value
  rw [toList_text, toList_toString, toList_toString]
  simp only [List.forall_mem_append, List.forall_mem_cons]
  exact ⟨hline, rfl, hcolumn, rfl, hname, rfl, hvalue⟩

theorem oneLine_text (t : Token) : OneLine t.text := (notMem_of_inline t.inline_text).1

end Token

theorem oneLine_numberedRow (width number : Nat) {text : String} (h : OneLine text) :
    OneLine (numberedRow width number text) := by
  have hnumber : OneLine (Text.padded width ' ' number) := by
    simp [OneLine, Text.padded, List.leftpad, lineFeed_notMem_toDigits]
  simp only [numberedRow, oneLine_append]
  exact ⟨⟨hnumber, by decide⟩, h⟩

theorem lineFeed_notMem_linesFrom {begun text : List Char} (h : '\n' ∉ begun) :
    ∀ line ∈ linesFrom begun text, '\n' ∉ line := by
  fun_induction linesFrom begun text with
  | case1 => simp
  | case2 => simpa using h
  | case3 begun rest ih | case4 begun c rest _ _ ih => simpa [h] using ih
  | case5 begun c rest _ hc ih => exact ih (by simpa [h, eq_comm] using fun he => hc (.inl he))

theorem oneLine_of_mem_sourceLines {source line : String} (h : line ∈ sourceLines source) :
    OneLine line := by
  obtain ⟨cs, hcs, rfl⟩ := List.mem_map.mp h
  rw [OneLine, String.toList_ofList]
  exact lineFeed_notMem_linesFrom (by simp) cs hcs

theorem Text.oneLine_withPlaces (whole fraction places : Nat) :
    OneLine (withPlaces whole fraction places) := by
  have hdigits : '\n' ∉ (Nat.toDigits 10 fraction).leftpad places '0' := by
    simp [List.leftpad, lineFeed_notMem_toDigits]
  have hkept : '\n' ∉ (((Nat.toDigits 10 fraction).leftpad places '0').reverse.dropWhile
      (· == '0')).reverse := by
    intro hm
    have hrest := (List.dropWhile_sublist _).subset (List.mem_reverse.mp hm)
    exact hdigits (List.mem_reverse.mp hrest)
  simp only [withPlaces, oneLine_append]
  refine ⟨oneLine_toString _, ?_⟩
  split
  · decide
  · simpa [OneLine] using hkept

theorem Text.oneLine_duration (nanoseconds : Nat) : OneLine (duration nanoseconds) := by
  have hunits : OneLine "s" ∧ OneLine "ms" ∧ OneLine "µs" ∧ OneLine "ns" := by decide
  obtain ⟨hs, hms, hus, hns⟩ := hunits
  rw [duration]
  split
  · exact oneLine_append.mpr ⟨oneLine_withPlaces _ _ _, hs⟩
  split
  · exact oneLine_append.mpr ⟨oneLine_withPlaces _ _ _, hms⟩
  split
  · exact oneLine_append.mpr ⟨oneLine_withPlaces _ _ _, hus⟩
  · exact oneLine_append.mpr ⟨oneLine_toString _, hns⟩

/-- The source as it is shown before its tokens. -/
def sourceRows (source : String) : List String :=
  "[Source]" :: ((sourceLines source).zipIdx 1).map (fun (text, k) => numberedRow 3 k text) ++
    ["[Tokens]"]

theorem joinRows_sourceRows (source : String) :
    joinRows (sourceRows source) = "[Source]\n" ++ numbered source ++ "[Tokens]\n" := by
  simp [joinRows, sourceRows, numbered, numberedRow, String.append_assoc, Function.comp_def]

theorem oneLine_sourceRows (source : String) : ∀ row ∈ sourceRows source, OneLine row := by
  intro row hm
  simp only [sourceRows, List.mem_append, List.mem_cons, List.mem_map, List.not_mem_nil,
    or_false] at hm
  rcases hm with (rfl | ⟨⟨text, k⟩, hk, rfl⟩) | rfl
  · decide
  · have hline : text ∈ sourceLines source := List.fst_mem_of_mem_zipIdx hk
    exact oneLine_numberedRow 3 k (oneLine_of_mem_sourceLines hline)
  · decide

namespace Tokenization

def timingRow (t : Tokenization) : String :=
  "[Timing] " ++ toString t.tokens.length ++ " tokens in " ++ Text.duration t.elapsed

/-- The rows of a success: its tokens, and how long it took. -/
def rows (t : Tokenization) (withTime : Bool) : List String :=
  t.tokens.map Token.text ++ if withTime then [t.timingRow] else []

theorem joinRows_rows (t : Tokenization) (withTime : Bool) :
    joinRows (t.rows withTime) = t.listing ++ if withTime then t.timing else "" := by
  rw [rows, joinRows_append]
  cases withTime <;>
    simp [joinRows, listing, timing, timingRow, String.append_assoc, Function.comp_def]

theorem oneLine_rows (t : Tokenization) (withTime : Bool) : ∀ row ∈ t.rows withTime, OneLine row := by
  intro row hm
  rcases List.mem_append.mp hm with hm | hm
  · obtain ⟨token, -, rfl⟩ := List.mem_map.mp hm
    exact token.oneLine_text
  · cases withTime with
    | false => simp at hm
    | true =>
      obtain rfl := List.mem_singleton.mp hm
      simp only [timingRow, oneLine_append]
      exact ⟨⟨⟨by decide, oneLine_toString _⟩, by decide⟩, Text.oneLine_duration _⟩

end Tokenization

end Abnf
