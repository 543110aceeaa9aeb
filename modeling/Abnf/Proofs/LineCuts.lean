import Abnf.Proofs.Lines
import Abnf.Source.Cuts

/-! Cutting a text by its bytes gives the listed lines. Every cut that is made is possible, since no
byte of a longer character is that of a line feed or of a carriage return. -/

namespace Abnf.Text

/-- The bytes that encode a text. -/
def bytes (text : List Char) : List UInt8 := text.flatMap String.utf8EncodeChar

@[simp] theorem bytes_nil : bytes [] = [] := rfl

theorem bytes_cons (c : Char) (text : List Char) :
    bytes (c :: text) = String.utf8EncodeChar c ++ bytes text := rfl

@[simp]
theorem bytes_append (text more : List Char) : bytes (text ++ more) = bytes text ++ bytes more :=
  List.flatMap_append

theorem utf8EncodeChar_ne_nil (c : Char) : String.utf8EncodeChar c ≠ [] := by
  rw [← List.length_pos_iff, String.length_utf8EncodeChar]
  exact c.utf8Size_pos

theorem bytes_eq_nil_iff {text : List Char} : bytes text = [] ↔ text = [] := by
  cases text with
  | nil => simp
  | cons c text => simp [bytes_cons]

theorem toList_toByteArray_ofList (text : List Char) :
    (String.ofList text).toByteArray.data.toList = bytes text := by
  simp [bytes, List.utf8Encode]

@[simp]
theorem utf8ByteSize_ofList (text : List Char) :
    (String.ofList text).utf8ByteSize = (bytes text).length := by
  simp [← String.size_toByteArray, bytes, List.utf8Encode]

theorem utf8EncodeChar_of_le {c : Char} (h : c.toNat ≤ 127) :
    String.utf8EncodeChar c = [UInt8.ofNat c.toNat] := by
  simp [String.utf8EncodeChar, h]

/-- All bytes of a longer character, the first one too, are beyond the one-byte characters. -/
theorem le_of_mem_utf8EncodeChar {c : Char} (h : 127 < c.toNat) {b : UInt8}
    (hb : b ∈ String.utf8EncodeChar c) : 128 ≤ b.toNat := by
  have hlarge : ¬ c.val.toNat ≤ 127 := by simpa using h
  rw [String.utf8EncodeChar] at hb
  simp only [hlarge, ite_false] at hb
  split at hb
  · simp only [List.mem_cons, List.not_mem_nil, or_false] at hb
    rcases hb with rfl | rfl <;> simp only [UInt8.toNat_ofNat'] <;> omega
  split at hb
  · simp only [List.mem_cons, List.not_mem_nil, or_false] at hb
    rcases hb with rfl | rfl | rfl <;> simp only [UInt8.toNat_ofNat'] <;> omega
  · simp only [List.mem_cons, List.not_mem_nil, or_false] at hb
    rcases hb with rfl | rfl | rfl | rfl <;> simp only [UInt8.toNat_ofNat'] <;> omega

/-- A byte of a one-byte character tells the character, and occurs in no other one. -/
theorem mem_utf8EncodeChar_iff {c d : Char} (hd : d.toNat ≤ 127) :
    UInt8.ofNat d.toNat ∈ String.utf8EncodeChar c ↔ c = d := by
  constructor
  · intro hm
    by_cases hc : c.toNat ≤ 127
    · rw [utf8EncodeChar_of_le hc, List.mem_singleton] at hm
      have hnat := congrArg UInt8.toNat hm
      simp only [UInt8.toNat_ofNat'] at hnat
      exact Char.toNat_inj.mp (by omega)
    · have hle := le_of_mem_utf8EncodeChar (by omega) hm
      simp only [UInt8.toNat_ofNat'] at hle
      omega
  · rintro rfl
    simp [utf8EncodeChar_of_le hd]

theorem lineFeed_mem_utf8EncodeChar {c : Char} : 10 ∈ String.utf8EncodeChar c ↔ c = '\n' :=
  mem_utf8EncodeChar_iff (d := '\n') (by decide)

theorem carriageReturn_mem_utf8EncodeChar {c : Char} : 13 ∈ String.utf8EncodeChar c ↔ c = '\r' :=
  mem_utf8EncodeChar_iff (d := '\r') (by decide)

theorem head?_bytes_ne {text : List Char} (h : text.head? ≠ some '\n') :
    (bytes text).head? ≠ some 10 := by
  intro hhead
  cases text with
  | nil => simp at hhead
  | cons c text =>
    rw [bytes_cons, List.head?_append_of_ne_nil _ (utf8EncodeChar_ne_nil c)] at hhead
    have hc := lineFeed_mem_utf8EncodeChar.mp (List.mem_of_head? hhead)
    exact h (by rw [hc]; rfl)

theorem slice?_of_eq {text : String} {before line after : List Char}
    (h : text = String.ofList (before ++ line ++ after)) :
    slice? text (bytes before).length (bytes (before ++ line)).length =
      some (String.ofList line) := by
  subst h
  have hvalid : ∀ front back : List Char,
      (String.Pos.Raw.mk (bytes front).length).IsValid (String.ofList (front ++ back)) :=
    fun front back => String.Pos.Raw.isValid_ofList.mpr ⟨front.length, by simp⟩
  have hfirst := hvalid before (line ++ after)
  rw [← List.append_assoc] at hfirst
  have hle : (bytes before).length ≤ (bytes (before ++ line)).length := by simp
  rw [slice?, dif_pos ⟨hle, hfirst, hvalid _ _⟩, Option.some_inj, ← String.toByteArray_inj,
    String.toByteArray_extract]
  apply ByteArray.ext
  apply Array.toList_inj.mp
  rw [ByteArray.data_extract, Array.toList_extract, List.extract_eq_take_drop]
  simp only [String.offset_pos, toList_toByteArray_ofList, bytes_append, List.length_append,
    List.append_assoc, List.drop_left, Nat.add_sub_cancel_left, List.take_left]

section

variable {text : String} {start : Nat}

theorem cutFrom_skip {skipped : List UInt8} (h : ∀ b ∈ skipped, b ≠ 10 ∧ b ≠ 13) (i : Nat)
    (rest : List UInt8) :
    cutFrom text start i (skipped ++ rest) = cutFrom text start (i + skipped.length) rest := by
  induction skipped generalizing i with
  | nil => rfl
  | cons b skipped ih =>
    obtain ⟨hb, hskipped⟩ := List.forall_mem_cons.mp h
    have hi : i + 1 + skipped.length = i + (b :: skipped).length := by
      rw [List.length_cons]
      omega
    rw [List.cons_append, cutFrom, if_neg (by simp [hb]), ih hskipped, hi]
    exact fun _ hreturn => absurd hreturn hb.2

theorem cutFrom_lineEnd {e : LineEnd} {rest : List Char} (hb : IsBoundary e.text rest) (i : Nat) :
    cutFrom text start i (bytes (e.text ++ rest)) = do
      let line ← slice? text start i
      let stop := i + (bytes e.text).length
      return line :: (← cutFrom text stop stop (bytes rest)) := by
  cases e with
  | lineFeed | pair => rfl
  | carriageReturn =>
    have hnext : (bytes rest).head? ≠ some 10 := head?_bytes_ne (hb rfl)
    have hbytes : bytes (LineEnd.carriageReturn.text ++ rest) = 13 :: bytes rest := rfl
    rw [hbytes, cutFrom, if_pos (by decide)]
    · rfl
    · intro more _ hrest
      rw [hrest] at hnext
      exact hnext rfl

end

/-- The invariant of the cutting: the bytes passed are those of whole characters, and so are those
before the line that is begun. -/
theorem cutFrom_bytes {text : String} {before begun rest : List Char}
    (h : text = String.ofList (before ++ begun.reverse ++ rest)) :
    cutFrom text (bytes before).length (bytes (before ++ begun.reverse)).length (bytes rest) =
      some ((linesFrom begun rest).map String.ofList) := by
  induction rest using induction_on_lineEnds generalizing before begun with
  | nil =>
    have hsize : text.utf8ByteSize = (bytes (before ++ begun.reverse)).length := by simp [h]
    by_cases hbegun : begun = []
    · simp [h, hbegun, cutFrom, linesFrom]
    · have hlt : (bytes before).length < text.utf8ByteSize := by
        have hne : bytes begun.reverse ≠ [] := by simpa [bytes_eq_nil_iff] using hbegun
        have hpos := List.length_pos_iff.mpr hne
        rw [hsize, bytes_append, List.length_append]
        omega
      rw [bytes_nil, cutFrom, if_pos hlt, hsize, slice?_of_eq h]
      simp [linesFrom, hbegun]
  | inline c rest hc ih =>
    have hrest := @ih before (c :: begun) (by simp [h])
    have hskipped : ∀ b ∈ String.utf8EncodeChar c, b ≠ 10 ∧ b ≠ 13 := by
      intro b hb
      constructor
      · rintro rfl
        simp [lineFeed_mem_utf8EncodeChar.mp hb, isLineEnd] at hc
      · rintro rfl
        simp [carriageReturn_mem_utf8EncodeChar.mp hb, isLineEnd] at hc
    have hstop : (bytes (before ++ (c :: begun).reverse)).length =
        (bytes (before ++ begun.reverse)).length + (String.utf8EncodeChar c).length := by
      rw [List.reverse_cons, ← List.append_assoc, bytes_append, List.length_append, bytes_cons,
        bytes_nil, List.append_nil]
    rw [hstop] at hrest
    rw [bytes_cons, cutFrom_skip hskipped, hrest, linesFrom_cons begun hc]
  | lineEnd e rest hb ih =>
    have hrest := @ih (before ++ begun.reverse ++ e.text) [] (by simp [h])
    rw [List.reverse_nil, List.append_nil, bytes_append _ e.text, List.length_append] at hrest
    rw [cutFrom_lineEnd hb, slice?_of_eq h, linesFrom_lineEnd begun hb]
    simp only [Option.bind_eq_bind, Option.bind_some, hrest]
    rfl

theorem cutLines_eq (text : String) : cutLines text = some (sourceLines text) := by
  have hcut := @cutFrom_bytes text [] [] text.toList (by simp)
  have hbytes : text.toByteArray.data.toList = bytes text.toList := by
    rw [← toList_toByteArray_ofList, String.ofList_toList]
  rw [cutLines, hbytes]
  exact hcut

example : cutLines "a\r\né\n\rb" = some ["a", "é", "", "b"] := by decide +kernel

end Abnf.Text
