import Abnf.Log.Record
import Abnf.Proofs.ExcerptRows
import Abnf.Proofs.Unescaping
import Mathlib.Algebra.Group.Nat.Defs

/-! The time of day that log lines begin with. Figures of one width are in the order of the numbers they stand
for, and so are clock texts, which hold their figures in the order of their weight. -/

namespace Abnf

namespace Text

theorem append_lt_append_iff {a b s t : List Char} (h : a.length = b.length) :
    a ++ s < b ++ t ↔ a < b ∨ a = b ∧ s < t := by
  induction a generalizing b with
  | nil =>
    obtain rfl : b = [] := List.eq_nil_of_length_eq_zero h.symm
    simp
  | cons c a ih =>
    cases b with
    | nil => simp at h
    | cons d b =>
      rw [List.cons_append, List.cons_append, List.cons_lt_cons_iff, List.cons_lt_cons_iff,
        ih (Nat.succ.inj h), List.cons.injEq]
      simp only [and_or_left, or_assoc, and_assoc]

theorem eq_iff_of_lt_iff {s t : List Char} {m n : Nat} (h : s < t ↔ m < n) (h' : t < s ↔ n < m) :
    s = t ↔ m = n := by
  constructor
  · rintro rfl
    have hm : ¬ m < n := fun hlt => List.lt_irrefl s (h.mpr hlt)
    have hn : ¬ n < m := fun hlt => List.lt_irrefl s (h'.mpr hlt)
    omega
  · rintro rfl
    have hst : ¬ s < t := fun hlt => Nat.lt_irrefl m (h.mp hlt)
    have hts : ¬ t < s := fun hlt => Nat.lt_irrefl m (h'.mp hlt)
    exact List.le_antisymm (List.not_lt.mp hts) (List.not_lt.mp hst)

/-- The text is a number in decimal, with as many zeros before it as the width asks for. -/
structure Figures (width : Nat) (text : List Char) (n : Nat) : Prop where
  length : text.length = width
  isDigit : ∀ c ∈ text, c.isDigit = true
  value : Nat.ofDigitChars 10 text 0 = n

theorem figures_padded {width n : Nat} (hwidth : 0 < width) (hn : n < 10 ^ width) :
    Figures width (padded width '0' n).toList n := by
  have hlength := (Nat.length_toDigits_le_iff (by decide) hwidth).mpr hn
  have htext : (padded width '0' n).toList =
      List.replicate (width - (Nat.toDigits 10 n).length) '0' ++ Nat.toDigits 10 n := by
    rw [padded, String.toList_ofList, List.leftpad]
  constructor
  · rw [String.length_toList, length_padded '0' hlength]
  · intro c hc
    rw [htext, List.mem_append] at hc
    rcases hc with hzero | hdigit
    · rw [List.eq_of_mem_replicate hzero]
      rfl
    · exact Nat.isDigit_of_mem_toDigits (by decide) (by decide) hdigit
  · rw [htext, Nat.ofDigitChars_append, Nat.ofDigitChars_replicate_zero, Nat.mul_zero,
      Nat.ofDigitChars_ten_toDigits]

/-- Digits are read on from the numbers `i` and `j` that the digits before them gave. -/
theorem ofDigitChars_lt_iff {s t : List Char} (hlength : s.length = t.length)
    (hs : ∀ c ∈ s, c.isDigit = true) (ht : ∀ c ∈ t, c.isDigit = true) (i j : Nat) :
    Nat.ofDigitChars 10 s i < Nat.ofDigitChars 10 t j ↔ i < j ∨ i = j ∧ s < t := by
  induction s generalizing t i j with
  | nil =>
    obtain rfl : t = [] := List.eq_nil_of_length_eq_zero hlength.symm
    simp
  | cons c s ih =>
    cases t with
    | nil => simp at hlength
    | cons d t =>
      obtain ⟨hc, hs⟩ := List.forall_mem_cons.mp hs
      obtain ⟨hd, ht⟩ := List.forall_mem_cons.mp ht
      let i' := 10 * i + (c.toNat - '0'.toNat)
      let j' := 10 * j + (d.toNat - '0'.toNat)
      have hrest := ih (Nat.succ.inj hlength) hs ht i' j'
      have hfirst : (i' < j' ↔ i < j ∨ i = j ∧ c < d) ∧ (i' = j' ↔ i = j ∧ c = d) := by
        have hc' := Char.isDigit_iff_toNat.mp hc
        have hd' := Char.isDigit_iff_toNat.mp hd
        have hlt : c < d ↔ c.toNat < d.toNat := Iff.rfl
        have hzero : '0'.toNat = 48 := rfl
        have hnine : '9'.toNat = 57 := rfl
        rw [hlt, ← Char.toNat_inj]
        omega
      rw [Nat.ofDigitChars_cons, Nat.ofDigitChars_cons, hrest, hfirst.1, hfirst.2, List.cons_lt_cons_iff]
      simp only [and_or_left, or_assoc, and_assoc]

namespace Figures

variable {width m n : Nat} {a b s t : List Char}

theorem lt_iff (h : Figures width a m) (h' : Figures width b n) : a < b ↔ m < n := by
  have hvalue := ofDigitChars_lt_iff (h.length.trans h'.length.symm) h.isDigit h'.isDigit 0 0
  rw [h.value, h'.value] at hvalue
  simpa using hvalue.symm

theorem append_lt_iff (h : Figures width a m) (h' : Figures width b n) :
    a ++ s < b ++ t ↔ m < n ∨ m = n ∧ s < t := by
  rw [append_lt_append_iff (h.length.trans h'.length.symm), h.lt_iff h',
    eq_iff_of_lt_iff (h.lt_iff h') (h'.lt_iff h)]

theorem notMem (h : Figures width a m) {c : Char} (hc : c.isDigit = false) : c ∉ a := by
  intro hmem
  have hdigit := h.isDigit c hmem
  simp [hc] at hdigit

end Figures

end Text

namespace Log

/-- A time of day, to the millisecond. -/
structure Clock where
  hour : Nat
  minute : Nat
  second : Nat
  milli : Nat
  hour_lt : hour < 24
  minute_lt : minute < 60
  second_lt : second < 60
  milli_lt : milli < 1000
deriving DecidableEq, Repr

namespace Clock

/-- How many milliseconds a day has. -/
def day : Nat := 86400000

/-- The milliseconds since midnight. -/
def millis (c : Clock) : Nat := ((c.hour * 60 + c.minute) * 60 + c.second) * 1000 + c.milli

/-- The text is the time of day as `hh:mm:ss.mmm`. -/
inductive Shows (c : Clock) : List Char → Prop
  | mk {hh mm ss mmm : List Char} (hour : Text.Figures 2 hh c.hour) (minute : Text.Figures 2 mm c.minute)
      (second : Text.Figures 2 ss c.second) (milli : Text.Figures 3 mmm c.milli) :
      Shows c (hh ++ ':' :: (mm ++ ':' :: (ss ++ '.' :: mmm)))

/-- The time of day at a time since the epoch. -/
def ofTime (time : Nat) : Clock where
  hour := time / 1000 / 3600 % 24
  minute := time / 1000 / 60 % 60
  second := time / 1000 % 60
  milli := time % 1000
  hour_lt := Nat.mod_lt _ (by decide)
  minute_lt := Nat.mod_lt _ (by decide)
  second_lt := Nat.mod_lt _ (by decide)
  milli_lt := Nat.mod_lt _ (by decide)

theorem millis_ofTime (time : Nat) : (ofTime time).millis = time % day := by
  simp only [millis, ofTime, day]
  omega

theorem shows_ofTime (time : Nat) : (ofTime time).Shows (timeOfDay time).toList := by
  have hpair : ∀ n < 60, Text.Figures 2 (Text.padded 2 '0' n).toList n := by
    intro n hn
    exact Text.figures_padded (by decide) (by omega)
  have hhour := hpair _ (Nat.lt_trans (ofTime time).hour_lt (by decide))
  have hminute := hpair _ (ofTime time).minute_lt
  have hsecond := hpair _ (ofTime time).second_lt
  have hmilli : Text.Figures 3 (Text.padded 3 '0' (time % 1000)).toList (ofTime time).milli :=
    Text.figures_padded (by decide) (ofTime time).milli_lt
  simpa [timeOfDay, ofTime] using Shows.mk hhour hminute hsecond hmilli

namespace Shows

variable {c c' : Clock} {text text' : List Char}

theorem length_eq (h : Shows c text) : text.length = 12 := by
  cases h with
  | mk hour minute second milli => simp [hour.length, minute.length, second.length, milli.length]

theorem bracket_notMem (h : Shows c text) : ']' ∉ text := by
  cases h with
  | mk hour minute second milli => simp [hour.notMem, minute.notMem, second.notMem, milli.notMem]

theorem lt_iff (h : Shows c text) (h' : Shows c' text') : text < text' ↔ c.millis < c'.millis := by
  obtain ⟨hour, minute, second, milli⟩ := h
  obtain ⟨hour', minute', second', milli'⟩ := h'
  rw [hour.append_lt_iff hour', List.cons_lt_cons_self, minute.append_lt_iff minute',
    List.cons_lt_cons_self, second.append_lt_iff second', List.cons_lt_cons_self, milli.lt_iff milli',
    millis, millis]
  -- a field counts only if those before it agree, as the fields behind one stay below its unit
  have hminute := c.minute_lt
  have hminute' := c'.minute_lt
  have hsecond := c.second_lt
  have hsecond' := c'.second_lt
  have hmilli := c.milli_lt
  have hmilli' := c'.milli_lt
  omega

end Shows

end Clock

theorem timeOfDay_lt_iff (t u : Nat) : timeOfDay t < timeOfDay u ↔ t % Clock.day < u % Clock.day := by
  rw [String.lt_iff, (Clock.shows_ofTime t).lt_iff (Clock.shows_ofTime u), Clock.millis_ofTime,
    Clock.millis_ofTime]

theorem timeOfDay_eq_iff (t u : Nat) : timeOfDay t = timeOfDay u ↔ t % Clock.day = u % Clock.day := by
  rw [← String.toList_inj]
  apply Text.eq_iff_of_lt_iff
  · rw [← String.lt_iff, timeOfDay_lt_iff]
  · rw [← String.lt_iff, timeOfDay_lt_iff]

namespace Record

/-- What stands in the brackets that a log line begins with. -/
def stamp (line : String) : String := String.ofList (Text.cut ']' line.toList.tail).1

theorem exists_text_eq (r : Record) : ∃ rest, r.text = "[" ++ timeOfDay r.time ++ "]" ++ rest := by
  have hclose : "] " = "]" ++ " " := by decide
  simp only [text, hclose, String.append_assoc]
  exact ⟨_, rfl⟩

theorem stamp_text (r : Record) : stamp r.text = timeOfDay r.time := by
  obtain ⟨rest, hrest⟩ := r.exists_text_eq
  have htail : r.text.toList.tail = (timeOfDay r.time).toList ++ ']' :: rest.toList := by
    simp [hrest]
  rw [stamp, htail, Text.cut_append (Clock.shows_ofTime r.time).bracket_notMem, String.ofList_toList]

/-- A log line begins with the time of day in UTC. Lines have the same stamp if whole days lie between them,
and those of one day have their stamps in the order of time. -/
theorem stamps_tell_time_of_day (r : Record) :
    (∃ rest, r.text = "[" ++ stamp r.text ++ "]" ++ rest) ∧ (stamp r.text).length = 12 ∧
    (∃ c : Clock, c.Shows (stamp r.text).toList ∧ c.millis = r.time % Clock.day) ∧
    ∀ r' : Record,
      (stamp r.text = stamp r'.text ↔ (Clock.day : Int) ∣ r.time - r'.time) ∧
      (r.time / Clock.day = r'.time / Clock.day → (stamp r.text < stamp r'.text ↔ r.time < r'.time)) := by
  have hshows := Clock.shows_ofTime r.time
  rw [stamp_text]
  refine ⟨r.exists_text_eq, ?_, ⟨_, hshows, Clock.millis_ofTime r.time⟩, ?_⟩
  · rw [← String.length_toList, hshows.length_eq]
  · intro r'
    rw [stamp_text, timeOfDay_eq_iff, timeOfDay_lt_iff]
    simp only [Clock.day]
    constructor
    · omega
    · intro hday
      omega

theorem stamps_tell_time_of_last_day :
    let early : Record :=
      { level := .info, target := "t", message := "m", time := 18446744073693599999, span := none }
    let late : Record := { early with time := 18446744073709551615, span := some 7 }
    early.time / Clock.day = late.time / Clock.day ∧ stamp early.text = "09:59:59.999" ∧
      stamp late.text = "14:25:51.615" ∧ stamp early.text < stamp late.text := by
  intro early late
  have hday : early.time / Clock.day = late.time / Clock.day := by decide
  have horder := ((stamps_tell_time_of_day early).2.2.2 late).2 hday
  exact ⟨hday, by decide +kernel, by decide +kernel, horder.mpr (by decide)⟩

end Record

end Log

end Abnf
