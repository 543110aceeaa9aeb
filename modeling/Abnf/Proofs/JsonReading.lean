import Abnf.Json.Shape
import Abnf.Proofs.JsonTexts
import Mathlib.Data.String.Basic

/-! How values are written, with any escapes and numerals that JSON has, and what the readers of strings and
numerals make of it. -/

namespace Abnf.Json

/-- A character may be written as a pair of units, too. -/
inductive SpellsChar (c : Char) : List Char → Prop
  | single {t : List Char} (h : DenotesChar c t) : SpellsChar c t
  | pair {high low : List Char} {i j k l i' j' k' l' : Nat}
      (hhigh : high.mapM Text.hexValue? = some [i, j, k, l])
      (hlow : low.mapM Text.hexValue? = some [i', j', k', l'])
      (hleading : Text.isLeading (((i * 16 + j) * 16 + k) * 16 + l) = true)
      (htrailing : Text.isTrailing (((i' * 16 + j') * 16 + k') * 16 + l') = true)
      (hc : c.toNat = 0x10000 + ((((i * 16 + j) * 16 + k) * 16 + l) - 0xD800) * 0x400 +
        ((((i' * 16 + j') * 16 + k') * 16 + l') - 0xDC00)) :
      SpellsChar c ('\\' :: 'u' :: high ++ '\\' :: 'u' :: low)

/-- One or more digits. -/
def Digits (t : List Char) : Prop := t ≠ [] ∧ ∀ c ∈ t, c.isDigit = true

inductive SpellsExponent : Option Exponent → List Char → Prop
  | none : SpellsExponent none []
  | some {mark : Char} {sign digits : List Char} {offset : Nat} (hmark : mark = 'e' ∨ mark = 'E')
      (hsign : sign = [] ∨ sign = ['+'] ∨ sign = ['-']) (hdigits : Digits digits) :
      SpellsExponent (some ⟨sign = ['-'], digits, offset⟩) (mark :: sign ++ digits)

/-- A numeral behind its sign. -/
inductive SpellsNumeral (negative : Bool) : Numeral → List Char → Prop
  | whole {digits power : List Char} {exponent : Option Exponent} (hdigits : Digits digits)
      (hzero : digits.head? = some '0' → digits = ['0']) (hpower : SpellsExponent exponent power) :
      SpellsNumeral negative ⟨negative, digits, [], exponent⟩ (digits ++ power)
  | point {digits fraction power : List Char} {exponent : Option Exponent} (hdigits : Digits digits)
      (hzero : digits.head? = some '0' → digits = ['0']) (hfraction : Digits fraction)
      (hpower : SpellsExponent exponent power) :
      SpellsNumeral negative ⟨negative, digits, fraction, exponent⟩ (digits ++ '.' :: fraction ++ power)

/-- Numbers are as they are read. -/
inductive SpellsNumber (n : Number) : List Char → Prop
  | positive {m : Numeral} {t : List Char} {behind : Nat} (ht : SpellsNumeral false m t)
      (hn : m.number behind = .ok n) : SpellsNumber n t
  | negative {m : Numeral} {t : List Char} {behind : Nat} (ht : SpellsNumeral true m t)
      (hn : m.number behind = .ok n) : SpellsNumber n ('-' :: t)

/-- Everything that JSON has. -/
def Manner.free : Manner where
  character := SpellsChar
  number := SpellsNumber
  single := .single

/-- What may come right behind a value. -/
def Follows (rest : List Char) : Prop :=
  ∀ c ∈ rest.head?, Input.isBlank c = true ∨ c = ',' ∨ c = ']' ∨ c = '\x7d'

theorem follows_nil : Follows [] := fun _ hc => nomatch hc

theorem follows_comma (rest : List Char) : Follows (',' :: rest) := by
  simp [Follows]

theorem follows_closeList (rest : List Char) : Follows (']' :: rest) := by
  simp [Follows]

theorem follows_closeObject (rest : List Char) : Follows ('\x7d' :: rest) := by
  simp [Follows]

theorem Follows.behind_blanks {rest blanks : List Char} (h : Follows rest) (hb : Blank blanks) :
    Follows (blanks ++ rest) := by
  cases blanks with
  | nil => exact h
  | cons c blanks =>
    intro x hx
    obtain rfl := Option.some.inj hx
    exact .inl (hb c List.mem_cons_self)

/-- The reader takes a text and leaves what comes behind it. -/
def Gets {α : Type} (r : Reader α) (a : α) (t rest : List Char) : Prop :=
  ∀ offset, ∃ offset', r ⟨t ++ rest, offset⟩ = .ok (a, ⟨rest, offset'⟩)

def Fails {α : Type} (r : Reader α) (t : List Char) : Prop :=
  ∀ offset, ∃ fault, r ⟨t, offset⟩ = .error fault

variable {α β : Type} {r : Reader α} {f : α → Reader β} {a : α} {b : β} {c : Char} {t u rest : List Char}

theorem bind_of_ok {i j : Input} (h : r i = .ok (a, j)) : (r >>= f) i = f a j := by
  show (r i >>= fun out => f out.1 out.2) = _
  rw [h]
  rfl

theorem bind_of_error {i : Input} {fault : Fault} (h : r i = .error fault) : (r >>= f) i = .error fault := by
  show (r i >>= fun out => f out.1 out.2) = _
  rw [h]
  rfl

theorem Gets.bind (h : Gets r a t (u ++ rest)) (h' : Gets (f a) b u rest) :
    Gets (r >>= f) b (t ++ u) rest := by
  intro offset
  obtain ⟨middle, hr⟩ := h offset
  obtain ⟨offset', hf⟩ := h' middle
  refine ⟨offset', ?_⟩
  rw [List.append_assoc, bind_of_ok hr]
  exact hf

theorem Gets.look (h : Gets r a [] (u ++ rest)) (h' : Gets (f a) b u rest) : Gets (r >>= f) b u rest :=
  h.bind h'

theorem Gets.last (h : Gets r a t rest) (h' : Gets (f a) b [] rest) : Gets (r >>= f) b t rest := by
  have hbind := Gets.bind (t := t) (u := []) h h'
  rwa [List.append_nil] at hbind

theorem Gets.fails (h : Gets r a t u) (h' : Fails (f a) u) : Fails (r >>= f) (t ++ u) := by
  intro offset
  obtain ⟨middle, hr⟩ := h offset
  obtain ⟨fault, hf⟩ := h' middle
  refine ⟨fault, ?_⟩
  rw [bind_of_ok hr]
  exact hf

theorem Fails.bind (h : Fails r t) : Fails (r >>= f) t := by
  intro offset
  obtain ⟨fault, hr⟩ := h offset
  exact ⟨fault, bind_of_error hr⟩

theorem gets_pure (a : α) (rest : List Char) : Gets (pure a : Reader α) a [] rest := fun offset => ⟨offset, rfl⟩

theorem gets_head? (rest : List Char) : Gets Reader.head? rest.head? [] rest := fun offset => ⟨offset, rfl⟩

theorem gets_skip (c : Char) (rest : List Char) : Gets Reader.skip () [c] rest := fun _ => ⟨_, rfl⟩

theorem gets_peek? (h : Blank t) (hrest : ∀ c ∈ rest.head?, Input.isBlank c = false) :
    Gets Reader.peek? rest.head? t rest := by
  intro offset
  have hdrop : (t ++ rest).dropWhile Input.isBlank = rest := by
    rw [List.dropWhile_append_of_pos h]
    cases rest with
    | nil => rfl
    | cons c rest => rw [List.dropWhile_cons_of_neg (by simp [hrest c rfl])]
  refine ⟨offset + ((t ++ rest).takeWhile Input.isBlank).length, ?_⟩
  show Except.ok (((t ++ rest).dropWhile Input.isBlank).head?, Input.mk _ _) = _
  rw [hdrop]

theorem gets_word (t rest : List Char) : Gets (Reader.word t) () t rest := by
  induction t with
  | nil => exact gets_pure () rest
  | cons c t ih =>
    refine (gets_head? _).look ?_
    simp only [List.cons_append, List.head?_cons, if_true]
    exact Gets.bind (gets_skip c (t ++ rest)) ih

theorem gets_colon (h : Blank t) (rest : List Char) : Gets Reader.colon () (t ++ [':']) rest :=
  Gets.bind (gets_peek? h (by simp [Input.isBlank])) (gets_skip ':' rest)

/-- The reader takes a text, whatever it makes of it. -/
def Takes (r : Reader α) (t rest : List Char) : Prop :=
  ∀ offset, ∃ a offset', r ⟨t ++ rest, offset⟩ = .ok (a, ⟨rest, offset'⟩)

theorem Gets.takes (h : Gets r a t rest) : Takes r t rest := fun offset => ⟨a, h offset⟩

theorem Gets.bind_takes (h : Gets r a t (u ++ rest)) (h' : Takes (f a) u rest) :
    Takes (r >>= f) (t ++ u) rest := by
  intro offset
  obtain ⟨middle, hr⟩ := h offset
  obtain ⟨b, offset', hf⟩ := h' middle
  refine ⟨b, offset', ?_⟩
  rw [List.append_assoc, bind_of_ok hr]
  exact hf

theorem Takes.map_unit (h : Takes r t rest) {g : α → β} : Takes (r >>= fun a => pure (g a)) t rest := by
  intro offset
  obtain ⟨a, offset', hr⟩ := h offset
  exact ⟨g a, offset', bind_of_ok hr⟩

theorem Takes.discard (h : Takes r t rest) : Gets (discard r) () t rest := by
  intro offset
  obtain ⟨a, offset', hr⟩ := h offset
  refine ⟨offset', ?_⟩
  show (r >>= fun _ => pure ()) ⟨t ++ rest, offset⟩ = _
  exact bind_of_ok hr

section numerals

variable {digits fraction : List Char} {atEnd : Cause}

/-- No digit comes next, nor anything else that would go on with a numeral. -/
def EndsNumeral (rest : List Char) : Prop :=
  ∀ c ∈ rest.head?, c.isDigit = false ∧ c ≠ '.' ∧ c ≠ 'e' ∧ c ≠ 'E'

theorem Follows.endsNumeral (h : Follows rest) : EndsNumeral rest := by
  intro c hc
  have hcases := h c hc
  simp only [Input.isBlank, Bool.or_eq_true, beq_iff_eq] at hcases
  rcases hcases with (((rfl | rfl) | rfl) | rfl) | rfl | rfl | rfl <;> decide

theorem gets_digits (hdigits : ∀ c ∈ digits, c.isDigit = true)
    (hrest : ∀ c ∈ rest.head?, c.isDigit = false) : Gets Reader.digits digits digits rest := by
  intro offset
  have hdrop : (digits ++ rest).dropWhile Char.isDigit = rest := by
    rw [List.dropWhile_append_of_pos hdigits]
    cases rest with
    | nil => rfl
    | cons c rest => rw [List.dropWhile_cons_of_neg (by simp [hrest c rfl])]
  have htake : (digits ++ rest).takeWhile Char.isDigit = digits := by
    rw [List.takeWhile_append_of_pos hdigits]
    cases rest with
    | nil => simp
    | cons c rest => rw [List.takeWhile_cons_of_neg (by simp [hrest c rfl]), List.append_nil]
  refine ⟨offset + ((digits ++ rest).takeWhile Char.isDigit).length, ?_⟩
  show Except.ok ((digits ++ rest).takeWhile Char.isDigit,
    Input.mk ((digits ++ rest).dropWhile Char.isDigit) _) = _
  rw [hdrop, htake]

theorem gets_readWhole (hdigits : Digits digits) (hzero : digits.head? = some '0' → digits = ['0'])
    (hrest : ∀ c ∈ rest.head?, c.isDigit = false) :
    Gets (Numeral.readWhole atEnd) digits digits rest := by
  obtain ⟨hne, hall⟩ := hdigits
  obtain ⟨c, more, rfl⟩ := List.exists_cons_of_ne_nil hne
  have hc : c.isDigit = true := hall c List.mem_cons_self
  refine (gets_head? _).look ?_
  simp only [List.cons_append, List.head?_cons, hc, Bool.not_true]
  by_cases h0 : c = '0'
  · subst h0
    obtain rfl : more = [] := by simpa using hzero rfl
    simp only [if_true]
    refine (gets_skip '0' rest).last ((gets_head? _).look ?_)
    have hnone : rest.head?.any Char.isDigit = false := by
      cases hh : rest.head? with
      | none => rfl
      | some c => exact hrest c hh
    simp only [List.nil_append, hnone]
    exact gets_pure _ rest
  · simp only [h0, if_false]
    exact gets_digits hall hrest

theorem gets_readFraction (hfraction : Digits fraction) (hrest : ∀ c ∈ rest.head?, c.isDigit = false) :
    Gets (Numeral.readFraction atEnd) fraction ('.' :: fraction) rest := by
  obtain ⟨c, more, rfl⟩ := List.exists_cons_of_ne_nil hfraction.1
  refine (gets_head? _).look (Gets.bind (t := ['.']) (gets_skip '.' _) ?_)
  refine (gets_digits hfraction.2 hrest).last ?_
  exact gets_pure _ rest

theorem gets_readFraction_none (hrest : ∀ c ∈ rest.head?, c ≠ '.') :
    Gets (Numeral.readFraction atEnd) [] [] rest := by
  refine (gets_head? rest).look ?_
  split
  · next hdot => exact absurd rfl (hrest '.' hdot)
  · exact gets_pure _ rest

theorem Takes.get {g : Input → Reader α} (h : ∀ i, Takes (g i) t rest) : Takes (get >>= g) t rest :=
  fun offset => h ⟨t ++ rest, offset⟩ offset

theorem takes_readExponent {exponent : Option Exponent} (h : SpellsExponent exponent t)
    (hrest : EndsNumeral rest) : Takes (Numeral.readExponent atEnd) t rest := by
  cases h with
  | none =>
    have hmark : rest.head? ≠ some 'e' ∧ rest.head? ≠ some 'E' :=
      ⟨fun hh => (hrest _ hh).2.2.1 rfl, fun hh => (hrest _ hh).2.2.2 rfl⟩
    refine Gets.bind_takes (t := []) (u := []) (gets_head? rest) ?_
    rw [if_pos hmark]
    exact (gets_pure _ rest).takes
  | @some mark sign digits offset hmark hsign hdigits =>
    have hgone : ¬ (some mark ≠ some 'e' ∧ some mark ≠ some 'E') := by
      rcases hmark with rfl | rfl <;> simp
    obtain ⟨c, more, rfl⟩ := List.exists_cons_of_ne_nil hdigits.1
    have hc : c.isDigit = true := hdigits.2 c List.mem_cons_self
    have hstop : ∀ c ∈ rest.head?, c.isDigit = false := fun c hc => (hrest c hc).1
    refine Gets.bind_takes (t := []) (gets_head? _) ?_
    simp only [List.cons_append, List.head?_cons]
    rw [if_neg hgone]
    refine Gets.bind_takes (t := [mark]) (gets_skip mark _) (Gets.bind_takes (t := []) (gets_head? _) ?_)
    have hunsigned : c ≠ '+' ∧ c ≠ '-' := by
      constructor <;> (rintro rfl; simp at hc)
    have hpure : ∀ e : Option Exponent, Takes (pure e : Reader (Option Exponent)) [] rest :=
      fun e => (gets_pure e rest).takes
    rcases hsign with rfl | rfl | rfl
    · split
      · next hcond => simp [hunsigned] at hcond
      · rw [List.append_eq, List.nil_append, ← List.append_nil (c :: more)]
        exact .get fun i => Gets.bind_takes (gets_digits hdigits.2 hstop) (hpure _)
    all_goals
      split
      · refine Gets.bind_takes (t := [_]) (gets_skip _ _) (.get fun i => ?_)
        rw [← List.append_nil (c :: more)]
        exact Gets.bind_takes (gets_digits hdigits.2 hstop) (hpure _)
      · next hcond => simp at hcond

theorem SpellsExponent.endsDigits {exponent : Option Exponent} (h : SpellsExponent exponent t)
    (hrest : EndsNumeral rest) : ∀ c ∈ (t ++ rest).head?, c.isDigit = false ∧ c ≠ '.' := by
  cases h with
  | none => exact fun c hc => ⟨(hrest c hc).1, (hrest c hc).2.1⟩
  | some hmark _ _ =>
    intro c hc
    obtain rfl := Option.some.inj hc
    rcases hmark with rfl | rfl <;> decide

theorem takes_readNumeral {negative : Bool} {m : Numeral} (h : SpellsNumeral negative m t)
    (hrest : EndsNumeral rest) : Takes (Numeral.read atEnd negative) t rest := by
  cases h with
  | @whole digits power exponent hdigits hzero hpower =>
    have hends := hpower.endsDigits hrest
    refine Gets.bind_takes (gets_readWhole hdigits hzero fun c hc => (hends c hc).1) ?_
    refine Gets.bind_takes (t := []) (gets_readFraction_none fun c hc => (hends c hc).2) ?_
    exact (takes_readExponent hpower hrest).map_unit
  | @point digits fraction power exponent hdigits hzero hfraction hpower =>
    have hends := hpower.endsDigits hrest
    rw [List.append_assoc]
    refine Gets.bind_takes (gets_readWhole hdigits hzero (by simp)) ?_
    refine Gets.bind_takes (gets_readFraction hfraction fun c hc => (hends c hc).1) ?_
    exact (takes_readExponent hpower hrest).map_unit

end numerals

section strings

variable {s : List Char}

theorem length_of_mapM {α β : Type} {f : α → Option β} {xs : List α} {ys : List β}
    (h : xs.mapM f = some ys) : xs.length = ys.length := by
  induction xs generalizing ys with
  | nil =>
    obtain rfl : ys = [] := by simpa using h.symm
    rfl
  | cons x xs ih =>
    simp only [List.mapM_cons, Option.bind_eq_bind, Option.bind_eq_some_iff, Option.pure_def,
      Option.some.injEq] at h
    obtain ⟨y, -, zs, hzs, rfl⟩ := h
    simp [ih hzs]

theorem length_le_utf8Len (t : List Char) : t.length ≤ String.utf8Len t := by
  induction t with
  | nil => simp
  | cons c t ih =>
    have hpos := c.utf8Size_pos
    rw [List.length_cons, String.utf8Len_cons]
    omega

theorem hex4_eq {digits : List Char} {i j k l : Nat} (h : digits.mapM Text.hexValue? = some [i, j, k, l])
    (rest : List Char) (offset : Nat) : Text.hex4 ⟨digits ++ rest, offset⟩ =
      .ok (((i * 16 + j) * 16 + k) * 16 + l, ⟨rest, offset + 4⟩) := by
  have hlen : digits.length = 4 := length_of_mapM h
  have htake : (digits ++ rest).take 4 = digits := by rw [← hlen, List.take_left]
  have hdrop : (digits ++ rest).drop 4 = rest := by rw [← hlen, List.drop_left]
  have hsize : ¬ (String.ofList digits).utf8ByteSize < 4 := by
    have hle := length_le_utf8Len digits
    rw [String.utf8ByteSize_ofList]
    omega
  simp only [Text.hex4, htake, hdrop, if_neg hsize, h]

/-- Whatever an escape is asked to give, a letter other than `u` gives its character. -/
theorem escape_short {letter : Char} (h : Text.short? letter = some c)
    (unicode : Input → Except Fault (Char × Input)) (rest : List Char) (offset : Nat) :
    Text.escape unicode ⟨letter :: rest, offset⟩ = .ok (c, ⟨rest, offset + letter.utf8Size⟩) := by
  have hu : letter ≠ 'u' := by
    rintro rfl
    cases h
  unfold Text.escape
  split
  · simp_all
  · simp_all
  · next hx =>
    obtain ⟨rfl, -⟩ := List.cons.inj hx
    rw [h]
    rfl

theorem unicode_single {digits : List Char} {i j k l : Nat}
    (h : digits.mapM Text.hexValue? = some [i, j, k, l]) (hc : ((i * 16 + j) * 16 + k) * 16 + l = c.toNat)
    (rest : List Char) (offset : Nat) :
    Text.unicode ⟨digits ++ rest, offset⟩ = .ok (c, ⟨rest, offset + 4⟩) := by
  have hvalid : c.toNat < 0xD800 ∨ 0xDFFF < c.toNat := by
    rcases c.valid with hlow | ⟨hhigh, -⟩
    · exact .inl hlow
    · exact .inr hhigh
  have htrailing : Text.isTrailing c.toNat = false := by
    simp [Text.isTrailing]
    omega
  have hleading : Text.isLeading c.toNat = false := by
    simp [Text.isLeading]
    omega
  simp [Text.unicode, hex4_eq h, hc, htrailing, hleading, bind, Except.bind, pure, Except.pure]

theorem unicode_pair {high low : List Char} {i j k l i' j' k' l' : Nat}
    (hhigh : high.mapM Text.hexValue? = some [i, j, k, l])
    (hlow : low.mapM Text.hexValue? = some [i', j', k', l'])
    (hleading : Text.isLeading (((i * 16 + j) * 16 + k) * 16 + l) = true)
    (htrailing : Text.isTrailing (((i' * 16 + j') * 16 + k') * 16 + l') = true)
    (hc : c.toNat = 0x10000 + ((((i * 16 + j) * 16 + k) * 16 + l) - 0xD800) * 0x400 +
      ((((i' * 16 + j') * 16 + k') * 16 + l') - 0xDC00)) (rest : List Char) (offset : Nat) :
    ∃ offset', Text.unicode ⟨high ++ '\\' :: 'u' :: (low ++ rest), offset⟩ = .ok (c, ⟨rest, offset'⟩) := by
  have hfirst : Text.isTrailing (((i * 16 + j) * 16 + k) * 16 + l) = false := by
    simp only [Text.isLeading, Text.isTrailing, Bool.and_eq_true, decide_eq_true_eq, Bool.and_eq_false_iff,
      decide_eq_false_iff_not] at hleading ⊢
    omega
  have hchar : Char.ofNat (0x10000 + ((((i * 16 + j) * 16 + k) * 16 + l) - 0xD800) * 0x400 +
      ((((i' * 16 + j') * 16 + k') * 16 + l') - 0xDC00)) = c := by
    rw [← hc, Char.ofNat_toNat]
  refine ⟨offset + 4 + '\\'.utf8Size + 'u'.utf8Size + 4, ?_⟩
  simp [Text.unicode, hex4_eq hhigh, hfirst, hleading, htrailing, Text.require, Input.tail, hex4_eq hlow,
    hchar, bind, Except.bind, pure, Except.pure]

theorem readFrom_of_denotesChar (h : DenotesChar c t) (fuel : Nat) (taken rest : List Char) (offset : Nat) :
    ∃ offset', Text.readFrom (fuel + 1) taken ⟨t ++ rest, offset⟩ =
      Text.readFrom fuel (c :: taken) ⟨rest, offset'⟩ := by
  cases h with
  | plain hc hquote hslash =>
    refine ⟨offset + c.utf8Size, ?_⟩
    rw [List.singleton_append, Text.readFrom]
    split
    · simp_all
    · simp_all
    · simp_all
    · next hx =>
      obtain ⟨rfl, -⟩ := List.cons.inj hx
      rw [if_neg (by omega)]
      rfl
  | @short letter hletter =>
    refine ⟨offset + '\\'.utf8Size + letter.utf8Size, ?_⟩
    simp only [List.cons_append, List.nil_append, Text.readFrom, Input.tail, escape_short hletter]
  | @unicode digits i j k l hdigits hc =>
    refine ⟨offset + '\\'.utf8Size + 'u'.utf8Size + 4, ?_⟩
    simp only [List.cons_append, Text.readFrom, Input.tail, Text.escape, unicode_single hdigits hc rest]

theorem readFrom_of_spellsChar (h : SpellsChar c t) (fuel : Nat) (taken rest : List Char) (offset : Nat) :
    ∃ offset', Text.readFrom (fuel + 1) taken ⟨t ++ rest, offset⟩ =
      Text.readFrom fuel (c :: taken) ⟨rest, offset'⟩ := by
  cases h with
  | single h => exact readFrom_of_denotesChar h fuel taken rest offset
  | @pair high low i j k l i' j' k' l' hhigh hlow hleading htrailing hc =>
    obtain ⟨offset', hunicode⟩ := unicode_pair hhigh hlow hleading htrailing hc rest
      (offset + '\\'.utf8Size + 'u'.utf8Size)
    refine ⟨offset', ?_⟩
    have hshape : '\\' :: 'u' :: high ++ '\\' :: 'u' :: low ++ rest =
        '\\' :: 'u' :: (high ++ '\\' :: 'u' :: (low ++ rest)) := by simp
    rw [hshape]
    simp only [Text.readFrom, Input.tail, Text.escape, hunicode]

theorem SpellsChar.ne_nil (h : SpellsChar c t) : t ≠ [] := by
  cases h with
  | single h => cases h <;> simp
  | pair => simp

/-- A string is read up to its closing quote, as long as the fuel is more than its length. -/
theorem readFrom_of_denotesString (h : DenotesString .free s t) (rest : List Char) {fuel : Nat}
    (hfuel : t.length < fuel) (taken : List Char) (offset : Nat) :
    ∃ offset', Text.readFrom fuel taken ⟨t ++ '"' :: rest, offset⟩ =
      .ok (String.ofList (taken.reverse ++ s), ⟨rest, offset'⟩) := by
  induction h generalizing fuel taken offset with
  | nil =>
    obtain ⟨fuel, rfl⟩ : ∃ n, fuel = n + 1 := ⟨fuel - 1, by omega⟩
    exact ⟨_, by simp only [List.nil_append, Text.readFrom, List.append_nil]; rfl⟩
  | @cons c s t u hc h ih =>
    obtain ⟨fuel, rfl⟩ : ∃ n, fuel = n + 1 := ⟨fuel - 1, by omega⟩
    have hlen := List.length_pos_iff.mpr (SpellsChar.ne_nil hc)
    rw [List.length_append] at hfuel
    obtain ⟨middle, hchar⟩ := readFrom_of_spellsChar hc fuel taken (u ++ '"' :: rest) offset
    obtain ⟨offset', hrest⟩ := @ih fuel (by omega) (c :: taken) middle
    refine ⟨offset', ?_⟩
    rw [List.append_assoc, hchar, hrest]
    simp

theorem gets_text {name : String} (h : DenotesString .free name.toList t) (rest : List Char) :
    Gets Text.read name (t ++ ['"']) rest := by
  intro offset
  have hfuel : t.length < (t ++ ['"'] ++ rest).length + 1 := by
    simp only [List.length_append]
    omega
  obtain ⟨offset', hread⟩ := readFrom_of_denotesString h rest hfuel [] offset
  refine ⟨offset', ?_⟩
  rw [Text.read]
  simpa using hread

theorem skipFrom_hex4 {digits : List Char} {i j k l : Nat}
    (h : digits.mapM Text.hexValue? = some [i, j, k, l]) (fuel : Nat) (rest : List Char) (offset : Nat) :
    ∃ offset', Text.skipFrom (fuel + 1) ⟨'\\' :: 'u' :: digits ++ rest, offset⟩ =
      Text.skipFrom fuel ⟨rest, offset'⟩ := by
  refine ⟨offset + '\\'.utf8Size + 'u'.utf8Size + 4, ?_⟩
  simp only [List.cons_append, Text.skipFrom, Input.tail, Text.escape, hex4_eq h, Except.map]

theorem skipFrom_of_denotesChar (h : DenotesChar c t) (fuel : Nat) (rest : List Char) (offset : Nat) :
    ∃ offset', Text.skipFrom (fuel + 1) ⟨t ++ rest, offset⟩ = Text.skipFrom fuel ⟨rest, offset'⟩ := by
  cases h with
  | plain hc hquote hslash =>
    refine ⟨offset + c.utf8Size, ?_⟩
    rw [List.singleton_append, Text.skipFrom]
    split
    · simp_all
    · simp_all
    · simp_all
    · next hx =>
      obtain ⟨rfl, -⟩ := List.cons.inj hx
      rw [if_neg (by omega)]
      rfl
  | @short letter hletter =>
    refine ⟨offset + '\\'.utf8Size + letter.utf8Size, ?_⟩
    simp only [List.cons_append, List.nil_append, Text.skipFrom, Input.tail, escape_short hletter]
  | unicode hdigits _ => exact skipFrom_hex4 hdigits fuel rest offset

/-- A pair that is not wanted is two escapes, so a character may take more than one turn. -/
theorem skipFrom_of_spellsChar (h : SpellsChar c t) {fuel : Nat} (hfuel : t.length ≤ fuel)
    (rest : List Char) (offset : Nat) : ∃ fuel' offset', fuel ≤ fuel' + t.length ∧
      Text.skipFrom fuel ⟨t ++ rest, offset⟩ = Text.skipFrom fuel' ⟨rest, offset'⟩ := by
  have hpos := List.length_pos_iff.mpr h.ne_nil
  cases h with
  | single h =>
    obtain ⟨fuel, rfl⟩ : ∃ n, fuel = n + 1 := ⟨fuel - 1, by omega⟩
    obtain ⟨offset', hskip⟩ := skipFrom_of_denotesChar h fuel rest offset
    exact ⟨fuel, offset', by omega, hskip⟩
  | @pair high low i j k l i' j' k' l' hhigh hlow hleading htrailing hc =>
    simp only [List.length_cons, List.length_append] at hfuel ⊢
    obtain ⟨fuel, rfl⟩ : ∃ n, fuel = n + 1 + 1 := ⟨fuel - 2, by omega⟩
    obtain ⟨first, hfirst⟩ := skipFrom_hex4 hhigh (fuel + 1) ('\\' :: 'u' :: low ++ rest) offset
    obtain ⟨second, hsecond⟩ := skipFrom_hex4 hlow fuel rest first
    refine ⟨fuel, second, by omega, ?_⟩
    rw [List.append_assoc, hfirst, hsecond]

theorem skipFrom_of_denotesString (h : DenotesString .free s t) (rest : List Char) {fuel : Nat}
    (hfuel : t.length < fuel) (offset : Nat) :
    ∃ offset', Text.skipFrom fuel ⟨t ++ '"' :: rest, offset⟩ = .ok ⟨rest, offset'⟩ := by
  induction h generalizing fuel offset with
  | nil =>
    obtain ⟨fuel, rfl⟩ : ∃ n, fuel = n + 1 := ⟨fuel - 1, by omega⟩
    exact ⟨_, rfl⟩
  | @cons c s t u hc h ih =>
    rw [List.length_append] at hfuel
    have hle : t.length ≤ fuel := by omega
    obtain ⟨fuel', middle, hleft, hchar⟩ := skipFrom_of_spellsChar hc hle (u ++ '"' :: rest) offset
    rw [List.append_assoc, hchar]
    exact ih (by omega) middle

theorem gets_skipText (h : DenotesString .free s t) (rest : List Char) :
    Gets Text.skip () (t ++ ['"']) rest := by
  intro offset
  have hfuel : t.length < (t ++ ['"'] ++ rest).length + 1 := by
    simp only [List.length_append]
    omega
  obtain ⟨offset', hskip⟩ := skipFrom_of_denotesString h rest hfuel offset
  refine ⟨offset', ?_⟩
  have hshape : t ++ ['"'] ++ rest = t ++ '"' :: rest := by simp
  rw [Text.skip, hshape]
  rw [hshape] at hskip
  rw [hskip]
  rfl

end strings

/-- The first character of a value tells what it is. -/
inductive Leads : Value → Char → Prop
  | null : Leads .null 'n'
  | yes : Leads (.boolean true) 't'
  | no : Leads (.boolean false) 'f'
  | digit {n : Number} {c : Char} (hc : c.isDigit = true) : Leads (.number n) c
  | minus {n : Number} : Leads (.number n) '-'
  | string {s : String} : Leads (.string s) '"'
  | array {vs : List Value} : Leads (.array vs) '['
  | object {ms : List (String × Value)} : Leads (.object ms) '\x7b'

theorem SpellsNumeral.exists_digit {negative : Bool} {m : Numeral} (h : SpellsNumeral negative m t) :
    ∃ c u, t = c :: u ∧ c.isDigit = true := by
  cases h with
  | @whole digits power _ hd _ _ =>
    obtain ⟨c, u, rfl⟩ := List.exists_cons_of_ne_nil hd.1
    exact ⟨c, u ++ power, rfl, hd.2 c List.mem_cons_self⟩
  | @point digits fraction power _ hd _ _ _ =>
    obtain ⟨c, u, rfl⟩ := List.exists_cons_of_ne_nil hd.1
    exact ⟨c, u ++ '.' :: fraction ++ power, rfl, hd.2 c List.mem_cons_self⟩

theorem Denotes.exists_lead {v : Value} (h : Denotes .free v t) : ∃ c u, t = c :: u ∧ Leads v c := by
  cases h with
  | null => exact ⟨'n', _, rfl, .null⟩
  | true => exact ⟨'t', _, rfl, .yes⟩
  | false => exact ⟨'f', _, rfl, .no⟩
  | number h =>
    cases h with
    | positive ht _ =>
      obtain ⟨c, u, rfl, hc⟩ := ht.exists_digit
      exact ⟨c, u, rfl, .digit hc⟩
    | negative _ _ => exact ⟨'-', _, rfl, .minus⟩
  | string _ => exact ⟨'"', _, rfl, .string⟩
  | noItems _ => exact ⟨'[', _, rfl, .array⟩
  | items _ => exact ⟨'[', _, rfl, .array⟩
  | noMembers _ => exact ⟨'\x7b', _, rfl, .object⟩
  | members _ => exact ⟨'\x7b', _, rfl, .object⟩

theorem isBlank_of_isDigit (h : c.isDigit = true) : Input.isBlank c = false := by
  rw [Bool.eq_false_iff]
  intro hblank
  simp only [Input.isBlank, Bool.or_eq_true, beq_iff_eq] at hblank
  rcases hblank with ((rfl | rfl) | rfl) | rfl <;> simp at h

theorem Leads.isBlank_eq_false {v : Value} (h : Leads v c) : Input.isBlank c = false := by
  cases h with
  | digit hc => exact isBlank_of_isDigit hc
  | _ => decide

/-- No value starts like what closes a list or an object. -/
theorem Leads.ne_closing {v : Value} (h : Leads v c) : c ≠ ']' ∧ c ≠ '\x7d' := by
  cases h with
  | digit hc => constructor <;> (rintro rfl; simp at hc)
  | _ => decide

end Abnf.Json
