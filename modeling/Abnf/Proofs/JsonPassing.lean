import Abnf.Proofs.JsonReading

/-! Values that nobody asked for are passed over to their end, whatever they are. -/

namespace Abnf.Json.Ignored

variable {fuel : Nat} {opened outer : List Bracket} {inner : Bracket} {blanks t u rest : List Char} {c : Char}

def Bracket.opening : Bracket → Char
  | .list => '['
  | .object => '\x7b'

/-- Reading on behind a value, inside the brackets that are open. -/
def behind (fuel : Nat) : List Bracket → Reader Unit
  | [] => return
  | opened => readFrom fuel .commaOrClose opened

section turns

theorem peek?_eq (h : Blank blanks) (hc : Input.isBlank c = false) (u : List Char) (offset : Nat) :
    ∃ offset', Reader.peek? ⟨blanks ++ c :: u, offset⟩ = .ok (some c, ⟨c :: u, offset'⟩) := by
  have hget : Gets Reader.peek? (some c) blanks (c :: u) := gets_peek? h (by simpa using hc)
  exact hget offset

variable (h : Blank blanks) (fuel : Nat) (opened outer : List Bracket) (inner : Bracket) (u : List Char)
  (offset : Nat)
include h

theorem turn_open : ∃ offset', readFrom (fuel + 1) .value opened ⟨blanks ++ inner.opening :: u, offset⟩ =
    readFrom fuel .firstOrClose (inner :: opened) ⟨u, offset'⟩ := by
  have hc : Input.isBlank inner.opening = false := by cases inner <;> rfl
  obtain ⟨middle, hpeek⟩ := peek?_eq h hc u offset
  refine ⟨middle + inner.opening.utf8Size, ?_⟩
  show (Reader.peek? >>= _) _ = _
  rw [bind_of_ok hpeek]
  cases inner <;> rfl

theorem turn_scalar (hc : Input.isBlank c = false) (hlist : c ≠ '[') (hobject : c ≠ '\x7b') :
    ∃ offset', readFrom (fuel + 1) .value opened ⟨blanks ++ c :: u, offset⟩ =
      (readScalar c >>= fun _ => behind fuel opened) ⟨c :: u, offset'⟩ := by
  obtain ⟨middle, hpeek⟩ := peek?_eq h hc u offset
  refine ⟨middle, ?_⟩
  show (Reader.peek? >>= _) _ = _
  rw [bind_of_ok hpeek]
  simp only [if_neg hlist, if_neg hobject]
  cases opened <;> rfl

theorem turn_key : ∃ offset', readFrom (fuel + 1) .key opened ⟨blanks ++ '"' :: u, offset⟩ =
    (Text.skip >>= fun _ => Reader.colon >>= fun _ => readFrom fuel .value opened) ⟨u, offset'⟩ := by
  obtain ⟨middle, hpeek⟩ := peek?_eq h (c := '"') rfl u offset
  refine ⟨middle + '"'.utf8Size, ?_⟩
  show (Reader.peek? >>= _) _ = _
  rw [bind_of_ok hpeek]
  rfl

theorem turn_closeEmpty : ∃ offset',
    readFrom (fuel + 1) .firstOrClose (inner :: outer) ⟨blanks ++ inner.closing :: u, offset⟩ =
      behind fuel outer ⟨u, offset'⟩ := by
  have hc : Input.isBlank inner.closing = false := by cases inner <;> rfl
  obtain ⟨middle, hpeek⟩ := peek?_eq h hc u offset
  refine ⟨middle + inner.closing.utf8Size, ?_⟩
  show (Reader.peek? >>= _) _ = _
  rw [bind_of_ok hpeek]
  simp only [if_true]
  cases outer <;> rfl

theorem turn_first (hc : Input.isBlank c = false) (hclosing : c ≠ inner.closing) : ∃ offset',
    readFrom (fuel + 1) .firstOrClose (inner :: outer) ⟨blanks ++ c :: u, offset⟩ =
      readFrom fuel inner.element (inner :: outer) ⟨c :: u, offset'⟩ := by
  obtain ⟨middle, hpeek⟩ := peek?_eq h hc u offset
  refine ⟨middle, ?_⟩
  show (Reader.peek? >>= _) _ = _
  rw [bind_of_ok hpeek]
  simp only [if_neg hclosing]

theorem turn_comma : ∃ offset',
    readFrom (fuel + 1) .commaOrClose (inner :: outer) ⟨blanks ++ ',' :: u, offset⟩ =
      readFrom fuel inner.element (inner :: outer) ⟨u, offset'⟩ := by
  obtain ⟨middle, hpeek⟩ := peek?_eq h (c := ',') rfl u offset
  refine ⟨middle + ','.utf8Size, ?_⟩
  show (Reader.peek? >>= _) _ = _
  rw [bind_of_ok hpeek]
  rfl

theorem turn_close : ∃ offset',
    readFrom (fuel + 1) .commaOrClose (inner :: outer) ⟨blanks ++ inner.closing :: u, offset⟩ =
      behind fuel outer ⟨u, offset'⟩ := by
  have hc : Input.isBlank inner.closing = false := by cases inner <;> rfl
  have hcomma : inner.closing ≠ ',' := by cases inner <;> decide
  obtain ⟨middle, hpeek⟩ := peek?_eq h hc u offset
  refine ⟨middle + inner.closing.utf8Size, ?_⟩
  show (Reader.peek? >>= _) _ = _
  rw [bind_of_ok hpeek]
  simp only [if_neg hcomma, if_true]
  cases outer <;> rfl

end turns

/-- Reading passes over a text that stands behind blanks, in a number of turns, and then goes on as it does
behind a value. -/
def Passes (expect : Expect) (opened : List Bracket) (turns : Nat) (t rest : List Char) : Prop :=
  ∀ blanks, Blank blanks → ∀ fuel, turns ≤ fuel → ∀ offset, ∃ fuel' offset', fuel ≤ fuel' + turns ∧
    readFrom fuel expect opened ⟨blanks ++ (t ++ rest), offset⟩ = behind fuel' opened ⟨rest, offset'⟩

theorem gets_readScalar_digit {m : Numeral} (h : SpellsNumeral false m (c :: u)) (hc : c.isDigit = true)
    (hrest : Follows rest) : Gets (readScalar c) () (c :: u) rest := by
  have hread : Takes (Numeral.read .invalidNumber false) (c :: u) rest :=
    takes_readNumeral h hrest.endsNumeral
  unfold readScalar
  split
  rotate_right
  · simpa only [if_pos hc] using hread.discard
  all_goals simp at hc

theorem gets_readScalar_minus {m : Numeral} (h : SpellsNumeral true m t) (hrest : Follows rest) :
    Gets (readScalar '-') () ('-' :: t) rest :=
  Gets.bind (t := ['-']) (gets_skip '-' _) (takes_readNumeral h hrest.endsNumeral).discard

theorem passes_of_scalar (hc : Input.isBlank c = false) (hlist : c ≠ '[') (hobject : c ≠ '\x7b')
    (h : Gets (readScalar c) () (c :: u) rest) (opened : List Bracket) :
    Passes .value opened 1 (c :: u) rest := by
  intro blanks hb fuel hfuel offset
  obtain ⟨fuel, rfl⟩ : ∃ n, fuel = n + 1 := ⟨fuel - 1, by omega⟩
  obtain ⟨start, hturn⟩ := turn_scalar hb fuel opened (u ++ rest) offset hc hlist hobject
  obtain ⟨offset', hread⟩ := h start
  refine ⟨fuel, offset', by omega, ?_⟩
  rw [List.cons_append, hturn]
  exact bind_of_ok hread

theorem passes_member {m : String × Value} {Item : Value → List Char → Prop}
    (hitem : ∀ v t', Item v t' → t'.length < t.length → Passes .value opened (2 * t'.length) t' rest)
    (h : DenotesMember .free Item m t) : Passes .key opened (2 * t.length) t rest := by
  intro blanks hb fuel hfuel offset
  cases h with
  | @mk name v s before after t' hn hbefore hafter hv =>
    simp only [List.length_append, List.length_cons, List.cons_append] at hfuel hitem ⊢
    obtain ⟨fuel, rfl⟩ : ∃ n, fuel = n + 1 := ⟨fuel - 1, by omega⟩
    have hshape : blanks ++ '"' :: (s ++ '"' :: before ++ ':' :: after ++ t' ++ rest) =
        blanks ++ '"' :: (s ++ ['"'] ++ (before ++ [':'] ++ (after ++ (t' ++ rest)))) := by simp
    obtain ⟨start, hturn⟩ := turn_key hb fuel opened
      (s ++ ['"'] ++ (before ++ [':'] ++ (after ++ (t' ++ rest)))) offset
    obtain ⟨middle, hskip⟩ := gets_skipText hn (before ++ [':'] ++ (after ++ (t' ++ rest))) start
    obtain ⟨later, hcolon⟩ := gets_colon hbefore (after ++ (t' ++ rest)) middle
    obtain ⟨fuel', offset', hturns, hread⟩ := hitem v t' hv (by omega) after hafter fuel (by omega) later
    refine ⟨fuel', offset', by omega, ?_⟩
    rw [hshape, hturn, bind_of_ok hskip, bind_of_ok hcolon, hread]

theorem Bracket.follows_closing (inner : Bracket) (rest : List Char) :
    Follows (inner.closing :: rest) := by
  cases inner
  · exact follows_closeList rest
  · exact follows_closeObject rest

/-- The items of a list or an object up to the closing bracket. -/
theorem passes_items {α : Type} {Item : α → List Char → Prop} {as : List α} {body : List Char}
    (h : DenotesItems Item as body)
    (hitem : ∀ a t, Item a t → t.length ≤ body.length → ∀ rest, Follows rest →
      Passes inner.element (inner :: outer) (2 * t.length) t rest)
    (fuel : Nat) (hfuel : 2 * body.length + 1 ≤ fuel) (rest : List Char) (offset : Nat) :
    ∃ fuel' offset', fuel ≤ fuel' + (2 * body.length + 1) ∧
      readFrom fuel inner.element (inner :: outer) ⟨body ++ inner.closing :: rest, offset⟩ =
        behind fuel' outer ⟨rest, offset'⟩ := by
  induction h generalizing fuel offset with
  | @last a before t after hb ha hafter =>
    simp only [List.length_append] at hitem hfuel ⊢
    have hfollows := (inner.follows_closing rest).behind_blanks hafter
    obtain ⟨left, middle, hturns, hread⟩ := hitem a t ha (by omega) _ hfollows before hb fuel (by omega) offset
    obtain ⟨left, rfl⟩ : ∃ n, left = n + 1 := ⟨left - 1, by omega⟩
    obtain ⟨offset', hclose⟩ := turn_close hafter left outer inner rest middle
    refine ⟨left, offset', by omega, ?_⟩
    rw [← hclose, List.append_assoc, List.append_assoc]
    exact hread
  | @cons a as before t after more hb ha hafter hs ih =>
    simp only [List.length_append, List.length_cons] at hitem hfuel ⊢
    have hfollows := (follows_comma (more ++ inner.closing :: rest)).behind_blanks hafter
    obtain ⟨left, middle, hturns, hread⟩ := hitem a t ha (by omega) _ hfollows before hb fuel (by omega) offset
    obtain ⟨left, rfl⟩ : ∃ n, left = n + 1 := ⟨left - 1, by omega⟩
    obtain ⟨start, hcomma⟩ := turn_comma hafter left outer inner (more ++ inner.closing :: rest) middle
    obtain ⟨fuel', offset', hleft, hmore⟩ := ih (fun b t' hb hlen => hitem b t' hb (by omega)) left
      (by omega) start
    refine ⟨fuel', offset', by omega, ?_⟩
    have hshape : before ++ t ++ after ++ ',' :: more ++ inner.closing :: rest =
        before ++ (t ++ (after ++ ',' :: (more ++ inner.closing :: rest))) := by simp
    rw [hshape]
    exact hread.trans (hcomma.trans hmore)

/-- Items may be read without the blanks before the first of them. -/
theorem exists_trim {α : Type} {Item : α → List Char → Prop} {as : List α} {body : List Char}
    (h : DenotesItems Item as body)
    {closing : Char} (hlead : ∀ a t, Item a t → ∃ c u, t = c :: u ∧ Input.isBlank c = false ∧ c ≠ closing) :
    ∃ blanks c u, Blank blanks ∧ body = blanks ++ c :: u ∧ Input.isBlank c = false ∧ c ≠ closing ∧
      DenotesItems Item as (c :: u) := by
  cases h with
  | @last a before t after hb ha hafter =>
    obtain ⟨c, u, rfl, hc, hclosing⟩ := hlead a t ha
    refine ⟨before, c, u ++ after, hb, by simp, hc, hclosing, ?_⟩
    exact DenotesItems.last blank_nil ha hafter
  | @cons a as before t after more hb ha hafter hs =>
    obtain ⟨c, u, rfl, hc, hclosing⟩ := hlead a t ha
    refine ⟨before, c, u ++ after ++ ',' :: more, hb, by simp, hc, hclosing, ?_⟩
    exact DenotesItems.cons blank_nil ha hafter hs

theorem Passes.mono {expect : Expect} {turns more : Nat} (h : Passes expect opened turns t rest)
    (hle : turns ≤ more) : Passes expect opened more t rest := by
  intro blanks hb fuel hfuel offset
  obtain ⟨fuel', offset', hturns, hread⟩ := h blanks hb fuel (by omega) offset
  exact ⟨fuel', offset', by omega, hread⟩

theorem passes_empty (inner : Bracket) {space : List Char} (hspace : Blank space) (opened : List Bracket)
    (rest : List Char) : Passes .value opened 2 (inner.opening :: space ++ [inner.closing]) rest := by
  intro blanks hb fuel hfuel offset
  obtain ⟨fuel, rfl⟩ : ∃ n, fuel = n + 1 + 1 := ⟨fuel - 2, by omega⟩
  have hshape : inner.opening :: space ++ [inner.closing] ++ rest =
      inner.opening :: (space ++ inner.closing :: rest) := by simp
  obtain ⟨middle, hopen⟩ := turn_open hb (fuel + 1) opened inner (space ++ inner.closing :: rest) offset
  obtain ⟨offset', hclose⟩ := turn_closeEmpty hspace fuel opened inner rest middle
  refine ⟨fuel, offset', by omega, ?_⟩
  rw [hshape, hopen, hclose]

theorem passes_full (inner : Bracket) {α : Type} {Item : α → List Char → Prop} {as : List α}
    {body : List Char} (h : DenotesItems Item as body)
    (hlead : ∀ a t, Item a t → ∃ c u, t = c :: u ∧ Input.isBlank c = false ∧ c ≠ inner.closing)
    (hitem : ∀ a t, Item a t → t.length ≤ body.length → ∀ rest, Follows rest →
      Passes inner.element (inner :: opened) (2 * t.length) t rest) (rest : List Char) :
    Passes .value opened (2 * body.length + 3) (inner.opening :: body ++ [inner.closing]) rest := by
  intro blanks hb fuel hfuel offset
  obtain ⟨fuel, rfl⟩ : ∃ n, fuel = n + 1 + 1 := ⟨fuel - 2, by omega⟩
  obtain ⟨space, c, u, hspace, rfl, hc, hclosing, htrimmed⟩ := exists_trim h hlead
  rw [List.length_append] at hfuel hitem ⊢
  have hshape : inner.opening :: (space ++ c :: u) ++ [inner.closing] ++ rest =
      inner.opening :: (space ++ c :: (u ++ inner.closing :: rest)) := by simp
  obtain ⟨middle, hopen⟩ := turn_open hb (fuel + 1) opened inner
    (space ++ c :: (u ++ inner.closing :: rest)) offset
  obtain ⟨start, hfirst⟩ := turn_first hspace fuel opened inner (u ++ inner.closing :: rest) middle hc hclosing
  obtain ⟨fuel', offset', hturns, hread⟩ := passes_items htrimmed
    (fun a t ha hlen => hitem a t ha (by omega)) fuel (by omega) rest start
  refine ⟨fuel', offset', by omega, ?_⟩
  rw [hshape, hopen, hfirst]
  exact hread

/-- Any value is passed over. The induction is on the length of its text. -/
theorem passes_value {v : Value} {t rest : List Char} (h : Denotes .free v t) (hrest : Follows rest)
    (opened : List Bracket) : Passes .value opened (2 * t.length) t rest := by
  induction hlen : t.length using Nat.strong_induction_on generalizing v t rest opened with
  | _ n ih =>
    subst hlen
    cases h with
    | null =>
      have hread : Gets (readScalar 'n') () "null".toList rest :=
        Gets.bind (t := ['n']) (gets_skip 'n' _) (gets_word ['u', 'l', 'l'] rest)
      exact (passes_of_scalar rfl (by decide) (by decide) hread opened).mono (by decide)
    | true =>
      have hread : Gets (readScalar 't') () "true".toList rest :=
        Gets.bind (t := ['t']) (gets_skip 't' _) (gets_word ['r', 'u', 'e'] rest)
      exact (passes_of_scalar rfl (by decide) (by decide) hread opened).mono (by decide)
    | false =>
      have hread : Gets (readScalar 'f') () "false".toList rest :=
        Gets.bind (t := ['f']) (gets_skip 'f' _) (gets_word ['a', 'l', 's', 'e'] rest)
      exact (passes_of_scalar rfl (by decide) (by decide) hread opened).mono (by decide)
    | number h =>
      cases h with
      | positive ht _ =>
        obtain ⟨c, u, rfl, hc⟩ := ht.exists_digit
        have hbracket : c ≠ '[' ∧ c ≠ '\x7b' := by constructor <;> (rintro rfl; simp at hc)
        have hread := gets_readScalar_digit ht hc hrest
        refine (passes_of_scalar (isBlank_of_isDigit hc) hbracket.1 hbracket.2 hread opened).mono ?_
        rw [List.length_cons]
        omega
      | negative ht _ =>
        have hread := gets_readScalar_minus ht hrest
        refine (passes_of_scalar rfl (by decide) (by decide) hread opened).mono ?_
        rw [List.length_cons]
        omega
    | @string s t h =>
      have hread : Gets (readScalar '"') () ('"' :: t ++ ['"']) rest :=
        Gets.bind (t := ['"']) (gets_skip '"' _) (gets_skipText h rest)
      refine (passes_of_scalar rfl (by decide) (by decide) hread opened).mono ?_
      simp only [List.cons_append, List.length_cons]
      omega
    | noItems hb =>
      refine (passes_empty .list hb opened rest).mono ?_
      simp only [List.cons_append, List.length_cons]
      omega
    | @items vs body h =>
      refine (passes_full .list h ?_ ?_ rest).mono ?_
      · intro v t hv
        obtain ⟨c, u, rfl, hc⟩ := hv.exists_lead
        exact ⟨c, u, rfl, hc.isBlank_eq_false, hc.ne_closing.1⟩
      · intro v t hv hle rest hrest
        exact ih t.length (by simp; omega) hv hrest _ rfl
      · simp only [List.cons_append, List.length_cons, List.length_append]
        omega
    | noMembers hb =>
      refine (passes_empty .object hb opened rest).mono ?_
      simp only [List.cons_append, List.length_cons]
      omega
    | @members ms body h =>
      refine (passes_full .object h ?_ ?_ rest).mono ?_
      · intro m t hm
        cases hm
        exact ⟨'"', _, rfl, rfl, by decide⟩
      · intro m t hm hle rest hrest
        refine passes_member (fun v t' hv hlt => ?_) hm
        exact ih t'.length (by simp; omega) hv hrest _ rfl
      · simp only [List.cons_append, List.length_cons, List.length_append]
        omega

theorem gets_ignored {v : Value} (h : Denotes .free v t) (hrest : Follows rest) (hb : Blank blanks) :
    Gets read () (blanks ++ t) rest := by
  intro offset
  have hpasses := passes_value h hrest [] blanks hb (2 * (blanks ++ (t ++ rest)).length + 2)
    (by simp only [List.length_append]; omega) offset
  obtain ⟨fuel', offset', -, hread⟩ := hpasses
  refine ⟨offset', ?_⟩
  rw [List.append_assoc]
  exact hread

end Abnf.Json.Ignored
