import Abnf.Proofs.JsonPassing

/-! A shape makes the same of a value, whether it reads it from a text or takes it from memory. -/

namespace Abnf.Json

/-- The reader takes a text and has the result, or fails if there is none. -/
def Reads {α : Type} (r : Reader α) (result : Except Cause α) (t rest : List Char) : Prop :=
  (∀ a, result = .ok a → Gets r a t rest) ∧ ∀ e, result = .error e → Fails r (t ++ rest)

section readers

variable {α β : Type} {r : Reader α} {f : α → Reader β} {a : α} {t u rest : List Char}
  {result : Except Cause α}

theorem Gets.reads {result : Except Cause β} (h : Gets r a t (u ++ rest)) (h' : Reads (f a) result u rest) :
    Reads (r >>= f) result (t ++ u) rest := by
  refine ⟨fun b hb => h.bind (h'.1 b hb), fun e he => ?_⟩
  rw [List.append_assoc]
  exact h.fails (h'.2 e he)

theorem Reads.bind {g : α → Except Cause β} (h : Reads r result t (u ++ rest))
    (h' : ∀ a, result = .ok a → Reads (f a) (g a) u rest) :
    Reads (r >>= f) (result >>= g) (t ++ u) rest := by
  cases hresult : result with
  | ok a =>
    have hrest := h' a hresult
    exact (h.1 a hresult).reads hrest
  | error e =>
    refine ⟨fun b hb => ?_, fun e' _ => ?_⟩
    · cases hb
    · rw [List.append_assoc]
      exact (h.2 e hresult).bind

theorem Reads.last {g : α → Except Cause β} (h : Reads r result t rest)
    (h' : ∀ a, result = .ok a → Reads (f a) (g a) [] rest) : Reads (r >>= f) (result >>= g) t rest := by
  have hbind := Reads.bind (t := t) (u := []) h h'
  rwa [List.append_nil] at hbind

theorem Reads.get {g : Input → Reader α} (h : ∀ i, i.rest = t ++ rest → Reads (g i) result t rest) :
    Reads (get >>= g) result t rest :=
  ⟨fun a ha offset => (h ⟨t ++ rest, offset⟩ rfl).1 a ha offset,
    fun e he offset => (h ⟨t ++ rest, offset⟩ rfl).2 e he offset⟩

theorem reads_pure (a : α) (rest : List Char) : Reads (pure a) (.ok a) [] rest := by
  refine ⟨fun b hb => ?_, fun _ he => (nomatch he)⟩
  obtain rfl := Except.ok.inj hb
  exact gets_pure a rest

theorem Fails.reads {e : Cause} (h : Fails r (t ++ rest)) : Reads r (.error e) t rest :=
  ⟨(fun _ hb => nomatch hb), fun _ _ => h⟩

theorem fails_failLater (cause : Cause) (t : List Char) : Fails (Reader.failLater cause : Reader α) t :=
  fun _ => ⟨_, rfl⟩

theorem fails_mismatch (expected : String) (t : List Char) :
    Fails (Shape.mismatch expected : Reader α) t := by
  intro offset
  cases hfound : Shape.readFound ⟨t, offset⟩ with
  | error fault => exact ⟨fault, bind_of_error hfound⟩
  | ok out => exact ⟨_, bind_of_ok hfound⟩

end readers

namespace Shape

variable {α β : Type} {v : Value} {blanks t rest : List Char}

/-- The shape has the same result of a value in any text. -/
def Agrees (r : Reader α) (result : Except Cause α) (v : Value) : Prop :=
  ∀ blanks t rest, Blank blanks → Denotes .free v t → Follows rest → Reads r result (blanks ++ t) rest

theorem exists_peek? (hb : Blank blanks) (ht : Denotes .free v t) (rest : List Char) :
    ∃ c, Leads v c ∧ Gets Reader.peek? (some c) blanks (t ++ rest) := by
  obtain ⟨c, u, rfl, hc⟩ := ht.exists_lead
  have hblank := hc.isBlank_eq_false
  exact ⟨c, hc, gets_peek? hb (by simpa using hblank)⟩

theorem agrees_boolean (v : Value) : Agrees boolean.read (boolean.ofValue v) v := by
  intro blanks t rest hb ht hrest
  obtain ⟨c, hc, hpeek⟩ := exists_peek? hb ht rest
  refine hpeek.reads ?_
  cases hc with
  | yes =>
    cases ht
    exact Gets.reads (t := ['t']) (gets_skip 't' _)
      (Gets.reads (t := ['r', 'u', 'e']) (u := []) (gets_word _ rest) (reads_pure true rest))
  | no =>
    cases ht
    exact Gets.reads (t := ['f']) (gets_skip 'f' _)
      (Gets.reads (t := ['a', 'l', 's', 'e']) (u := []) (gets_word _ rest) (reads_pure false rest))
  | @digit n c hc =>
    have hne : c ≠ 't' ∧ c ≠ 'f' := by constructor <;> (rintro rfl; simp at hc)
    split
    · next hx => exact absurd (Option.some.inj hx) hne.1
    · next hx => exact absurd (Option.some.inj hx) hne.2
    · exact (fails_mismatch _ _).reads
  | _ => exact (fails_mismatch _ _).reads

theorem agrees_text (v : Value) : Agrees text.read (text.ofValue v) v := by
  intro blanks t rest hb ht hrest
  obtain ⟨c, hc, hpeek⟩ := exists_peek? hb ht rest
  refine hpeek.reads ?_
  cases hc with
  | @string s =>
    cases ht with
    | @string _ t h =>
      have hread := gets_text h rest
      refine Gets.reads (t := ['"']) (gets_skip '"' _) ⟨fun a ha => ?_, fun _ he => (nomatch he)⟩
      rwa [← Except.ok.inj ha]
  | @digit n c hc =>
    have hne : c ≠ '"' := by rintro rfl; simp at hc
    split
    · next hx => exact absurd (Option.some.inj hx) hne
    · exact (fails_mismatch _ _).reads
  | _ => exact (fails_mismatch _ _).reads

theorem agrees_optional {s : Shape α} (h : Agrees s.read (s.ofValue v) v) :
    Agrees (optional s).read ((optional s).ofValue v) v := by
  intro blanks t rest hb ht hrest
  obtain ⟨c, hc, hpeek⟩ := exists_peek? hb ht rest
  have hsome : v ≠ .null → Reads (do return some (← s.read)) ((s.ofValue v).map some) t rest := by
    intro _
    have hread := h [] t rest blank_nil ht hrest
    exact hread.last fun a _ => reads_pure (some a) rest
  refine hpeek.reads ?_
  cases hc with
  | null =>
    cases ht
    exact Gets.reads (t := ['n']) (gets_skip 'n' _)
      (Gets.reads (t := ['u', 'l', 'l']) (u := []) (gets_word _ rest) (reads_pure none rest))
  | @digit n c hc =>
    have hne : c ≠ 'n' := by rintro rfl; simp at hc
    split
    · next hx => exact absurd (Option.some.inj hx) hne
    · exact hsome (by simp)
  | _ => exact hsome (by simp)

theorem agrees_named {ε : Type} (parse : String → Except ε α) (message : ε → String) (v : Value) :
    Agrees (named parse message).read ((named parse message).ofValue v) v := by
  intro blanks t rest hb ht hrest
  refine (agrees_text v blanks t rest hb ht hrest).last fun name _ => ?_
  cases parse name with
  | ok a => exact reads_pure a rest
  | error e => exact (fails_failLater _ _).reads

theorem agrees_field (name : String) {s : Shape β} (set : β → α → α) (h : Agrees s.read (s.ofValue v) v) :
    Agrees (field name s set).read ((field name s set).ofValue v) v := by
  intro blanks t rest hb ht hrest
  exact (h blanks t rest hb ht hrest).last fun b _ => reads_pure (set b) rest

section records

/-- A record takes a member in, if it has a field for it. -/
def takeMember (fields : List (Field α)) (a : α) (m : String × Value) : Except Cause α :=
  match fields.find? (·.name == m.1) with
  | some f => f.ofValue m.2 >>= fun set => .ok (set a)
  | none => .ok a

theorem ofValue_record (name : String) (start : α) (fields : List (Field α)) (ms : List (String × Value)) :
    (record name start fields).ofValue (.object ms) = ms.foldlM (takeMember fields) start := rfl

/-- What is ahead when the next key is asked for: other members or none. -/
inductive Ahead : Bool → List (String × Value) → List Char → Prop
  | done {first : Bool} {t : List Char} (h : Blank t) : Ahead first [] t
  | first {ms : List (String × Value)} {t : List Char}
      (h : DenotesItems (DenotesMember .free (Denotes .free)) ms t) : Ahead true ms t
  | more {ms : List (String × Value)} {before t : List Char} (hb : Blank before)
      (h : DenotesItems (DenotesMember .free (Denotes .free)) ms t) : Ahead false ms (before ++ ',' :: t)

theorem Ahead.blank {first : Bool} (h : Ahead first [] t) : Blank t := by
  cases h with
  | done hb => exact hb
  | first h => cases h
  | more _ h => cases h

theorem Ahead.follows {ms : List (String × Value)} (h : Ahead false ms t) (rest : List Char) :
    Follows (t ++ '\x7d' :: rest) := by
  cases h with
  | done hb => exact (follows_closeObject rest).behind_blanks hb
  | @more _ before t hb h =>
    rw [List.append_assoc]
    exact (follows_comma (t ++ '\x7d' :: rest)).behind_blanks hb

theorem gets_hasKey_done (first : Bool) (hb : Blank t) (rest : List Char) :
    Gets (hasKey first) false t ('\x7d' :: rest) :=
  (gets_peek? hb (by simp [Input.isBlank])).last (gets_pure false _)

theorem gets_hasKey_first (hb : Blank t) (rest : List Char) : Gets (hasKey true) true (t ++ ['"']) rest :=
  Gets.bind (gets_peek? hb (by simp [Input.isBlank])) ((gets_skip '"' rest).last (gets_pure true rest))

theorem gets_hasKey_more {u : List Char} (hb : Blank t) (hu : Blank u) (rest : List Char) :
    Gets (hasKey false) true (t ++ ',' :: (u ++ ['"'])) rest := by
  refine Gets.bind (gets_peek? hb (by simp [Input.isBlank])) (Gets.bind (t := [',']) (gets_skip ',' _) ?_)
  exact Gets.bind (gets_peek? hu (by simp [Input.isBlank])) ((gets_skip '"' rest).last (gets_pure true rest))

/-- The first of several members, taken apart. -/
theorem exists_first_member {m : String × Value} {ms : List (String × Value)} {body : List Char}
    (h : DenotesItems (DenotesMember .free (Denotes .free)) (m :: ms) body) : ∃ space s before after u more,
      body = space ++ ['"'] ++ (s ++ ['"'] ++ (before ++ [':'] ++ (after ++ u ++ more))) ∧
        Blank space ∧ DenotesString .free m.1.toList s ∧ Blank before ∧ Blank after ∧ Denotes .free m.2 u ∧
        Ahead false ms more := by
  cases h with
  | @last _ space t behind hb hm ha =>
    cases hm with
    | @mk name v s before after u hn hbefore hafter hv =>
      exact ⟨space, s, before, after, u, behind, by simp, hb, hn, hbefore, hafter, hv, .done ha⟩
  | @cons _ _ space t behind more hb hm ha hs =>
    cases hm with
    | @mk name v s before after u hn hbefore hafter hv =>
      exact ⟨space, s, before, after, u, behind ++ ',' :: more, by simp, hb, hn, hbefore, hafter, hv,
        .more ha hs⟩

theorem Ahead.exists_member {first : Bool} {m : String × Value} {ms : List (String × Value)}
    (h : Ahead first (m :: ms) t) : ∃ lead s before after u more,
      t = lead ++ (s ++ ['"'] ++ (before ++ [':'] ++ (after ++ u ++ more))) ∧
        (∀ rest, Gets (hasKey first) true lead rest) ∧ DenotesString .free m.1.toList s ∧ Blank before ∧
        Blank after ∧ Denotes .free m.2 u ∧ Ahead false ms more := by
  cases h with
  | first h =>
    obtain ⟨space, s, before, after, u, more, rfl, hb, hn, hbefore, hafter, hv, hmore⟩ :=
      exists_first_member h
    exact ⟨space ++ ['"'], s, before, after, u, more, rfl, gets_hasKey_first hb, hn, hbefore, hafter, hv,
      hmore⟩
  | @more _ comma _ hcomma h =>
    obtain ⟨space, s, before, after, u, more, rfl, hb, hn, hbefore, hafter, hv, hmore⟩ :=
      exists_first_member h
    exact ⟨comma ++ ',' :: (space ++ ['"']), s, before, after, u, more, by simp,
      gets_hasKey_more hcomma hb, hn, hbefore, hafter, hv, hmore⟩

theorem reads_members {fields : List (Field α)} {ms : List (String × Value)} {given : List String}
    (hfields : ∀ m ∈ ms, ∀ f, fields.find? (·.name == m.1) = some f → Agrees f.read (f.ofValue m.2) m.2)
    (hnew : ∀ m ∈ ms, m.1 ∉ given) (hnodup : (ms.map Prod.fst).Nodup) {fuel : Nat}
    (hfuel : ms.length < fuel) (h : Ahead given.isEmpty ms t) (a : α) (rest : List Char) :
    Reads (readMembers fields fuel given a) (ms.foldlM (takeMember fields) a) t ('\x7d' :: rest) := by
  -- keys that were given are not met again, so no field is given twice whatever the record has by now
  induction ms generalizing given fuel t a with
  | nil =>
    obtain ⟨fuel, rfl⟩ : ∃ n, fuel = n + 1 := ⟨fuel - 1, by omega⟩
    rw [← List.append_nil t]
    exact Gets.reads (gets_hasKey_done given.isEmpty h.blank rest) (reads_pure a _)
  | cons m ms ih =>
    obtain ⟨fuel, rfl⟩ : ∃ n, fuel = n + 1 := ⟨fuel - 1, by omega⟩
    obtain ⟨lead, s, before, after, u, more, rfl, hkey, hn, hbefore, hafter, hv, hmore⟩ := h.exists_member
    obtain ⟨hm, hms⟩ := List.forall_mem_cons.mp hfields
    obtain ⟨hfresh, hothers⟩ := List.forall_mem_cons.mp hnew
    obtain ⟨hnotin, hnodup⟩ := List.nodup_cons.mp hnodup
    have hfollows := hmore.follows rest
    have hrest : ∀ b, Reads (readMembers fields fuel (m.1 :: given) b) (ms.foldlM (takeMember fields) b) more
        ('\x7d' :: rest) := by
      intro b
      refine @ih _ (m.1 :: given) hms (fun m' hm' hmem => ?_) hnodup fuel (by simpa using hfuel) hmore b
      rcases List.mem_cons.mp hmem with heq | hmem
      · exact hnotin (heq ▸ List.mem_map_of_mem hm')
      · exact hothers m' hm' hmem
    have hgiven : given.contains m.1 = false := by simpa using hfresh
    refine Gets.reads (hkey _) (Gets.reads (gets_text hn _) ?_)
    rw [List.foldlM_cons, takeMember]
    cases hfind : fields.find? (·.name == m.1) with
    | none =>
      refine Gets.reads (gets_colon hbefore _) (Gets.reads (Ignored.gets_ignored hv hfollows hafter) ?_)
      exact hrest a
    | some f =>
      simp only [hgiven]
      refine Gets.reads (gets_colon hbefore _) ?_
      rw [bind_assoc]
      exact (hm f hfind after u _ hafter hv hfollows).bind fun set _ => hrest (set a)

theorem length_le_of_denotesItems {Item : α → List Char → Prop} {as : List α} {body : List Char}
    (h : DenotesItems Item as body) (hitem : ∀ a t, Item a t → t ≠ []) : as.length ≤ body.length := by
  induction h with
  | last hb ha hafter =>
    have hpos := List.length_pos_iff.mpr (hitem _ _ ha)
    simp only [List.length_append, List.length_cons, List.length_nil]
    omega
  | cons hb ha hafter hs ih =>
    simp only [List.length_append, List.length_cons]
    omega

/-- A body between braces, which are taken with it. -/
theorem Reads.between {body : Reader α} {result : Except Cause α} (h : Reads body result t ('\x7d' :: rest)) :
    Reads (between closeObject body) result (t ++ ['\x7d']) rest := by
  have hshape : t ++ ['\x7d'] ++ rest = t ++ '\x7d' :: rest := by simp
  refine ⟨fun a ha offset => ?_, fun e he offset => ?_⟩
  · obtain ⟨middle, hbody⟩ := h.1 a ha offset
    refine ⟨middle + '\x7d'.utf8Size, ?_⟩
    rw [hshape, Shape.between, hbody]
    rfl
  · obtain ⟨fault, hbody⟩ := h.2 e he offset
    rw [hshape, Shape.between, hbody]
    cases fault <;> exact ⟨_, rfl⟩

/-- A record agrees on an object whose keys are distinct if its fields agree on the members. -/
theorem agrees_record_object (name : String) (start : α) {fields : List (Field α)}
    {ms : List (String × Value)} (hnodup : (ms.map Prod.fst).Nodup)
    (hfields : ∀ m ∈ ms, ∀ f, fields.find? (·.name == m.1) = some f → Agrees f.read (f.ofValue m.2) m.2) :
    Agrees (record name start fields).read ((record name start fields).ofValue (.object ms)) (.object ms) := by
  intro blanks t rest hb ht hrest
  have hpeek : Gets Reader.peek? (some '\x7b') blanks (t ++ rest) := by
    obtain ⟨c, hc, hpeek⟩ := exists_peek? hb ht rest
    cases hc
    exact hpeek
  have hbody : ∀ body, Ahead true ms body → ms.length ≤ body.length → t = '\x7b' :: (body ++ ['\x7d']) →
      Reads (record name start fields).read ((record name start fields).ofValue (.object ms))
        (blanks ++ t) rest := by
    rintro body hahead hlen rfl
    refine hpeek.reads (Gets.reads (t := ['\x7b']) (gets_skip '\x7b' _) (Reads.get fun i hi => ?_))
    have hfuel : ms.length < i.rest.length + 1 := by
      simp only [hi, List.append_eq, List.length_append]
      omega
    have hnone : ∀ m ∈ ms, m.1 ∉ ([] : List String) := by simp
    exact Reads.between (reads_members hfields hnone hnodup hfuel hahead start rest)
  cases ht with
  | @noMembers space hspace => exact hbody space (.done hspace) (by simp) rfl
  | @members _ body h =>
    refine hbody body (.first h) (length_le_of_denotesItems h ?_) rfl
    intro m t hm
    cases hm
    simp

/-- A text with nothing but blanks around a value, written in any way that JSON has. -/
def Holding (v : Value) (text : String) : Prop := Holds .free v text

theorem parse_eq_ok_iff {s : Shape α} (h : Agrees s.read (s.ofValue v) v) {text : String}
    (htext : Holding v text) (a : α) : s.parse text = .ok a ↔ s.ofValue v = .ok a := by
  obtain ⟨before, t, after, hb, ht, hafter, heq⟩ := htext
  have hend : Gets Reader.peek? none after [] := gets_peek? hafter (by simp)
  have hread : Reads s.complete (s.ofValue v) (before ++ t ++ after) [] := by
    have hfollows : Follows (after ++ []) := follows_nil.behind_blanks hafter
    rw [← bind_pure (s.ofValue v)]
    refine (h before t _ hb ht hfollows).bind fun a _ => ?_
    rw [← List.append_nil after]
    exact Gets.reads (t := after) (u := []) hend (reads_pure a [])
  have hinput : Input.ofText text = ⟨before ++ t ++ after ++ [], 0⟩ := by
    rw [Input.ofText, heq, List.append_nil]
  cases hvalue : s.ofValue v with
  | ok b =>
    obtain ⟨offset, hcomplete⟩ := hread.1 b hvalue 0
    rw [parse, hinput, hcomplete]
    simp
  | error e =>
    obtain ⟨fault, hcomplete⟩ := hread.2 e hvalue 0
    simp only [parse, hinput, hcomplete]
    cases fault <;> simp

end records

end Shape

end Abnf.Json
