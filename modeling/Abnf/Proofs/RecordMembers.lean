import Abnf.Proofs.ShapeReading

/-! What a record takes from an object: the members that it has fields for, and its own values where there
are none. -/

namespace Abnf.Json

namespace Value

def member? : Value → String → Option Value
  | .object ms, key => ms.lookup key
  | _, _ => none

/-- What stands at the end of a path of keys. -/
def under? (v : Value) (path : List String) : Option Value := path.foldlM member? v

/-- An object with distinct keys. -/
def IsObject (v : Value) : Prop := ∃ ms, v = .object ms ∧ (ms.map Prod.fst).Nodup

def IsText (v : Value) (s : String) : Prop := v = .string s

def IsSwitch (v : Value) (b : Bool) : Prop := v = .boolean b

theorem isText_string (s : String) : (string s).IsText s := rfl

theorem under?_one (v : Value) (key : String) : v.under? [key] = v.member? key := by simp [under?]

theorem under?_two (v : Value) (key inner : String) :
    v.under? [key, inner] = (v.member? key).bind (·.member? inner) := by simp [under?]

theorem member?_of_mem {ms : List (String × Value)} (h : (ms.map Prod.fst).Nodup) {key : String} {v : Value}
    (hv : (key, v) ∈ ms) : member? (.object ms) key = some v := by
  obtain ⟨before, after, rfl⟩ := List.append_of_mem hv
  refine List.lookup_eq_some_iff.mpr ⟨before, after, rfl, fun m hm => ?_⟩
  rw [List.map_append, List.nodup_append] at h
  have hne := h.2.2 m.1 (List.mem_map_of_mem hm) key (by simp)
  simpa using hne.symm

end Value

section members

variable {α β : Type} {Means Means' : Value → β → Prop} {default b b' : β} {o : Option Value} {v : Value}

/-- What is there has a meaning; for what is not stands the default. -/
inductive Given (Means : Value → β → Prop) (default : β) : Option Value → β → Prop
  | absent : Given Means default none default
  | present {v : Value} {b : β} (h : Means v b) : Given Means default (some v) b

theorem Given.imp (h : Given Means default o b) (himp : ∀ v b, Means v b → Means' v b) :
    Given Means' default o b := by
  cases h with
  | absent => exact .absent
  | present h => exact .present (himp _ _ h)

theorem Given.unique (h : Given Means default o b) (h' : Given Means default o b')
    (hunique : ∀ v b b', Means v b → Means v b' → b = b') : b = b' := by
  cases h with
  | absent =>
    cases h'
    rfl
  | present h =>
    cases h' with
    | present h' => exact hunique _ _ _ h h'

theorem Given.eq_default (h : Given Means default none b) : b = default := by
  cases h
  rfl

theorem Given.exists_means (h : Given Means default o b) : ∀ v ∈ o, ∃ b, Means v b := by
  rintro v rfl
  cases h with
  | present h => exact ⟨b, h⟩

/-- Null for nothing. -/
inductive OrNull (Means : Value → β → Prop) : Value → Option β → Prop
  | null : OrNull Means .null none
  | given {v : Value} {b : β} (h : Means v b) : OrNull Means v (some b)

end members

namespace Shape

variable {α β : Type} {s : Shape β} {v : Value}

def Makes (s : Shape α) (v : Value) (a : α) : Prop := s.ofValue v = .ok a

theorem Makes.unique {b b' : β} (h : s.Makes v b) (h' : s.Makes v b') : b = b' :=
  Except.ok.inj (h.symm.trans h')

theorem makes_boolean_iff (v : Value) (b : Bool) : boolean.Makes v b ↔ v.IsSwitch b := by
  cases v <;> simp [Makes, boolean, Value.IsSwitch]

theorem makes_text_iff (v : Value) (t : String) : text.Makes v t ↔ v.IsText t := by
  cases v <;> simp [Makes, text, Value.IsText]

/-- The inner shape must not take null for something. -/
theorem makes_optional_iff {Means : Value → β → Prop} (h : ∀ v b, s.Makes v b ↔ Means v b)
    (hnull : ∀ b, ¬ Means .null b) (v : Value) (o : Option β) :
    (optional s).Makes v o ↔ OrNull Means v o := by
  have hmap : (s.ofValue v).map some = .ok o ↔ ∃ b, o = some b ∧ s.Makes v b := by
    cases hvalue : s.ofValue v <;> simp [Except.map, Makes, hvalue, eq_comm]
  have hmakes : v ≠ .null → ((optional s).Makes v o ↔ (s.ofValue v).map some = .ok o) := by
    intro hv
    cases v <;> first | exact absurd rfl hv | rfl
  by_cases hv : v = .null
  · subst hv
    constructor
    · intro ho
      rw [← Except.ok.inj ho]
      exact .null
    · intro ho
      cases ho with
      | null => rfl
      | given hb => exact absurd hb (hnull _)
  · rw [hmakes hv, hmap]
    constructor
    · rintro ⟨b, rfl, hb⟩
      exact .given ((h v b).mp hb)
    · intro ho
      cases ho with
      | null => exact absurd rfl hv
      | given hb => exact ⟨_, rfl, (h v _).mpr hb⟩

theorem makes_named_iff {ε : Type} (parse : String → Except ε α) (message : ε → String) (v : Value) (a : α) :
    (named parse message).Makes v a ↔ ∃ name, v = .string name ∧ parse name = .ok a := by
  cases v with
  | string name =>
    have hmakes : (named parse message).Makes (.string name) a ↔ parse name = .ok a := by
      cases hparse : parse name <;> simp [Makes, named, text, bind, Except.bind, pure, Except.pure, hparse]
    rw [hmakes]
    simp
  | _ => simp [Makes, named, text, bind, Except.bind]

section records

variable {name : String} {start a : α} {fields : List (Field α)} {key : String} {get : α → β}
  {set : β → α → α}

theorem ofValue_field_eq_ok_iff {g : α → α} :
    (field key s set).ofValue v = .ok g ↔ ∃ b, s.Makes v b ∧ set b = g := by
  show (s.ofValue v).map set = _ ↔ _
  cases hvalue : s.ofValue v <;> simp [Except.map, Makes, hvalue]

/-- What a record shows stays as it is when the field takes a member. -/
def Field.Keeps (f : Field α) (get : α → β) : Prop := ∀ v g, f.ofValue v = .ok g → ∀ a, get (g a) = get a

@[simp]
theorem name_field : (field key s set).name = key := rfl

@[simp]
theorem keeps_field {γ : Type} {shown : α → γ} (h : ∀ b a, shown (set b a) = shown a) :
    (field key s set).Keeps shown := by
  intro v g hg a
  obtain ⟨b, _, rfl⟩ := ofValue_field_eq_ok_iff.mp hg
  exact h b a

/-- The record has a field of some shape by that name, whose value it shows, and which no other field
changes. -/
structure Shows (fields : List (Field α)) (key : String) (s : Shape β) (get : α → β) : Prop where
  field : ∃ set, fields.find? (·.name == key) = some (Shape.field key s set) ∧ ∀ b a, get (set b a) = b
  others : ∀ f ∈ fields, f.name ≠ key → f.Keeps get

theorem mem_of_find?_name {f : Field α} (h : fields.find? (·.name == key) = some f) :
    f ∈ fields ∧ f.name = key :=
  ⟨List.mem_of_find?_eq_some h, by simpa using List.find?_some h⟩

theorem takeMember_eq_ok_iff {m : String × Value} {b : α} : takeMember fields a m = .ok b ↔
    (fields.find? (·.name == m.1) = none ∧ b = a) ∨
      ∃ f ∈ fields, f.name = m.1 ∧ fields.find? (·.name == m.1) = some f ∧
        ∃ g, f.ofValue m.2 = .ok g ∧ b = g a := by
  rw [takeMember]
  cases hfind : fields.find? (·.name == m.1) with
  | none => simp [eq_comm]
  | some f =>
    obtain ⟨hmem, hname⟩ := mem_of_find?_name hfind
    cases hvalue : f.ofValue m.2 <;> simp [bind, Except.bind, hmem, hname, hvalue, eq_comm]

theorem Shows.takeMember_self (h : Shows fields key s get) {b : α}
    (hb : takeMember fields a (key, v) = .ok b) : s.Makes v (get b) := by
  obtain ⟨set, hfind, hset⟩ := h.field
  rcases takeMember_eq_ok_iff.mp hb with ⟨hnone, _⟩ | ⟨f, _, _, hf, g, hg, rfl⟩
  · rw [hfind] at hnone
    cases hnone
  · obtain rfl : Shape.field key s set = f := by simpa [hfind] using hf
    obtain ⟨b, hmakes, rfl⟩ := ofValue_field_eq_ok_iff.mp hg
    rw [hset]
    exact hmakes

theorem Shows.takeMember_other (h : Shows fields key s get) {m : String × Value} (hm : m.1 ≠ key) {b : α}
    (hb : takeMember fields a m = .ok b) : get b = get a := by
  rcases takeMember_eq_ok_iff.mp hb with ⟨_, rfl⟩ | ⟨f, hf, hname, _, g, hg, rfl⟩
  · rfl
  · exact h.others f hf (hname ▸ hm) m.2 g hg a

theorem Shows.foldlM_takeMember (h : Shows fields key s get) {ms : List (String × Value)}
    (hnodup : (ms.map Prod.fst).Nodup) (ha : ms.foldlM (takeMember fields) start = .ok a) :
    Given s.Makes (get start) (ms.lookup key) (get a) := by
  induction ms generalizing start with
  | nil =>
    obtain rfl := Except.ok.inj ha
    exact .absent
  | cons m ms ih =>
    obtain ⟨hnotin, hnodup⟩ := List.nodup_cons.mp hnodup
    rw [List.foldlM_cons] at ha
    cases hb : takeMember fields start m with
    | error e =>
      rw [hb] at ha
      cases ha
    | ok b =>
      rw [hb] at ha
      have hrest := ih hnodup ha
      by_cases hm : m.1 = key
      · obtain ⟨k, w⟩ := m
        subst hm
        -- the key is not met again, so what is shown now is shown in the end
        have hnone : ms.lookup k = none := by
          refine List.lookup_eq_none_iff.mpr fun m' hm' => ?_
          have hmem : m'.1 ∈ ms.map Prod.fst := List.mem_map_of_mem hm'
          have hne : k ≠ m'.1 := fun hk => hnotin (hk ▸ hmem)
          simpa using hne
        rw [hnone] at hrest
        rw [hrest.eq_default, List.lookup_cons_self]
        exact .present (h.takeMember_self hb)
      · have hskip : (m :: ms).lookup key = ms.lookup key := by
          have hne : (key == m.1) = false := by simpa using Ne.symm hm
          rw [List.lookup_cons, hne]
        rw [h.takeMember_other hm hb] at hrest
        rwa [hskip]

/-- What a record within a value shows, if it is there. -/
theorem Shows.given (h : Shows fields key s get) {o : Option Value} (hobject : ∀ w ∈ o, w.IsObject)
    (ha : Given (record name start fields).Makes start o a) :
    Given s.Makes (get start) (o.bind (·.member? key)) (get a) := by
  cases ha with
  | absent => exact .absent
  | @present w _ hmakes =>
    obtain ⟨ms, rfl, hnodup⟩ := hobject w rfl
    rw [Makes, ofValue_record] at hmakes
    exact h.foldlM_takeMember hnodup hmakes

theorem Shows.means {Means : Value → β → Prop} (h : Shows fields key s get)
    (hmeans : ∀ v b, s.Makes v b ↔ Means v b) {o : Option Value} (hobject : ∀ w ∈ o, w.IsObject)
    (ha : Given (record name start fields).Makes start o a) :
    Given Means (get start) (o.bind (·.member? key)) (get a) :=
  (h.given hobject ha).imp fun w b => (hmeans w b).mp

theorem exists_foldlM_takeMember {ms : List (String × Value)}
    (h : ∀ m ∈ ms, ∀ f ∈ fields, f.name = m.1 → ∃ g, f.ofValue m.2 = .ok g) (start : α) :
    ∃ a, ms.foldlM (takeMember fields) start = .ok a := by
  induction ms generalizing start with
  | nil => exact ⟨start, rfl⟩
  | cons m ms ih =>
    obtain ⟨hm, hms⟩ := List.forall_mem_cons.mp h
    have hfirst : ∃ b, takeMember fields start m = .ok b := by
      rw [takeMember]
      cases hfind : fields.find? (·.name == m.1) with
      | none => exact ⟨start, rfl⟩
      | some f =>
        obtain ⟨hmem, hname⟩ := mem_of_find?_name hfind
        obtain ⟨g, hg⟩ := hm f hmem hname
        exact ⟨g start, by simp [hg, bind, Except.bind]⟩
    obtain ⟨b, hb⟩ := hfirst
    obtain ⟨a, ha⟩ := ih hms b
    exact ⟨a, by rw [List.foldlM_cons, hb]; exact ha⟩

/-- A record takes an object if each field takes the member that it is for. -/
theorem exists_makes_record (name : String) (start : α) (hv : v.IsObject)
    (h : ∀ f ∈ fields, ∀ w ∈ v.member? f.name, ∃ g, f.ofValue w = .ok g) :
    ∃ a, (record name start fields).Makes v a := by
  obtain ⟨ms, rfl, hnodup⟩ := hv
  refine exists_foldlM_takeMember (fun m hm f hf hname => ?_) start
  exact h f hf m.2 (hname ▸ Value.member?_of_mem hnodup hm)

theorem exists_ofValue_field {Means : Value → β → Prop} (hmeans : ∀ v b, s.Makes v b ↔ Means v b)
    (h : ∃ b, Means v b) : ∃ g, (field key s set).ofValue v = .ok g := by
  obtain ⟨b, hb⟩ := h
  exact ⟨set b, ofValue_field_eq_ok_iff.mpr ⟨b, (hmeans v b).mpr hb, rfl⟩⟩

theorem agrees_record (name : String) (start : α) (hv : v.IsObject)
    (h : ∀ f ∈ fields, ∀ w ∈ v.member? f.name, Agrees f.read (f.ofValue w) w) :
    Agrees (record name start fields).read ((record name start fields).ofValue v) v := by
  obtain ⟨ms, rfl, hnodup⟩ := hv
  refine agrees_record_object name start hnodup fun m hm f hfind => ?_
  obtain ⟨hmem, hname⟩ := mem_of_find?_name hfind
  exact h f hmem m.2 (hname ▸ Value.member?_of_mem hnodup hm)

end records

end Shape

end Abnf.Json
