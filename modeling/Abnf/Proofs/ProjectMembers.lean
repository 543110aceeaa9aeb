import Abnf.Project.Reading
import Abnf.Proofs.RecordMembers
import Mathlib.Data.List.Forall2

/-! Project files by their members. What a project takes from an object, and whether it takes it at all, is
told by nine members that are no objects themselves. -/

namespace Abnf

open Json Json.Shape

namespace Text

/-- Equal up to the case of ASCII letters. -/
def SameLetter (c d : Char) : Prop :=
  c = d ∨ c.isUpper = true ∧ d.toNat = c.toNat + 32 ∨ d.isUpper = true ∧ c.toNat = d.toNat + 32

def SameWord (s t : String) : Prop := List.Forall₂ SameLetter s.toList t.toList

theorem isUpper_iff (c : Char) : c.isUpper = true ↔ 65 ≤ c.toNat ∧ c.toNat ≤ 90 := by
  show decide (c.val ≥ 'A'.val ∧ c.val ≤ 'Z'.val) = true ↔ _
  simp [UInt32.le_iff_toNat_le]

theorem toNat_toLower (c : Char) : c.toLower.toNat = if c.isUpper then c.toNat + 32 else c.toNat := by
  by_cases h : c.isUpper = true
  · have hrange := (isUpper_iff c).mp h
    have hlower : c.toLower = ⟨c.val + 32, _⟩ := dif_pos (of_decide_eq_true h)
    have hadd : (c.val + 32).toNat = (c.toNat + 32) % 2 ^ 32 := UInt32.toNat_add c.val 32
    rw [if_pos h, hlower]
    show (c.val + 32).toNat = _
    omega
  · have hlower : c.toLower = c := dif_neg fun hval => h (decide_eq_true hval)
    rw [if_neg h, hlower]

theorem sameLetter_iff (c d : Char) : SameLetter c d ↔ c.toLower = d.toLower := by
  have hc := isUpper_iff c
  have hd := isUpper_iff d
  rw [SameLetter, ← Char.toNat_inj, ← Char.toNat_inj (c := c.toLower), toNat_toLower, toNat_toLower]
  split <;> split <;> simp_all <;> omega

theorem sameWord_iff (s t : String) : SameWord s t ↔ foldCase s = foldCase t := by
  have hletters : SameLetter = fun c d => c.toLower = d.toLower := by
    funext c d
    exact propext (sameLetter_iff c d)
  rw [SameWord, hletters, foldCase, foldCase, String.ofList_inj, ← List.forall₂_eq_eq_eq,
    List.forall₂_map_left_iff, List.forall₂_map_right_iff]

end Text

/-- The text is one of the words, in any case. -/
def Json.Value.Names {α : Type} (words : List (String × α)) (v : Value) (a : α) : Prop :=
  ∃ name word, v = .string name ∧ (word, a) ∈ words ∧ Text.SameWord name word

def Log.Level.words : List (String × Level) :=
  [("silent", .error), ("error", .error), ("warn", .warn), ("info", .info), ("debug", .debug),
    ("trace", .trace)]

theorem Log.Level.names_name (level : Level) : (Value.string level.name).Names words level := by
  refine ⟨_, level.name, rfl, ?_, (Text.sameWord_iff _ _).mpr rfl⟩
  cases level <;> decide

def Format.words : List (String × Format) := [("text", .text), ("json", .json)]

def Format.name : Format → String
  | .text => "text"
  | .json => "json"

theorem Format.names_name (format : Format) : (Value.string format.name).Names words format := by
  refine ⟨_, format.name, rfl, ?_, (Text.sameWord_iff _ _).mpr rfl⟩
  cases format <;> decide

theorem Log.Level.parse_eq_ok_iff (name : String) (level : Level) :
    parse name = .ok level ↔ (Text.foldCase name, level) ∈ words := by
  have hparse : parse name = .ok level ↔ ofName? name = some level := by
    cases hname : ofName? name <;> simp [parse, hname]
  rw [hparse, ofName?]
  split <;> simp_all [words] <;> exact eq_comm

theorem Format.parse_eq_ok_iff (name : String) (format : Format) :
    parse name = .ok format ↔ (Text.foldCase name, format) ∈ words := by
  rw [parse]
  split <;> simp_all [words] <;> exact eq_comm

theorem makes_names_iff {α ε : Type} {parse : String → Except ε α} {words : List (String × α)}
    (message : ε → String) (hsmall : ∀ w ∈ words, Text.foldCase w.1 = w.1)
    (hparse : ∀ name a, parse name = .ok a ↔ (Text.foldCase name, a) ∈ words) (v : Value) (a : α) :
    (named parse message).Makes v a ↔ v.Names words a := by
  rw [makes_named_iff]
  constructor
  · rintro ⟨name, rfl, hname⟩
    have hmem := (hparse name a).mp hname
    exact ⟨name, _, rfl, hmem, (Text.sameWord_iff _ _).mpr (hsmall _ hmem).symm⟩
  · rintro ⟨name, word, rfl, hmem, hsame⟩
    have hfold : Text.foldCase name = word := by
      rw [(Text.sameWord_iff _ _).mp hsame]
      exact hsmall _ hmem
    exact ⟨name, rfl, (hparse name a).mpr (hfold ▸ hmem)⟩

theorem Log.Level.makes_iff (v : Value) (level : Level) : shape.Makes v level ↔ v.Names words level :=
  makes_names_iff _ (by decide) parse_eq_ok_iff v level

theorem Format.makes_iff (v : Value) (format : Format) : shape.Makes v format ↔ v.Names words format :=
  makes_names_iff _ (by decide) parse_eq_ok_iff v format

namespace Project

/-- A member that is no object: where it stands, what it may be, what it is if it is not there, and where the
project has it. -/
structure Leaf where
  {β : Type}
  path : List String
  Means : Value → β → Prop
  default : β
  get : Project → β

def leaves : List Leaf :=
  [⟨["entry"], OrNull Value.IsText, none, (·.entry)⟩,
    ⟨["log_level"], OrNull (Value.Names Log.Level.words), none, (·.logLevel)⟩,
    ⟨["log_file"], OrNull Value.IsText, none, (·.logFile)⟩,
    ⟨["strict"], Value.IsSwitch, false, (·.strict)⟩,
    ⟨["lexer", "collect_diagnostics"], Value.IsSwitch, true, (·.lexer.collectDiagnostics)⟩,
    ⟨["lexer", "trace_tokens"], Value.IsSwitch, false, (·.lexer.traceTokens)⟩,
    ⟨["output", "format"], Value.Names Format.words, .text, (·.output.format)⟩,
    ⟨["output", "show_source"], Value.IsSwitch, false, (·.output.showSource)⟩,
    ⟨["output", "show_timing"], Value.IsSwitch, false, (·.output.showTiming)⟩]

/-- An object, with objects where some members of it are grouped. -/
structure Outline (v : Value) : Prop where
  object : v.IsObject
  lexer : ∀ w ∈ v.member? "lexer", w.IsObject
  output : ∀ w ∈ v.member? "output", w.IsObject

/-- Each member that is there is what it may be. -/
def Acceptable (v : Value) : Prop := ∀ l ∈ leaves, ∀ w ∈ v.under? l.path, ∃ b, l.Means w b

/-- The project has what the members mean, and the default for each one that is not there. -/
def Describes (v : Value) (p : Project) : Prop :=
  ∀ l ∈ leaves, Given l.Means l.default (v.under? l.path) (l.get p)

theorem makes_optional_text_iff (v : Value) (o : Option String) :
    (optional text).Makes v o ↔ OrNull Value.IsText v o :=
  makes_optional_iff makes_text_iff (by simp [Value.IsText]) v o

theorem makes_optional_level_iff (v : Value) (o : Option Log.Level) :
    (optional Log.Level.shape).Makes v o ↔ OrNull (Value.Names Log.Level.words) v o :=
  makes_optional_iff Log.Level.makes_iff (by simp [Value.Names]) v o

theorem leaf_shapes : ∀ l ∈ leaves, ∃ s : Shape l.β, ∀ v b, s.Makes v b ↔ l.Means v b := by
  simp only [leaves, List.forall_mem_cons]
  exact ⟨⟨_, makes_optional_text_iff⟩, ⟨_, makes_optional_level_iff⟩, ⟨_, makes_optional_text_iff⟩,
    ⟨_, makes_boolean_iff⟩, ⟨_, makes_boolean_iff⟩, ⟨_, makes_boolean_iff⟩, ⟨_, Format.makes_iff⟩,
    ⟨_, makes_boolean_iff⟩, ⟨_, makes_boolean_iff⟩, by simp⟩

theorem eq_of_leaves {p p' : Project} (h : ∀ l ∈ leaves, l.get p = l.get p') : p = p' := by
  simp only [leaves, List.forall_mem_cons] at h
  obtain ⟨hentry, hlevel, hfile, hstrict, hcollect, htrace, hformat, hsource, htiming, -⟩ := h
  obtain ⟨entry, level, file, ⟨collect, trace⟩, ⟨format, source, timing⟩, strict⟩ := p
  obtain ⟨entry', level', file', ⟨collect', trace'⟩, ⟨format', source', timing'⟩, strict'⟩ := p'
  simp_all

theorem Describes.unique {v : Value} {p p' : Project} (h : Describes v p) (h' : Describes v p') : p = p' := by
  refine eq_of_leaves fun l hl => ?_
  obtain ⟨s, hs⟩ := leaf_shapes l hl
  refine (h l hl).unique (h' l hl) fun w b b' hb hb' => ?_
  exact ((hs w b).mpr hb).unique ((hs w b').mpr hb')

theorem Describes.acceptable {v : Value} {p : Project} (h : Describes v p) : Acceptable v :=
  fun l hl => (h l hl).exists_means

end Project

theorem Lexer.Options.exists_fields : ∃ fields, shape = record "LexerConfig" {} fields ∧
    Shows fields "collect_diagnostics" boolean collectDiagnostics ∧
    Shows fields "trace_tokens" boolean traceTokens := by
  refine ⟨_, rfl, ⟨⟨_, rfl, fun _ _ => rfl⟩, ?_⟩, ⟨_, rfl, fun _ _ => rfl⟩, ?_⟩ <;>
    simp

theorem Display.exists_fields : ∃ fields, shape = record "OutputConfig" {} fields ∧
    Shows fields "format" Format.shape format ∧ Shows fields "show_source" boolean showSource ∧
    Shows fields "show_timing" boolean showTiming := by
  refine ⟨_, rfl, ⟨⟨_, rfl, fun _ _ => rfl⟩, ?_⟩, ⟨⟨_, rfl, fun _ _ => rfl⟩, ?_⟩,
    ⟨_, rfl, fun _ _ => rfl⟩, ?_⟩ <;> simp

namespace Project

variable {β : Type} {v : Value} {p : Project}

theorem exists_fields : ∃ fields, shape = record "ProjectConfig" {} fields ∧
    Shows fields "entry" (optional text) entry ∧
    Shows fields "log_level" (optional Log.Level.shape) logLevel ∧
    Shows fields "log_file" (optional text) logFile ∧ Shows fields "lexer" Lexer.Options.shape lexer ∧
    Shows fields "output" Display.shape output ∧ Shows fields "strict" boolean strict := by
  refine ⟨_, rfl, ⟨⟨_, rfl, fun _ _ => rfl⟩, ?_⟩, ⟨⟨_, rfl, fun _ _ => rfl⟩, ?_⟩,
    ⟨⟨_, rfl, fun _ _ => rfl⟩, ?_⟩, ⟨⟨_, rfl, fun _ _ => rfl⟩, ?_⟩, ⟨⟨_, rfl, fun _ _ => rfl⟩, ?_⟩,
    ⟨_, rfl, fun _ _ => rfl⟩, ?_⟩ <;> simp

theorem describes_of_makes (h : Outline v) (hp : shape.Makes v p) : Describes v p := by
  obtain ⟨fields, hshape, hentry, hlevel, hfile, hlexer, houtput, hstrict⟩ := exists_fields
  obtain ⟨options, hoptions, hcollect, htrace⟩ := Lexer.Options.exists_fields
  obtain ⟨displays, hdisplay, hformat, hsource, htiming⟩ := Display.exists_fields
  have hself : ∀ w ∈ some v, w.IsObject := fun w hw => Option.some.inj hw ▸ h.object
  rw [hshape] at hp
  have hgiven : Given (record "ProjectConfig" {} fields).Makes {} (some v) p := .present hp
  have hlexer' := hlexer.given hself hgiven
  have houtput' := houtput.given hself hgiven
  rw [hoptions] at hlexer'
  rw [hdisplay] at houtput'
  simp only [Describes, leaves, List.forall_mem_cons, Value.under?_one, Value.under?_two]
  exact ⟨hentry.means makes_optional_text_iff hself hgiven,
    hlevel.means makes_optional_level_iff hself hgiven, hfile.means makes_optional_text_iff hself hgiven,
    hstrict.means makes_boolean_iff hself hgiven, hcollect.means makes_boolean_iff h.lexer hlexer',
    htrace.means makes_boolean_iff h.lexer hlexer', hformat.means Format.makes_iff h.output houtput',
    hsource.means makes_boolean_iff h.output houtput', htiming.means makes_boolean_iff h.output houtput',
    by simp⟩

theorem exists_makes_lexer (h : v.IsObject)
    (hcollect : ∀ w ∈ v.member? "collect_diagnostics", ∃ b, w.IsSwitch b)
    (htrace : ∀ w ∈ v.member? "trace_tokens", ∃ b, w.IsSwitch b) :
    ∃ o, Lexer.Options.shape.Makes v o := by
  refine exists_makes_record _ _ h ?_
  simp only [List.forall_mem_cons]
  exact ⟨fun w hw => exists_ofValue_field makes_boolean_iff (hcollect w hw),
    fun w hw => exists_ofValue_field makes_boolean_iff (htrace w hw), by simp⟩

theorem exists_makes_output (h : v.IsObject)
    (hformat : ∀ w ∈ v.member? "format", ∃ f, w.Names Format.words f)
    (hsource : ∀ w ∈ v.member? "show_source", ∃ b, w.IsSwitch b)
    (htiming : ∀ w ∈ v.member? "show_timing", ∃ b, w.IsSwitch b) :
    ∃ d, Display.shape.Makes v d := by
  refine exists_makes_record _ _ h ?_
  simp only [List.forall_mem_cons]
  exact ⟨fun w hw => exists_ofValue_field Format.makes_iff (hformat w hw),
    fun w hw => exists_ofValue_field makes_boolean_iff (hsource w hw),
    fun w hw => exists_ofValue_field makes_boolean_iff (htiming w hw), by simp⟩

theorem exists_makes (h : Outline v) (hv : Acceptable v) : ∃ p, shape.Makes v p := by
  simp only [Acceptable, leaves, List.forall_mem_cons, Value.under?_one, Value.under?_two] at hv
  obtain ⟨hentry, hlevel, hfile, hstrict, hcollect, htrace, hformat, hsource, htiming, -⟩ := hv
  have hlexer : ∀ w ∈ v.member? "lexer", ∃ o, Lexer.Options.shape.Makes w o := by
    intro w hw
    rw [hw] at hcollect htrace
    exact exists_makes_lexer (h.lexer w hw) hcollect htrace
  have houtput : ∀ w ∈ v.member? "output", ∃ d, Display.shape.Makes w d := by
    intro w hw
    rw [hw] at hformat hsource htiming
    exact exists_makes_output (h.output w hw) hformat hsource htiming
  refine exists_makes_record _ _ h.object ?_
  simp only [List.forall_mem_cons]
  exact ⟨fun w hw => exists_ofValue_field makes_optional_text_iff (hentry w hw),
    fun w hw => exists_ofValue_field makes_optional_level_iff (hlevel w hw),
    fun w hw => exists_ofValue_field makes_optional_text_iff (hfile w hw),
    fun w hw => exists_ofValue_field (fun _ _ => Iff.rfl) (hlexer w hw),
    fun w hw => exists_ofValue_field (fun _ _ => Iff.rfl) (houtput w hw),
    fun w hw => exists_ofValue_field makes_boolean_iff (hstrict w hw), by simp⟩

theorem makes_iff_describes (h : Outline v) (p : Project) : shape.Makes v p ↔ Describes v p := by
  -- some project is read where one is described, and the members describe no other
  refine ⟨describes_of_makes h, fun hp => ?_⟩
  obtain ⟨p', hp'⟩ := exists_makes h hp.acceptable
  rwa [hp.unique (describes_of_makes h hp')]

theorem agrees_shape (h : Outline v) : Agrees shape.read (shape.ofValue v) v := by
  have hlexer : ∀ w ∈ v.member? "lexer", Agrees Lexer.Options.shape.read (Lexer.Options.shape.ofValue w) w := by
    intro w hw
    refine agrees_record _ _ (h.lexer w hw) ?_
    simp only [List.forall_mem_cons]
    exact ⟨fun u _ => agrees_field _ _ (agrees_boolean u), fun u _ => agrees_field _ _ (agrees_boolean u),
      by simp⟩
  have houtput : ∀ w ∈ v.member? "output", Agrees Display.shape.read (Display.shape.ofValue w) w := by
    intro w hw
    refine agrees_record _ _ (h.output w hw) ?_
    simp only [List.forall_mem_cons]
    exact ⟨fun u _ => agrees_field _ _ (agrees_named _ _ u), fun u _ => agrees_field _ _ (agrees_boolean u),
      fun u _ => agrees_field _ _ (agrees_boolean u), by simp⟩
  refine agrees_record _ _ h.object ?_
  simp only [List.forall_mem_cons]
  exact ⟨fun w _ => agrees_field _ _ (agrees_optional (agrees_text w)),
    fun w _ => agrees_field _ _ (agrees_optional (agrees_named _ _ w)),
    fun w _ => agrees_field _ _ (agrees_optional (agrees_text w)),
    fun w hw => agrees_field _ _ (hlexer w hw), fun w hw => agrees_field _ _ (houtput w hw),
    fun w _ => agrees_field _ _ (agrees_boolean w), by simp⟩

/-- The object that spells the project out. -/
def json (p : Project) : Value :=
  .object
    [("entry", .ofOption .string p.entry),
      ("log_level", .ofOption (fun level => .string level.name) p.logLevel),
      ("log_file", .ofOption .string p.logFile),
      ("lexer", .object
        [("collect_diagnostics", .boolean p.lexer.collectDiagnostics),
          ("trace_tokens", .boolean p.lexer.traceTokens)]),
      ("output", .object
        [("format", .string p.output.format.name),
          ("show_source", .boolean p.output.showSource),
          ("show_timing", .boolean p.output.showTiming)]),
      ("strict", .boolean p.strict)]

/-- Each member is the one that spells the project out, or is left out where the project has the default. -/
def SpelledBy (p : Project) (v : Value) : Prop :=
  ∀ l ∈ leaves, v.under? l.path = p.json.under? l.path ∨ v.under? l.path = none ∧ l.get p = l.default

theorem orNull_ofOption {Means : Value → β → Prop} {write : β → Value} (h : ∀ b, Means (write b) b)
    (o : Option β) : OrNull Means (.ofOption write o) o := by
  cases o with
  | none => exact .null
  | some b => exact .given (h b)

theorem outline_json (p : Project) : Outline p.json where
  object := ⟨_, rfl, by simp⟩
  lexer := by
    rintro w hw
    obtain rfl := Option.some.inj hw
    exact ⟨_, rfl, by simp⟩
  output := by
    rintro w hw
    obtain rfl := Option.some.inj hw
    exact ⟨_, rfl, by simp⟩

theorem json_leaf (p : Project) : ∀ l ∈ leaves, ∃ w, p.json.under? l.path = some w ∧ l.Means w (l.get p) := by
  simp only [leaves, List.forall_mem_cons]
  exact ⟨⟨_, rfl, orNull_ofOption Value.isText_string p.entry⟩,
    ⟨_, rfl, orNull_ofOption Log.Level.names_name p.logLevel⟩,
    ⟨_, rfl, orNull_ofOption Value.isText_string p.logFile⟩, ⟨_, rfl, rfl⟩, ⟨_, rfl, rfl⟩, ⟨_, rfl, rfl⟩,
    ⟨_, rfl, Format.names_name p.output.format⟩, ⟨_, rfl, rfl⟩, ⟨_, rfl, rfl⟩, by simp⟩

theorem SpelledBy.describes (h : p.SpelledBy v) : Describes v p := by
  intro l hl
  rcases h l hl with hsame | ⟨hnone, hdefault⟩
  · obtain ⟨w, hw, hmeans⟩ := p.json_leaf l hl
    rw [hsame, hw]
    exact .present hmeans
  · rw [hnone, hdefault]
    exact .absent

theorem fits_json (w : Manner) (p : Project) : p.json.Fits w := by
  refine .object ?_
  simp [Value.Fits.boolean, Value.Fits.string, Value.fits_ofOption, Value.Fits.object]

theorem Describes.congr {v' : Value} (h : ∀ l ∈ leaves, v'.under? l.path = v.under? l.path) (p : Project) :
    Describes v' p ↔ Describes v p :=
  forall₂_congr fun l hl => by rw [h l hl]

/-- Whether an object is taken for a project, and for which one, is told by the members that a project knows,
wherever they stand and whatever else is there. Every project can be spelled out, with or without its
defaults. -/
theorem known_members_make_project (h : Outline v) :
    ((∃ p, shape.ofValue v = .ok p) ↔ Acceptable v) ∧
      (∀ p, shape.ofValue v = .ok p ↔ Describes v p) ∧
      (∀ text, Holding v text → ∀ p, parse text = .ok p ↔ shape.ofValue v = .ok p) ∧
      (∀ v', Outline v' → (∀ l ∈ leaves, v'.under? l.path = v.under? l.path) →
        ∀ p, shape.ofValue v' = .ok p ↔ shape.ofValue v = .ok p) ∧
      (∀ p, SpelledBy p v → shape.ofValue v = .ok p) ∧
      ∀ p, Outline (json p) ∧ shape.ofValue (json p) = .ok p ∧ parse (p.json.pretty ++ "\n") = .ok p := by
  have hmakes := makes_iff_describes h
  refine ⟨?_, hmakes, ?_, ?_, ?_, ?_⟩
  · constructor
    · rintro ⟨p, hp⟩
      exact ((hmakes p).mp hp).acceptable
    · exact exists_makes h
  · exact fun text htext p => parse_eq_ok_iff (agrees_shape h) htext p
  · intro v' h' hsame p
    exact (makes_iff_describes h' p).trans ((Describes.congr hsame p).trans (hmakes p).symm)
  · exact fun p hp => (hmakes p).mpr hp.describes
  · intro p
    have houtline := p.outline_json
    have hjson : shape.ofValue p.json = .ok p := by
      refine (makes_iff_describes houtline p).mpr (SpelledBy.describes fun l _ => ?_)
      exact .inl rfl
    have hholding := (p.fits_json .free).holds_pretty
    exact ⟨houtline, hjson, (parse_eq_ok_iff (agrees_shape houtline) hholding p).mpr hjson⟩

/-- Names in capitals, members that no project knows, and an order of its own. -/
def capitals : Value :=
  .object
    [("strict", .boolean true), ("colors", .array [.null]), ("log_level", .string "Silent"),
      ("output", .object [("width", .string "80"), ("format", .string "JSON")])]

theorem known_members_of_capitals : Outline capitals ∧ Holding capitals (capitals.pretty ++ "\n") ∧
    parse (capitals.pretty ++ "\n") =
      .ok { logLevel := some .error, output := { format := .json }, strict := true } := by
  have h : Outline capitals := by
    refine ⟨⟨_, rfl, by simp⟩, fun w hw => (nomatch (show none = some w from hw)), fun w hw => ?_⟩
    obtain rfl := Option.some.inj hw
    exact ⟨_, rfl, by simp⟩
  have hfits : capitals.Fits .free := by
    refine .object ?_
    simp [Value.Fits.null, Value.Fits.boolean, Value.Fits.string, Value.Fits.array, Value.Fits.object]
  have hsilent : Text.SameWord "Silent" "silent" := (Text.sameWord_iff _ _).mpr (by decide)
  have hjson : Text.SameWord "JSON" "json" := (Text.sameWord_iff _ _).mpr (by decide)
  have hholding := hfits.holds_pretty
  obtain ⟨-, hmakes, hparse, -⟩ := known_members_make_project h
  refine ⟨h, hholding, (hparse _ hholding _).mpr ((hmakes _).mpr ?_)⟩
  simp only [Describes, leaves, List.forall_mem_cons]
  exact ⟨.absent, .present (.given ⟨_, _, rfl, by decide, hsilent⟩), .absent, .present rfl, .absent, .absent,
    .present ⟨_, _, rfl, by decide, hjson⟩, .absent, .absent, by simp⟩

end Project

end Abnf
