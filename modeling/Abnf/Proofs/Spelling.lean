import Abnf.Diagnostic
import Abnf.Lexer.Lead
import Abnf.Proofs.Boundary
import Abnf.Token

/-! How lexemes are written. A spelling has a text, a kind and a value; it says which texts may
stand behind it without being taken for a part of it. -/

namespace Abnf

namespace Text

/-- Blank, and not at the end of a line. -/
def isSpacing (c : Char) : Bool := isBlank c && !isLineEnd c

/-- The characters that no lexeme starts with. -/
def isUnrecognized (c : Char) : Bool :=
  !isBlank c && !isLetter c && !([';', '%', '"', '<', '/', '='].contains c)

theorem isBlank_of_isLineEnd {c : Char} (h : isLineEnd c = true) : isBlank c = true := by
  simp only [isLineEnd, Bool.or_eq_true, beq_iff_eq] at h
  rcases h with rfl | rfl <;> rfl

theorem isLineEnd_of_isBlank {c : Char} (h : isBlank c = false) : isLineEnd c = false := by
  cases hc : isLineEnd c with
  | false => rfl
  | true => rw [isBlank_of_isLineEnd hc] at h; exact h

theorem isTerminalBody_of_isLetter {c : Char} (h : isLetter c = true) :
    Lexer.isTerminalBody c = true := by
  simp only [isLetter] at h
  simp [Lexer.isTerminalBody, Char.isAlphanum, h]

theorem toNat_of_isAlphanum {c : Char} (h : c.isAlphanum = true) :
    48 ≤ c.toNat ∧ c.toNat ≤ 122 := by
  unfold Char.isAlphanum Char.isAlpha Char.isUpper Char.isLower Char.isDigit at h
  simp only [Bool.or_eq_true, Bool.and_eq_true, decide_eq_true_eq, ge_iff_le,
    UInt32.le_iff_toNat_le, Char.toNat_val, Char.reduceToNat] at h
  omega

theorem isBlank_of_isTerminalBody {c : Char} (h : Lexer.isTerminalBody c = true) :
    isBlank c = false := by
  simp only [Lexer.isTerminalBody, Bool.or_eq_true, beq_iff_eq] at h
  rcases h with (h | rfl) | rfl
  · have hc := toNat_of_isAlphanum h
    simp only [isBlank, inRanges, blankRanges, List.any_cons, List.any_nil, Bool.or_false,
      Bool.or_eq_false_iff, Bool.and_eq_false_iff, decide_eq_false_iff_not]
    omega
  · rfl
  · rfl

theorem isLineEnd_of_isTerminalBody {c : Char} (h : Lexer.isTerminalBody c = true) :
    isLineEnd c = false := isLineEnd_of_isBlank (isBlank_of_isTerminalBody h)

theorem isBlank_of_isUnrecognized {c : Char} (h : isUnrecognized c = true) : isBlank c = false := by
  simp only [isUnrecognized, Bool.and_eq_true, Bool.not_eq_true'] at h
  exact h.1.1

theorem isLetter_of_isUnrecognized {c : Char} (h : isUnrecognized c = true) :
    isLetter c = false := by
  simp only [isUnrecognized, Bool.and_eq_true, Bool.not_eq_true'] at h
  exact h.1.2

theorem isLineEnd_of_isUnrecognized {c : Char} (h : isUnrecognized c = true) :
    isLineEnd c = false := isLineEnd_of_isBlank (isBlank_of_isUnrecognized h)

theorem isLineEnd_of_isSpacing {c : Char} (h : isSpacing c = true) : isLineEnd c = false := by
  simp only [isSpacing, Bool.and_eq_true, Bool.not_eq_true'] at h
  exact h.2

theorem inline_of_spacing {gap : List Char} (hg : ∀ c ∈ gap, isSpacing c = true) :
    ∀ c ∈ gap, isLineEnd c = false := by
  intro c hc
  exact isLineEnd_of_isSpacing (hg c hc)

end Text

inductive Delimiters where
  | quotes
  | angles
deriving DecidableEq, Repr

namespace Delimiters

def opening : Delimiters → Char
  | quotes => '"'
  | angles => '<'

def closing : Delimiters → Char
  | quotes => '"'
  | angles => '>'

def kind : Delimiters → Kind
  | quotes => .stringLiteral
  | angles => .ruleName

def unterminated : Delimiters → Problem
  | quotes => .unterminatedString
  | angles => .unterminatedRuleName

end Delimiters

inductive Spelling where
  | lineEnd (e : LineEnd)
  | comment (body : List Char)
  | terminalValue (body : List Char)
  | delimited (d : Delimiters) (body : List Char) (closed : Bool)
  | ruleName (letters : List Char)
  | alternative
  | equals
  | unknown (c : Char)
deriving DecidableEq, Repr

def AtLineEnd (rest : List Char) : Prop := ∀ c ∈ rest.head?, Text.isLineEnd c = true

namespace Spelling

def text : Spelling → List Char
  | lineEnd e => e.text
  | comment body => ';' :: body
  | terminalValue body => '%' :: body
  | delimited d body closed => d.opening :: (body ++ if closed then [d.closing] else [])
  | ruleName letters => letters
  | alternative => ['/']
  | equals => ['=']
  | unknown c => [c]

def kind : Spelling → Kind
  | lineEnd _ => .endOfLine
  | comment _ => .comment
  | terminalValue _ => .terminalValue
  | delimited d _ _ => d.kind
  | ruleName _ => .ruleName
  | alternative => .alternative
  | equals => .equals
  | unknown _ => .unknown

def value : Spelling → String
  | comment body | terminalValue body | delimited _ body _ | ruleName body => String.ofList body
  | alternative => "/"
  | equals => "="
  | lineEnd _ | unknown _ => ""

def problem? : Spelling → Option Problem
  | delimited d _ false => some d.unterminated
  | unknown c => some (.unrecognizedCharacter c)
  | _ => none

/-- Every character is one that such a lexeme is made of. -/
def Valid : Spelling → Prop
  | comment body => ∀ c ∈ body, Text.isLineEnd c = false
  | terminalValue body => ∀ c ∈ body, Lexer.isTerminalBody c = true
  | delimited d body _ => ∀ c ∈ body, c ≠ d.closing ∧ Text.isLineEnd c = false
  | ruleName letters => letters ≠ [] ∧ ∀ c ∈ letters, Text.isLetter c = true
  | unknown c => Text.isUnrecognized c = true
  | lineEnd _ | alternative | equals => True

-- a quantifier over the characters of a text must not be decided by going through all characters
instance : DecidablePred Valid
  | comment body => List.decidableBAll (fun c => Text.isLineEnd c = false) body
  | terminalValue body => List.decidableBAll (fun c => Lexer.isTerminalBody c = true) body
  | delimited d body _ =>
    List.decidableBAll (fun c => c ≠ d.closing ∧ Text.isLineEnd c = false) body
  | ruleName letters =>
    have := List.decidableBAll (fun c => Text.isLetter c = true) letters
    inferInstanceAs (Decidable (letters ≠ [] ∧ _))
  | unknown c => inferInstanceAs (Decidable (Text.isUnrecognized c = true))
  | lineEnd _ | alternative | equals => inferInstanceAs (Decidable True)

/-- The lexeme ends where `rest` begins: none that starts with the same text is longer. -/
def EndsAt (rest : List Char) : Spelling → Prop
  | lineEnd e => IsBoundary e.text rest
  | comment _ => AtLineEnd rest
  | terminalValue _ => ∀ c ∈ rest.head?, Lexer.isTerminalBody c = false
  | delimited _ _ closed => closed = true ∨ AtLineEnd rest
  | ruleName _ => ∀ c ∈ rest.head?, Text.isLetter c = false
  | alternative | equals | unknown _ => True

theorem kind_ne_endOfInput (f : Spelling) : f.kind ≠ .endOfInput := by
  cases f with
  | delimited d => cases d <;> simp [kind, Delimiters.kind]
  | lineEnd | comment | terminalValue | ruleName | alternative | equals | unknown => simp [kind]

theorem eq_lineEnd_of_kind {f : Spelling} (hk : f.kind = .endOfLine) : ∃ e, f = lineEnd e := by
  cases f with
  | lineEnd e => exact ⟨e, rfl⟩
  | delimited d => cases d <;> simp [kind, Delimiters.kind] at hk
  | comment | terminalValue | ruleName | alternative | equals | unknown => simp [kind] at hk

theorem text_ne_nil {f : Spelling} (hv : f.Valid) : f.text ≠ [] := by
  cases f with
  | lineEnd e => exact e.text_ne_nil
  | ruleName letters => exact hv.1
  | comment | terminalValue | delimited | alternative | equals | unknown => simp [text]

theorem inline_text {f : Spelling} (hv : f.Valid) (hk : f.kind ≠ .endOfLine) :
    ∀ c ∈ f.text, Text.isLineEnd c = false := by
  intro c hc
  cases f with
  | lineEnd e => exact absurd rfl hk
  | comment body =>
    rcases List.mem_cons.mp hc with rfl | hc
    · rfl
    · exact hv c hc
  | terminalValue body =>
    rcases List.mem_cons.mp hc with rfl | hc
    · rfl
    · exact Text.isLineEnd_of_isTerminalBody (hv c hc)
  | delimited d body closed =>
    rcases List.mem_cons.mp hc with rfl | hc
    · cases d <;> rfl
    rcases List.mem_append.mp hc with hc | hc
    · exact (hv c hc).2
    · cases closed with
      | true =>
        obtain rfl : c = d.closing := by simpa using hc
        cases d <;> rfl
      | false => simp at hc
  | ruleName letters =>
    exact Text.isLineEnd_of_isTerminalBody (Text.isTerminalBody_of_isLetter (hv.2 c hc))
  | alternative | equals =>
    obtain rfl := List.mem_singleton.mp hc
    rfl
  | unknown x =>
    obtain rfl := List.mem_singleton.mp hc
    exact Text.isLineEnd_of_isUnrecognized hv

theorem lineEnds_text {f : Spelling} (hv : f.Valid) :
    lineEnds f.text = if f.kind = .endOfLine then 1 else 0 := by
  by_cases hk : f.kind = .endOfLine
  · obtain ⟨e, rfl⟩ := eq_lineEnd_of_kind hk
    rw [if_pos hk]
    exact e.lineEnds_text
  · rw [if_neg hk]
    exact lineEnds_of_inline (inline_text hv hk)

theorem isBoundary_text {f : Spelling} {rest : List Char} (hv : f.Valid) (he : f.EndsAt rest) :
    IsBoundary f.text rest := by
  by_cases hk : f.kind = .endOfLine
  · obtain ⟨e, rfl⟩ := eq_lineEnd_of_kind hk
    exact he
  · exact isBoundary_of_inline (inline_text hv hk)

end Spelling

end Abnf
