import Abnf.Proofs.OutputRows

/-! The rows of tokens and diagnostics tell everything about them. A row is taken apart at its first colon
and its first blanks, which no number and no kind holds, and the text behind them is unescaped. -/

namespace Abnf

theorem injective_of_read {α : Type} {text : α → String} {read : String → Option α}
    (h : ∀ a, read (text a) = some a) : Function.Injective text := by
  intro a b hab
  have hb := h b
  rw [← hab, h a] at hb
  exact Option.some.inj hb

theorem Text.cut_toString {c : Char} (hc : ∀ d : Nat, d.digitChar ≠ c) (n : Nat) (rest : List Char) :
    cut c ((toString n).toList ++ c :: rest) = (Nat.toDigits 10 n, rest) := by
  rw [toList_toString]
  exact cut_append (notMem_toDigits (by decide) hc n) rest

namespace Kind

theorem ofName?_name (k : Kind) : ofName? k.name = some k := by
  cases k <;> decide

theorem blank_notMem_name (k : Kind) : ' ' ∉ k.name.toList := by
  cases k <;> decide

end Kind

namespace Token

/-- The token that a row shows. -/
def ofText? (row : String) : Option Token := do
  let (line, row) := Text.cut ':' row.toList
  let (column, row) := Text.cut ' ' row
  let (name, row) := Text.cut ' ' row
  let kind ← Kind.ofName? (String.ofList name)
  let value ← Text.unquoted? row
  return ⟨kind, value, ← Text.number? 10 line, ← Text.number? 10 column⟩

theorem ofText?_text (t : Token) : ofText? t.text = some t := by
  have hline := Text.cut_toString (c := ':') (fun _ => Nat.digitChar_ne ':' rfl) t.line
  have hcolumn := Text.cut_toString (c := ' ') (fun _ => Nat.digitChar_ne ' ' rfl) t.column
  have hname := Text.cut_append t.kind.blank_notMem_name
  simp only [ofText?, toList_text, hline, hcolumn, hname, String.ofList_toList, Kind.ofName?_name,
    Text.unquoted?_quoted, Text.number?_toDigits (b := 10) (by decide) (by decide)]
  rfl

theorem text_injective : Function.Injective text := injective_of_read ofText?_text

end Token

theorem splitOn_joinRows {rows : List String} (h : ∀ row ∈ rows, OneLine row) :
    (joinRows rows).toList.splitOn '\n' = rows.map String.toList ++ [[]] := by
  induction rows with
  | nil => rfl
  | cons row rows ih =>
    have hrest := ih fun r hr => h r (by simp [hr])
    have hrow : '\n' ∉ row.toList := h row (by simp)
    have hjoin : (joinRows (row :: rows)).toList = row.toList ++ '\n' :: (joinRows rows).toList := by
      simp [joinRows]
    rw [hjoin, List.splitOn_append_cons_self_of_not_mem hrow, hrest]
    rfl

/-- The tokens that are listed, one in each row. -/
def Token.ofListing? (listing : String) : Option (List Token) :=
  ((listing.toList.splitOn '\n').dropLast.map String.ofList).mapM Token.ofText?

theorem Tokenization.ofListing?_listing (t : Tokenization) :
    Token.ofListing? t.listing = some t.tokens := by
  have hrows : t.listing = joinRows (t.tokens.map Token.text) := by
    simp [listing, joinRows, Function.comp_def]
  have hone : ∀ row ∈ t.tokens.map Token.text, OneLine row := by simp [Token.oneLine_text]
  have hback : (t.tokens.map Token.text).mapM Token.ofText? = some t.tokens := by
    induction t.tokens with
    | nil => rfl
    | cons k tokens ih => simp [Token.ofText?_text, ih]
  rw [Token.ofListing?, hrows, splitOn_joinRows hone]
  simpa [Function.comp_def] using hback

namespace Problem

theorem toList_message_unrecognizedCharacter (c : Char) :
    (unrecognizedCharacter c).message.toList =
      "Unrecognized character ".toList ++ '\'' :: (Text.escapeChar .both c ++ ['\'']) := by
  have hmessage : (unrecognizedCharacter c).message =
      "Unrecognized character '" ++ Text.escapedChar c ++ "'" := rfl
  rw [hmessage]
  simp [Text.escapedChar]

theorem inline_message (p : Problem) : ∀ c ∈ p.message.toList, Text.isLineEnd c = false := by
  cases p with
  | unrecognizedCharacter c =>
    have hopening : ∀ x ∈ "Unrecognized character ".toList, Text.isLineEnd x = false :=
      Text.inline_of_all (by decide +kernel)
    have hchar := (Text.writes_escapeChar .both c).inline
    rw [toList_message_unrecognizedCharacter]
    simp only [List.forall_mem_append, List.forall_mem_cons]
    exact ⟨hopening, rfl, hchar, rfl, by simp⟩
  | unterminatedString | unterminatedRuleName => exact Text.inline_of_all (by decide +kernel)

/-- The problem that a message tells of. -/
def ofMessage? (message : List Char) : Option Problem :=
  let (start, rest) := Text.cut '\'' message
  if start = "Unrecognized character ".toList then
    (Text.readChar? rest).map fun (c, _) => unrecognizedCharacter c
  else [unterminatedString, unterminatedRuleName].find? (·.message.toList = message)

theorem ofMessage?_message (p : Problem) : ofMessage? p.message.toList = some p := by
  cases p with
  | unrecognizedCharacter c =>
    have hopening : '\'' ∉ "Unrecognized character ".toList := by decide +kernel
    have hread := (Text.writes_escapeChar .both c).readChar?_append ['\'']
    rw [toList_message_unrecognizedCharacter]
    simp only [ofMessage?, Text.cut_append hopening, if_true, hread, Option.map_some]
  | unterminatedString | unterminatedRuleName => decide +kernel

end Problem

namespace Diagnostic

theorem toList_text (d : Diagnostic) : d.text.toList =
    '[' :: ((toString d.line).toList ++ ':' :: ((toString d.column).toList ++ ']' ::
      ' ' :: d.problem.message.toList)) := by
  simp [text, message]

theorem inline_text (d : Diagnostic) : ∀ c ∈ d.text.toList, Text.isLineEnd c = false := by
  have hline := Text.inline_toDigits (b := 10) (by decide) d.line
  have hcolumn := Text.inline_toDigits (b := 10) (by decide) d.column
  have hmessage := d.problem.inline_message
  rw [toList_text, toList_toString, toList_toString]
  simp only [List.forall_mem_append, List.forall_mem_cons]
  exact ⟨rfl, hline, rfl, hcolumn, rfl, rfl, hmessage⟩

/-- The diagnostic that a row shows. -/
def ofText? (row : String) : Option Diagnostic := do
  let (line, row) := Text.cut ':' row.toList.tail
  let (column, row) := Text.cut ']' row
  let problem ← Problem.ofMessage? row.tail
  return ⟨problem, ← Text.number? 10 line, ← Text.number? 10 column⟩

theorem ofText?_text (d : Diagnostic) : ofText? d.text = some d := by
  have hline := Text.cut_toString (c := ':') (fun _ => Nat.digitChar_ne ':' rfl) d.line
  have hcolumn := Text.cut_toString (c := ']') (fun _ => Nat.digitChar_ne ']' rfl) d.column
  simp only [ofText?, toList_text, List.tail_cons, hline, hcolumn, Problem.ofMessage?_message,
    Text.number?_toDigits (b := 10) (by decide) (by decide)]
  rfl

theorem text_injective : Function.Injective text := injective_of_read ofText?_text

end Diagnostic

/-- What is put out as text can be read. The row of a token is one line, tells the token, and is that of
no other; a listing is cut into its rows and gives the tokens back. The same holds for the row of a
diagnostic. -/
theorem text_rows_read_back :
    (∀ t : Token, Token.ofText? t.text = some t ∧ '\n' ∉ t.text.toList ∧ '\r' ∉ t.text.toList) ∧
    Function.Injective Token.text ∧
    (∀ t : Tokenization, Token.ofListing? t.listing = some t.tokens) ∧
    (∀ d : Diagnostic,
      Diagnostic.ofText? d.text = some d ∧ '\n' ∉ d.text.toList ∧ '\r' ∉ d.text.toList) ∧
    Function.Injective Diagnostic.text :=
  ⟨fun t => ⟨t.ofText?_text, notMem_of_inline t.inline_text⟩, Token.text_injective,
    Tokenization.ofListing?_listing,
    fun d => ⟨d.ofText?_text, notMem_of_inline d.inline_text⟩, Diagnostic.text_injective⟩

end Abnf
