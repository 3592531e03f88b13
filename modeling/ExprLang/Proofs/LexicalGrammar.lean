import ExprLang.Token.Lexer

/-!
# The lexical grammar

How a source is cut into lexemes, as relations on texts.  They say what a lexeme is and what may
follow it, and nothing about the order in which a reader tries its patterns or how far it looks
ahead.

* `Lexeme.Stands` — the lexemes, each with the condition on the text directly behind it.
* `Split` — a source as lexemes with blanks between them.
* `tokensFrom` — the tokens that the pieces of a split stand for.
* `WellPlaced.append`, `tokensFrom_append` — splits of neighbouring texts fit together.
-/

namespace ExprLang

/-- The text does not start with such a character. -/
def Stops (p : Char → Bool) (text : Text) : Prop :=
  ∀ c ∈ text.head?, p c = false

/-- Nothing but blanks. -/
def Blank (text : Text) : Prop :=
  ∀ c ∈ text, Unicode.isBlank c = true

theorem blank_nil : Blank [] := by
  simp [Blank]

theorem blank_space : Blank [' '] := by
  intro c hc
  rw [List.mem_singleton.1 hc]
  decide

/-- One or more ASCII digits. -/
def IsDigits (text : Text) : Prop :=
  text ≠ [] ∧ ∀ c ∈ text, c.isDigit = true

/-- An optional fraction, with the digits behind its point. -/
inductive Fraction : Text → Text → Prop where
  | absent : Fraction [] []
  | point {digits : Text} : IsDigits digits → Fraction ('.' :: digits) digits

/-- An optional exponent, with its value. -/
inductive Exponent : Text → Int → Prop where
  | absent : Exponent [] 0
  | unsigned {mark : Char} {digits : Text} :
    mark = 'e' ∨ mark = 'E' → IsDigits digits →
    Exponent (mark :: digits) (digitsValue digits)
  | plus {mark : Char} {digits : Text} :
    mark = 'e' ∨ mark = 'E' → IsDigits digits →
    Exponent (mark :: '+' :: digits) (digitsValue digits)
  | minus {mark : Char} {digits : Text} :
    mark = 'e' ∨ mark = 'E' → IsDigits digits →
    Exponent (mark :: '-' :: digits) (-(digitsValue digits : Int))

/-- A number with its value.  Only integers are limited in length. -/
inductive IsNumber : Text → Value → Prop where
  | integer {digits : Text} :
    IsDigits digits → digits.length ≤ digitLimit →
    IsNumber digits (.long (digitsValue digits))
  | double {whole fraction digits exponent : Text} {e : Int} :
    IsDigits whole → Fraction fraction digits → Exponent exponent e →
    fraction ++ exponent ≠ [] →
    IsNumber (whole ++ fraction ++ exponent) (.double (Numeral.toDouble ⟨false, whole, digits, e⟩))

/-- The letters behind a backslash, with the characters that they stand for. -/
def escapes : List (Char × Char) :=
  [('\\', '\\'), ('"', '"'), ('\'', '\''), ('n', '\n'), ('t', '\t'), ('r', '\r')]

/-- What stands between two quotes, with the text that it stands for. -/
inductive StringBody (quote : Char) : Text → Text → Prop where
  | nil : StringBody quote [] []
  | plain {c : Char} {body content : Text} :
    c ≠ quote → c ≠ '\\' → StringBody quote body content →
    StringBody quote (c :: body) (c :: content)
  | escape {escaped decoded : Char} {body content : Text} :
    (escaped, decoded) ∈ escapes → StringBody quote body content →
    StringBody quote ('\\' :: escaped :: body) (decoded :: content)

/-- A letter or an underscore, and letters, digits and underscores behind it. -/
inductive IsName : Text → Prop where
  | intro {c : Char} {rest : Text} :
    Lexeme.isNameStart c = true → (∀ d ∈ rest, Lexeme.isNameChar d = true) → IsName (c :: rest)

/-- A name that is not reserved. -/
structure IsIdentifier (text : Text) : Prop where
  isName : IsName text
  not_keyword : ∀ keyword ∈ Lexeme.keywords, keyword.1 ≠ text

/-- An opening parenthesis follows, blanks aside. -/
def Called (text : Text) : Prop :=
  ∃ gap behind, Blank gap ∧ text = gap ++ '(' :: behind

/-- The operators that a following equals sign would be part of. -/
def extensible : List Text :=
  ["<".toList, ">".toList, "!".toList]

/-- A lexeme that may stand directly in front of the text `rest`. -/
inductive Lexeme.Stands : Lexeme → Text → Prop where
  | number {text rest : Text} {value : Value} :
    IsNumber text value → Stops continuesNumber rest → Stands ⟨.literal .number value, text⟩ rest
  | string {quote : Char} {body content rest : Text} :
    quote = '"' ∨ quote = '\'' → StringBody quote body content →
    Stands ⟨.literal .string (.string content), quote :: (body ++ [quote])⟩ rest
  | keyword {text rest : Text} {content : TokenContent} :
    (text, content) ∈ keywords → Stops isNameChar rest → Stands ⟨content, text⟩ rest
  | identifier {name rest : Text} :
    IsIdentifier name → Stops isNameChar rest →
    (∀ localName behind, IsIdentifier localName → Called behind →
      rest ≠ ':' :: (localName ++ behind)) →
    Stands ⟨.identifier name, name⟩ rest
  | qualified {qualifier localName rest : Text} :
    IsIdentifier qualifier → IsIdentifier localName → Called rest →
    Stands ⟨.qualifiedName qualifier localName, qualifier ++ ':' :: localName⟩ rest
  | operator {operator : Operator} {rest : Text} :
    operator ∈ operators → (operator.text ∈ extensible → Stops (· = '=') rest) →
    Stands operator.lexeme rest

/-- A lexeme with the blanks in front of it. -/
structure Piece where
  gap : Text
  lexeme : Lexeme

/-- The text of pieces, with `last` behind it. -/
def written : List Piece → Text → Text
  | [], last => last
  | piece :: pieces, last => piece.gap ++ piece.lexeme.text ++ written pieces last

/-- Every gap is blank, and every lexeme may stand in front of the text that is behind it. -/
def WellPlaced : List Piece → Text → Prop
  | [], _ => True
  | piece :: pieces, last =>
    Blank piece.gap ∧ piece.lexeme.Stands (written pieces last) ∧ WellPlaced pieces last

/-- A source as lexemes with blanks around them. -/
structure Split (source : Text) (pieces : List Piece) (last : Text) : Prop where
  source_eq : source = written pieces last
  wellPlaced : WellPlaced pieces last
  blank : Blank last

/-- The tokens of pieces that start at `loc`. -/
def tokensFrom (loc : Location) : List Piece → List Token
  | [] => []
  | ⟨gap, content, text⟩ :: pieces =>
    ⟨content, loc.after gap, text⟩ :: tokensFrom ((loc.after gap).after text) pieces

/-! ## Neighbouring texts -/

section

variable {p : Char → Bool} {s rest : Text}

theorem stops_nil : Stops p [] := by
  simp [Stops]

@[simp] theorem stops_cons {c : Char} : Stops p (c :: rest) ↔ p c = false := by
  simp [Stops]

theorem Stops.takeWhile_append (h : Stops p rest) (hs : ∀ c ∈ s, p c = true) :
    (s ++ rest).takeWhile p = s := by
  rw [List.takeWhile_append_of_pos hs]
  cases rest with
  | nil => simp
  | cons c rest => simp [stops_cons.1 h]

theorem Stops.dropWhile_append (h : Stops p rest) (hs : ∀ c ∈ s, p c = true) :
    (s ++ rest).dropWhile p = rest := by
  rw [List.dropWhile_append_of_pos hs]
  cases rest with
  | nil => rfl
  | cons c rest => simp [stops_cons.1 h]

theorem stops_dropWhile (p : Char → Bool) (s : Text) : Stops p (s.dropWhile p) := by
  induction s with
  | nil => exact stops_nil
  | cons c s ih =>
    cases h : p c with
    | true => rwa [List.dropWhile_cons_of_pos h]
    | false => simp [h]

theorem Stops.mono {q : Char → Bool} (h : Stops p rest) (hpq : ∀ c, p c = false → q c = false) :
    Stops q rest :=
  fun c hc => hpq c (h c hc)

end

section

variable {pieces pieces' : List Piece} {last : Text}

theorem written_append (pieces pieces' : List Piece) (last : Text) :
    written (pieces ++ pieces') last = written pieces (written pieces' last) := by
  induction pieces with
  | nil => rfl
  | cons piece pieces ih => simp only [List.cons_append, written, ih]

theorem WellPlaced.append (h : WellPlaced pieces (written pieces' last))
    (h' : WellPlaced pieces' last) : WellPlaced (pieces ++ pieces') last := by
  induction pieces with
  | nil => exact h'
  | cons piece pieces ih =>
    obtain ⟨hgap, hlexeme, hpieces⟩ := h
    rw [← written_append] at hlexeme
    exact ⟨hgap, hlexeme, ih hpieces⟩

theorem tokensFrom_append (loc : Location) (pieces pieces' : List Piece) :
    tokensFrom loc (pieces ++ pieces') =
      tokensFrom loc pieces ++ tokensFrom (loc.after (written pieces [])) pieces' := by
  induction pieces generalizing loc with
  | nil => rfl
  | cons piece pieces ih =>
    obtain ⟨gap, content, text⟩ := piece
    simp only [List.cons_append, tokensFrom, ih, written, Location.after_append]

end

end ExprLang
