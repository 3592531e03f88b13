import ExprLang.Expr.Printer
import ExprLang.Proofs.Grammar
import ExprLang.Proofs.LexemeReading

/-!
# Texts that spell phrases

A text spells a phrase if it is cut into lexemes whose tokens are that phrase, whatever blanks stand
in front of it and whatever text of a certain kind behind it.  The rules of the grammar carry over
from tokens to texts, one by one.

* `Cut.append` — neighbouring texts are cut side by side.
* `Spells` — a text as a phrase of a level, with its tree and the nesting that it needs.
* `Spells.group`, `Spells.unary`, `Spells.binary`, … — the rules of the grammar for texts.
-/

namespace ExprLang

/-! ## Cutting a text -/

/-- In front of `rest`, the text `s` is cut into lexemes whose tokens have a property, wherever it
starts. -/
def Cut (P : List Token → Prop) (s rest : Text) : Prop :=
  ∃ pieces, written pieces rest = s ++ rest ∧ WellPlaced pieces rest ∧
    ∀ loc, P (tokensFrom loc pieces)

/-- A single token of a type. -/
def OneOf (type : TokenType) (ts : List Token) : Prop :=
  ∃ t : Token, ts = [t] ∧ t.type = type

section

variable {P Q R : List Token → Prop} {gap s t text rest : Text} {content : TokenContent}

theorem Cut.append (h : Cut P s (t ++ rest)) (h' : Cut Q t rest)
    (hjoin : ∀ ts us, P ts → Q us → R (ts ++ us)) : Cut R (s ++ t) rest := by
  obtain ⟨pieces, hwritten, hplaced, htokens⟩ := h
  obtain ⟨pieces', hwritten', hplaced', htokens'⟩ := h'
  rw [← hwritten'] at hwritten hplaced
  refine ⟨pieces ++ pieces', ?_, hplaced.append hplaced', fun loc => ?_⟩
  · rw [written_append, hwritten, hwritten', List.append_assoc]
  · rw [tokensFrom_append]
    exact hjoin _ _ (htokens _) (htokens' _)

theorem Cut.mono (h : Cut P s rest) (hPQ : ∀ ts, P ts → Q ts) : Cut Q s rest := by
  obtain ⟨pieces, hwritten, hplaced, htokens⟩ := h
  exact ⟨pieces, hwritten, hplaced, fun loc => hPQ _ (htokens loc)⟩

theorem cut_lexeme (hgap : Blank gap) (h : Lexeme.Stands ⟨content, text⟩ rest) :
    Cut (fun ts => ∃ loc, ts = [⟨content, loc, text⟩]) (gap ++ text) rest :=
  ⟨[⟨gap, content, text⟩], rfl, ⟨hgap, h, trivial⟩, fun _ => ⟨_, rfl⟩⟩

theorem cut_operator (operator : Lexeme.Operator) (hgap : Blank gap)
    (h : operator ∈ Lexeme.operators) (hrest : operator.text ∈ extensible → Stops (· = '=') rest) :
    Cut (OneOf operator.type) (gap ++ operator.text) rest :=
  (cut_lexeme hgap (.operator h hrest)).mono fun _ ⟨_, hts⟩ => ⟨_, hts, rfl⟩

/-- An operator and the text behind it. -/
theorem Cut.after_operator (operator : Lexeme.Operator) (hgap : Blank gap)
    (h : operator ∈ Lexeme.operators)
    (hext : operator.text ∈ extensible → Stops (· = '=') (s ++ rest)) (hs : Cut P s rest) :
    Cut (fun ts => ∃ t us, ts = t :: us ∧ t.type = operator.type ∧ P us)
      (gap ++ operator.text ++ s) rest := by
  refine (cut_operator operator hgap h hext).append hs ?_
  rintro ts us ⟨t, rfl, ht⟩ hus
  exact ⟨t, us, rfl, ht, hus⟩

/-- A text and the operator behind it. -/
theorem Cut.before_operator (operator : Lexeme.Operator) (h : operator ∈ Lexeme.operators)
    (hext : operator.text ∉ extensible) (hs : Cut P s (operator.text ++ rest)) :
    Cut (fun ts => ∃ us t, ts = us ++ [t] ∧ P us ∧ t.type = operator.type) (s ++ operator.text)
      rest := by
  have hoperator : Cut (OneOf operator.type) ([] ++ operator.text) rest :=
    cut_operator operator blank_nil h fun hmem => absurd hmem hext
  refine hs.append hoperator ?_
  rintro us ts hus ⟨t, rfl, ht⟩
  exact ⟨us, t, rfl, hus, ht⟩

end

/-! ## What follows a phrase -/

/-- The characters that a printed expression has behind it. -/
def followers : List Char := [' ', ')', ']', ',']

/-- The characters that what can be accessed has behind it. -/
def accessors : List Char := '.' :: '[' :: followers

/-- The text is over, or it starts with one of the characters. -/
def Follows (follow : List Char) (rest : Text) : Prop :=
  ∀ c ∈ rest.head?, c ∈ follow

section

variable {follow follow' : List Char} {rest : Text}

theorem follows_nil : Follows follow [] := by
  simp [Follows]

theorem follows_cons {c : Char} (h : c ∈ follow) : Follows follow (c :: rest) := by
  simpa [Follows] using h

theorem Follows.mono (h : Follows follow rest) (hsub : follow ⊆ follow') : Follows follow' rest :=
  fun c hc => hsub (h c hc)

theorem Follows.stops {p : Char → Bool} (h : Follows follow rest)
    (hp : follow.all (fun c => !p c) = true) : Stops p rest := by
  intro c hc
  simpa using List.all_eq_true.1 hp c (h c hc)

end

/-! ## Phrases -/

/-- The text spells a phrase of the level, between any blanks and any text that starts with one of
the characters `follow`. -/
def Spells (options : ParserOptions) (follow : List Char) (level : Level) (source : Text) (e : Expr)
    (n : Nat) : Prop :=
  ∀ gap rest, Blank gap → Follows follow rest →
    Cut (fun ts => Derives options level ts e n) (gap ++ source) rest

/-- Texts that spell expressions, with their trees and what these need. -/
inductive SpellAll (options : ParserOptions) : List Text → List Expr → List Nat → Prop where
  | nil : SpellAll options [] [] []
  | cons {source : Text} {e : Expr} {n : Nat} {sources : List Text} {es : List Expr}
      {ns : List Nat} :
    Spells options followers .expression source e n → SpellAll options sources es ns →
    SpellAll options (source :: sources) (e :: es) (n :: ns)

section

variable {options : ParserOptions} {follow follow' : List Char} {level next : Level}
  {source source' gap rest text name : Text} {e e' : Expr} {m n : Nat} {type : TokenType}
  {value : Value}

theorem Spells.mono (h : Spells options follow level source e n) (hsub : follow' ⊆ follow) :
    Spells options follow' level source e n :=
  fun gap rest hgap hrest => h gap rest hgap (hrest.mono hsub)

theorem Spells.loosen (level : Level) (h : Spells options follow next source e n)
    (hlow : 0 < level.rank) (hle : level.rank ≤ next.rank) :
    Spells options follow level source e n :=
  fun gap rest hgap hrest => (h gap rest hgap hrest).mono fun _ hts => hts.loosen hlow hle

theorem Spells.plain (h : Spells options follow .disjunction source e n) :
    Spells options follow .expression source e (n + 1) :=
  fun gap rest hgap hrest => (h gap rest hgap hrest).mono fun _ hts => .plain hts

theorem spells_literal (type : TokenType) (isLiteral : type.isLiteral = true)
    (h : ∀ rest, Follows follow rest →
      Lexeme.Stands ⟨.literal type value isLiteral, text⟩ rest) :
    Spells options follow .primary text (.literal value) 0 := by
  intro gap rest hgap hrest
  refine (cut_lexeme hgap (h rest hrest)).mono ?_
  rintro ts ⟨loc, rfl⟩
  exact .literal rfl

theorem stops_accessors (hrest : Follows accessors rest) : Stops Lexeme.isNameChar rest :=
  hrest.stops (by decide)

theorem stands_identifier (hname : IsIdentifier name) (hrest : Stops Lexeme.isNameChar rest)
    (hcolon : rest.head? ≠ some ':') : Lexeme.Stands ⟨.identifier name, name⟩ rest := by
  refine .identifier hname hrest ?_
  rintro localName behind - - rfl
  exact hcolon rfl

theorem spells_identifier (hname : IsIdentifier name) :
    Spells options accessors .primary name (.identifier name) 0 := by
  intro gap rest hgap hrest
  have hcolon : rest.head? ≠ some ':' := fun hc => absurd (hrest ':' hc) (by decide)
  refine (cut_lexeme hgap (stands_identifier hname (stops_accessors hrest) hcolon)).mono ?_
  rintro ts ⟨loc, rfl⟩
  exact .identifier rfl

/-- An expression in parentheses is an operand that can be accessed. -/
theorem Spells.group (h : Spells options followers .expression source e n) :
    Spells options accessors .primary (Expr.parenthesised source) e n := by
  intro gap rest hgap hrest
  have hclosed := (h [] ([')'] ++ rest) blank_nil (follows_cons (by decide))).before_operator
    ⟨[')'], .rightParen, rfl⟩ (by decide) (by decide)
  have hopened := hclosed.after_operator ⟨['('], .leftParen, rfl⟩ hgap (by decide)
    fun hext => absurd hext (by decide)
  have hwhole := hopened.mono (Q := fun ts => Derives options .primary ts e n) (by
    rintro _ ⟨left, _, rfl, hleft, us, right, rfl, hus, hright⟩
    exact .group hleft hright hus)
  simpa [Expr.parenthesised] using hwhole

/-- Only the lexeme of equality starts with an equals sign. -/
theorem stands_ne_equals {lexeme : Lexeme} (h : lexeme.Stands rest) (htype : lexeme.type ≠ .eq) :
    ∃ c tail, lexeme.text = c :: tail ∧ c ≠ '=' := by
  obtain ⟨c, tail, htext, hc⟩ := h.starts
  refine ⟨c, tail, htext, ?_⟩
  rintro rfl
  rcases hc with hdigit | hquote | hname | ⟨operator, hoperator, rfl⟩
  · exact absurd hdigit (by decide)
  · exact absurd hquote (by decide)
  · exact absurd hname (by decide)
  · have hall : ∀ operator ∈ Lexeme.operators, operator.type ≠ .eq →
        operator.text.head? ≠ some '=' := by decide +kernel
    refine hall _ hoperator htype ?_
    rw [← operator.lexeme_text, htext]
    rfl

/-- A phrase starts with no equals sign. -/
theorem Spells.stops_equals (h : Spells options follow level source e n)
    (hrest : Follows follow rest) : Stops (· = '=') (source ++ rest) := by
  obtain ⟨pieces, hwritten, hplaced, htokens⟩ := h [] rest blank_nil hrest
  obtain ⟨t, us, htokens, ht⟩ := (htokens .origin).starts
  cases pieces with
  | nil => cases htokens
  | cons piece pieces =>
    obtain ⟨gap, content, text⟩ := piece
    obtain ⟨hgap, hlexeme, -⟩ := hplaced
    obtain ⟨rfl, -⟩ := List.cons.inj htokens
    have hnone : ∀ level : Level, .eq ∉ level.starters := by
      intro level
      cases level <;> decide
    have htype : content.type ≠ .eq := fun heq => hnone level (heq ▸ ht)
    obtain ⟨c, tail, rfl, hc⟩ := stands_ne_equals hlexeme htype
    rw [List.nil_append] at hwritten
    rw [← hwritten, written]
    cases gap with
    | nil => exact stops_cons.2 (decide_eq_false hc)
    | cons d gap =>
      refine stops_cons.2 (decide_eq_false ?_)
      rintro rfl
      exact absurd (hgap '=' List.mem_cons_self) (by decide)

/-- The blanks between an operator in front and its operand. -/
def frontGap : UnaryOperator → Text
  | .empty => [' ']
  | _ => []

theorem cut_frontOperator {operator : UnaryOperator} (hoperator : (type, operator) ∈ frontOperators)
    (hgap : Blank gap) (hrest : Stops (· = '=') rest) :
    Cut (OneOf type) (gap ++ operator.symbol) (frontGap operator ++ rest) := by
  simp only [frontOperators, List.mem_cons, Prod.mk.injEq, List.not_mem_nil, or_false] at hoperator
  rcases hoperator with ⟨rfl, rfl⟩ | ⟨rfl, rfl⟩ | ⟨rfl, rfl⟩
  · exact cut_operator ⟨['!'], .not, rfl⟩ hgap (by decide) fun _ => hrest
  · exact cut_operator ⟨['-'], .minus, rfl⟩ hgap (by decide)
      fun hext => absurd hext (by decide)
  · have hstands : Lexeme.Stands ⟨.sign .empty "empty".toList, "empty".toList⟩ (' ' :: rest) :=
      .keyword (by simp [Lexeme.keywords]) (stops_cons.2 (by decide))
    refine (cut_lexeme hgap hstands).mono ?_
    rintro ts ⟨loc, hts⟩
    exact ⟨_, hts, rfl⟩

theorem blank_frontGap (operator : UnaryOperator) : Blank (frontGap operator) := by
  cases operator <;> first | exact blank_nil | exact blank_space

theorem Spells.unary {operator : UnaryOperator} (h : Spells options followers .operand source e n)
    (hoperator : (type, operator) ∈ frontOperators) :
    Spells options followers .operand (operator.symbol ++ frontGap operator ++ source)
      (.unary operator e) (n + 1) := by
  intro gap rest hgap hrest
  have hoperand := h (frontGap operator) rest (blank_frontGap operator) hrest
  have hsign := cut_frontOperator hoperator hgap (h.stops_equals hrest)
  rw [← List.append_assoc] at hsign
  have hwhole := hsign.append hoperand
    (R := fun ts => Derives options .operand ts (.unary operator e) (n + 1)) (by
      rintro _ us ⟨sign, rfl, hsign⟩ hus
      exact .unary (hsign ▸ hoperator) hus)
  simpa using hwhole

theorem Spells.binary {operator : BinaryOperator} (htighter : level.tighter? = some next)
    (hoperator : (type, operator) ∈ level.operators)
    (hsymbol : ∃ sign ∈ Lexeme.operators, sign.text = operator.symbol ∧ sign.type = type)
    (hpermitted : Permitted options operator)
    (hleft : Spells options followers level.leftOperand source e m)
    (hright : Spells options followers next source' e' n) :
    Spells options followers level (source ++ ' ' :: operator.symbol ++ ' ' :: source')
      (.binary operator e e') (max m n) := by
  intro gap rest hgap hrest
  obtain ⟨sign, hmem, hsymbol, rfl⟩ := hsymbol
  have hsign := (hright [' '] rest blank_space hrest).after_operator sign blank_space hmem
    fun _ => stops_cons.2 (by decide)
  rw [hsymbol] at hsign
  have hwhole := (hleft gap _ hgap (follows_cons (by decide))).append hsign
    (R := fun ts => Derives options level ts (.binary operator e e') (max m n)) (by
      rintro ts us hts ⟨sign, vs, rfl, hsign, hvs⟩
      exact .binary htighter (hsign ▸ hoperator) hpermitted hts hvs)
  simpa using hwhole

theorem Spells.conditional {c t : Expr} {conditionSource thenSource elseSource : Text} {k : Nat}
    (hallowed : options.conditionalAllowed = true)
    (hcondition : Spells options followers .disjunction conditionSource c k)
    (hthen : Spells options followers .expression thenSource t m)
    (helse : Spells options followers .expression elseSource e n) :
    Spells options followers .expression
      (conditionSource ++ " ? ".toList ++ thenSource ++ " : ".toList ++ elseSource)
      (.conditional c t e) (max k (max m n) + 1) := by
  intro gap rest hgap hrest
  have hcolon := (helse [' '] rest blank_space hrest).after_operator ⟨[':'], .colon, rfl⟩
    blank_space (by decide) fun hext => absurd hext (by decide)
  have hbranches := (hthen [' '] _ blank_space (follows_cons (by decide))).append hcolon
    (R := fun ts => ∃ us colon vs, ts = us ++ colon :: vs ∧ colon.type = .colon ∧
      Derives options .expression us t m ∧ Derives options .expression vs e n) (by
      rintro us ts hus ⟨colon, vs, rfl, hcolon, hvs⟩
      exact ⟨us, colon, vs, rfl, hcolon, hus, hvs⟩)
  have hquestion := hbranches.after_operator ⟨['?'], .question, rfl⟩ blank_space (by decide)
    fun hext => absurd hext (by decide)
  have hwhole := (hcondition gap _ hgap (follows_cons (by decide))).append hquestion
    (R := fun ts => Derives options .expression ts (.conditional c t e) (max k (max m n) + 1)) (by
      rintro ts _ hts ⟨question, _, rfl, hquestion, us, colon, vs, rfl, hcolon, hus, hvs⟩
      exact .conditional hallowed hquestion hcolon hts hus hvs)
  simpa using hwhole

theorem Spells.member (h : Spells options accessors .access source e n)
    (hname : IsIdentifier name) :
    Spells options accessors .access (source ++ '.' :: name) (.member e name) n := by
  intro gap rest hgap hrest
  have hcolon : rest.head? ≠ some ':' := fun hc => absurd (hrest ':' hc) (by decide)
  have hlexeme := cut_lexeme blank_nil
    (stands_identifier hname (stops_accessors hrest) hcolon)
  have hdot := hlexeme.after_operator ⟨['.'], .dot, rfl⟩ blank_nil (by decide)
    fun hext => absurd hext (by decide)
  have hwhole := (h gap _ hgap (follows_cons (by decide))).append hdot
    (R := fun ts => Derives options .access ts (.member e name) n) (by
      rintro ts _ hts ⟨dot, _, rfl, hdot, loc, rfl⟩
      exact .member hdot rfl hts)
  simpa using hwhole

theorem Spells.index (h : Spells options accessors .access source e m)
    (hkey : Spells options followers .expression source' e' n) :
    Spells options accessors .access (source ++ '[' :: source' ++ [']']) (.index e e')
      (max m n) := by
  intro gap rest hgap hrest
  have hclosed := (hkey [] ([']'] ++ rest) blank_nil (follows_cons (by decide))).before_operator
    ⟨[']'], .rightBracket, rfl⟩ (by decide) (by decide)
  have hopened := hclosed.after_operator ⟨['['], .leftBracket, rfl⟩ blank_nil (by decide)
    fun hext => absurd hext (by decide)
  have hwhole := (h gap _ hgap (follows_cons (by decide))).append hopened
    (R := fun ts => Derives options .access ts (.index e e') (max m n)) (by
      rintro ts _ hts ⟨left, _, rfl, hleft, us, right, rfl, hus, hright⟩
      exact .index hleft hright hts hus)
  simpa using hwhole

/-! ### Calls -/

/-- The text of a function's name. -/
theorem cut_callee {qualifier : Option Text} (hqualifier : ∀ q ∈ qualifier, IsIdentifier q)
    (hname : IsIdentifier name) (hgap : Blank gap) :
    Cut (fun ts => ∃ t, ts = [t] ∧ Callee t qualifier name) (gap ++ qualifiedName qualifier name)
      ('(' :: rest) := by
  cases qualifier with
  | none =>
    have hstands : Lexeme.Stands _ ('(' :: rest) :=
      stands_identifier hname (stops_cons.2 (by decide)) (by simp)
    exact (cut_lexeme hgap hstands).mono fun _ ⟨_, hts⟩ => ⟨_, hts, .simple rfl⟩
  | some q =>
    have hq := hqualifier q rfl
    have htext : qualifiedName (some q) name = q ++ ':' :: name := by
      obtain @⟨c, tail, -, -⟩ := hq.isName
      rfl
    have hstands := Lexeme.Stands.qualified hq hname ⟨[], rest, blank_nil, rfl⟩
    rw [htext]
    exact (cut_lexeme hgap hstands).mono fun _ ⟨_, hts⟩ => ⟨_, hts, .qualified rfl⟩

/-- The tokens of arguments. -/
def AreArguments (options : ParserOptions) (es : List Expr) (ns : List Nat) (ts : List Token) :
    Prop :=
  ∃ phrases : List Phrase, Separated (phrases.map Phrase.tokens) ts ∧
    (∀ p ∈ phrases, Derives options .expression p.tokens p.tree p.nesting) ∧
    phrases.map Phrase.tree = es ∧ phrases.map Phrase.nesting = ns

theorem SpellAll.cut {sources : List Text} {es : List Expr} {ns : List Nat}
    (h : SpellAll options sources es ns) (hne : sources ≠ []) (hgap : Blank gap)
    (hrest : Follows followers rest) :
    Cut (AreArguments options es ns) (gap ++ Text.joinWith [',', ' '] sources) rest := by
  induction h generalizing gap with
  | nil => exact absurd rfl hne
  | @cons source e n sources es ns hfirst htail ih =>
    cases htail with
    | nil =>
      have hsingle := (hfirst gap rest hgap hrest).mono (Q := AreArguments options [e] [n])
        fun ts hts => ⟨[⟨ts, e, n⟩], .single, by simpa using hts, rfl, rfl⟩
      simpa [Text.joinWith] using hsingle
    | @cons source' e' n' sources es ns hsecond htail =>
      have hrest' := ih (List.cons_ne_nil _ _) blank_space
      have hcomma := hrest'.after_operator ⟨[','], .comma, rfl⟩ blank_nil (by decide)
        fun hext => absurd hext (by decide)
      have hwhole := (hfirst gap _ hgap (follows_cons (by decide))).append hcomma
        (R := AreArguments options (e :: e' :: es) (n :: n' :: ns)) (by
          rintro ts _ hts ⟨comma, us, rfl, hcomma, phrases, hseparated, hphrases, htrees, hnestings⟩
          cases phrases with
          | nil => cases htrees
          | cons phrase phrases =>
            refine ⟨⟨ts, e, n⟩ :: phrase :: phrases, .cons hcomma hseparated, ?_, ?_, ?_⟩
            · intro p hp
              rcases List.mem_cons.1 hp with rfl | hp
              · exact hts
              · exact hphrases p hp
            · rw [List.map_cons, htrees]
            · rw [List.map_cons, hnestings])
      have htext : Text.joinWith [',', ' '] (source :: source' :: sources) =
          source ++ ([',', ' '] ++ Text.joinWith [',', ' '] (source' :: sources)) := by
        simp [Text.joinWith, List.intercalate]
      rw [htext]
      simpa using hwhole

theorem SpellAll.cut_joined {sources : List Text} {es : List Expr} {ns : List Nat}
    (h : SpellAll options sources es ns) (hrest : Follows followers rest) :
    Cut (AreArguments options es ns) (Text.joinWith [',', ' '] sources) rest := by
  cases h with
  | nil => exact ⟨[], rfl, trivial, fun _ => ⟨[], .nil, by simp, rfl, rfl⟩⟩
  | cons hfirst htail =>
    exact (SpellAll.cons hfirst htail).cut (List.cons_ne_nil _ _) blank_nil hrest

theorem Spells.call {qualifier : Option Text} {sources : List Text} {es : List Expr}
    {ns : List Nat} (hqualifier : ∀ q ∈ qualifier, IsIdentifier q) (hname : IsIdentifier name)
    (h : SpellAll options sources es ns) :
    Spells options accessors .primary
      (qualifiedName qualifier name ++ Expr.parenthesised (Text.joinWith [',', ' '] sources))
      (.call qualifier name es) (deepest ns) := by
  intro gap rest hgap hrest
  have harguments : Cut (AreArguments options es ns) _ ([')'] ++ rest) :=
    h.cut_joined (follows_cons (by decide))
  have hclosed := harguments.before_operator ⟨[')'], .rightParen, rfl⟩ (by decide) (by decide)
  have hopened := hclosed.after_operator ⟨['('], .leftParen, rfl⟩ blank_nil (by decide)
    fun hext => absurd hext (by decide)
  have hwhole := (cut_callee hqualifier hname hgap).append hopened
    (R := fun ts => Derives options .primary ts (.call qualifier name es) (deepest ns)) (by
      rintro _ _ ⟨callee, rfl, hcallee⟩ ⟨left, _, rfl, hleft, body, right, rfl,
        ⟨phrases, hseparated, hphrases, rfl, rfl⟩, hright⟩
      exact .call hcallee hleft hright hseparated hphrases)
  simpa [Expr.parenthesised] using hwhole

end

end ExprLang
