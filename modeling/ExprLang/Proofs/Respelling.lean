import ExprLang.Proofs.SourceReading
import Mathlib.Data.List.Forall2

/-!
# Other spellings of an expression

An expression may be spelled in many ways: operators as signs or as words, texts with either quote,
numbers with more zeros, and any blanks between the lexemes.  All that the tree depends on is the
types of the tokens, and of literals and names what they stand for.

* `Derives.congr` — the grammar asks for the meaning of a token only.
* `Lexeme.Stands.spaced` — a lexeme may stand in front of any blank; only a qualified name has to be
  called.
* `parse_respelled` — a source with its lexemes replaced and spaced out is read as the same tree.
-/

namespace ExprLang

/-! ## The meaning of tokens -/

/-- The types of literals and names, whose tokens stand for a value of their own. -/
def TokenType.hasValue : TokenType → Bool
  | .number | .string | .boolean | .null | .identifier | .qualifiedName => true
  | _ => false

theorem TokenType.hasValue_of_isLiteral {type : TokenType} (h : type.isLiteral = true) :
    type.hasValue = true := by
  cases type <;> first | rfl | cases h

/-- All that the grammar asks for: the value of a literal and the parts of a name, and of all other
tokens the type. -/
def Token.meaning (token : Token) : TokenType × Option TokenContent :=
  (token.type, if token.type.hasValue then some token.content else none)

/-- Tokens that mean the same one by one. -/
def SameMeaning (ts ts' : List Token) : Prop :=
  ts'.map Token.meaning = ts.map Token.meaning

section

variable {t t' : Token} {ts us ts' : List Token}

theorem type_eq_of_meaning (h : t'.meaning = t.meaning) : t'.type = t.type :=
  congrArg Prod.fst h

theorem content_eq_of_meaning (h : t'.meaning = t.meaning) (htype : t.type.hasValue = true) :
    t'.content = t.content := by
  have hcontent := congrArg Prod.snd h
  simpa [Token.meaning, type_eq_of_meaning h, htype] using hcontent

theorem content_eq_of_identifier {name : Text} (h : t'.meaning = t.meaning)
    (hcontent : t.content = .identifier name) : t'.content = .identifier name := by
  rw [← hcontent]
  exact content_eq_of_meaning h (by rw [Token.type_eq hcontent]; rfl)

theorem SameMeaning.append (h : SameMeaning (ts ++ us) ts') :
    ∃ vs ws, ts' = vs ++ ws ∧ SameMeaning ts vs ∧ SameMeaning us ws := by
  rw [SameMeaning, List.map_append, List.map_eq_append_iff] at h
  exact h

theorem SameMeaning.cons (h : SameMeaning (t :: ts) ts') :
    ∃ t' us, ts' = t' :: us ∧ t'.meaning = t.meaning ∧ SameMeaning ts us := by
  rw [SameMeaning, List.map_cons, List.map_eq_cons_iff] at h
  exact h

theorem SameMeaning.nil (h : SameMeaning [] ts') : ts' = [] :=
  List.map_eq_nil_iff.1 h

theorem SameMeaning.single (h : SameMeaning [t] ts') :
    ∃ t', ts' = [t'] ∧ t'.meaning = t.meaning := by
  obtain ⟨t', us, rfl, hmeaning, hus⟩ := h.cons
  exact ⟨t', by rw [hus.nil], hmeaning⟩

/-! ## Phrases of the same meaning -/

theorem Callee.congr {qualifier : Option Text} {name : Text} (h : Callee t qualifier name)
    (hmeaning : t'.meaning = t.meaning) : Callee t' qualifier name := by
  cases h with
  | simple h => exact .simple (content_eq_of_identifier hmeaning h)
  | qualified h =>
    exact .qualified ((content_eq_of_meaning hmeaning (by rw [Token.type_eq h]; rfl)).trans h)

theorem Separated.congr {lists : List (List Token)} {body body' : List Token}
    (h : Separated lists body) (hbody : SameMeaning body body') :
    ∃ lists', List.Forall₂ SameMeaning lists lists' ∧ Separated lists' body' := by
  induction h generalizing body' with
  | nil => exact ⟨[], .nil, hbody.nil ▸ .nil⟩
  | single => exact ⟨[body'], .cons hbody .nil, .single⟩
  | cons hcomma _ ih =>
    obtain ⟨ts', rest, rfl, hts, hrest⟩ := hbody.append
    obtain ⟨comma', vs', rfl, hmeaning, hvs⟩ := hrest.cons
    obtain ⟨lists, hlists, hseparated⟩ := ih hvs
    cases hlists with
    | cons hus hlists =>
      exact ⟨_, .cons hts (.cons hus hlists),
        .cons ((type_eq_of_meaning hmeaning).trans hcomma) hseparated⟩

/-- Phrases with the same trees, of other tokens. -/
theorem exists_phrases {P : List Token → Expr → Nat → Prop} {phrases : List Phrase}
    {lists : List (List Token)}
    (hlists : List.Forall₂ SameMeaning (phrases.map Phrase.tokens) lists)
    (h : ∀ p ∈ phrases, ∀ ts, SameMeaning p.tokens ts → P ts p.tree p.nesting) :
    ∃ phrases' : List Phrase, phrases'.map Phrase.tokens = lists ∧
      phrases'.map Phrase.tree = phrases.map Phrase.tree ∧
      phrases'.map Phrase.nesting = phrases.map Phrase.nesting ∧
      ∀ p ∈ phrases', P p.tokens p.tree p.nesting := by
  induction phrases generalizing lists with
  | nil =>
    cases hlists
    exact ⟨[], rfl, rfl, rfl, by simp⟩
  | cons p phrases ih =>
    cases hlists with
    | @cons _ ts _ lists hts hlists =>
      obtain ⟨phrases', rfl, htrees, hnestings, hall⟩ :=
        ih hlists fun q hq => h q (List.mem_cons_of_mem p hq)
      refine ⟨⟨ts, p.tree, p.nesting⟩ :: phrases', rfl, ?_, ?_, ?_⟩
      · rw [List.map_cons, htrees, List.map_cons]
      · rw [List.map_cons, hnestings, List.map_cons]
      · exact List.forall_mem_cons.2 ⟨h p List.mem_cons_self ts hts, hall⟩

end

/-- The grammar asks for the meaning of a token only. -/
theorem Derives.congr {options : ParserOptions} {level : Level} {ts ts' : List Token} {e : Expr}
    {n : Nat} (h : Derives options level ts e n) (hsame : SameMeaning ts ts') :
    Derives options level ts' e n := by
  induction h generalizing ts' with
  | plain _ ih => exact .plain (ih hsame)
  | conditional hallowed hquestion hcolon _ _ _ ih ih' ih'' =>
    obtain ⟨ts, rest, rfl, hts, hrest⟩ := hsame.append
    obtain ⟨question, rest, rfl, hmeaning, hrest⟩ := hrest.cons
    obtain ⟨us, rest, rfl, hus, hrest⟩ := hrest.append
    obtain ⟨colon, vs, rfl, hmeaning', hvs⟩ := hrest.cons
    exact .conditional hallowed ((type_eq_of_meaning hmeaning).trans hquestion)
      ((type_eq_of_meaning hmeaning').trans hcolon) (ih hts) (ih' hus) (ih'' hvs)
  | lift hnext _ ih => exact .lift hnext (ih hsame)
  | binary hnext hsign hpermitted _ _ ih ih' =>
    obtain ⟨ts, rest, rfl, hts, hrest⟩ := hsame.append
    obtain ⟨sign, us, rfl, hmeaning, hus⟩ := hrest.cons
    rw [← type_eq_of_meaning hmeaning] at hsign
    exact .binary hnext hsign hpermitted (ih hts) (ih' hus)
  | unary hsign _ ih =>
    obtain ⟨sign, us, rfl, hmeaning, hus⟩ := hsame.cons
    rw [← type_eq_of_meaning hmeaning] at hsign
    exact .unary hsign (ih hus)
  | member hdot hcontent _ ih =>
    obtain ⟨ts, rest, rfl, hts, hrest⟩ := hsame.append
    obtain ⟨dot, rest, rfl, hmeaning, hrest⟩ := hrest.cons
    obtain ⟨token, rfl, hmeaning'⟩ := hrest.single
    exact .member ((type_eq_of_meaning hmeaning).trans hdot)
      (content_eq_of_identifier hmeaning' hcontent) (ih hts)
  | index hleft hright _ _ ih ih' =>
    obtain ⟨ts, rest, rfl, hts, hrest⟩ := hsame.append
    obtain ⟨left, rest, rfl, hmeaning, hrest⟩ := hrest.cons
    obtain ⟨us, rest, rfl, hus, hrest⟩ := hrest.append
    obtain ⟨right, rfl, hmeaning'⟩ := hrest.single
    exact .index ((type_eq_of_meaning hmeaning).trans hleft)
      ((type_eq_of_meaning hmeaning').trans hright) (ih hts) (ih' hus)
  | @literal token type value isLiteral hcontent =>
    obtain ⟨token', rfl, hmeaning⟩ := hsame.single
    have hvalued : token.type.hasValue = true := by
      rw [Token.type_eq hcontent]
      exact TokenType.hasValue_of_isLiteral isLiteral
    exact .literal ((content_eq_of_meaning hmeaning hvalued).trans hcontent)
  | identifier hcontent =>
    obtain ⟨token', rfl, hmeaning⟩ := hsame.single
    exact .identifier (content_eq_of_identifier hmeaning hcontent)
  | call hname hleft hright hseparated _ ih =>
    obtain ⟨name, rest, rfl, hmeaning, hrest⟩ := hsame.cons
    obtain ⟨left, rest, rfl, hmeaning', hrest⟩ := hrest.cons
    obtain ⟨body, rest, rfl, hbody, hrest⟩ := hrest.append
    obtain ⟨right, rfl, hmeaning''⟩ := hrest.single
    obtain ⟨lists, hlists, hseparated⟩ := hseparated.congr hbody
    obtain ⟨arguments, rfl, htrees, hnestings, harguments⟩ :=
      exists_phrases (P := Derives options .expression) hlists fun p hp ts hts => ih p hp hts
    rw [← htrees, ← hnestings]
    exact .call (hname.congr hmeaning) ((type_eq_of_meaning hmeaning').trans hleft)
      ((type_eq_of_meaning hmeaning'').trans hright) hseparated harguments
  | group hleft hright _ ih =>
    obtain ⟨left, rest, rfl, hmeaning, hrest⟩ := hsame.cons
    obtain ⟨us, rest, rfl, hus, hrest⟩ := hrest.append
    obtain ⟨right, rfl, hmeaning'⟩ := hrest.single
    exact .group ((type_eq_of_meaning hmeaning).trans hleft)
      ((type_eq_of_meaning hmeaning').trans hright) (ih hus)

/-! ## Lexemes in front of blanks -/

/-- The text is over, or it starts with a blank. -/
def Apart (rest : Text) : Prop :=
  ∀ c ∈ rest.head?, Unicode.isBlank c = true

namespace Lexeme

section

variable {lexeme : Lexeme} {rest rest' : Text}

theorem not_isAlphanumeric_of_isBlank {c : Char} (h : Unicode.isBlank c = true) :
    Unicode.isAlphanumeric c = false := by
  have hdisjoint : ∀ r ∈ Unicode.blankRanges, ∀ r' ∈ Unicode.alphanumericRanges,
      r.2 < r'.1 ∨ r'.2 < r.1 := by decide +kernel
  unfold Unicode.isAlphanumeric
  split
  · cases halphanum : c.isAlphanum with
    | false => rfl
    | true =>
      rw [not_isBlank_of_isNameChar (by simp [isNameChar, halphanum])] at h
      cases h
  · cases hranges : Unicode.inRanges Unicode.alphanumericRanges c with
    | false => rfl
    | true =>
      obtain ⟨r, hr, hlow, hhigh⟩ := Unicode.inRanges_iff.1 h
      obtain ⟨r', hr', hlow', hhigh'⟩ := Unicode.inRanges_iff.1 hranges
      have := hdisjoint r hr r' hr'
      omega

theorem not_continuesNumber_of_isBlank {c : Char} (h : Unicode.isBlank c = true) :
    continuesNumber c = false := by
  have hne : ∀ d, Unicode.isBlank d = false → c ≠ d := by
    rintro d hd rfl
    rw [hd] at h
    cases h
  simp [continuesNumber, not_isAlphanumeric_of_isBlank h, hne '_' (by decide),
    hne '.' (by decide)]

/-- No condition on what follows a lexeme forbids a blank; only a qualified name asks for more. -/
theorem Stands.spaced (h : lexeme.Stands rest) (hrest : Apart rest')
    (hcalled : lexeme.type = .qualifiedName → Called rest') : lexeme.Stands rest' := by
  have hstops : Stops isNameChar rest' := by
    intro c hc
    cases hname : isNameChar c with
    | false => rfl
    | true => exact absurd (hrest c hc) (by simp [not_isBlank_of_isNameChar hname])
  have hne : ∀ d, Unicode.isBlank d = false → ∀ behind, rest' ≠ d :: behind := by
    rintro d hd behind rfl
    exact absurd (hrest d rfl) (by simp [hd])
  cases h with
  | number hnumber _ =>
    exact .number hnumber fun c hc => not_continuesNumber_of_isBlank (hrest c hc)
  | string hquote hbody => exact .string hquote hbody
  | keyword hkeyword _ => exact .keyword hkeyword hstops
  | identifier hname _ _ =>
    exact .identifier hname hstops fun _ _ _ _ => hne ':' (by decide) _
  | qualified hqualifier hname _ => exact .qualified hqualifier hname (hcalled rfl)
  | operator hoperator _ =>
    refine .operator hoperator fun _ c hc => decide_eq_false ?_
    rintro rfl
    obtain ⟨behind, hbehind⟩ := List.head?_eq_some_iff.1 hc
    exact hne '=' (by decide) behind hbehind

theorem type_of_keyword {keyword : Text × TokenContent} (h : keyword ∈ keywords) :
    keyword.2.type ≠ .qualifiedName ∧ keyword.2.type ≠ .leftParen := by
  have hall : ∀ keyword ∈ keywords,
      keyword.2.type ≠ .qualifiedName ∧ keyword.2.type ≠ .leftParen := by
    simp only [keywords, List.forall_mem_cons, List.not_mem_nil, false_imp_iff, implies_true,
      and_true]
    decide
  exact hall keyword h

theorem Stands.called (h : lexeme.Stands rest) (htype : lexeme.type = .qualifiedName) :
    Called rest := by
  cases h with
  | number | string | identifier => cases htype
  | qualified _ _ hcalled => exact hcalled
  | keyword hkeyword => exact absurd htype (type_of_keyword hkeyword).1
  | operator hoperator =>
    have hnone : ∀ operator ∈ operators, operator.type ≠ .qualifiedName := by decide
    exact absurd htype (hnone _ hoperator)

theorem Stands.text_of_leftParen (h : lexeme.Stands rest) (htype : lexeme.type = .leftParen) :
    lexeme.text = ['('] := by
  cases h with
  | number | string | identifier | qualified => cases htype
  | keyword hkeyword => exact absurd htype (type_of_keyword hkeyword).2
  | operator hoperator =>
    have honly : ∀ operator ∈ operators, operator.type = .leftParen →
        operator.text = ['('] := by
      decide +kernel
    exact honly _ hoperator htype

theorem Stands.leftParen_of_text {tail : Text} (h : lexeme.Stands rest)
    (htext : lexeme.text = '(' :: tail) : lexeme.type = .leftParen := by
  obtain ⟨c, tail', htext', hclass⟩ := h.starts
  obtain ⟨rfl, -⟩ := List.cons.inj (htext.symm.trans htext')
  rcases hclass with hdigit | hquote | hname | ⟨operator, hoperator, rfl⟩
  · exact absurd hdigit (by decide)
  · exact absurd hquote (by decide)
  · exact absurd hname (by decide)
  · have hall : ∀ operator ∈ operators, operator.text.head? = some '(' →
        operator.type = .leftParen := by decide +kernel
    rw [operator.lexeme_text] at htext
    exact hall _ hoperator (by simp [htext])

end

end Lexeme

/-! ## Lexemes spaced out -/

/-- Blanks around lexemes, and at least one between neighbours. -/
structure Spaced (pieces : List Piece) (last : Text) : Prop where
  blank : ∀ piece ∈ pieces, Blank piece.gap
  apart : ∀ piece ∈ pieces.tail, piece.gap ≠ []
  blank_last : Blank last

/-- A lexeme that stands for what a token stands for, and that the lexer reads in some place. -/
structure Respells (token : Token) (lexeme : Lexeme) : Prop where
  read : ∃ c rest, Lexeme.read c rest = .ok lexeme
  type_eq : lexeme.type = token.type
  content_eq : token.type.hasValue = true → lexeme.content = token.content

section

variable {piece : Piece} {pieces pieces' : List Piece} {last last' : Text} {loc : Location}

theorem Spaced.tail (h : Spaced (piece :: pieces) last) : Spaced pieces last :=
  ⟨fun p hp => h.blank p (List.mem_cons_of_mem piece hp),
    fun p hp => h.apart p (List.mem_of_mem_tail hp), h.blank_last⟩

theorem Blank.apart {text : Text} (h : Blank text) : Apart text :=
  fun c hc => h c (List.mem_of_mem_head? hc)

theorem Spaced.apart_written (h : Spaced (piece :: pieces) last) : Apart (written pieces last) := by
  cases pieces with
  | nil => exact h.blank_last.apart
  | cons next pieces =>
    have hnext := h.apart next List.mem_cons_self
    obtain ⟨c, gap, hgap⟩ := List.exists_cons_of_ne_nil hnext
    have hblank : Unicode.isBlank c = true :=
      h.blank next (by simp) c (by rw [hgap]; exact List.mem_cons_self)
    intro d hd
    rw [written, hgap] at hd
    cases hd
    exact hblank

/-- What calls the lexeme in front of some pieces is the first of them. -/
theorem leftParen_of_called (h : Called (written pieces last)) (hplaced : WellPlaced pieces last)
    (hlast : Blank last) :
    ∃ first rest, pieces = first :: rest ∧ first.lexeme.type = .leftParen := by
  obtain ⟨gap, behind, hgap, hwritten⟩ := h
  have hopen : (gap ++ '(' :: behind).dropWhile Unicode.isBlank = '(' :: behind :=
    Stops.dropWhile_append (stops_cons.2 (by decide)) hgap
  cases pieces with
  | nil =>
    have hmem : '(' ∈ last := by
      rw [show last = gap ++ '(' :: behind from hwritten]
      simp
    exact absurd (hlast '(' hmem) (by decide)
  | cons first rest =>
    refine ⟨first, rest, rfl, ?_⟩
    obtain ⟨hblank, hlexeme, -⟩ := hplaced
    obtain ⟨c, tail, htext, hc⟩ := hlexeme.not_blank
    rw [← hwritten, written, List.append_assoc, htext, List.cons_append,
      Stops.dropWhile_append (stops_cons.2 hc) hblank] at hopen
    obtain ⟨rfl, -⟩ := List.cons.inj hopen
    exact hlexeme.leftParen_of_text htext

/-- Lexemes that are spaced out may stand where they are, if they respell tokens of a source. -/
theorem wellPlaced_of_spaced (hplaced : WellPlaced pieces last) (hlast : Blank last)
    (hspelled : List.Forall₂ Respells (tokensFrom loc pieces) (pieces'.map Piece.lexeme))
    (hspaced : Spaced pieces' last') : WellPlaced pieces' last' := by
  induction pieces generalizing loc pieces' with
  | nil =>
    cases pieces' with
    | nil => trivial
    | cons => cases hspelled
  | cons piece pieces ih =>
    obtain ⟨gap, content, text⟩ := piece
    obtain ⟨-, hlexeme, hplaced⟩ := hplaced
    cases pieces' with
    | nil => cases hspelled
    | cons piece' pieces' =>
      obtain ⟨hfirst, hspelled⟩ := List.forall₂_cons.1 hspelled
      refine ⟨hspaced.blank piece' List.mem_cons_self, ?_, ih hplaced hspelled hspaced.tail⟩
      obtain ⟨c, rest, hread⟩ := hfirst.read
      obtain ⟨rest, -, hstands⟩ := Lexeme.stands_of_read hread
      refine hstands.spaced hspaced.apart_written fun hqualified => ?_
      -- a qualified name of the source is called there, so the next token is a parenthesis
      have hcalled := hlexeme.called (hfirst.type_eq.symm.trans hqualified)
      obtain ⟨⟨gap', content', text'⟩, rest, rfl, htype⟩ :=
        leftParen_of_called hcalled hplaced hlast
      cases pieces' with
      | nil => cases hspelled
      | cons second pieces' =>
        obtain ⟨hsecond, -⟩ := List.forall₂_cons.1 hspelled
        obtain ⟨c, rest, hread⟩ := hsecond.read
        obtain ⟨rest, -, hstands⟩ := Lexeme.stands_of_read hread
        have htext := hstands.text_of_leftParen (hsecond.type_eq.trans htype)
        refine ⟨second.gap, written pieces' last', hspaced.blank second (by simp), ?_⟩
        rw [written, htext, List.append_assoc]
        rfl

theorem sameMeaning_of_respells {ts : List Token}
    (h : List.Forall₂ Respells ts (pieces.map Piece.lexeme)) (loc : Location) :
    SameMeaning ts (tokensFrom loc pieces) := by
  induction pieces generalizing ts loc with
  | nil =>
    cases h
    rfl
  | cons piece pieces ih =>
    obtain ⟨gap, content, text⟩ := piece
    obtain ⟨t, ts, ht, hts, rfl⟩ := List.forall₂_cons_right_iff.1 h
    have hmeaning : (⟨content, loc.after gap, text⟩ : Token).meaning = t.meaning := by
      have htype : Token.type ⟨content, loc.after gap, text⟩ = t.type := ht.type_eq
      rw [Token.meaning, Token.meaning, htype]
      cases hvalued : t.type.hasValue with
      | false => rfl
      | true => exact congrArg (t.type, some ·) (ht.content_eq hvalued)
    show _ :: _ = _ :: _
    rw [hmeaning]
    exact congrArg _ (ih hts _)

end

/-- **Spelling and spacing do not matter.**  If a source is read as a tree, then so is every text of
lexemes, each of the type of the token in its place and, for literals and names, of the same value,
with any blanks around them and at least one between neighbours. -/
theorem parse_respelled {options : ParserOptions} {source last : Text} {pieces : List Piece}
    {e : Expr} (h : parse options source = .ok e)
    (hspelled : List.Forall₂ Respells (TokenStream.ofSource source).tokens
      (pieces.map Piece.lexeme))
    (hspaced : Spaced pieces last) : parse options (written pieces last) = .ok e := by
  obtain ⟨pieces₀, last₀, n, hsplit, hn, hd⟩ := parse_eq_ok_iff.1 h
  rw [hsplit.ofSource_eq] at hspelled
  refine parse_eq_ok_iff.2 ⟨pieces, last, n, ⟨rfl, ?_, hspaced.blank_last⟩, hn, ?_⟩
  · exact wellPlaced_of_spaced hsplit.wellPlaced hsplit.blank hspelled hspaced
  · exact hd.congr (sameMeaning_of_respells hspelled _)

/-- A call of `f:g` keeps its meaning when a blank parts the name from its parenthesis. -/
theorem parse_respelled_call :
    parse {} "f:g(\"a\")&&!1".toList =
        .ok (.binary .and (.call (some ['f']) ['g'] [.literal (.string ['a'])])
          (.unary .not (.literal (.long 1)))) ∧
      parse {} "f:g ( 'a' )\tand not 01 ".toList =
        .ok (.binary .and (.call (some ['f']) ['g'] [.literal (.string ['a'])])
          (.unary .not (.literal (.long 1)))) := by
  have hsplit : Split "f:g(\"a\")&&!1".toList [
      ⟨[], .qualifiedName ['f'] ['g'], "f:g".toList⟩,
      ⟨[], .sign .leftParen ['('], ['(']⟩, ⟨[], .literal .string (.string ['a']), "\"a\"".toList⟩,
      ⟨[], .sign .rightParen [')'], [')']⟩, ⟨[], .sign .and "&&".toList, "&&".toList⟩,
      ⟨[], .sign .not ['!'], ['!']⟩, ⟨[], .literal .number (.long 1), ['1']⟩] [] := by
    refine ⟨rfl, ⟨blank_nil, ?_, blank_nil, ?_, blank_nil, ?_, blank_nil, ?_, blank_nil, ?_,
      blank_nil, ?_, blank_nil, ?_, trivial⟩, blank_nil⟩
    all_goals exact Lexeme.stands_of_read_append rfl rfl
  have hparse : parse {} "f:g(\"a\")&&!1".toList =
      .ok (.binary .and (.call (some ['f']) ['g'] [.literal (.string ['a'])])
        (.unary .not (.literal (.long 1)))) := by
    rw [parse, hsplit.ofSource_eq]
    rfl
  refine ⟨hparse, ?_⟩
  let pieces : List Piece := [
    ⟨[], .qualifiedName ['f'] ['g'], "f:g".toList⟩,
    ⟨[' '], .sign .leftParen ['('], ['(']⟩, ⟨[' '], .literal .string (.string ['a']), "'a'".toList⟩,
    ⟨[' '], .sign .rightParen [')'], [')']⟩, ⟨['\t'], .sign .and "and".toList, "and".toList⟩,
    ⟨[' '], .sign .not "not".toList, "not".toList⟩,
    ⟨[' '], .literal .number (.long 1), "01".toList⟩]
  have hspelled : List.Forall₂ Respells (TokenStream.ofSource "f:g(\"a\")&&!1".toList).tokens
      (pieces.map Piece.lexeme) := by
    rw [hsplit.ofSource_eq]
    exact .cons ⟨⟨'f', ":g(".toList, rfl⟩, rfl, fun _ => rfl⟩ <|
      .cons ⟨⟨'(', [], rfl⟩, rfl, nofun⟩ <| .cons ⟨⟨'\'', "a'".toList, rfl⟩, rfl, fun _ => rfl⟩ <|
      .cons ⟨⟨')', [], rfl⟩, rfl, nofun⟩ <| .cons ⟨⟨'a', "nd".toList, rfl⟩, rfl, nofun⟩ <|
      .cons ⟨⟨'n', "ot".toList, rfl⟩, rfl, nofun⟩ <|
      .cons ⟨⟨'0', ['1'], rfl⟩, rfl, fun _ => rfl⟩ .nil
  have hspaced : Spaced pieces [' '] := by
    refine ⟨?_, by simp [pieces], blank_space⟩
    simp only [pieces, Blank, List.forall_mem_cons, List.not_mem_nil, false_imp_iff, implies_true,
      and_true]
    decide
  exact parse_respelled hparse hspelled hspaced

end ExprLang
