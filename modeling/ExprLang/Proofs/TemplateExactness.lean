import ExprLang.Proofs.SourceReading
import ExprLang.Template.Basic
import Mathlib.Data.List.Chain
import Mathlib.Data.List.Forall2

/-!
# Templates are read as what they are written from

A template is text parts as they stand and sections, each an opening, a body that is an expression,
and a closing brace.  The scanner of sections knows nothing of the lexer, yet it finds the end of
every body that the lexer can read: outside string literals no lexeme has a brace or a quote, and
inside of them both take a backslash and the character behind it together.

* `opening?_eq_some_iff`, `opening?_eq_none_iff` — the first opening of a section.
* `sectionEnd?_written` — the scanner passes over lexemes and blanks as the lexer does.
* `Decomposes` — a source as parts, without a word on how they are found.
* `parse_eq_ok_iff_decomposes` — reading a source gives exactly the parts it decomposes into.
-/

namespace ExprLang

def TemplatePart.IsText : TemplatePart → Prop
  | .text _ => True
  | .section _ => False

namespace Template

/-! ## Openings -/

/-- The characters that open a section. -/
def openingText : Text := ['$', '{']

section

variable {source before after : Text} {c : Char}

theorem not_opening_nil : ¬ openingText <:+: [] := by
  simp [openingText]

theorem opening?_cons (h : ¬ openingText <+: c :: source) :
    opening? (c :: source) = (opening? source).map fun (before, after) => (c :: before, after) := by
  rw [opening?.eq_def]
  split
  · rename_i heq; cases heq
  · rename_i rest heq
    cases heq
    exact absurd ⟨rest, rfl⟩ h
  · rename_i heq
    cases heq
    rfl

/-- What stands in front of an opening does not run into it. -/
theorem not_opening_append (h : ¬ openingText <+: c :: before) :
    ¬ openingText <+: c :: (before ++ openingText ++ after) := by
  rintro ⟨tail, htail⟩
  cases before with
  | nil => cases htail
  | cons d before =>
    cases htail
    exact h ⟨before, rfl⟩

theorem opening?_append (h : ¬ openingText <:+: before) :
    opening? (before ++ openingText ++ after) = some (before, after) := by
  induction before with
  | nil => rfl
  | cons c before ih =>
    rw [List.infix_cons_iff, not_or] at h
    rw [List.cons_append, List.cons_append,
      opening?_cons (not_opening_append h.1), ih h.2]
    rfl

theorem opening?_eq_none_iff : opening? source = none ↔ ¬ openingText <:+: source := by
  induction source with
  | nil => simp [opening?, openingText]
  | cons c source ih =>
    by_cases hfront : openingText <+: c :: source
    · obtain ⟨rest, hrest⟩ := hfront
      rw [← hrest]
      refine iff_of_false ?_ (not_not_intro (List.prefix_append openingText rest).isInfix)
      intro hnone
      cases hnone
    · rw [opening?_cons hfront, Option.map_eq_none_iff, ih, List.infix_cons_iff,
        not_or, and_iff_right hfront]

theorem opening?_eq_some_iff : opening? source = some (before, after) ↔
    source = before ++ openingText ++ after ∧ ¬ openingText <:+: before := by
  refine ⟨fun h => ?_, fun ⟨hsource, hbefore⟩ => hsource ▸ opening?_append hbefore⟩
  induction source generalizing before with
  | nil => simp [opening?] at h
  | cons c source ih =>
    by_cases hfront : openingText <+: c :: source
    · obtain ⟨rest, hrest⟩ := hfront
      rw [← hrest] at h ⊢
      cases h
      exact ⟨rfl, not_opening_nil⟩
    · rw [opening?_cons hfront] at h
      obtain ⟨⟨before', after'⟩, hopen, hpair⟩ := Option.map_eq_some_iff.1 h
      cases hpair
      obtain ⟨rfl, hbefore⟩ := ih hopen
      refine ⟨rfl, fun hinfix => ?_⟩
      rcases List.infix_cons_iff.1 hinfix with hstart | hlater
      · exact hfront (hstart.trans ⟨openingText ++ after, by simp⟩)
      · exact hbefore hlater

end

/-! ## The end of a section -/

/-- What a scan has found, with the text that it passed over on the way. -/
def passing (front : Text) (found : Option (Text × Text)) : Option (Text × Text) :=
  found.map fun (body, after) => (front ++ body, after)

section

variable {quote : Char} {body content front rest after : Text}

theorem sectionEnd?_literal {c : Char} (h : c ≠ '\\') :
    sectionEnd? (some quote) (c :: rest) =
      passing [c] (sectionEnd? (if c = quote then none else some quote) rest) := by
  cases rest with
  | nil => simp only [sectionEnd?, if_neg h, passing]; rfl
  | cons d rest => simp only [sectionEnd?, if_neg h, passing]; rfl

theorem passing_append (front front' : Text) (found : Option (Text × Text)) :
    passing (front ++ front') found = passing front (passing front' found) := by
  cases found <;> simp [passing]

/-- A character outside a literal that neither closes the section nor opens a literal. -/
def isPlain (c : Char) : Bool :=
  c ≠ '}' && c ≠ '"' && c ≠ '\''

theorem sectionEnd?_plain (h : ∀ c ∈ front, isPlain c = true) :
    sectionEnd? none (front ++ rest) = passing front (sectionEnd? none rest) := by
  induction front with
  | nil => cases hfound : sectionEnd? none rest <;> simp [passing, hfound]
  | cons c front ih =>
    have hc := h c List.mem_cons_self
    simp only [isPlain, Bool.and_eq_true, decide_eq_true_eq, ne_eq] at hc
    rw [List.cons_append, sectionEnd?, if_neg hc.1.1, if_neg (by simp [hc.1.2, hc.2]),
      ih fun d hd => h d (List.mem_cons_of_mem c hd)]
    cases sectionEnd? none rest <;> rfl

/-- The scanner leaves a string literal at the quote that ends it. -/
theorem sectionEnd?_stringBody (hquote : quote ≠ '\\') (h : StringBody quote body content) :
    sectionEnd? (some quote) (body ++ quote :: rest) =
      passing (body ++ [quote]) (sectionEnd? none rest) := by
  induction h with
  | nil =>
    rw [List.nil_append, sectionEnd?_literal hquote, if_pos rfl]
    rfl
  | @plain c body content hc hslash hbody ih =>
    rw [List.cons_append, sectionEnd?_literal hslash, if_neg hc, ih, ← passing_append]
    rfl
  | @escape escaped decoded body content hescape hbody ih =>
    rw [List.cons_append, List.cons_append, sectionEnd?, if_pos rfl, ih]
    cases sectionEnd? none rest <;> rfl

end

/-! ### Lexemes and blanks -/

section

variable {text rest body last : Text} {value : Value} {lexeme : Lexeme} {pieces : List Piece}

theorem isPlain_of_class {p : Char → Bool}
    (h : p '}' = false ∧ p '"' = false ∧ p '\'' = false) {c : Char} (hc : p c = true) :
    isPlain c = true := by
  have hne : ∀ d, p d = false → c ≠ d := by
    rintro d hd rfl
    rw [hc] at hd
    cases hd
  simp [isPlain, hne _ h.1, hne _ h.2.1, hne _ h.2.2]

theorem isPlain_of_isDigits (h : IsDigits text) : ∀ c ∈ text, isPlain c = true :=
  fun c hc => isPlain_of_class (by decide) (h.2 c hc)

theorem isPlain_of_isNumber (h : IsNumber text value) : ∀ c ∈ text, isPlain c = true := by
  cases h with
  | integer hdigits => exact isPlain_of_isDigits hdigits
  | @double whole fraction digits exponent e hwhole hfraction hexponent =>
    have hfraction : ∀ c ∈ fraction, isPlain c = true := by
      cases hfraction with
      | absent => nofun
      | point hdigits => exact List.forall_mem_cons.2 ⟨by decide, isPlain_of_isDigits hdigits⟩
    have hmark : ∀ mark, mark = 'e' ∨ mark = 'E' → isPlain mark = true := by
      rintro mark (rfl | rfl) <;> decide
    have hexponent : ∀ c ∈ exponent, isPlain c = true := by
      cases hexponent with
      | absent => nofun
      | unsigned he hdigits =>
        exact List.forall_mem_cons.2 ⟨hmark _ he, isPlain_of_isDigits hdigits⟩
      | plus he hdigits | minus he hdigits =>
        exact List.forall_mem_cons.2 ⟨hmark _ he,
          List.forall_mem_cons.2 ⟨by decide, isPlain_of_isDigits hdigits⟩⟩
    intro c hc
    rcases List.mem_append.1 hc with hc | hc
    · rcases List.mem_append.1 hc with hc | hc
      · exact isPlain_of_isDigits hwhole c hc
      · exact hfraction c hc
    · exact hexponent c hc

theorem isPlain_of_isName (h : IsName text) : ∀ c ∈ text, isPlain c = true := by
  obtain @⟨c, tail, hc, htail⟩ := h
  have hclass : Lexeme.isNameChar '}' = false ∧ Lexeme.isNameChar '"' = false ∧
      Lexeme.isNameChar '\'' = false := by decide
  exact List.forall_mem_cons.2 ⟨isPlain_of_class hclass (Lexeme.isNameChar_of_isNameStart hc),
    fun d hd => isPlain_of_class hclass (htail d hd)⟩

theorem isPlain_of_operator {operator : Lexeme.Operator} (h : operator ∈ Lexeme.operators) :
    ∀ c ∈ operator.text, isPlain c = true := by
  have hall : ∀ operator ∈ Lexeme.operators, operator.text.all isPlain = true := by decide
  exact List.all_eq_true.1 (hall operator h)

theorem sectionEnd?_lexeme {behind : Text} (h : lexeme.Stands behind) :
    sectionEnd? none (lexeme.text ++ rest) = passing lexeme.text (sectionEnd? none rest) := by
  cases h with
  | number hnumber => exact sectionEnd?_plain (isPlain_of_isNumber hnumber)
  | keyword hkeyword =>
    exact sectionEnd?_plain (isPlain_of_isName (Lexeme.isName_of_keyword hkeyword))
  | identifier hname => exact sectionEnd?_plain (isPlain_of_isName hname.isName)
  | qualified hqualifier hname =>
    refine sectionEnd?_plain fun c hc => ?_
    rcases List.mem_append.1 hc with hc | hc
    · exact isPlain_of_isName hqualifier.isName c hc
    · exact List.forall_mem_cons.2 ⟨by decide, isPlain_of_isName hname.isName⟩ c hc
  | operator hoperator => exact sectionEnd?_plain (isPlain_of_operator hoperator)
  | @string quote body content _ hquote hbody =>
    have hopen : quote ≠ '}' ∧ quote ≠ '\\' := by
      rcases hquote with rfl | rfl <;> decide
    have hliteral : quote :: (body ++ [quote]) ++ rest = quote :: (body ++ quote :: rest) := by
      simp
    show sectionEnd? none (quote :: (body ++ [quote]) ++ rest) = _
    rw [hliteral, sectionEnd?, if_neg hopen.1, if_pos hquote,
      sectionEnd?_stringBody hopen.2 hbody]
    cases sectionEnd? none rest <;> rfl

theorem sectionEnd?_blank (h : Blank text) :
    sectionEnd? none (text ++ rest) = passing text (sectionEnd? none rest) :=
  sectionEnd?_plain fun c hc => isPlain_of_class (by decide) (h c hc)

/-- The scanner passes over what the lexer can read. -/
theorem sectionEnd?_written (h : WellPlaced pieces last) (hlast : Blank last) :
    sectionEnd? none (written pieces last ++ rest) =
      passing (written pieces last) (sectionEnd? none rest) := by
  induction pieces with
  | nil => exact sectionEnd?_blank hlast
  | cons piece pieces ih =>
    obtain ⟨hgap, hlexeme, hpieces⟩ := h
    rw [written, List.append_assoc, List.append_assoc, sectionEnd?_blank hgap,
      sectionEnd?_lexeme hlexeme, ih hpieces, passing_append, passing_append]

/-- The closing brace behind a body that can be read is the end of the section. -/
theorem sectionEnd?_split (h : Split body pieces last) :
    sectionEnd? none (body ++ '}' :: rest) = some (body, rest) := by
  obtain ⟨rfl, hplaced, hlast⟩ := h
  rw [sectionEnd?_written hplaced hlast, sectionEnd?, if_pos rfl]
  simp [passing]

end

theorem source_of_sectionEnd? {quote : Option Char} {source body after : Text}
    (h : sectionEnd? quote source = some (body, after)) : source = body ++ '}' :: after := by
  fun_induction sectionEnd? quote source generalizing body after with
  | case1 | case2 => cases h
  | case3 quote hidden rest ih | case4 quote c rest hc ih | case6 c rest hc ih =>
    obtain ⟨⟨body', after'⟩, hrest, hpair⟩ := Option.map_eq_some_iff.1 h
    cases hpair
    rw [ih hrest]
    rfl
  | case5 rest =>
    cases h
    rfl

/-! ## Parts and the source they are written from -/

/-- The texts that a part can be read from. -/
inductive PartSource (options : ParserOptions) : TemplatePart → Text → Prop where
  | text {text : Text} :
    text ≠ [] → ¬ openingText <:+: text → PartSource options (.text text) text
  | expression {body : Text} {e : Expr} :
    ExprLang.parse options body = .ok e →
    PartSource options (.section e) (openingText ++ body ++ ['}'])

/-- A source as the parts that it is written from.  A text is one part, however long it is. -/
structure Decomposes (options : ParserOptions) (source : Text) (parts : List TemplatePart) :
    Prop where
  written : ∃ texts, List.Forall₂ (PartSource options) parts texts ∧ source = texts.flatten
  separate : parts.IsChain fun part next => ¬ (part.IsText ∧ next.IsText)

section

variable {options : ParserOptions} {source rest before after body text : Text} {e : Expr}
  {part : TemplatePart} {parts : List TemplatePart}

/-! ### Reading what is written -/

theorem not_blank_of_parse (h : ExprLang.parse options body = .ok e) :
    body.all Unicode.isBlank = false := by
  obtain ⟨pieces, last, n, ⟨rfl, hplaced, -⟩, -, hd⟩ := parse_eq_ok_iff.1 h
  obtain ⟨t, us, htokens, -⟩ := hd.starts
  cases pieces with
  | nil => cases htokens
  | cons piece pieces =>
    obtain ⟨c, tail, htext, hc⟩ := hplaced.2.1.not_blank
    refine List.all_eq_false.2 ⟨c, ?_, by simp [hc]⟩
    simp [written, htext]

/-- The section of the next opening decides, or else what follows it. -/
theorem parseParts_of_opening (hopen : opening? rest = some (before, body)) :
    parseParts options source rest =
      match sectionEnd? none body with
      | none => .error (sectionError .unterminatedSection (source.length - body.length - 2))
      | some (content, after) =>
        if content.all Unicode.isBlank then
          .error (sectionError .emptySection (source.length - body.length - 2))
        else do
          let e ← (ExprLang.parse options content).mapError
            (relocate source (source.length - body.length))
          let parts ← parseParts options source after
          return textPart before ++ .section e :: parts := by
  rw [parseParts]
  split
  · rename_i hnone
    rw [hopen] at hnone
    cases hnone
  · rename_i hsome
    cases hopen.symm.trans hsome
    dsimp only
    split
    · rename_i hend
      rw [hend]
    · rename_i content after hend
      rw [hend]
      dsimp only
      by_cases hblank : content.all Unicode.isBlank = true
      · rw [if_pos hblank, if_pos hblank]
      · rw [if_neg hblank, if_neg hblank]
        cases ExprLang.parse options content with
        | error error => rfl
        | ok e =>
          show _ = parseParts options source after >>= _
          dsimp only
          cases parseParts options source after <;> rfl

/-- The next section is read first, then what follows it. -/
theorem parseParts_of_section (hopen : opening? rest = some (before, body))
    (hend : sectionEnd? none body = some (text, after))
    (hblank : text.all Unicode.isBlank = false) :
    parseParts options source rest = (do
      let e ← (ExprLang.parse options text).mapError (relocate source (source.length - body.length))
      let parts ← parseParts options source after
      return textPart before ++ .section e :: parts) := by
  rw [parseParts_of_opening hopen, hend]
  simp only [hblank, Bool.false_eq_true, if_false]

/-- A section behind some text is read as that text and its expression. -/
theorem parseParts_section (hbefore : ¬ openingText <:+: before)
    (h : ExprLang.parse options body = .ok e)
    (hafter : parseParts options source after = .ok parts) :
    parseParts options source (before ++ (openingText ++ body ++ ['}'] ++ after)) =
      .ok (textPart before ++ .section e :: parts) := by
  obtain ⟨pieces, last, n, hsplit, -⟩ := parse_eq_ok_iff.1 h
  have hopen : opening? (before ++ (openingText ++ body ++ ['}'] ++ after)) =
      some (before, body ++ '}' :: after) := by
    have happend : before ++ (openingText ++ body ++ ['}'] ++ after) =
        before ++ openingText ++ (body ++ '}' :: after) := by simp
    rw [happend, opening?_append hbefore]
  have hend : sectionEnd? none (body ++ '}' :: after) = some (body, after) :=
    sectionEnd?_split hsplit
  rw [parseParts_of_section hopen hend (not_blank_of_parse h), h, hafter]
  rfl

theorem parseParts_text (h : ¬ openingText <:+: text) :
    parseParts options source text = .ok (textPart text) := by
  rw [parseParts]
  split
  · rfl
  · rename_i hsome
    rw [opening?_eq_none_iff.2 h] at hsome
    cases hsome

/-- The parts that a source is written from are read from it, behind a text that no other text
follows. -/
theorem parseParts_written {texts : List Text}
    (hwritten : List.Forall₂ (PartSource options) parts texts)
    (hseparate : parts.IsChain fun part next => ¬ (part.IsText ∧ next.IsText))
    (hbefore : ¬ openingText <:+: before)
    (hhead : before ≠ [] → ∀ part ∈ parts.head?, ¬ part.IsText) :
    parseParts options source (before ++ texts.flatten) = .ok (textPart before ++ parts) := by
  induction hwritten generalizing before with
  | nil => simpa using parseParts_text hbefore
  | @cons part text parts texts hpart hparts ih =>
    have htail := hseparate.tail
    cases hpart with
    | expression hparse =>
      exact parseParts_section hbefore hparse (ih htail not_opening_nil nofun)
    | text hne hopening =>
      have hempty : before = [] := by
        by_contra hfull
        exact hhead hfull _ rfl trivial
      subst hempty
      have hnext : ∀ next ∈ parts.head?, ¬ next.IsText := by
        intro next hnext htext
        exact (List.isChain_cons.1 hseparate).1 next hnext ⟨trivial, htext⟩
      simpa [textPart, hne] using ih htail hopening fun _ => hnext

theorem parseParts_of_decomposes (h : Decomposes options rest parts) :
    parseParts options source rest = .ok parts := by
  obtain ⟨⟨texts, hwritten, rfl⟩, hseparate⟩ := h
  exact parseParts_written hwritten hseparate not_opening_nil nofun

/-! ### What has been read is written -/

theorem decomposes_textPart (h : ¬ openingText <:+: text) :
    Decomposes options text (textPart text) := by
  unfold textPart
  split
  · rename_i hempty
    exact ⟨⟨[], .nil, hempty⟩, .nil⟩
  · rename_i hne
    exact ⟨⟨[text], .cons (.text hne h) .nil, by simp⟩, .singleton _⟩

/-- A section with the text in front of it, in front of what has been read. -/
theorem Decomposes.behind_section (hbefore : ¬ openingText <:+: before)
    (h : ExprLang.parse options body = .ok e) (hafter : Decomposes options after parts) :
    Decomposes options (before ++ openingText ++ (body ++ '}' :: after))
      (textPart before ++ .section e :: parts) := by
  obtain ⟨⟨texts, hwritten, rfl⟩, hseparate⟩ := hafter
  have hsection : List.Forall₂ (PartSource options) (.section e :: parts)
      ((openingText ++ body ++ ['}']) :: texts) := .cons (.expression h) hwritten
  have hchain : (TemplatePart.section e :: parts).IsChain fun part next =>
      ¬ (part.IsText ∧ next.IsText) := List.isChain_cons.2 ⟨fun _ _ hboth => hboth.1, hseparate⟩
  unfold textPart
  split
  · rename_i hempty
    subst hempty
    exact ⟨⟨_, hsection, by simp⟩, hchain⟩
  · rename_i hne
    exact ⟨⟨_, .cons (.text hne hbefore) hsection, by simp⟩,
      .cons_cons (fun hboth => hboth.2) hchain⟩

theorem decomposes_of_parseParts (h : parseParts options source rest = .ok parts) :
    Decomposes options rest parts := by
  fun_induction parseParts options source rest generalizing parts with
  | case1 rest hopen =>
    cases h
    exact decomposes_textPart (opening?_eq_none_iff.1 hopen)
  | case2 | case3 | case4 | case5 => cases h
  | case6 rest before body hopen content after hend hblank e hparse parts' hparts ih =>
    cases h
    obtain ⟨rfl, hbefore⟩ := opening?_eq_some_iff.1 hopen
    rw [source_of_sectionEnd? hend]
    exact .behind_section hbefore hparse (ih hparts)

end

/-- **Templates are read as what they are written from.**  A source is read as a sequence of parts
if and only if it is, one behind the other, the texts of the text parts as they stand and for every
section the opening, some source of its expression and a closing brace, where no text part is empty
or holds an opening and no two text parts are neighbours. -/
theorem parse_eq_ok_iff_decomposes (options : ParserOptions) (source : Text)
    (parts : List TemplatePart) :
    Template.parse options source = .ok ⟨parts⟩ ↔ Decomposes options source parts := by
  constructor
  · intro h
    unfold Template.parse at h
    split at h
    · rename_i hparts
      cases h
      exact decomposes_of_parseParts hparts
    · cases h
  · intro h
    rw [Template.parse, parseParts_of_decomposes h]

end Template

end ExprLang
