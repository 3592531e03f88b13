import ExprLang.Proofs.ErrorPlaces

/-!
# The first bad section of a template

A template is refused for one of its sections.  What stands in front of this section is a template,
and the error is the one that the section has by itself: the section is not closed, or it is empty,
or its body is no expression, and then the error is that of the body, moved to where the body stands.
What stands behind the section has no part in it.

Where a section ends is said without a scanner: at the first closing brace outside of string
literals, which are followed character by character.

* `LiteralState` — where a reader of string literals is.
* `Closes`, `FirstClosing` — the closing braces outside of literals; `finds_sectionEnd?` — the scanner
  finds the first one.
* `Moved` — an error of a body as an error of the template.
* `FirstBadSection`, `exists_firstBadSection` — what a template is refused for.
-/

namespace ExprLang.Template

/-! ## Closing braces -/

/-- Where a reader of string literals is: outside of them, in one, or in one behind a backslash. -/
inductive LiteralState where
  | outside
  | inside (quote : Char)
  | escaped (quote : Char)
  deriving DecidableEq, Repr

namespace LiteralState

def next : LiteralState → Char → LiteralState
  | .outside, c => if c = '"' ∨ c = '\'' then .inside c else .outside
  | .inside quote, c =>
    if c = '\\' then .escaped quote
    else if c = quote then .outside
    else .inside quote
  | .escaped quote, _ => .inside quote

def after (state : LiteralState) (text : Text) : LiteralState :=
  text.foldl next state

/-- The state of a scanner that knows the quote of the literal it is in. -/
def ofQuote : Option Char → LiteralState
  | none => .outside
  | some quote => .inside quote

end LiteralState

/-- Behind `body` stands a closing brace that is outside of literals. -/
structure Closes (state : LiteralState) (text body : Text) : Prop where
  brace : body ++ ['}'] <+: text
  outside : state.after body = .outside

/-- Behind `body` stands the first closing brace that is outside of literals. -/
structure FirstClosing (state : LiteralState) (text body : Text) : Prop where
  closes : Closes state text body
  first : ∀ front, Closes state text front → body <+: front

/-- What a scan for the first closing brace finds. -/
inductive Finds (state : LiteralState) (text : Text) : Option (Text × Text) → Prop where
  | none : (∀ body, ¬ Closes state text body) → Finds state text none
  | some {body after : Text} : text = body ++ '}' :: after → FirstClosing state text body →
    Finds state text (some (body, after))

section

variable {state : LiteralState} {c : Char} {text rest body body' after : Text}
  {found : Option (Text × Text)}

theorem not_closes_nil : ¬ Closes state [] body := fun h => by
  simpa using h.brace.length_le

/-- Either this brace closes, or one behind this character does. -/
theorem closes_cons_iff : Closes state (c :: rest) body ↔
    body = [] ∧ c = '}' ∧ state = .outside ∨
      ∃ body', body = c :: body' ∧ Closes (state.next c) rest body' := by
  constructor
  · rintro ⟨hbrace, houtside⟩
    cases body with
    | nil => exact .inl ⟨rfl, (List.cons_prefix_cons.1 hbrace).1.symm, houtside⟩
    | cons d body =>
      rw [List.cons_append, List.cons_prefix_cons] at hbrace
      obtain ⟨rfl, hbrace⟩ := hbrace
      exact .inr ⟨body, rfl, hbrace, houtside⟩
  · rintro (⟨rfl, rfl, rfl⟩ | ⟨body, rfl, hbrace, houtside⟩)
    · exact ⟨List.cons_prefix_cons.2 ⟨rfl, List.nil_prefix⟩, rfl⟩
    · exact ⟨List.cons_prefix_cons.2 ⟨rfl, hbrace⟩, houtside⟩

theorem finds_nil : Finds state [] none :=
  .none fun _ => not_closes_nil

/-- A scan passes over a character that does not close. -/
theorem Finds.cons (hc : ¬ (c = '}' ∧ state = .outside)) (h : Finds (state.next c) rest found) :
    Finds state (c :: rest) (passing [c] found) := by
  have hcons : ∀ {body}, Closes state (c :: rest) body →
      ∃ body', body = c :: body' ∧ Closes (state.next c) rest body' :=
    fun h => (closes_cons_iff.1 h).resolve_left fun h => hc h.2
  cases h with
  | none hnone =>
    refine .none fun body hbody => ?_
    obtain ⟨body', -, hbody'⟩ := hcons hbody
    exact hnone body' hbody'
  | some htext hfirst =>
    refine .some (congrArg (c :: ·) htext) ⟨?_, fun front hfront => ?_⟩
    · exact closes_cons_iff.2 (.inr ⟨_, rfl, hfirst.closes⟩)
    · obtain ⟨front', rfl, hfront'⟩ := hcons hfront
      exact List.cons_prefix_cons.2 ⟨rfl, hfirst.first front' hfront'⟩

/-- **The scanner finds the first closing brace outside of literals**, if there is one. -/
theorem finds_sectionEnd? (quote : Option Char) (text : Text) :
    Finds (.ofQuote quote) text (sectionEnd? quote text) := by
  fun_induction sectionEnd? quote text with
  | case1 => exact finds_nil
  | case2 quote => exact finds_nil.cons (by simp [LiteralState.ofQuote])
  | case3 quote hidden rest ih =>
    -- The scanner takes a backslash and the character behind it in one step, a reader in two.
    have hrest : Finds (.escaped quote) (hidden :: rest) (passing [hidden] _) :=
      ih.cons (by simp)
    have hall : Finds (.inside quote) ('\\' :: hidden :: rest) (passing ['\\'] _) :=
      Finds.cons (by simp) hrest
    rwa [← passing_append] at hall
  | case4 quote c rest hc ih =>
    refine Finds.cons (by simp [LiteralState.ofQuote]) ?_
    have hnext : (LiteralState.ofQuote (some quote)).next c =
        .ofQuote (if c = quote then none else some quote) := by
      simp only [LiteralState.ofQuote, LiteralState.next, if_neg hc]
      split <;> rfl
    rwa [hnext]
  | case5 rest =>
    refine .some rfl ⟨⟨List.cons_prefix_cons.2 ⟨rfl, List.nil_prefix⟩, rfl⟩, ?_⟩
    exact fun _ _ => List.nil_prefix
  | case6 c rest hc ih =>
    refine Finds.cons (fun h => hc h.1) ?_
    have hnext : (LiteralState.ofQuote none).next c =
        .ofQuote (if c = '"' ∨ c = '\'' then some c else none) := by
      simp only [LiteralState.ofQuote, LiteralState.next]
      split <;> rfl
    rwa [hnext]

theorem firstClosing_of_sectionEnd? (h : sectionEnd? none text = some (body, after)) :
    FirstClosing .outside text body := by
  have hfound := finds_sectionEnd? none text
  rw [h] at hfound
  cases hfound with
  | some _ hfirst => exact hfirst

theorem not_closes_of_sectionEnd? (h : sectionEnd? none text = none) :
    ¬ Closes .outside text body := by
  have hfound := finds_sectionEnd? none text
  rw [h] at hfound
  cases hfound with
  | none hnone => exact hnone body

theorem FirstClosing.unique (h : FirstClosing state text body) (h' : FirstClosing state text body') :
    body = body' :=
  (h.first body' h'.closes).eq_of_length_le (h'.first body h.closes).length_le

/-- What stands behind a closing brace has no part in where it is. -/
theorem FirstClosing.behind (h : FirstClosing state text body) (after : Text) :
    FirstClosing state (body ++ '}' :: after) body := by
  refine ⟨⟨⟨after, by simp⟩, h.closes.outside⟩, fun front hfront => ?_⟩
  have hbody : body <+: body ++ '}' :: after := List.prefix_append body _
  have hbefore : front <+: body ++ '}' :: after := (List.prefix_append front _).trans hfront.brace
  rcases Nat.lt_or_ge front.length body.length with hlt | hle
  · -- A brace in front of this one would have closed before.
    have hin : front ++ ['}'] <+: body :=
      List.prefix_of_prefix_length_le hfront.brace hbody (by simpa using Nat.succ_le_of_lt hlt)
    have htext : body <+: text := (List.prefix_append body _).trans h.closes.brace
    exact h.first front ⟨hin.trans htext, hfront.outside⟩
  · exact List.prefix_of_prefix_length_le hbody hbefore hle

theorem sectionEnd?_of_firstClosing (h : FirstClosing .outside text body) (after : Text) :
    sectionEnd? none (body ++ '}' :: after) = some (body, after) := by
  have hfirst := h.behind after
  cases hend : sectionEnd? none (body ++ '}' :: after) with
  | none => exact absurd hfirst.closes (not_closes_of_sectionEnd? hend)
  | some found =>
    obtain ⟨body', after'⟩ := found
    obtain rfl := hfirst.unique (firstClosing_of_sectionEnd? hend)
    have hsource := List.append_cancel_left (source_of_sectionEnd? hend)
    cases hsource
    rfl

end

/-! ## Errors of a body as errors of the template -/

/-- The same error at a place that is further behind. -/
inductive Moved (distance : Nat) : SyntaxError → SyntaxError → Prop where
  | lexical {e e' : LexicalError} : e'.reason = e.reason →
    e'.location.offset = e.location.offset + distance → Moved distance (.lexical e) (.lexical e')
  | parse {e e' : ParseError} : e'.reason = e.reason → e'.text = e.text →
    e'.token.content = e.token.content →
    e'.token.lexeme = e.token.lexeme →
    e'.token.location.offset = e.token.location.offset + distance →
    Moved distance (.parse e) (.parse e')

section

variable {options : ParserOptions} {source front rest body text : Text} {error : SyntaxError}

theorem moved_relocate (source : Text) (offset : Nat) (error : SyntaxError) :
    Moved offset error (relocate source offset error) := by
  cases error with
  | lexical e => exact .lexical rfl (Nat.add_comm _ _)
  | parse e => exact .parse rfl rfl rfl rfl (Nat.add_comm _ _)

/-- The place of an offset is a matter of what stands in front of it. -/
theorem atOffset_append_left {n : Nat} (h : n ≤ text.length) (rest : Text) :
    Location.atOffset (text ++ rest) n = .atOffset text n := by
  simp only [Location.atOffset, List.take_append_of_le_length h]

theorem relocate_append_left {offset : Nat} (h : offset + error.location.offset ≤ text.length)
    (rest : Text) : relocate (text ++ rest) offset error = relocate text offset error := by
  cases error with
  | lexical e =>
    have hplace : offset + e.location.offset ≤ text.length := h
    simp only [relocate, atOffset_append_left hplace]
  | parse e =>
    have hplace : offset + e.token.location.offset ≤ text.length := h
    simp only [relocate, atOffset_append_left hplace]

/-- What is wrong with a section that is closed does not depend on what stands behind it. -/
theorem SectionFails.behind (hsource : source = front ++ openingText ++ rest)
    (h : SectionFails options source rest error) (hfirst : FirstClosing .outside rest body)
    (after : Text) :
    SectionFails options (front ++ openingText ++ (body ++ '}' :: after)) (body ++ '}' :: after)
      error := by
  have hend := sectionEnd?_of_firstClosing hfirst after
  cases h with
  | unterminated hnone => exact absurd hfirst.closes (not_closes_of_sectionEnd? hnone)
  | empty hsome hblank =>
    obtain rfl := hfirst.unique (firstClosing_of_sectionEnd? hsome)
    rw [openingOffset_eq hsource, ← openingOffset_eq (rfl : front ++ openingText ++ _ = _)]
    exact .empty hend hblank
  | @invalid content behind inner hsome hblank hparse =>
    obtain rfl := hfirst.unique (firstClosing_of_sectionEnd? hsome)
    have hplace : front.length + 2 + inner.location.offset ≤
        (front ++ openingText ++ body).length := by
      have hinner := (parse_error_inText hparse).offset_le
      rw [List.length_append, List.length_append]
      exact Nat.add_le_add_left hinner _
    have hsame : relocate source (front.length + 2) inner =
        relocate (front ++ openingText ++ (body ++ '}' :: after)) (front.length + 2) inner := by
      rw [hsource, source_of_sectionEnd? hsome, ← List.append_assoc, ← List.append_assoc,
        relocate_append_left hplace, relocate_append_left hplace]
    rw [bodyOffset_eq hsource, hsame, ← bodyOffset_eq (rfl : front ++ openingText ++ _ = _)]
    exact .invalid hend hblank hparse

end

/-! ## What a template is refused for -/

/-- What is wrong with the section that opens at `place`, with `rest` behind its opening. -/
inductive BadSection (options : ParserOptions) (place : Nat) (rest : Text) : SyntaxError → Prop where
  | unterminated {e : ParseError} : (∀ body, ¬ Closes .outside rest body) →
    e.text = "Unterminated '$\x7b' in template".toList → e.token.location.offset = place →
    BadSection options place rest (.parse e)
  | empty {body : Text} {e : ParseError} : FirstClosing .outside rest body →
    body.all Unicode.isBlank = true →
    e.text = "Empty expression in template".toList → e.token.location.offset = place →
    BadSection options place rest (.parse e)
  | invalid {body : Text} {inner error : SyntaxError} : FirstClosing .outside rest body →
    body.all Unicode.isBlank = false →
    ExprLang.parse options body = .error inner → Moved (place + 2) inner error →
    BadSection options place rest error

/-- The section behind `front` is the first bad one, and it alone decides on the error. -/
structure FirstBadSection (options : ParserOptions) (source front rest : Text)
    (error : SyntaxError) : Prop where
  source_eq : source = front ++ openingText ++ rest
  accepted : ∃ template, Template.parse options front = .ok template
  bad : BadSection options front.length rest error
  /-- Any text may stand behind the section, if it is closed. -/
  independent : ∀ body, FirstClosing .outside rest body → ∀ after,
    Template.parse options (front ++ openingText ++ (body ++ '}' :: after)) = .error error

section

variable {options : ParserOptions} {source front rest : Text} {error : SyntaxError}

theorem parse_eq_error_iff :
    Template.parse options source = .error error ↔
      parseParts options source source = .error error := by
  unfold Template.parse
  cases parseParts options source source <;> simp

theorem SectionFails.bad (hsource : source = front ++ openingText ++ rest)
    (h : SectionFails options source rest error) :
    BadSection options front.length rest error := by
  cases h with
  | unterminated hend =>
    rw [openingOffset_eq hsource]
    exact .unterminated (fun _ => not_closes_of_sectionEnd? hend) rfl rfl
  | empty hend hblank =>
    rw [openingOffset_eq hsource]
    exact .empty (firstClosing_of_sectionEnd? hend) hblank rfl rfl
  | invalid hend hblank hparse =>
    rw [bodyOffset_eq hsource]
    exact .invalid (firstClosing_of_sectionEnd? hend) hblank hparse (moved_relocate _ _ _)

/-- **A template is refused for its first bad section**, with the error that this section has by
itself. -/
theorem exists_firstBadSection (h : Template.parse options source = .error error) :
    ∃ front rest, FirstBadSection options source front rest error := by
  obtain ⟨front, rest, parts, hsource, hparts, hfails⟩ :=
    parseParts_eq_error_iff.1 (parse_eq_error_iff.1 h)
  refine ⟨front, rest, hsource, ⟨⟨parts⟩, ?_⟩, hfails.bad hsource, fun body hfirst after => ?_⟩
  · exact (parse_eq_ok_iff_decomposes options front parts).2 hparts
  · refine parse_eq_error_iff.2 (parseParts_eq_error_iff.2 ?_)
    exact ⟨front, _, parts, rfl, hparts, hfails.behind hsource hfirst after⟩

/-- An empty section behind a character, and a quote that is left open in the section behind it. -/
theorem exists_firstBadSection_blank :
    let source := "a$\x7b \x7d$\x7b'".toList
    let error := SyntaxError.parse ⟨.emptySection, .eof ⟨1, 1, 1⟩⟩
    Template.parse {} source = .error error ∧
      ∃ front rest, FirstBadSection {} source front rest error := by
  intro source error
  have hparse : Template.parse {} source = .error error := by
    have hopen : opening? source = some (['a'], " \x7d$\x7b'".toList) := rfl
    have hend : sectionEnd? none " \x7d$\x7b'".toList = some ([' '], "$\x7b'".toList) := rfl
    rw [Template.parse, parseParts_of_fails hopen (.empty hend (by decide))]
    rfl
  exact ⟨hparse, exists_firstBadSection hparse⟩

end

end ExprLang.Template
