import ExprLang.Eval.Basic
import ExprLang.Expr.Parser

/-!
# Templates

A template is text with sections `$` + `{expression}` in it.  A section ends at the first closing
brace outside a string literal.  Evaluated, a template that is one section yields the value of its
expression, and any other one the text with the value of every section in its place.

* `sectionEnd?` — a section's body and the text after it; `opening?` — what stands around the next
  opening.
* `Template.parse` — the parts of a source, or the first section that is no expression.
* `Template.substitute` — a source with the values of its sections, for every host.
-/

namespace ExprLang

inductive TemplatePart where
  | text (text : Text)
  | section (expression : Expr)
  deriving Repr

structure Template where
  parts : List TemplatePart
  deriving Repr

namespace Template

/-! ## Sections -/

/-- The text before the next opening of a section and the text behind that opening. -/
def opening? : Text → Option (Text × Text)
  | [] => none
  | '$' :: '{' :: rest => some ([], rest)
  | c :: rest => (opening? rest).map fun (before, after) => (c :: before, after)

/-- The body up to the closing brace and the text behind it.  Inside a string literal, which
`quote` has opened, braces do not count, and a backslash hides the character after it. -/
def sectionEnd? : Option Char → Text → Option (Text × Text)
  | _, [] => none
  | some quote, c :: rest =>
    if c = '\\' then
      match rest with
      | [] => none
      | hidden :: rest =>
        (sectionEnd? (some quote) rest).map fun (body, after) => (c :: hidden :: body, after)
    else
      (sectionEnd? (if c = quote then none else some quote) rest).map fun (body, after) =>
        (c :: body, after)
  | none, c :: rest =>
    if c = '}' then some ([], rest)
    else
      (sectionEnd? (if c = '"' ∨ c = '\'' then some c else none) rest).map fun (body, after) =>
        (c :: body, after)

theorem length_opening? {source before after : Text} (h : opening? source = some (before, after)) :
    source.length = before.length + after.length + 2 := by
  induction source generalizing before after with
  | nil => simp [opening?] at h
  | cons c rest ih =>
    unfold opening? at h
    split at h
    · cases h
    · rename_i heq
      cases heq
      cases h
      simp
    · rename_i heq
      cases heq
      obtain ⟨⟨before', after'⟩, hrest, hpair⟩ := Option.map_eq_some_iff.1 h
      cases hpair
      have := ih hrest
      simp only [List.length_cons]
      omega

theorem length_sectionEnd?_lt {quote : Option Char} {source body after : Text}
    (h : sectionEnd? quote source = some (body, after)) : after.length < source.length := by
  fun_induction sectionEnd? quote source generalizing body after with
  | case1 => cases h
  | case2 quote => cases h
  | case3 quote hidden rest ih =>
    obtain ⟨⟨body', after'⟩, hrest, hpair⟩ := Option.map_eq_some_iff.1 h
    cases hpair
    have := ih hrest
    simp only [List.length_cons]
    omega
  | case4 quote c rest hc ih =>
    obtain ⟨⟨body', after'⟩, hrest, hpair⟩ := Option.map_eq_some_iff.1 h
    cases hpair
    have := ih hrest
    simp only [List.length_cons]
    omega
  | case5 rest =>
    cases h
    simp
  | case6 c rest hc ih =>
    obtain ⟨⟨body', after'⟩, hrest, hpair⟩ := Option.map_eq_some_iff.1 h
    cases hpair
    have := ih hrest
    simp only [List.length_cons]
    omega

/-! ## Parsing -/

/-- The error of a section's body that starts at `offset`, as an error of the whole source. -/
def relocate (source : Text) (offset : Nat) : SyntaxError → SyntaxError
  | .lexical error =>
    .lexical { error with location := .atOffset source (offset + error.location.offset) }
  | .parse error =>
    let location := Location.atOffset source (offset + error.token.location.offset)
    .parse { error with token := { error.token with location } }

/-- The error of a section as a whole; it shows the place of the opening but no line. -/
def sectionError (reason : ParseReason) (offset : Nat) : SyntaxError :=
  .parse ⟨reason, .eof ⟨offset, 1, 1⟩⟩

/-- A text part, unless it is empty. -/
def textPart (text : Text) : List TemplatePart :=
  if text = [] then [] else [.text text]

/-- The parts of `rest`, which is the end of `source`. -/
def parseParts (options : ParserOptions) (source rest : Text) :
    Except SyntaxError (List TemplatePart) :=
  match _hopen : opening? rest with
  | none => .ok (textPart rest)
  | some (before, body) =>
    let bodyOffset := source.length - body.length
    match _hend : sectionEnd? none body with
    | none => .error (sectionError .unterminatedSection (bodyOffset - 2))
    | some (content, after) =>
      if content.all Unicode.isBlank then
        .error (sectionError .emptySection (bodyOffset - 2))
      else
        match ExprLang.parse options content with
        | .error error => .error (relocate source bodyOffset error)
        | .ok expression =>
          match parseParts options source after with
          | .error error => .error error
          | .ok parts => .ok (textPart before ++ .section expression :: parts)
termination_by rest.length
decreasing_by
  have := length_opening? ‹_›
  have := length_sectionEnd?_lt ‹_›
  omega

def parse (options : ParserOptions) (source : Text) : Except SyntaxError Template :=
  match parseParts options source source with
  | .ok parts => .ok ⟨parts⟩
  | .error error => .error error

/-- The expressions of the sections, in order. -/
def expressions (template : Template) : List Expr :=
  template.parts.filterMap fun
    | .section expression => some expression
    | .text _ => none

/-! ## Evaluation -/

/-- The text of one part. -/
def partText (host : Host) : TemplatePart → Evaluation Text
  | .text text => return text
  | .section expression => do
    let value ← ExprLang.evaluate host expression
    Evaluation.ofResult value.toText

/-- The texts of the parts, one behind the other. -/
def partsText (host : Host) : List TemplatePart → Evaluation Text
  | [] => return []
  | part :: parts => do
    let text ← partText host part
    let texts ← partsText host parts
    return text ++ texts

/-- The value of a single section, or else the text of all parts. -/
def evaluate (template : Template) (host : Host) : Evaluation Value :=
  match template.parts with
  | [.section expression] => ExprLang.evaluate host expression
  | parts => do return .string (← partsText host parts)

/-- The value as a text. -/
def render (template : Template) (host : Host) : Evaluation Text := do
  let value ← template.evaluate host
  Evaluation.ofResult value.toText

/-- A source with the value of every section in its place, against any host. -/
def substitute (options : ParserOptions) (source : Text) :
    Except SyntaxError (Host → Evaluation Text) :=
  (parse options source).map render

end Template

end ExprLang
