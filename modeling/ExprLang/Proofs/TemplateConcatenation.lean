import ExprLang.Proofs.EvaluationRules
import ExprLang.Proofs.TemplateExactness

/-!
# One template behind another

Two sources of templates, one behind the other, are the source of a template, unless a section
opens where they meet.  Texts that meet become one part, and all other parts stay as they are, so
the new template is rendered by rendering the two in turn, whatever the host is and does.  That a
single section has a value which is no text makes no difference to what is rendered.

* `partsText_append`, `render_eq_partsText` — templates are rendered part by part.
* `joinParts` — the parts of two templates, with `Decomposes.join` and `partsText_joinParts`.
* `substitute_append` — substitution is a homomorphism on sources.
-/

namespace ExprLang.Template

open Evaluation

/-! ## Rendering part by part -/

section

variable (host : Host) (template : Template) (parts parts' : List TemplatePart)

theorem partsText_append : partsText host (parts ++ parts') = (do
    let text ← partsText host parts
    let text' ← partsText host parts'
    return text ++ text') := by
  induction parts with
  | nil => simp [partsText]
  | cons part parts ih =>
    simp only [List.cons_append, partsText, ih, bind_assoc, pure_bind, List.append_assoc]

/-- A template is rendered part by part, also one that is a single section. -/
theorem render_eq_partsText : template.render host = partsText host template.parts := by
  obtain ⟨parts⟩ := template
  unfold render evaluate
  split
  · rename_i e heq
    obtain rfl : parts = [.section e] := heq
    simp only [partsText, partText, pure_bind, List.append_nil, bind_pure]
  · rw [bind_assoc]
    simp only [pure_bind]
    exact bind_pure (partsText host parts)

end

/-! ## Texts that meet -/

/-- A section opens where the two texts meet. -/
def OpensAcross (text text' : Text) : Prop :=
  text.getLast? = some '$' ∧ text'.head? = some '{'

section

variable {text text' : Text}

theorem OpensAcross.behind (front : Text) (h : OpensAcross text text') :
    OpensAcross (front ++ text) text' := by
  refine ⟨?_, h.2⟩
  rw [List.getLast?_append, h.1]
  rfl

theorem OpensAcross.before {rest : Text} (h : OpensAcross text text') :
    OpensAcross text (text' ++ rest) := by
  refine ⟨h.1, ?_⟩
  rw [List.head?_append, h.2]
  rfl

theorem not_opening_of_meeting (h : ¬ openingText <:+: text) (h' : ¬ openingText <:+: text')
    (hseam : ¬ OpensAcross text text') : ¬ openingText <:+: text ++ text' := by
  induction text with
  | nil => exact h'
  | cons c text ih =>
    rw [List.infix_cons_iff, not_or] at h
    rw [List.cons_append, List.infix_cons_iff, not_or]
    refine ⟨?_, ih h.2 fun hopens => hseam (hopens.behind [c])⟩
    rintro ⟨rest, hrest⟩
    cases text with
    | nil =>
      cases text' with
      | nil => cases hrest
      | cons d text' =>
        cases hrest
        exact hseam ⟨rfl, rfl⟩
    | cons d text =>
      cases hrest
      exact h.1 ⟨text, rfl⟩

end

/-! ## The parts of two templates -/

/-- The parts one behind the other; texts that meet become one part. -/
def joinParts : List TemplatePart → List TemplatePart → List TemplatePart
  | [], parts' => parts'
  | [.text text], .text text' :: parts' => .text (text ++ text') :: parts'
  | part :: parts, parts' => part :: joinParts parts parts'

theorem partsText_joinParts (host : Host) (parts parts' : List TemplatePart) :
    partsText host (joinParts parts parts') = partsText host (parts ++ parts') := by
  fun_induction joinParts parts parts' with
  | case1 => rfl
  | case2 text text' parts' =>
    simp only [List.cons_append, List.nil_append, partsText, partText, bind_assoc, pure_bind,
      List.append_assoc]
  | case3 part parts parts' _ ih => rw [List.cons_append, partsText, partsText, ih]

section

variable {options : ParserOptions} {source source' : Text} {part : TemplatePart}
  {parts parts' : List TemplatePart}

theorem decomposes_nil_iff : Decomposes options source [] ↔ source = [] := by
  constructor
  · rintro ⟨⟨texts, hwritten, rfl⟩, -⟩
    cases hwritten
    rfl
  · rintro rfl
    exact ⟨⟨[], .nil, rfl⟩, .nil⟩

theorem decomposes_cons_iff : Decomposes options source (part :: parts) ↔
    ∃ text rest, source = text ++ rest ∧ PartSource options part text ∧
      (∀ next ∈ parts.head?, ¬ (part.IsText ∧ next.IsText)) ∧ Decomposes options rest parts := by
  constructor
  · rintro ⟨⟨texts, hwritten, rfl⟩, hseparate⟩
    cases hwritten with
    | @cons _ text _ texts hpart hparts =>
      obtain ⟨hnext, hrest⟩ := List.isChain_cons.1 hseparate
      exact ⟨text, texts.flatten, rfl, hpart, hnext, ⟨texts, hparts, rfl⟩, hrest⟩
  · rintro ⟨text, rest, rfl, hpart, hnext, ⟨texts, hparts, rfl⟩, hrest⟩
    exact ⟨⟨text :: texts, .cons hpart hparts, rfl⟩, List.isChain_cons.2 ⟨hnext, hrest⟩⟩

/-- If the parts one behind the other do not begin with a text, then neither do the joined ones. -/
theorem head?_joinParts (h : ∀ next ∈ (parts ++ parts').head?, ¬ next.IsText) :
    ∀ next ∈ (joinParts parts parts').head?, ¬ next.IsText := by
  fun_cases joinParts parts parts' with
  | case1 => exact h
  | case2 text text' parts' => exact absurd trivial (h _ rfl)
  | case3 => exact h

/-- Two sources of parts are the source of the joined parts. -/
theorem Decomposes.join (h : Decomposes options source parts)
    (h' : Decomposes options source' parts') (hseam : ¬ OpensAcross source source') :
    Decomposes options (source ++ source') (joinParts parts parts') := by
  fun_induction joinParts parts parts' generalizing source with
  | case1 parts' =>
    rw [decomposes_nil_iff.1 h]
    exact h'
  | case2 text text' parts' =>
    obtain ⟨_, _, rfl, ⟨hne, hopening⟩, -, hnil⟩ := decomposes_cons_iff.1 h
    obtain ⟨_, rest', rfl, ⟨_, hopening'⟩, hnext, hrest⟩ := decomposes_cons_iff.1 h'
    rw [decomposes_nil_iff.1 hnil, List.append_nil] at hseam ⊢
    rw [← List.append_assoc]
    refine decomposes_cons_iff.2 ⟨text ++ text', rest', rfl, .text (by simp [hne]) ?_, hnext, hrest⟩
    exact not_opening_of_meeting hopening hopening' fun hopens => hseam hopens.before
  | case3 part parts parts' hapart ih =>
    obtain ⟨text, rest, rfl, hpart, hnext, hrest⟩ := decomposes_cons_iff.1 h
    rw [List.append_assoc]
    refine decomposes_cons_iff.2 ⟨text, rest ++ source', rfl, hpart, ?_,
      ih hrest h' fun hopens => hseam (hopens.behind _)⟩
    cases part with
    | «section» e => exact fun _ _ hboth => hboth.1
    | text text =>
      refine fun next hmem hboth => head?_joinParts (fun next hmem htext => ?_) next hmem hboth.2
      cases parts with
      | cons part parts => exact hnext next hmem ⟨trivial, htext⟩
      | nil =>
        cases parts' with
        | nil => cases hmem
        | cons first parts' =>
          cases hmem
          cases next with
          | «section» e => exact htext
          | text text' => exact hapart text text' parts' rfl rfl rfl

end

/-! ## Substitution -/

section

variable {options : ParserOptions} {source source' : Text} {render render' : Host → Evaluation Text}

theorem substitute_of_decomposes {parts : List TemplatePart}
    (h : Decomposes options source parts) :
    substitute options source = .ok fun host => partsText host parts := by
  rw [substitute, Template.parse, parseParts_of_decomposes h]
  exact congrArg Except.ok (funext fun host => render_eq_partsText host ⟨parts⟩)

theorem decomposes_of_substitute (h : substitute options source = .ok render) :
    ∃ parts, Decomposes options source parts ∧ render = fun host => partsText host parts := by
  unfold substitute Template.parse at h
  split at h
  · rename_i parts hparts
    cases h
    exact ⟨parts, decomposes_of_parseParts hparts,
      funext fun host => render_eq_partsText host ⟨parts⟩⟩
  · cases h

/-- **Substitution is a homomorphism.**  Two sources that are templates are one template if they
stand one behind the other, unless the first one ends in a dollar sign and the second one begins
with a brace.  What comes out is the text of the first one and then that of the second one, each
from the trace that the host has come to, so the first failure of the two is the failure of both.
A text without an opening stays as it is, and a template of one section is rendered like any other
one, though its value need not be a text. -/
theorem substitute_append (options : ParserOptions) :
    (∀ source source' render render', substitute options source = .ok render →
      substitute options source' = .ok render' → ¬ OpensAcross source source' →
      substitute options (source ++ source') = .ok fun host => do
        let text ← render host
        let text' ← render' host
        return text ++ text') ∧
    (∀ text, ¬ openingText <:+: text → substitute options text = .ok fun _ => return text) ∧
    ∀ (template : Template) (host : Host),
      template.render host = partsText host template.parts := by
  refine ⟨fun source source' render render' h h' hseam => ?_, fun text htext => ?_, ?_⟩
  · obtain ⟨parts, hparts, rfl⟩ := decomposes_of_substitute h
    obtain ⟨parts', hparts', rfl⟩ := decomposes_of_substitute h'
    rw [substitute_of_decomposes (hparts.join hparts' hseam)]
    refine congrArg Except.ok (funext fun host => ?_)
    rw [partsText_joinParts, partsText_append]
  · rw [substitute_of_decomposes (decomposes_textPart htext)]
    refine congrArg Except.ok (funext fun host => ?_)
    unfold textPart
    split
    · rename_i hempty
      rw [hempty]
      rfl
    · simp only [partsText, partText, pure_bind, List.append_nil]
  · exact fun template host => render_eq_partsText host template

/-- A dollar sign in front of a section is text, also where two sources meet, and so is a brace
without one. -/
theorem substitute_append_dollar :
    let source : Text := ['$', '{', 'a', '}', '$']
    let source' : Text := ['$', '{', 'b', '}']
    let render (host : Host) := partsText host [.section (.identifier ['a']), .text ['$']]
    let render' (host : Host) := partsText host [.section (.identifier ['b'])]
    (substitute {} source = .ok render ∧ substitute {} source' = .ok render' ∧
      ¬ OpensAcross source source' ∧
      substitute {} (source ++ source') = .ok fun host => do
        let text ← render host
        let text' ← render' host
        return text ++ text') ∧
    ¬ openingText <:+: ['{', 'a', '}', '$'] ∧
      substitute {} ['{', 'a', '}', '$'] = .ok fun _ => return ['{', 'a', '}', '$'] := by
  intro source source' render render'
  have hname : ∀ c, c = 'a' ∨ c = 'b' → ExprLang.parse {} [c] = .ok (.identifier [c]) := by
    intro c hc
    have hsplit : Split [c] [⟨[], .identifier [c], [c]⟩] [] := by
      refine ⟨rfl, ⟨blank_nil, ?_, trivial⟩, blank_nil⟩
      rcases hc with rfl | rfl
      all_goals exact Lexeme.stands_of_read_append rfl rfl
    rw [ExprLang.parse, hsplit.ofSource_eq]
    rfl
  have hfirst : Decomposes {} source [.section (.identifier ['a']), .text ['$']] :=
    decomposes_cons_iff.2 ⟨['$', '{', 'a', '}'], ['$'], rfl, .expression (hname 'a' (.inl rfl)),
      fun _ _ hboth => hboth.1, decomposes_textPart (by decide)⟩
  have hsecond : Decomposes {} source' [.section (.identifier ['b'])] :=
    decomposes_cons_iff.2 ⟨['$', '{', 'b', '}'], [], rfl, .expression (hname 'b' (.inr rfl)), nofun,
      decomposes_nil_iff.2 rfl⟩
  have happend := substitute_append {}
  have htext : ¬ openingText <:+: ['{', 'a', '}', '$'] := by decide
  have hseam : ¬ OpensAcross source source' := by
    rintro ⟨-, h⟩
    cases h
  exact ⟨⟨substitute_of_decomposes hfirst, substitute_of_decomposes hsecond, hseam,
    happend.1 _ _ _ _ (substitute_of_decomposes hfirst) (substitute_of_decomposes hsecond) hseam⟩,
    htext, happend.2.1 _ htext⟩

end

end ExprLang.Template
