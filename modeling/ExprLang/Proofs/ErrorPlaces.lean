import ExprLang.Proofs.BrokenSources
import ExprLang.Proofs.LexerRuns
import ExprLang.Proofs.TemplateExactness

/-!
# The places of errors

An error of an expression stands at a place of its source, be it an error of the lexer, at a token
or at the end.  A template moves the errors of its sections to where these stand, and they have the
line and the column of that place in the whole template.  An error of a section as a whole stands
at its opening; it is said to be in the first column of the first line, wherever that is.

* `parse_error_inText` — the errors of an expression.
* `SectionFails` — what is wrong with a section; `parseParts_eq_error_iff` — a template is refused for
  its first section that is at fault.
* `SectionFault` — what can be wrong with a template, with `sectionFault_of_parseParts`.
* `Misplaced` — the errors that are given another line and column than those of their offset.
* `Template.parse_error_located` — an error of a template is located in it unless it is one of these.
-/

namespace ExprLang

open Location

/-! ## Errors of an expression -/

namespace Lexer

variable {source : Text} {lexer : Lexer}

theorem terminated_all (lexer : Lexer) : lexer.all.Terminated := by
  fun_induction all lexer with
  | case1 =>
    intro final hfinal
    cases hfinal
  | case2 lexer token lexer' hnext htype =>
    intro final hfinal
    cases hfinal
    exact htype
  | case3 lexer token lexer' hnext htype stream ih => exact ih

/-- The tokens of a source, and what ends them, stand in it. -/
theorem StandsIn.all_inText (h : lexer.StandsIn source) :
    (∀ token ∈ lexer.all.tokens, token.location.InText source) ∧
      (answerLocation lexer.all.ending).InText source := by
  fun_induction all lexer with
  | case1 lexer error lexer' hnext => exact ⟨by simp, h.answer_inText (step_of_next hnext)⟩
  | case2 lexer token lexer' hnext htype => exact ⟨by simp, h.answer_inText (step_of_next hnext)⟩
  | case3 lexer token lexer' hnext htype stream ih =>
    have hstep := step_of_next hnext
    obtain ⟨htokens, hending⟩ := ih (h.step hstep)
    exact ⟨List.forall_mem_cons.2 ⟨h.answer_inText hstep, htokens⟩, hending⟩

end Lexer

/-- Every error of an expression has the line and the column of its offset in the source. -/
theorem parse_error_inText {options : ParserOptions} {source : Text} {error : SyntaxError}
    (h : parse options source = .error error) : error.location.InText source := by
  obtain ⟨htokens, hending⟩ := (Lexer.standsIn_start source).all_inText
  have hstream : (Lexer.start source).all.Terminated := Lexer.terminated_all _
  change parseTokens options (Lexer.start source).all = .error error at h
  cases error with
  | lexical lexical =>
    rw [ending_of_parseTokens_lexical h] at hending
    exact hending
  | parse error =>
    rcases parseTokens_error_placed hstream h with ⟨before, after, hplaced⟩ | hend
    · refine htokens error.token ?_
      rw [hplaced.tokens_eq]
      simp
    · rw [hend] at hending
      exact hending

/-! ## Errors of a template -/

namespace Template

variable {options : ParserOptions} {source passed rest : Text} {error : SyntaxError}

/-- What is wrong with a section, of which `body` is all that stands behind the opening up to the end
of the source. -/
inductive SectionFails (options : ParserOptions) (source body : Text) : SyntaxError → Prop where
  | unterminated : sectionEnd? none body = none →
    SectionFails options source body
      (sectionError .unterminatedSection (source.length - body.length - 2))
  | empty {content after : Text} : sectionEnd? none body = some (content, after) →
    content.all Unicode.isBlank = true →
    SectionFails options source body (sectionError .emptySection (source.length - body.length - 2))
  | invalid {content after : Text} {inner : SyntaxError} :
    sectionEnd? none body = some (content, after) → content.all Unicode.isBlank = false →
    ExprLang.parse options content = .error inner →
    SectionFails options source body (relocate source (source.length - body.length) inner)

theorem parseParts_of_fails {before body : Text} (hopen : opening? rest = some (before, body))
    (h : SectionFails options source body error) :
    parseParts options source rest = .error error := by
  rw [parseParts_of_opening hopen]
  cases h with
  | unterminated hend => rw [hend]
  | empty hend hblank =>
    rw [hend]
    exact if_pos hblank
  | invalid hend hblank hparse =>
    rw [hend]
    dsimp only
    rw [if_neg (Bool.eq_false_iff.1 hblank), hparse]
    rfl

/-- In front of the section that a template is refused for stands a template. -/
theorem fails_of_parseParts (h : parseParts options source rest = .error error) :
    ∃ front body parts, rest = front ++ openingText ++ body ∧ Decomposes options front parts ∧
      SectionFails options source body error := by
  fun_induction parseParts options source rest generalizing error with
  | case1 => cases h
  | case2 rest before body hopen bodyOffset =>
    rename_i hend
    cases h
    obtain ⟨rfl, hbefore⟩ := opening?_eq_some_iff.1 hopen
    exact ⟨before, body, _, rfl, decomposes_textPart hbefore, .unterminated hend⟩
  | case3 rest before body hopen bodyOffset content after hend =>
    rename_i hblank
    cases h
    obtain ⟨rfl, hbefore⟩ := opening?_eq_some_iff.1 hopen
    exact ⟨before, body, _, rfl, decomposes_textPart hbefore, .empty hend hblank⟩
  | case4 rest before body hopen bodyOffset content after hend hblank inner =>
    rename_i hparse
    cases h
    obtain ⟨rfl, hbefore⟩ := opening?_eq_some_iff.1 hopen
    exact ⟨before, body, _, rfl, decomposes_textPart hbefore,
      .invalid hend (Bool.eq_false_iff.2 hblank) hparse⟩
  | case5 rest before body hopen content after hend hblank e hparse inner hafter ih =>
    cases h
    obtain ⟨rfl, hbefore⟩ := opening?_eq_some_iff.1 hopen
    obtain ⟨front, body', parts, rfl, hparts, hfails⟩ := ih hafter
    refine ⟨_, body', _, ?_, hparts.behind_section hbefore hparse, hfails⟩
    rw [source_of_sectionEnd? hend]
    simp
  | case6 => cases h

/-- What has been read in front of a section does not change what is wrong with it. -/
theorem parseParts_append_of_fails {front body : Text} {parts : List TemplatePart}
    (h : parseParts options source front = .ok parts)
    (hfails : SectionFails options source body error) :
    parseParts options source (front ++ openingText ++ body) = .error error := by
  fun_induction parseParts options source front generalizing parts with
  | case1 front hopen =>
    exact parseParts_of_fails (opening?_append (opening?_eq_none_iff.1 hopen)) hfails
  | case2 | case3 | case4 | case5 => cases h
  | case6 front before rest hopen content after hend hblank e hparse parts hafter ih =>
    obtain ⟨rfl, hbefore⟩ := opening?_eq_some_iff.1 hopen
    obtain ⟨pieces, last, n, hsplit, -⟩ := parse_eq_ok_iff.1 hparse
    have hrest : before ++ openingText ++ rest ++ openingText ++ body =
        before ++ openingText ++ (content ++ '}' :: (after ++ openingText ++ body)) := by
      rw [source_of_sectionEnd? hend]
      simp
    rw [hrest, parseParts_of_section (opening?_append hbefore) (sectionEnd?_split hsplit)
      (Bool.eq_false_iff.2 hblank), hparse, ih hafter]
    rfl

/-- **A template is refused for its first section that is at fault.** -/
theorem parseParts_eq_error_iff : parseParts options source rest = .error error ↔
    ∃ front body parts, rest = front ++ openingText ++ body ∧ Decomposes options front parts ∧
      SectionFails options source body error := by
  refine ⟨fails_of_parseParts, ?_⟩
  rintro ⟨front, body, parts, rfl, hparts, hfails⟩
  exact parseParts_append_of_fails (parseParts_of_decomposes hparts) hfails

/-- What can be wrong with a template: a section that is not closed, one that is empty, and one that
is no expression. -/
inductive SectionFault (options : ParserOptions) (source : Text) : SyntaxError → Prop where
  | unterminated {front body : Text} : source = front ++ openingText ++ body →
    sectionEnd? none body = none →
    SectionFault options source (sectionError .unterminatedSection front.length)
  | empty {front body after : Text} : source = front ++ openingText ++ (body ++ '}' :: after) →
    body.all Unicode.isBlank = true →
    SectionFault options source (sectionError .emptySection front.length)
  | inside {front body after : Text} {error : SyntaxError} :
    source = front ++ openingText ++ (body ++ '}' :: after) →
    ExprLang.parse options body = .error error →
    SectionFault options source (relocate source (front.length + 2) error)

/-- The offset of what stands behind an opening. -/
theorem bodyOffset_eq {front body : Text} (h : source = front ++ openingText ++ body) :
    source.length - body.length = front.length + 2 := by
  have hlength : source.length = front.length + 2 + body.length := by
    rw [h, List.length_append, List.length_append]
    rfl
  omega

theorem openingOffset_eq {front body : Text} (h : source = front ++ openingText ++ body) :
    source.length - body.length - 2 = front.length := by
  rw [bodyOffset_eq h]
  exact Nat.add_sub_cancel front.length 2

/-- A template that is refused has a section that is at fault. -/
theorem sectionFault_of_parseParts (hsource : source = passed ++ rest)
    (h : parseParts options source rest = .error error) : SectionFault options source error := by
  obtain ⟨front, body, parts, rfl, -, hfails⟩ := fails_of_parseParts h
  have hfront : source = (passed ++ front) ++ openingText ++ body := by simpa using hsource
  cases hfails with
  | unterminated hend =>
    rw [openingOffset_eq hfront]
    exact .unterminated hfront hend
  | empty hend hblank =>
    rw [openingOffset_eq hfront]
    exact .empty (source_of_sectionEnd? hend ▸ hfront) hblank
  | invalid hend hblank hparse =>
    rw [bodyOffset_eq hfront]
    exact .inside (source_of_sectionEnd? hend ▸ hfront) hparse

/-- An error of a section as a whole that does not stand at the start of the template. -/
def Misplaced (source : Text) (error : SyntaxError) : Prop :=
  ∃ reason front rest, (reason = .unterminatedSection ∨ reason = .emptySection) ∧
    front ≠ [] ∧ source = front ++ openingText ++ rest ∧ error = sectionError reason front.length

/-- Only the start of a text is in the first column of the first line. -/
theorem atOffset_eq_first_iff {n : Nat} :
    (⟨n, 1, 1⟩ : Location) = .atOffset source n ↔ n = 0 := by
  unfold Location.atOffset
  rw [Location.mk.injEq]
  constructor
  · rintro ⟨-, hline, hcolumn⟩
    have hnone : '\n' ∉ source.take n := by
      rw [← List.count_eq_zero]
      omega
    rw [Text.lastIndexOf?_eq_none hnone] at hcolumn
    have hsucc : 1 = n + 1 := hcolumn
    omega
  · rintro rfl
    exact ⟨rfl, rfl, rfl⟩

theorem not_located_of_misplaced (h : Misplaced source error) :
    error.location ≠ .atOffset source error.location.offset := by
  obtain ⟨reason, front, rest, -, hfront, -, rfl⟩ := h
  intro hlocated
  have hstart : front.length = 0 := atOffset_eq_first_iff.1 hlocated
  exact hfront (List.length_eq_zero_iff.1 hstart)

/-- An error of a section as a whole, which is found at its opening. -/
theorem sectionError_located {reason : ParseReason} {front : Text}
    (hreason : reason = .unterminatedSection ∨ reason = .emptySection)
    (hsource : source = front ++ openingText ++ rest) :
    front.length ≤ source.length ∧ (¬ Misplaced source (sectionError reason front.length) →
      (sectionError reason front.length).location = .atOffset source front.length) := by
  constructor
  · rw [hsource, List.length_append, List.length_append]
    omega
  · intro hplaced
    refine atOffset_eq_first_iff.2 (List.length_eq_zero_iff.2 ?_)
    refine Decidable.byContradiction fun hfront => ?_
    exact hplaced ⟨reason, front, rest, hreason, hfront, hsource, rfl⟩

theorem location_relocate (source : Text) (offset : Nat) (error : SyntaxError) :
    (relocate source offset error).location =
      .atOffset source (offset + error.location.offset) := by
  cases error <;> rfl

/-- **The errors of a template are located in it.**  An error of a template has an offset in its
source, and the line and the column of that offset in the whole source, unless it is the error of
an unterminated or empty section that does not open at the very start of the source.  This holds
for the errors inside of sections, on whatever line and behind whatever parts they stand. -/
theorem parse_error_located (h : Template.parse options source = .error error) :
    error.location.offset ≤ source.length ∧
      (error.location = .atOffset source error.location.offset ↔ ¬ Misplaced source error) := by
  have hfault : SectionFault options source error := by
    unfold Template.parse at h
    split at h
    · cases h
    · rename_i hparts
      cases h
      exact sectionFault_of_parseParts (List.nil_append source).symm hparts
  suffices hplace : error.location.offset ≤ source.length ∧
      (¬ Misplaced source error → error.location = .atOffset source error.location.offset) by
    refine ⟨hplace.1, fun hlocated hmisplaced => ?_, hplace.2⟩
    exact not_located_of_misplaced hmisplaced hlocated
  cases hfault with
  | unterminated hsource _ => exact sectionError_located (.inl rfl) hsource
  | empty hsource _ => exact sectionError_located (.inr rfl) hsource
  | @inside front body after inner hsource hparse =>
    rw [location_relocate]
    refine ⟨?_, fun _ => rfl⟩
    have hinner : inner.location.offset ≤ body.length := (parse_error_inText hparse).offset_le
    have hlength : source.length = front.length + 2 + (body.length + (after.length + 1)) := by
      rw [hsource, List.length_append, List.length_append, List.length_append]
      rfl
    show front.length + 2 + inner.location.offset ≤ source.length
    omega

/-- A character that starts no token, in a section on the second line. -/
theorem parse_error_located_line :
    let source := "\n$\x7b@\x7d".toList
    let error := SyntaxError.lexical ⟨.unexpectedCharacter '@', ⟨3, 2, 3⟩⟩
    Template.parse {} source = .error error ∧ error.location.offset ≤ source.length ∧
      (error.location = .atOffset source error.location.offset ↔ ¬ Misplaced source error) := by
  intro source error
  have hbreak : (Lexer.start ['@']).next =
      (.error ⟨.unexpectedCharacter '@', ⟨0, 1, 1⟩⟩, ⟨['@'], .origin⟩) := rfl
  have hsection : ExprLang.parse {} ['@'] =
      .error (.lexical ⟨.unexpectedCharacter '@', ⟨0, 1, 1⟩⟩) := by
    rw [ExprLang.parse, TokenStream.ofSource, Lexer.all_of_next_error hbreak]
    rfl
  have hparse : Template.parse {} source = .error error := by
    have hopen : opening? source = some (['\n'], "@\x7d".toList) := rfl
    have hend : sectionEnd? none "@\x7d".toList = some (['@'], []) := rfl
    rw [Template.parse, parseParts_of_section hopen hend rfl, hsection]
    rfl
  exact ⟨hparse, parse_error_located hparse⟩

/-- A section that is not closed, behind another character.  Its error is said to be in the first
column, and its offset is in the second one. -/
theorem misplaced_unterminated :
    let error : ParseError := ⟨.unterminatedSection, .eof ⟨1, 1, 1⟩⟩
    Template.parse {} "a$\x7b".toList = .error (.parse error) ∧
      Location.atOffset "a$\x7b".toList error.token.location.offset = ⟨1, 1, 2⟩ := by
  refine ⟨?_, rfl⟩
  rw [Template.parse, parseParts]
  rfl

end Template

end ExprLang
