import ExprLang.Proofs.LexerRuns
import ExprLang.Proofs.PrinterRoundTrip
import ExprLang.Proofs.SourceReading
import Mathlib.Data.List.Basic

/-!
# String literals

A text is printed between double quotes with some of its characters escaped, and read again in one
pass, up to the first quote that is not escaped.  The escapes can be put in one after the other, each
throughout the text.  That takes the right order: a backslash is brought in by every one of them, so
backslashes come first.

* `Text.replaceInTurn_eq_flatMap` — replacements in turn, none of which brings in a character that is
  still to be replaced, replace every character once.
* `stringSource_eq` — a printed text by replacements in turn.
* `Lexeme.Stands.stringBody` — what a string token is read from, with either quote.
* `ReadsBack` — a literal that is read as the text that it was printed for, whatever follows it.
* `stringLiterals_readBack` — the literal of every text is one, and so is that of every string token.
-/

namespace ExprLang

/-! ## Replacements in turn -/

namespace Text

/-- Every occurrence of the first character replaced, then every occurrence of the second one in
what this has given, and so on. -/
def replaceInTurn (replacements : List (Char × Text)) (text : Text) : Text :=
  replacements.foldl (fun text replacement => replaceAll [replacement.1] replacement.2 text) text

theorem replaceAll_singleton (c : Char) (new text : Text) :
    replaceAll [c] new text = text.flatMap fun d => if d = c then new else [d] := by
  induction text with
  | nil => rw [replaceAll, List.flatMap_nil]
  | cons d rest ih =>
    rw [replaceAll, List.flatMap_cons, ← ih]
    by_cases hd : d = c
    · simp [hd, List.isPrefixOf]
    · simp [hd, Ne.symm hd, List.isPrefixOf]

/-- A text without any of the characters stays as it is. -/
theorem flatMap_lookup_of_absent {replacements : List (Char × Text)} {text : Text}
    (h : ∀ replacement ∈ replacements, replacement.1 ∉ text) :
    (text.flatMap fun c => (replacements.lookup c).getD [c]) = text := by
  have hsame : ∀ c ∈ text, (replacements.lookup c).getD [c] = [c] := fun c hc => by
    have hnone : replacements.lookup c = none :=
      List.lookup_eq_none_iff.2 fun replacement hmem => by
        simpa using fun heq : c = replacement.1 => h replacement hmem (heq ▸ hc)
    rw [hnone, Option.getD_none]
  rw [List.flatMap_congr hsame]
  exact List.flatMap_singleton' text

/-- **Replacements in turn** replace every character once, if none of them brings in a character
that is still to be replaced. -/
theorem replaceInTurn_eq_flatMap {replacements : List (Char × Text)}
    (horder : replacements.Pairwise fun earlier later => later.1 ∉ earlier.2) (text : Text) :
    replaceInTurn replacements text =
      text.flatMap fun c => (replacements.lookup c).getD [c] := by
  induction replacements generalizing text with
  | nil => exact (List.flatMap_singleton' text).symm
  | cons first later ih =>
    obtain ⟨old, new⟩ := first
    obtain ⟨hfirst, hlater⟩ := List.pairwise_cons.1 horder
    rw [replaceInTurn, List.foldl_cons, ← replaceInTurn, ih hlater, replaceAll_singleton,
      List.flatMap_assoc]
    refine List.flatMap_congr fun c _ => ?_
    by_cases hc : c = old
    · -- What is brought in is left alone from here on.
      rw [if_pos hc, flatMap_lookup_of_absent hfirst, hc, List.lookup_cons_self, Option.getD_some]
    · rw [if_neg hc, List.flatMap_singleton, List.lookup_cons, beq_false_of_ne hc]

end Text

/-- The escapes of a printed text, in the order in which they can be put in. -/
def literalEscapes : List (Char × Text) := [
  ('\\', ['\\', '\\']), ('"', ['\\', '"']), ('\n', ['\\', 'n']), ('\t', ['\\', 't']),
  ('\r', ['\\', 'r'])]

theorem stringEscape_eq (c : Char) : stringEscape c = (literalEscapes.lookup c).getD [c] := by
  simp only [stringEscape, literalEscapes, List.lookup_cons, List.lookup_nil]
  repeat' split
  all_goals simp_all

/-- A text is printed between double quotes, with its escapes put in one after the other. -/
theorem stringSource_eq (text : Text) :
    stringSource text = '"' :: Text.replaceInTurn literalEscapes text ++ ['"'] := by
  rw [Text.replaceInTurn_eq_flatMap (by decide), stringSource, funext stringEscape_eq]

/-! ## String tokens -/

/-- Only a quoted text is read as a string. -/
theorem Lexeme.Stands.stringBody {lexeme : Lexeme} {rest : Text} (h : lexeme.Stands rest)
    (htype : lexeme.type = .string) :
    ∃ quote body content, (quote = '"' ∨ quote = '\'') ∧ StringBody quote body content ∧
      lexeme = ⟨.literal .string (.string content), quote :: (body ++ [quote])⟩ := by
  cases h with
  | string hquote hbody => exact ⟨_, _, _, hquote, hbody, rfl⟩
  | number | identifier | qualified => cases htype
  | keyword hkeyword =>
    have hnone : ∀ keyword ∈ keywords, keyword.2.type ≠ .string := by decide
    exact absurd htype (hnone _ hkeyword)
  | operator hoperator =>
    have hnone : ∀ operator ∈ operators, operator.type ≠ .string := by decide
    exact absurd htype (hnone _ hoperator)

/-- The text `literal` is what `text` is printed as, and it is read as a string with that text. -/
structure ReadsBack (text literal : Text) : Prop where
  printed : literalSource (.string text) = .ok literal
  escaped : literal = '"' :: Text.replaceInTurn literalEscapes text ++ ['"']
  /-- It is the next token wherever it stands, and ends at its own end, whatever follows it. -/
  next : ∀ rest loc, Lexer.next ⟨literal ++ rest, loc⟩ =
    (.ok ⟨.literal .string (.string text), loc, literal⟩, ⟨rest, loc.after literal⟩)
  /-- As a source of its own it is this token and nothing else. -/
  alone : TokenStream.ofSource literal =
    ⟨[⟨.literal .string (.string text), .origin, literal⟩],
      .ok (.eof (Location.origin.after literal))⟩

theorem stands_stringSource (text rest : Text) :
    Lexeme.Stands ⟨.literal .string (.string text), stringSource text⟩ rest :=
  .string (.inl rfl) (stringBody_flatMap text)

theorem readsBack_stringSource (text : Text) : ReadsBack text (stringSource text) where
  printed := rfl
  escaped := stringSource_eq text
  next rest _ := Lexer.next_lexeme blank_nil (stands_stringSource text rest)
  alone := by
    have hsplit : Split (stringSource text)
        [⟨[], .literal .string (.string text), stringSource text⟩] [] := by
      refine ⟨?_, ⟨blank_nil, stands_stringSource text _, trivial⟩, blank_nil⟩
      simp [written]
    exact hsplit.ofSource_eq

/-- **String literals are printed and read inversely.**  The literal of a text is read as a string
with that text, wherever it stands and whatever follows it.  A string that a lexer finds in a source,
between either quotes and with any escapes, stands for a text, and the literal of that text is read
as a string with the same text. -/
theorem stringLiterals_readBack :
    (∀ text, ∃ literal, ReadsBack text literal) ∧
    (∀ source n token, (Lexer.start source).answerAt n = .ok token → token.type = .string →
      ∃ quote body content literal, (quote = '"' ∨ quote = '\'') ∧
        StringBody quote body content ∧ token.lexeme = quote :: (body ++ [quote]) ∧
        token.content = .literal .string (.string content) ∧ ReadsBack content literal) := by
  refine ⟨fun text => ⟨_, readsBack_stringSource text⟩, fun source n token htoken htype => ?_⟩
  have hstep := (Lexer.start source).step_afterCalls n
  rw [htoken] at hstep
  generalize (Lexer.start source).afterCalls n = lexer at hstep
  generalize (Lexer.start source).afterCalls (n + 1) = lexer' at hstep
  cases hstep with
  | ends => cases htype
  | reads hgap hstands =>
    obtain ⟨quote, body, content, hquote, hbody, rfl⟩ := hstands.stringBody htype
    exact ⟨quote, body, content, _, hquote, hbody, rfl, rfl, readsBack_stringSource content⟩

/-- A string between single quotes, with an escaped one, a double quote and a backslash in it. -/
theorem stringLiterals_readBack_quotes :
    let source := ['x', '+', '\'', '\\', '\'', '"', '\\', '\\', '\'']
    let content := ['\'', '"', '\\']
    let literal := ['"', '\'', '\\', '"', '\\', '\\', '"']
    let token : Token := ⟨.literal .string (.string content), ⟨2, 1, 3⟩, source.drop 2⟩
    (Lexer.start source).answerAt 2 = .ok token ∧ token.type = .string ∧
      literalSource (.string content) = .ok literal ∧ ReadsBack content literal := by
  intro source content literal token
  have htoken : (Lexer.start source).answerAt 2 = .ok token := rfl
  have hprinted : literalSource (.string content) = .ok literal := rfl
  obtain ⟨-, -, content', literal', -, -, -, hvalue, hread⟩ :=
    stringLiterals_readBack.2 source 2 token htoken rfl
  cases hvalue
  have hliteral : literal = literal' := Except.ok.inj (hprinted.symm.trans hread.printed)
  exact ⟨htoken, rfl, hprinted, hliteral ▸ hread⟩

end ExprLang
