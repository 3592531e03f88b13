import Mathlib.Data.List.Induction
import Mathlib.Order.Monotone.Basic
import ExprLang.Proofs.LexerExactness

/-!
# Runs of a lexer

A lexer may be called any number of times, also behind an error and at the end of its source.  It
counts lines and columns as it goes, and goes on counting on its own to the place of a fault inside
a string.  All of these places are the ones that are found by looking back for line feeds.

* `Location.InText` — a place in a text, with the line and the column of its offset.
* `Lexer.StandsIn` — the invariant of a run, with `StandsIn.step` for one call.
* `Lexer.afterCalls`, `Lexer.answerAt` — a run, call by call.
* `Lexer.answerAt_of_isFinal` — behind an error or the end, nothing changes.
* `Lexer.Consistent`, `Lexer.consistent_start` — everything that is said about a run.
-/

namespace ExprLang

/-! ## Places in a text -/

namespace Text

theorem lastIndexOf?_concat (c d : Char) (text : Text) :
    lastIndexOf? c (text ++ [d]) = if d = c then some text.length else lastIndexOf? c text := by
  induction text with
  | nil => simp [lastIndexOf?]
  | cons first rest ih =>
    simp only [List.cons_append, lastIndexOf?, ih]
    by_cases hd : d = c
    · simp [hd]
    · simp [hd]

theorem lastIndexOf?_lt {c : Char} {text : Text} {i : Nat} (h : lastIndexOf? c text = some i) :
    i < text.length := by
  induction text using List.reverseRecOn with
  | nil => cases h
  | append_singleton text d ih =>
    rw [lastIndexOf?_concat] at h
    rw [List.length_append, List.length_singleton]
    split at h
    · cases h
      omega
    · have hlt := ih h
      omega

theorem lastIndexOf?_eq_none {c : Char} {text : Text} (h : c ∉ text) :
    lastIndexOf? c text = none := by
  induction text with
  | nil => rfl
  | cons first rest ih =>
    rw [List.mem_cons, not_or] at h
    obtain ⟨hfirst, hrest⟩ := h
    rw [lastIndexOf?, ih hrest]
    exact if_neg (Ne.symm hfirst)

end Text

namespace Location

variable {source front rest : Text} {loc : Location}

/-- Looking back for line feeds leads to the same place as going there. -/
theorem atOffset_append (front rest : Text) :
    atOffset (front ++ rest) front.length = origin.after front := by
  unfold atOffset
  rw [List.take_left]
  induction front using List.reverseRecOn with
  | nil => rfl
  | append_singleton front c ih =>
    rw [after_append, ← ih, after_cons, after_nil, next, Text.lastIndexOf?_concat]
    by_cases hc : c = '\n'
    · simp [hc]
    · cases hlast : Text.lastIndexOf? '\n' front with
      | none => simp [hc]
      | some i =>
        have hlt := Text.lastIndexOf?_lt hlast
        simp only [hc, if_false, List.length_append, List.length_singleton, mk.injEq, true_and]
        refine ⟨by simp [hc], ?_⟩
        show front.length + 1 - i = front.length - i + 1
        omega

/-- A place in a text, with the line and the column that its offset has there. -/
structure InText (source : Text) (loc : Location) : Prop where
  offset_le : loc.offset ≤ source.length
  eq_atOffset : loc = atOffset source loc.offset

theorem offset_origin_after (front : Text) : (origin.after front).offset = front.length := by
  rw [offset_after]
  exact Nat.zero_add _

theorem inText_after (front rest : Text) : (origin.after front).InText (front ++ rest) := by
  constructor
  · rw [offset_origin_after, List.length_append]
    omega
  · rw [offset_origin_after, atOffset_append]

end Location

namespace Lexer

variable {source front rest : Text} {lexer lexer' : Lexer} {token : Token}
  {answer : Except LexicalError Token}

/-! ## One call -/

/-- A lexer that has come to its place through the source from the start. -/
def StandsIn (source : Text) (lexer : Lexer) : Prop :=
  ∃ front, source = front ++ lexer.rest ∧ lexer.location = Location.origin.after front

theorem standsIn_start (source : Text) : (start source).StandsIn source :=
  ⟨[], rfl, rfl⟩

/-- The place behind what comes next is one of the source, too. -/
theorem StandsIn.ahead (h : lexer.StandsIn source) (hrest : lexer.rest = front ++ rest) :
    StandsIn source ⟨rest, lexer.location.after front⟩ := by
  obtain ⟨passed, hsource, hlocation⟩ := h
  refine ⟨passed ++ front, ?_, ?_⟩
  · rw [hsource, hrest, List.append_assoc]
  · show lexer.location.after front = _
    rw [hlocation, Location.after_append]

theorem StandsIn.inText (h : lexer.StandsIn source) : lexer.location.InText source := by
  obtain ⟨front, hsource, hlocation⟩ := h
  rw [hsource, hlocation]
  exact Location.inText_after front lexer.rest

theorem StandsIn.rest_eq (h : lexer.StandsIn source) :
    lexer.rest = source.drop lexer.location.offset := by
  obtain ⟨front, hsource, hlocation⟩ := h
  rw [hlocation, Location.offset_origin_after, hsource, List.drop_left]

/-- The place that is named by what a lexer answers. -/
def answerLocation : Except LexicalError Token → Location
  | .ok token => token.location
  | .error error => error.location

/-- The answer is an error or the end of the source. -/
def IsFinal (answer : Except LexicalError Token) : Prop :=
  ∀ token, answer = .ok token → token.type = .eof

/-- A call keeps the lexer in its source. -/
theorem StandsIn.step (h : lexer.StandsIn source) (hstep : Step lexer answer lexer') :
    lexer'.StandsIn source := by
  cases hstep with
  | ends hgap => exact h.ahead (List.append_nil _).symm
  | @reads loc gap rest lexeme hgap hlexeme =>
    have hlexer : StandsIn source ⟨lexeme.text ++ rest, loc.after gap⟩ :=
      h.ahead (List.append_assoc gap lexeme.text rest)
    exact hlexer.ahead rfl
  | fails hgap hc hread => exact h.ahead rfl

/-- What it answers is about a place in the source. -/
theorem StandsIn.answer_inText (h : lexer.StandsIn source) (hstep : Step lexer answer lexer') :
    (answerLocation answer).InText source := by
  cases hstep with
  | ends hgap => exact (h.ahead (List.append_nil _).symm).inText
  | reads hgap hlexeme => exact (h.ahead (List.append_assoc _ _ _)).inText
  | @fails loc gap rest c fault hgap hc hread =>
    have hfault := (h.ahead rfl).ahead (List.take_append_drop fault.offset (c :: rest)).symm
    exact hfault.inText

/-- A call never goes back. -/
theorem Step.offset_le (hstep : Step lexer answer lexer') :
    lexer.location.offset ≤ lexer'.location.offset := by
  cases hstep with
  | @ends loc gap hgap =>
    show loc.offset ≤ (loc.after gap).offset
    rw [Location.offset_after]
    omega
  | @reads loc gap rest lexeme hgap hlexeme =>
    show loc.offset ≤ ((loc.after gap).after lexeme.text).offset
    rw [Location.offset_after, Location.offset_after]
    omega
  | @fails loc gap rest c fault hgap hc hread =>
    show loc.offset ≤ (loc.after gap).offset
    rw [Location.offset_after]
    omega

/-- A lexer that has failed, or has come to the end, answers in the same way again. -/
theorem Step.again (hstep : Step lexer answer lexer') (hfinal : IsFinal answer) :
    lexer'.next = (answer, lexer') := by
  cases hstep with
  | ends hgap => exact next_blank blank_nil
  | reads hgap hlexeme => exact absurd (hfinal _ rfl) hlexeme.type_ne_eof
  | @fails loc gap rest c fault hgap hc hread =>
    show next ⟨[] ++ c :: rest, loc.after gap⟩ = _
    exact next_fault blank_nil hc hread

/-! ## Any number of calls -/

/-- The lexer after some calls, whatever they have answered. -/
def afterCalls (lexer : Lexer) : Nat → Lexer
  | 0 => lexer
  | n + 1 => (lexer.afterCalls n).next.2

/-- What the call after some others answers. -/
def answerAt (lexer : Lexer) (n : Nat) : Except LexicalError Token :=
  (lexer.afterCalls n).next.1

theorem step_afterCalls (lexer : Lexer) (n : Nat) :
    Step (lexer.afterCalls n) (lexer.answerAt n) (lexer.afterCalls (n + 1)) :=
  step_next (lexer.afterCalls n)

theorem afterCalls_next (lexer : Lexer) (n : Nat) :
    lexer.next.2.afterCalls n = lexer.afterCalls (n + 1) := by
  induction n with
  | zero => rfl
  | succ n ih =>
    show (lexer.next.2.afterCalls n).next.2 = (lexer.afterCalls (n + 1)).next.2
    rw [ih]

theorem answerAt_next (lexer : Lexer) (n : Nat) : lexer.next.2.answerAt n = lexer.answerAt (n + 1) := by
  rw [answerAt, answerAt, afterCalls_next]

theorem StandsIn.afterCalls (h : lexer.StandsIn source) (n : Nat) :
    (lexer.afterCalls n).StandsIn source := by
  induction n with
  | zero => exact h
  | succ n ih => exact ih.step (lexer.step_afterCalls n)

/-- Behind a final answer, the answers and the lexer stay as they are. -/
theorem answerAt_of_isFinal {n m : Nat} (h : IsFinal (lexer.answerAt n)) (hm : n ≤ m) :
    lexer.answerAt m = lexer.answerAt n ∧ lexer.afterCalls (m + 1) = lexer.afterCalls (n + 1) := by
  have hagain := (lexer.step_afterCalls n).again h
  induction m, hm using Nat.le_induction with
  | base => exact ⟨rfl, rfl⟩
  | succ m hm ih =>
    obtain ⟨-, hstays⟩ := ih
    constructor
    · rw [answerAt, hstays, hagain]
    · rw [Lexer.afterCalls, hstays, hagain]

/-- The answers to some calls, of which the first one is a token. -/
theorem mapM_answerAt_succ (h : lexer.next = (.ok token, lexer')) (n : Nat) :
    (List.range (n + 1)).mapM lexer.answerAt =
      ((List.range n).mapM lexer'.answerAt).map (token :: ·) := by
  have hfirst : lexer.answerAt 0 = .ok token := congrArg Prod.fst h
  have hothers : lexer.answerAt ∘ Nat.succ = lexer'.answerAt := by
    funext m
    show lexer.answerAt (m + 1) = lexer'.answerAt m
    rw [← answerAt_next, h]
  rw [List.range_succ_eq_map, List.mapM_cons, hfirst, List.mapM_map, hothers]
  cases (List.range n).mapM lexer'.answerAt <;> rfl

/-- All tokens are the answers up to the first final one. -/
theorem toList_all (lexer : Lexer) : ∃ n, (∀ m < n, ¬ IsFinal (lexer.answerAt m)) ∧
    IsFinal (lexer.answerAt n) ∧ lexer.all.toList = (List.range (n + 1)).mapM lexer.answerAt := by
  fun_induction all lexer with
  | case1 lexer error lexer' hnext =>
    have hanswer : lexer.answerAt 0 = .error error := congrArg Prod.fst hnext
    refine ⟨0, by simp, ?_, ?_⟩
    · rw [hanswer]
      intro token htoken
      cases htoken
    · show _ = (lexer.answerAt 0 >>= _)
      rw [hanswer]
      rfl
  | case2 lexer token lexer' hnext htype =>
    have hanswer : lexer.answerAt 0 = .ok token := congrArg Prod.fst hnext
    refine ⟨0, by simp, ?_, ?_⟩
    · rw [hanswer]
      intro token' htoken
      cases htoken
      exact htype
    · rw [mapM_answerAt_succ hnext]
      rfl
  | case3 lexer token lexer' hnext htype stream ih =>
    obtain ⟨n, hbefore, hfinal, htokens⟩ := ih
    have hothers : ∀ m, lexer.answerAt (m + 1) = lexer'.answerAt m := by
      intro m
      rw [← answerAt_next, hnext]
    refine ⟨n + 1, fun m hm => ?_, ?_, ?_⟩
    · cases m with
      | zero =>
        intro hend
        exact htype (hend token (congrArg Prod.fst hnext))
      | succ m =>
        rw [hothers]
        exact hbefore m (by omega)
    · rw [hothers]
      exact hfinal
    · rw [mapM_answerAt_succ hnext, ← htokens]
      show TokenStream.toList ⟨token :: stream.tokens, stream.ending⟩ = stream.toList.map _
      unfold TokenStream.toList
      cases stream.ending <;> rfl

/-! ## Everything that is said about a run -/

/-- The calls of a lexer, however many, agree with each other and with the source. -/
structure Consistent (source : Text) (lexer : Lexer) : Prop where
  /-- Before the first call and after every one, the lexer has the line and the column that its
  offset has in the source, and the rest of the source is still to be read. -/
  standing : ∀ n, (lexer.afterCalls n).location.InText source ∧
    (lexer.afterCalls n).rest = source.drop (lexer.afterCalls n).location.offset
  /-- Every token and every error has the line and the column that its own offset has. -/
  located : ∀ n, (answerLocation (lexer.answerAt n)).InText source
  monotone : Monotone fun n => (lexer.afterCalls n).location.offset
  /-- Behind a token, the lexer stands at the end of the text that the token was read from, and that
  is not empty. -/
  advanced : ∀ n token, lexer.answerAt n = .ok token → token.type ≠ .eof →
    token.lexeme ≠ [] ∧ token.lexeme <+: source.drop token.location.offset ∧
    (lexer.afterCalls n).location.offset ≤ token.location.offset ∧
    (lexer.afterCalls (n + 1)).location.offset = token.location.offset + token.lexeme.length
  /-- A call that fails takes the blanks in front of the next character and nothing else, and all
  calls behind it fail in the same way and take nothing. -/
  failed : ∀ n error, lexer.answerAt n = .error error →
    (∃ gap c rest, (lexer.afterCalls n).rest = gap ++ c :: rest ∧ Blank gap ∧
      Unicode.isBlank c = false ∧
      lexer.afterCalls (n + 1) = ⟨c :: rest, (lexer.afterCalls n).location.after gap⟩) ∧
    ∀ m ≥ n, lexer.answerAt m = .error error ∧ lexer.afterCalls (m + 1) = lexer.afterCalls (n + 1)
  /-- Once the end has been found, it is found again and again. -/
  ended : ∀ n token, lexer.answerAt n = .ok token → token.type = .eof →
    ∀ m ≥ n, lexer.answerAt m = .ok token ∧ lexer.afterCalls (m + 1) = lexer.afterCalls (n + 1)
  /-- The list of all tokens is the list of the answers up to the first one that is the end, or the
  first error if that comes before. -/
  tokenized : ∃ n, (∀ m < n, ¬ IsFinal (lexer.answerAt m)) ∧ IsFinal (lexer.answerAt n) ∧
    lexer.all.toList = (List.range (n + 1)).mapM lexer.answerAt

/-- What a call that reads a token has done. -/
theorem StandsIn.advanced (h : lexer.StandsIn source) (hstep : Step lexer (.ok token) lexer')
    (htype : token.type ≠ .eof) :
    token.lexeme ≠ [] ∧ token.lexeme <+: source.drop token.location.offset ∧
    lexer.location.offset ≤ token.location.offset ∧
    lexer'.location.offset = token.location.offset + token.lexeme.length := by
  cases hstep with
  | ends hgap => exact absurd rfl htype
  | @reads loc gap rest lexeme hgap hlexeme =>
    have hstands := h.ahead (List.append_assoc gap lexeme.text rest)
    refine ⟨?_, ?_, ?_, Location.offset_after _ _⟩
    · obtain ⟨c, tail, htext, -⟩ := hlexeme.not_blank
      rw [htext]
      exact List.cons_ne_nil c tail
    · exact ⟨rest, hstands.rest_eq⟩
    · show loc.offset ≤ (loc.after gap).offset
      rw [Location.offset_after]
      omega

/-- **The runs of a lexer are consistent**, whatever its source and however often it is called. -/
theorem consistent_start (source : Text) : (start source).Consistent source := by
  have hstands : ∀ n, ((start source).afterCalls n).StandsIn source :=
    (standsIn_start source).afterCalls
  have hstep := (start source).step_afterCalls
  constructor
  case standing => exact fun n => ⟨(hstands n).inText, (hstands n).rest_eq⟩
  case located => exact fun n => (hstands n).answer_inText (hstep n)
  case monotone => exact monotone_nat_of_le_succ fun n => (hstep n).offset_le
  case advanced =>
    intro n token htoken htype
    exact (hstands n).advanced (htoken ▸ hstep n) htype
  case failed =>
    intro n error herror
    have hfinal : IsFinal ((start source).answerAt n) := by
      rw [herror]
      nofun
    refine ⟨?_, fun m hm => herror ▸ answerAt_of_isFinal hfinal hm⟩
    have hfails := hstep n
    rw [herror] at hfails
    generalize (start source).afterCalls n = before at *
    generalize (start source).afterCalls (n + 1) = behind at *
    cases hfails with
    | fails hgap hc hread => exact ⟨_, _, _, rfl, hgap, hc, rfl⟩
  case ended =>
    intro n token htoken htype m hm
    have hfinal : IsFinal ((start source).answerAt n) := by
      rw [htoken]
      intro token' htoken'
      cases htoken'
      exact htype
    exact htoken ▸ answerAt_of_isFinal hfinal hm
  case tokenized => exact toList_all (start source)

end Lexer

end ExprLang
