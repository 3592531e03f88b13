import ExprLang.Expr.Parser

/-!
# Options that allow more

The options of the parser restrict the language: they limit the depth and leave out operators.
Options that allow more change nothing else.  Two parsers with such options read the same tokens in
the same way, up to the place where the narrower one meets a restriction and gives up.

* `ParserOptions.Within` — the other options allow everything that these allow.
* `Relaxed` — two outcomes are the same, unless the first one is an error of the options.
* `Relaxed.of_ok`, `Relaxed.failed` — one step of two readers.
* `relaxed_expression` — expressions at every depth.
* `parseTokens_relaxed` — whole streams.
-/

namespace ExprLang

/-- The other options allow at least the same depth and the same operators. -/
structure ParserOptions.Within (options options' : ParserOptions) : Prop where
  maxDepth : options.maxDepth ≤ options'.maxDepth
  conditional : options.conditionalAllowed = true → options'.conditionalAllowed = true
  wildcard : options.matchAllowed = true → options'.matchAllowed = true
  join : options.joinAllowed = true → options'.joinAllowed = true

/-- The reasons that the options are to blame for. -/
def ParseReason.isRestriction : ParseReason → Bool
  | .tooDeep | .operatorNotAllowed | .conditionalNotAllowed => true
  | _ => false

/-- The expression is nested too deeply, or it has an operator or a conditional that the options do
not allow. -/
def SyntaxError.IsRestriction (error : SyntaxError) : Prop :=
  ∃ reason token, error = .parse ⟨reason, token⟩ ∧ reason.isRestriction = true

/-- The second outcome is the first one, unless that is an error of the options. -/
def Relaxed {α : Type} (r r' : Except SyntaxError α) : Prop :=
  r' = r ∨ ∃ error, r = .error error ∧ error.IsRestriction

/-- Readers whose outcomes are so related in front of every stream. -/
def RelaxedReader {α : Type} (p p' : Parser α) : Prop :=
  ∀ c, Relaxed (p c) (p' c)

namespace Relaxed

variable {α β : Type} {r r' : Except SyntaxError α} {s' : Except SyntaxError β} {a : α}
  {error : SyntaxError}

theorem refl (r : Except SyntaxError α) : Relaxed r r :=
  .inl rfl

theorem of_ok (h : Relaxed r r') (hr : r = .ok a) : r' = .ok a := by
  rcases h with rfl | ⟨error, herror, -⟩
  · exact hr
  · rw [hr] at herror
    cases herror

/-- Where the first step of a reader fails, the reader fails. -/
theorem failed (h : Relaxed r r') (hr : r = .error error)
    (hs' : r' = .error error → s' = .error error) : Relaxed (.error error) s' := by
  rcases h with hsame | ⟨error', herror', hrestriction⟩
  · exact .inl (hs' (hsame.trans hr))
  · cases hr.symm.trans herror'
    exact .inr ⟨error, rfl, hrestriction⟩

theorem restricted {c : Cursor} {reason : ParseReason} (h : reason.isRestriction = true) :
    Relaxed (c.fail reason) s' :=
  .inr ⟨_, rfl, reason, c.current, rfl, h⟩

end Relaxed

namespace Parser

variable {options options' : ParserOptions} {operator? : TokenType → Option BinaryOperator}
  {operand operand' nested nested' inner inner' : Parser Expr}

/-! ## Chains of operators -/

theorem relaxed_takeOperator (hoptions : options.Within options') (operator : BinaryOperator)
    (c : Cursor) :
    Relaxed (takeOperator options operator c) (takeOperator options' operator c) := by
  have hallows : allowsOperator options operator = true →
      allowsOperator options' operator = true := by
    cases operator with
    | wildcard => exact hoptions.wildcard
    | join => exact hoptions.join
    | _ => exact id
  unfold takeOperator
  split
  · exact .refl _
  · split
    · rename_i hallowed
      rw [if_pos (hallows hallowed)]
      exact .refl _
    · exact .restricted rfl

theorem relaxed_chainTail (hoptions : options.Within options') (h : RelaxedReader operand operand')
    (steps : Nat) (left : Expr) :
    RelaxedReader (chainTail options operator? operand steps left)
      (chainTail options' operator? operand' steps left) := by
  induction steps generalizing left with
  | zero => exact fun c => .refl _
  | succ steps ih =>
    intro c
    unfold chainTail
    split
    · exact .refl _
    · rename_i operator _
      have hsign := relaxed_takeOperator hoptions operator c
      cases hsigned : takeOperator options operator c with
      | error error => exact hsign.failed hsigned fun h' => by rw [h']
      | ok c₁ =>
        rw [hsign.of_ok hsigned]
        dsimp only
        cases hright : operand c₁ with
        | error error => exact (h c₁).failed hright fun h' => by rw [h']
        | ok result =>
          rw [(h c₁).of_ok hright]
          exact ih _ _

theorem relaxed_chain (hoptions : options.Within options') (h : RelaxedReader operand operand') :
    RelaxedReader (chain options operator? operand) (chain options' operator? operand') := by
  intro c
  unfold chain
  cases hleft : operand c with
  | error error => exact (h c).failed hleft fun h' => by rw [h']
  | ok result =>
    rw [(h c).of_ok hleft]
    dsimp only
    split
    · exact relaxed_chainTail hoptions h _ _ _
    · exact .refl _

theorem relaxed_equality (hoptions : options.Within options') (h : RelaxedReader operand operand') :
    RelaxedReader (equality options operand) (equality options' operand') := by
  intro c
  unfold equality
  cases hleft : operand c with
  | error error => exact (h c).failed hleft fun h' => by rw [h']
  | ok result =>
    obtain ⟨left, c₁⟩ := result
    rw [(h c).of_ok hleft]
    dsimp only
    split
    · exact .refl _
    · rename_i operator _
      have hsign := relaxed_takeOperator hoptions operator c₁
      cases hsigned : takeOperator options operator c₁ with
      | error error => exact hsign.failed hsigned fun h' => by rw [h']
      | ok c₂ =>
        rw [hsign.of_ok hsigned]
        dsimp only
        cases hright : operand c₂ with
        | error error => exact (h c₂).failed hright fun h' => by rw [h']
        | ok result =>
          rw [(h c₂).of_ok hright]
          exact .refl _

/-! ## Primary expressions -/

theorem relaxed_argumentsTail (h : RelaxedReader nested nested') (steps : Nat) :
    RelaxedReader (argumentsTail nested steps) (argumentsTail nested' steps) := by
  induction steps with
  | zero => exact fun c => .refl _
  | succ steps ih =>
    intro c
    unfold argumentsTail
    split
    · cases c.advance with
      | error error => exact .refl _
      | ok c₁ =>
        dsimp only
        cases hargument : nested c₁ with
        | error error => exact (h c₁).failed hargument fun h' => by rw [h']
        | ok result =>
          obtain ⟨argument, c₂⟩ := result
          rw [(h c₁).of_ok hargument]
          dsimp only
          cases harguments : argumentsTail nested steps c₂ with
          | error error => exact (ih c₂).failed harguments fun h' => by rw [h']
          | ok result =>
            rw [(ih c₂).of_ok harguments]
            exact .refl _
    · exact .refl _

theorem relaxed_arguments (h : RelaxedReader nested nested') :
    RelaxedReader (arguments nested) (arguments nested') := by
  intro c
  unfold arguments
  split
  · exact .refl _
  · cases hfirst : nested c with
    | error error => exact (h c).failed hfirst fun h' => by rw [h']
    | ok result =>
      obtain ⟨first, c₁⟩ := result
      rw [(h c).of_ok hfirst]
      dsimp only
      have htail := relaxed_argumentsTail h c₁.remaining c₁
      cases hothers : argumentsTail nested c₁.remaining c₁ with
      | error error => exact htail.failed hothers fun h' => by rw [h']
      | ok result =>
        rw [htail.of_ok hothers]
        exact .refl _

theorem relaxed_call (h : RelaxedReader nested nested') (qualifier : Option Text) (name : Text) :
    RelaxedReader (call nested qualifier name) (call nested' qualifier name) := by
  intro c
  unfold call
  cases c.expect .leftParen .expectedArguments with
  | error error => exact .refl _
  | ok c₁ =>
    dsimp only
    cases harguments : arguments nested c₁ with
    | error error => exact (relaxed_arguments h c₁).failed harguments fun h' => by rw [h']
    | ok result =>
      rw [(relaxed_arguments h c₁).of_ok harguments]
      exact .refl _

theorem relaxed_named (h : RelaxedReader nested nested') (name : Text) :
    RelaxedReader (named nested name) (named nested' name) := by
  intro c
  unfold named
  split
  · exact relaxed_call h none name c
  · exact .refl _

theorem relaxed_group (h : RelaxedReader nested nested') :
    RelaxedReader (group nested) (group nested') := by
  intro c
  unfold group
  cases hinner : nested c with
  | error error => exact (h c).failed hinner fun h' => by rw [h']
  | ok result =>
    rw [(h c).of_ok hinner]
    exact .refl _

theorem relaxed_primary (h : RelaxedReader nested nested') :
    RelaxedReader (primary nested) (primary nested') := by
  intro c
  unfold primary
  split
  · exact .refl _
  · cases c.advance with
    | error error => exact .refl _
    | ok c₁ => exact relaxed_named h _ c₁
  · cases c.advance with
    | error error => exact .refl _
    | ok c₁ => exact relaxed_call h _ _ c₁
  · cases c.advance with
    | error error => exact .refl _
    | ok c₁ => exact relaxed_group h c₁
  all_goals exact .refl _

/-! ## Members and indices -/

theorem relaxed_indexKey (h : RelaxedReader nested nested') :
    RelaxedReader (indexKey nested) (indexKey nested') := by
  intro c
  unfold indexKey
  cases hkey : nested c with
  | error error => exact (h c).failed hkey fun h' => by rw [h']
  | ok result =>
    rw [(h c).of_ok hkey]
    exact .refl _

theorem relaxed_accessTail (h : RelaxedReader nested nested') (steps : Nat) (base : Expr) :
    RelaxedReader (accessTail nested steps base) (accessTail nested' steps base) := by
  induction steps generalizing base with
  | zero => exact fun c => .refl _
  | succ steps ih =>
    intro c
    unfold accessTail
    split
    · cases c.advance with
      | error error => exact .refl _
      | ok c₁ =>
        dsimp only
        cases memberName c₁ with
        | error error => exact .refl _
        | ok result => exact ih _ _
    · cases c.advance with
      | error error => exact .refl _
      | ok c₁ =>
        dsimp only
        have hindex := relaxed_indexKey h c₁
        cases hkey : indexKey nested c₁ with
        | error error => exact hindex.failed hkey fun h' => by rw [h']
        | ok result =>
          rw [hindex.of_ok hkey]
          exact ih _ _
    · exact .refl _
    · exact .refl _

theorem relaxed_access (h : RelaxedReader nested nested') :
    RelaxedReader (access nested) (access nested') := by
  intro c
  unfold access
  cases hbase : primary nested c with
  | error error => exact (relaxed_primary h c).failed hbase fun h' => by rw [h']
  | ok result =>
    rw [(relaxed_primary h c).of_ok hbase]
    dsimp only
    split
    · exact relaxed_accessTail h _ _ _
    · exact .refl _

/-! ## Expressions -/

theorem relaxed_unary (h : RelaxedReader nested nested') (hinner : RelaxedReader inner inner') :
    RelaxedReader (unary inner nested) (unary inner' nested') := by
  intro c
  unfold unary
  split
  · exact relaxed_access h c
  · cases c.advance with
    | error error => exact .refl _
    | ok c₁ =>
      dsimp only
      cases hoperand : inner c₁ with
      | error error => exact (hinner c₁).failed hoperand fun h' => by rw [h']
      | ok result =>
        rw [(hinner c₁).of_ok hoperand]
        exact .refl _

theorem relaxed_disjunction (hoptions : options.Within options')
    (h : RelaxedReader operand operand') :
    RelaxedReader (disjunction options operand) (disjunction options' operand') :=
  relaxed_chain hoptions <|
  relaxed_chain hoptions <|
  relaxed_equality hoptions <|
  relaxed_chain hoptions <|
  relaxed_chain hoptions <|
  relaxed_chain hoptions h

theorem relaxed_branches (h : RelaxedReader nested nested') (condition : Expr) :
    RelaxedReader (branches nested condition) (branches nested' condition) := by
  intro c
  unfold branches
  cases hthen : nested c with
  | error error => exact (h c).failed hthen fun h' => by rw [h']
  | ok result =>
    obtain ⟨thenBranch, c₁⟩ := result
    rw [(h c).of_ok hthen]
    dsimp only
    cases c₁.expect .colon .expectedColon with
    | error error => exact .refl _
    | ok c₂ =>
      dsimp only
      cases helse : nested c₂ with
      | error error => exact (h c₂).failed helse fun h' => by rw [h']
      | ok result =>
        rw [(h c₂).of_ok helse]
        exact .refl _

theorem relaxed_conditional (hoptions : options.Within options') (h : RelaxedReader nested nested')
    (hoperand : RelaxedReader operand operand') :
    RelaxedReader (conditional options nested operand) (conditional options' nested' operand') := by
  intro c
  have hdisjunction := relaxed_disjunction hoptions hoperand c
  unfold conditional
  cases hcondition : disjunction options operand c with
  | error error => exact hdisjunction.failed hcondition fun h' => by rw [h']
  | ok result =>
    obtain ⟨condition, c₁⟩ := result
    rw [hdisjunction.of_ok hcondition]
    dsimp only
    split
    · cases c₁.advance with
      | error error => exact .refl _
      | ok c₂ =>
        dsimp only
        split
        · rename_i hallowed
          rw [if_pos (hoptions.conditional hallowed)]
          exact relaxed_branches h condition c₂
        · exact .restricted rfl
    · exact .refl _

/-- At more depth, and with more operators, an expression is read in the same way, and so is what
stands behind an operator in front. -/
theorem relaxed_expression (hoptions : options.Within options') {depth depth' : Nat}
    (hdepth : depth ≤ depth') :
    RelaxedReader (expression options depth) (expression options' depth') ∧
      RelaxedReader (innerOperand options depth) (innerOperand options' depth') := by
  induction depth generalizing depth' with
  | zero => exact ⟨fun _ => .restricted rfl, fun _ => .restricted rfl⟩
  | succ depth ih =>
    obtain ⟨depth', rfl⟩ := Nat.exists_eq_add_of_le' (Nat.le_trans (Nat.succ_pos depth) hdepth)
    obtain ⟨hexpression, hinner⟩ := ih (Nat.le_of_succ_le_succ hdepth)
    have hoperand := relaxed_unary hexpression hinner
    refine ⟨fun c => ?_, fun c => ?_⟩
    · unfold expression
      exact relaxed_conditional hoptions hexpression hoperand c
    · unfold innerOperand
      exact hoperand c

end Parser

/-! ## Whole streams -/

section

variable {options options' : ParserOptions} {stream : TokenStream}

theorem relaxed_parseTokens (hoptions : options.Within options') :
    Relaxed (parseTokens options stream) (parseTokens options' stream) := by
  unfold parseTokens
  split
  · exact .refl _
  · rename_i c _
    split
    · exact .refl _
    · have hread := (Parser.relaxed_expression hoptions hoptions.maxDepth).1 c
      cases hexpression : Parser.expression options options.maxDepth c with
      | error error => exact hread.failed hexpression fun h' => by rw [h']
      | ok result =>
        rw [hread.of_ok hexpression]
        exact .refl _

/-- **Relaxing the options never changes an accepted reading.**  If the other options allow at least
the same depth and the same operators, then a stream that is read as a tree is read as the same tree
under them, and one that is refused is refused with the same error, unless that error is one of the
options: too much depth, or an operator or a conditional that is not allowed.  So what only the
other options accept is refused for one of these three reasons.  The stream may be that of a source,
which can also break off in a lexical error, or any list of tokens. -/
theorem parseTokens_relaxed (hoptions : options.Within options') (stream : TokenStream) :
    (∀ e, parseTokens options stream = .ok e → parseTokens options' stream = .ok e) ∧
    (∀ error, parseTokens options stream = .error error → ¬ error.IsRestriction →
      parseTokens options' stream = .error error) ∧
    (∀ e error, parseTokens options' stream = .ok e → parseTokens options stream = .error error →
      error.IsRestriction) := by
  have hrelaxed : Relaxed (parseTokens options stream) (parseTokens options' stream) :=
    relaxed_parseTokens hoptions
  refine ⟨fun e he => hrelaxed.of_ok he, fun error herror hfree => ?_, fun e error he herror => ?_⟩
  · rcases hrelaxed with hsame | ⟨error', herror', hrestriction⟩
    · exact hsame.trans herror
    · cases herror.symm.trans herror'
      exact absurd hrestriction hfree
  · rcases hrelaxed with hsame | ⟨error', herror', hrestriction⟩
    · rw [he, herror] at hsame
      cases hsame
    · cases herror.symm.trans herror'
      exact hrestriction

/-- With every operator allowed, a chain of signs is read as before or fails as before, and a
pattern is read that was not allowed. -/
theorem parseTokens_relaxed_pattern :
    let name : Token := ⟨.identifier ['a'], .origin, ['a']⟩
    let plus : Token := ⟨.sign .plus ['+'], .origin, ['+']⟩
    let wildcard : Token := ⟨.sign .wildcard ['~', '='], .origin, ['~', '=']⟩
    let chain := [name, plus, name]
    let broken := [name, plus]
    let pattern := [name, wildcard, name]
    let all : ParserOptions := ⟨60, true, true, true⟩
    ParserOptions.Within {} all ∧
      parseTokens all (.ofTokens chain) = parseTokens {} (.ofTokens chain) ∧
      parseTokens all (.ofTokens broken) = parseTokens {} (.ofTokens broken) ∧
      ∃ error, parseTokens {} (.ofTokens pattern) = .error error ∧ error.IsRestriction := by
  intro name plus wildcard chain broken pattern all
  have hoptions : ParserOptions.Within {} all := ⟨by decide, id, fun _ => rfl, fun _ => rfl⟩
  have hchain := (parseTokens_relaxed hoptions (.ofTokens chain)).1 _ rfl
  have hbroken := (parseTokens_relaxed hoptions (.ofTokens broken)).2.1 _ rfl <| by
    rintro ⟨reason, token, herror, hrestriction⟩
    cases herror
    cases hrestriction
  have hpattern := (parseTokens_relaxed hoptions (.ofTokens pattern)).2.2 _ _ rfl rfl
  exact ⟨hoptions, hchain, hbroken, _, rfl, hpattern⟩

end

end ExprLang
