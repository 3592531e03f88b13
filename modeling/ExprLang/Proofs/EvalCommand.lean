import ExprLang.CommandLine.Plain
import ExprLang.Proofs.EvaluationFailures
import ExprLang.Proofs.NumberText

/-!
# The `eval` command

What the command prints, and the status that it ends with, for every expression, every mapping of
variables with pairs on top of it, every environment that can be read, and whatever tools it is run
with.  A value is printed as its text.  An error of the engine that evaluating raises is printed,
and nothing of it escapes.  The text of the value is asked for too late for that: an integer of too
many digits has none, and the error that tells so escapes the command.

* `merge`, `VariableSources.Give` — the variables of a mapping and of pairs.
* `Yields`, `RaisesError` — what evaluating an expression comes to, and `yields_or_raisesError`.
* `run_eval` — the outcome of the command; `run_eval_nines` — an error that escapes it.
-/

namespace ExprLang

open Evaluation

namespace CommandLine

/-! ## Variables -/

/-- The variables of pairs, the last pair first. -/
def ofPairs (pairs : List (Text × Text)) : Variables :=
  pairs.reverse.map (Prod.map id Value.string)

/-- The variables of a mapping and of pairs: the last pair of a name counts, or else what the
mapping has for it. -/
def merge (entries : List (Value × Value)) (pairs : List (Text × Text)) : Variables :=
  ofPairs pairs ++ ofEntries entries

/-- The sources are a file that is loaded as a mapping, or an empty or no file, and pairs of a name
and a value with an equals sign between them. -/
structure VariableSources.Give (sources : VariableSources) (tools : Tools) (content : Text)
    (entries : List (Value × Value)) (pairs : List (Text × Text)) : Prop where
  file : (sources.file = none ∨ tools.load content = .ok .null) ∧ entries = [] ∨
    sources.file.isSome = true ∧ tools.load content = .ok (.dict entries)
  pairs_eq : sources.pairs = pairs.map fun pair => pair.1 ++ '=' :: pair.2
  named : ∀ pair ∈ pairs, pair.1 ≠ [] ∧ '=' ∉ pair.1

/-- The first equals sign is the one between the name and the value. -/
theorem splitPair?_append {name : Text} (hname : name ≠ []) (hequals : '=' ∉ name) (value : Text) :
    splitPair? (name ++ '=' :: value) = some (name, value) := by
  have hpos : ∀ c ∈ name, decide (c ≠ '=') = true := by
    intro c hc
    rw [decide_eq_true_iff]
    rintro rfl
    exact hequals hc
  rw [splitPair?, List.dropWhile_append_of_pos hpos, List.takeWhile_append_of_pos hpos]
  simp [hname]

/-- A pair that is defined before the others is one that they win over. -/
theorem value?_ofPairs_set (known : Variables) (name value : Text) (pairs : List (Text × Text))
    (other : Text) :
    Variables.value? (ofPairs pairs ++ known.set name (.string value)) other =
      Variables.value? (ofPairs ((name, value) :: pairs) ++ known) other := by
  have hpairs : ofPairs ((name, value) :: pairs) = ofPairs pairs ++ [(name, .string value)] := by
    rw [ofPairs, List.reverse_cons, List.map_append]
    rfl
  rw [hpairs, List.append_assoc, Variables.value?_append, Variables.value?_append (ofPairs pairs)]
  congr 1
  by_cases h : other = name
  · subst h
    rw [Variables.lookup_set_self]
    simp [Variables.value?]
  · rw [Variables.lookup_set_of_ne known h]
    have hne : ¬ name = other := fun heq => h heq.symm
    simp [Variables.value?, hne]

/-- Adding pairs one after the other, the last one of a name wins. -/
theorem addPairs_eq (known : Variables) {pairs : List (Text × Text)}
    (h : ∀ pair ∈ pairs, pair.1 ≠ [] ∧ '=' ∉ pair.1) :
    ∃ known', addPairs known (pairs.map fun pair => pair.1 ++ '=' :: pair.2) = .ok known' ∧
      ∀ name, known'.value? name = Variables.value? (ofPairs pairs ++ known) name := by
  induction pairs generalizing known with
  | nil => exact ⟨known, rfl, fun _ => rfl⟩
  | cons pair pairs ih =>
    obtain ⟨name, value⟩ := pair
    obtain ⟨⟨hname, hequals⟩, hpairs⟩ := List.forall_mem_cons.1 h
    obtain ⟨known', hadd, hvalue⟩ := ih (known.set name (.string value)) hpairs
    refine ⟨known', ?_, fun other => (hvalue other).trans (value?_ofPairs_set ..)⟩
    rw [List.map_cons, addPairs, splitPair?_append hname hequals]
    exact hadd

section

variable {tools : Tools} {environment : Environment} {content expression : Text}
  {sources : VariableSources} {entries : List (Value × Value)} {pairs : List (Text × Text)}
  {options : ParserOptions}

theorem readVariables_eq (h : sources.Give tools content entries pairs) :
    ∃ known, readVariables tools sources content = .ok known ∧
      ∀ name, known.value? name = (merge entries pairs).value? name := by
  obtain ⟨file, _⟩ := sources
  obtain ⟨hfile, rfl, hnamed⟩ := h
  rcases hfile with ⟨rfl | hnull, rfl⟩ | ⟨hsome, hmapping⟩
  · exact addPairs_eq _ hnamed
  · cases file with
    | none => exact addPairs_eq _ hnamed
    | some path =>
      simp only [readVariables, fileVariables, hnull]
      exact addPairs_eq _ hnamed
  · obtain ⟨path, rfl⟩ := Option.isSome_iff_exists.1 hsome
    simp only [readVariables, fileVariables, hmapping]
    exact addPairs_eq _ hnamed

theorem withHost_eq (h : sources.Give tools content entries pairs)
    (henvironment : ParserOptions.ofEnvironment environment = .ok options)
    (body : ParserOptions → Host → Outcome) :
    withHost tools environment content sources body =
      body options (.ofVariables (merge entries pairs) .builtin) := by
  obtain ⟨known, hread, hvalue⟩ := readVariables_eq h
  rw [withHost, hread, henvironment, ← Host.ofVariables_congr hvalue]

/-! ## Outcomes -/

/-- Evaluating the expression returns the value. -/
def Yields (options : ParserOptions) (host : Host) (expression : Text) (value : Value)
    (t : Trace) : Prop :=
  ∃ tree, parse options expression = .ok tree ∧ (evaluate host tree).Returns [] value t

/-- Evaluating the expression raises an error of the engine with the message: one of the syntax, or
one of the evaluation. -/
inductive RaisesError (wording : Wording) (options : ParserOptions) (host : Host)
    (expression : Text) : Text → Trace → Prop where
  | syntactic {error : SyntaxError} :
    parse options expression = .error error →
    RaisesError wording options host expression error.message []
  | evaluation {tree : Expr} {failure : Failure} {message : Text} {t : Trace} :
    parse options expression = .ok tree → (evaluate host tree).Fails [] failure t →
    failure.isEvaluation = true → failure.text wording = .ok message →
    RaisesError wording options host expression message t

section

variable {host : Host} {value : Value} {failure : Failure} {message : Text} {t : Trace}

/-- Evaluating comes to a value or to an error of the engine with a message, unless it fails with
what is no failure of the engine, or with one that has no text. -/
theorem yields_or_raisesError (wording : Wording) (options : ParserOptions) (host : Host)
    (expression : Text) :
    (∃ value t, Yields options host expression value t) ∨
      (∃ message t, RaisesError wording options host expression message t) ∨
      ∃ tree failure t, parse options expression = .ok tree ∧
        (evaluate host tree).Fails [] failure t ∧
        (failure.isEvaluation = true → failure.textFailure? ≠ none) := by
  cases hparse : parse options expression with
  | error error => exact .inr (.inl ⟨_, _, .syntactic hparse⟩)
  | ok tree =>
    rcases returns_or_fails (evaluate host tree) [] with ⟨value, t, hreturns⟩ | ⟨failure, t, hfails⟩
    · exact .inl ⟨value, t, tree, hparse, hreturns⟩
    · by_cases hengine : failure.isEvaluation = true ∧ failure.textFailure? = none
      · obtain ⟨message, hmessage⟩ := Failure.exists_text hengine.2 wording
        exact .inr (.inl ⟨message, t, .evaluation hparse hfails hengine.1 hmessage⟩)
      · exact .inr (.inr ⟨tree, failure, t, rfl, hfails, not_and.1 hengine⟩)

theorem evaluationLog_nil (wording : Wording) (verbose : Bool) :
    evaluationLog wording verbose [] = [] := by
  cases verbose with
  | true => rfl
  | false => rfl

theorem runEval_of_yields (h : Yields options host expression value t) (verbose : Bool) :
    runEval tools verbose options host expression =
      match value.display with
      | .ok text => .success (evaluationLog tools.wording verbose t) (tools.print text)
      | .error failure =>
        .escape (evaluationLog tools.wording verbose t) failure.typeName := by
  obtain ⟨tree, hparse, hreturns⟩ := h
  have hstart : (evaluate host tree).start = (.ok value, t) := hreturns
  cases hdisplay : value.display with
  | ok text => simp only [runEval, hparse, hstart, hdisplay]
  | error failure => simp only [runEval, hparse, hstart, hdisplay]

theorem runEval_of_raisesError (h : RaisesError tools.wording options host expression message t)
    (verbose : Bool) :
    runEval tools verbose options host expression =
      .failure tools (evaluationLog tools.wording verbose t) [] message := by
  cases h with
  | syntactic hparse => simp only [runEval, hparse, evaluationLog_nil]
  | @evaluation tree failure _ _ hparse hfails hengine htext =>
    have hstart : (evaluate host tree).start = (.error failure, t) := hfails
    simp only [runEval, hparse, hstart, Outcome.ofFailure, if_pos hengine, htext]

theorem display_long {i : Int} (h : integerText? i = none) :
    (Value.long i).display = .error (.coercion (.longToString (bitLength i))) := by
  unfold Value.display Value.toText
  dsimp only
  rw [h]

/-- The only error of the engine that displaying a value raises is that of an integer of too many
digits. -/
theorem display_eq_error (h : value.display = .error failure)
    (hengine : failure.isEvaluation = true) :
    ∃ i, value = .long i ∧ integerText? i = none ∧
      failure = .coercion (.longToString (bitLength i)) := by
  unfold Value.display Value.toText at h
  split at h
  · cases h
  · split at h
    · cases h
    · cases h
    · cases h
    · rename_i i _
      split at h
      · cases h
      · rename_i htext
        cases h
        exact ⟨i, rfl, htext, rfl⟩
    · cases h
    · unfold Value.quotedText at h
      split at h
      · cases h
      · cases h
        cases hengine

end

/-- **The outcome of the command.**  If evaluating the expression over the merged variables and the
built-in functions returns a value that has a text, the command prints that text in a line of its
own and ends with the status 0.  If it raises an error of the engine, of whatever kind, the command
prints nothing but the error behind the log and ends with the status 1, and nothing escapes it.
Displaying the value raises such an error of an integer of too many digits alone, and then the error
is not printed but escapes.  Nothing else can come of it but a failure that is not the engine's own
or has no text. -/
theorem run_eval (hprint : tools.PrintsPlainly) (h : sources.Give tools content entries pairs)
    (henvironment : ParserOptions.ofEnvironment environment = .ok options) (verbose : Bool)
    (expression : Text) :
    let host := Host.ofVariables (merge entries pairs) .builtin
    let log := fun t => lines (evaluationLog tools.wording verbose t)
    let outcome := run tools environment content ⟨verbose, .eval expression sources⟩
    (∀ value t text, Yields options host expression value t → value.display = .ok text →
      outcome = ⟨0, tools.print text, log t, none⟩ ∧
        (Text.escapeChar ∉ text → outcome.output = text ++ ['\n'])) ∧
    (∀ message t, RaisesError tools.wording options host expression message t →
      outcome = ⟨1, [], log t ++ tools.printError ("Error: ".toList ++ message), none⟩ ∧
        (Text.escapeChar ∉ message →
          outcome.errors = log t ++ ("Error: ".toList ++ message ++ ['\n']))) ∧
    (∀ value t failure, Yields options host expression value t → value.display = .error failure →
      failure.isEvaluation = true →
      (∃ i, value = .long i ∧ integerText? i = none) ∧
        outcome = ⟨1, [], log t, some "TypeCoercionError".toList⟩) ∧
    ((∃ value t, Yields options host expression value t) ∨
      (∃ message t, RaisesError tools.wording options host expression message t) ∨
      ∃ tree failure t, parse options expression = .ok tree ∧
        (evaluate host tree).Fails [] failure t ∧
        (failure.isEvaluation = true → failure.textFailure? ≠ none)) := by
  intro host log outcome
  have houtcome : outcome = runEval tools verbose options host expression :=
    withHost_eq h henvironment fun options host => runEval tools verbose options host expression
  rw [houtcome]
  refine ⟨fun value t text hyields htext => ?_, fun message t hraises => ?_,
    fun value t failure hyields herror hengine => ?_,
    yields_or_raisesError tools.wording options host expression⟩
  · rw [runEval_of_yields hyields, htext]
    exact ⟨rfl, hprint.print_eq text⟩
  · rw [runEval_of_raisesError hraises]
    refine ⟨rfl, fun hplain => congrArg (log t ++ ·) (hprint.printError_eq _ ?_)⟩
    rw [List.mem_append]
    exact not_or.2 ⟨by decide, hplain⟩
  · obtain ⟨i, rfl, htext, rfl⟩ := display_eq_error herror hengine
    rw [runEval_of_yields hyields, herror]
    exact ⟨⟨i, rfl, htext⟩, rfl⟩

/-- The last pair of a name wins over the others and over the file, with all that is behind its
first equals sign; an expression without anything in it is an error.  The log that is asked for has
nothing to tell in either case. -/
theorem run_eval_pairs :
    let environment : Environment := fun name =>
      if name = ParserOptions.joinVariable then some "on".toList else none
    let options : ParserOptions := { joinAllowed := true }
    let content : Text := ['{', '"', 'a', '"', ':', '1', '}']
    let sources : VariableSources := ⟨some "vars.yaml".toList, ["a=x".toList, "a=b=c".toList]⟩
    let entries : List (Value × Value) := [(.string "a".toList, .long 1)]
    let pairs : List (Text × Text) := [("a".toList, "x".toList), ("a".toList, "b=c".toList)]
    Tools.plain.PrintsPlainly ∧ sources.Give .plain content entries pairs ∧
      ParserOptions.ofEnvironment environment = .ok options ∧
      run .plain environment content ⟨true, .eval "a".toList sources⟩ =
        ⟨0, "b=c".toList ++ ['\n'], [], none⟩ ∧
      run .plain environment content ⟨true, .eval [] sources⟩ =
        ⟨1, [], "Error: Empty expression at position 0".toList ++ ['\n'], none⟩ := by
  intro environment options content sources entries pairs
  have hsources : sources.Give .plain content entries pairs := ⟨.inr ⟨rfl, rfl⟩, rfl, by decide⟩
  have henvironment : ParserOptions.ofEnvironment environment = .ok options := rfl
  refine ⟨Tools.printsPlainly_plain, hsources, henvironment, ?_, ?_⟩
  · have hsplit : Split "a".toList [⟨[], .identifier "a".toList, "a".toList⟩] [] :=
      ⟨rfl, ⟨blank_nil, Lexeme.stands_of_read_append rfl rfl, trivial⟩, blank_nil⟩
    have hparse : parse options "a".toList = .ok (.identifier "a".toList) := by
      rw [parse, hsplit.ofSource_eq]
      rfl
    have hyields : Yields options (.ofVariables (merge entries pairs) .builtin) "a".toList
        (.string "b=c".toList)
        [.variableLookup "a".toList (.ok (.string "b=c".toList))] := by
      refine ⟨_, hparse, ?_⟩
      rw [evaluate_identifier]
      rfl
    rw [((run_eval Tools.printsPlainly_plain hsources henvironment true "a".toList).1 _ _ _
      hyields rfl).1, Tools.printsPlainly_plain.print_eq _ (by decide)]
    rfl
  · have hsplit : Split [] [] [] := ⟨rfl, trivial, blank_nil⟩
    have hparse : ∃ error, parse options [] = .error error ∧
        error.message = "Empty expression at position 0".toList := by
      rw [parse, hsplit.ofSource_eq]
      exact ⟨_, rfl, rfl⟩
    obtain ⟨error, hparse, hmessage⟩ := hparse
    rw [((run_eval Tools.printsPlainly_plain hsources henvironment true []).2.1 _ _
      (.syntactic hparse)).1, hmessage, Tools.printsPlainly_plain.printError_eq _ (by decide)]
    rfl

/-! ## A value of too many digits -/

/-- The number behind the longest one that has a text. -/
theorem digitsValue_nines (n : Nat) : digitsValue (List.replicate n '9') + 1 = 10 ^ n := by
  induction n with
  | zero => rfl
  | succ n ih =>
    have hnine : digitsValue ['9'] = 9 := rfl
    rw [List.replicate_succ', digitsValue_append, hnine, List.length_singleton, Nat.pow_succ]
    omega

theorem parse_digits_plus_one {digits : Text} (hdigits : IsDigits digits)
    (hlength : digits.length ≤ digitLimit) : parse {} (digits ++ ['+', '1']) =
      .ok (.binary .add (.literal (.long (digitsValue digits))) (.literal (.long 1))) := by
  have hsplit : Split (digits ++ ['+', '1']) [
      ⟨[], .literal .number (.long (digitsValue digits)), digits⟩,
      ⟨[], .sign .plus ['+'], ['+']⟩, ⟨[], .literal .number (.long 1), ['1']⟩] [] := by
    refine ⟨rfl, ⟨blank_nil, .number (.integer hdigits hlength) (stops_cons.2 (by decide)),
      blank_nil, ?_, blank_nil, ?_, trivial⟩, blank_nil⟩
    all_goals exact Lexeme.stands_of_read_append rfl rfl
  rw [parse, hsplit.ofSource_eq]
  rfl

/-- The sum of one and the longest number of nines that can be read is a value without a text.  The
error that displaying it raises escapes the command, which prints nothing. -/
theorem run_eval_nines :
    let expression : Text := List.replicate digitLimit '9' ++ ['+', '1']
    let sources : VariableSources := ⟨none, []⟩
    let value : Value := .long (10 ^ digitLimit : Nat)
    let error : CoercionError := .longToString (bitLength (10 ^ digitLimit : Nat))
    sources.Give .plain [] [] [] ∧ ParserOptions.ofEnvironment (fun _ => none) = .ok {} ∧
      Yields {} (.ofVariables (merge [] []) .builtin) expression value [] ∧
      value.display = .error (.coercion error) ∧ (Failure.coercion error).isEvaluation = true ∧
      run .plain (fun _ => none) [] ⟨false, .eval expression sources⟩ =
        ⟨1, [], [], some "TypeCoercionError".toList⟩ := by
  intro expression sources value error
  have henvironment : ParserOptions.ofEnvironment (fun _ => none) = .ok {} := rfl
  have hsources : sources.Give .plain [] [] [] := ⟨.inl ⟨.inl rfl, rfl⟩, rfl, nofun⟩
  have hyields : Yields {} (.ofVariables (merge [] []) .builtin) expression value [] := by
    have hdigits : IsDigits (List.replicate digitLimit '9') := by
      refine ⟨fun hnil => ?_, fun c hc => ?_⟩
      · have hlength := congrArg List.length hnil
        rw [List.length_replicate] at hlength
        exact absurd hlength (by decide)
      · rw [List.eq_of_mem_replicate hc]
        rfl
    refine ⟨_, parse_digits_plus_one hdigits (Nat.le_of_eq List.length_replicate), ?_⟩
    have hvalue : value = .long (digitsValue (List.replicate digitLimit '9') + 1) := by
      rw [← Int.natCast_succ, Nat.succ_eq_add_one, digitsValue_nines]
    rw [hvalue, evaluate_binary, evaluate_literal, evaluate_literal]
    rfl
  have hdisplay : value.display = .error (.coercion error) :=
    display_long (if_neg (Nat.lt_irrefl _))
  refine ⟨hsources, henvironment, hyields, hdisplay, rfl, ?_⟩
  have houtcome : run .plain (fun _ => none) [] ⟨false, .eval expression sources⟩ =
      runEval .plain false {} (.ofVariables (merge [] []) .builtin) expression :=
    withHost_eq hsources henvironment fun options host =>
      runEval .plain false options host expression
  rw [houtcome, runEval_of_yields hyields, hdisplay]
  rfl

end

end CommandLine

end ExprLang
