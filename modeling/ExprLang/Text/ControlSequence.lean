import ExprLang.Text.Basic

/-!
# Control sequences of terminals

An escape character, an opening bracket, parameters and a letter switch the colours of a terminal.
Output that goes to no terminal is written without them.

* `plain_eq_self` — a text without an escape character stays as it is.
-/

namespace ExprLang.Text

def escapeChar : Char := '\x1b'

/-- Digits, semicolons and question marks are parameters. -/
def isParameter (c : Char) : Bool :=
  c.isDigit || c = ';' || c = '?'

/-- Behind the parameters and the letter at their end. -/
def afterParameters? (text : Text) : Option Text :=
  match text.dropWhile isParameter with
  | [] => none
  | c :: rest => if c.isAlpha then some rest else none

/-- Behind the control sequence in front of a text. -/
def afterSequence? : Text → Option Text
  | c :: '[' :: rest => if c = escapeChar then afterParameters? rest else none
  | _ => none

theorem length_dropWhile_le (p : Char → Bool) (text : Text) :
    (text.dropWhile p).length ≤ text.length :=
  (List.dropWhile_sublist p).length_le

theorem length_afterSequence?_lt {text rest : Text} (h : afterSequence? text = some rest) :
    rest.length < text.length := by
  unfold afterSequence? at h
  split at h
  · rename_i c body
    split at h
    · unfold afterParameters? at h
      have hle := length_dropWhile_le isParameter body
      split at h
      · cases h
      · rename_i letter after hbody
        rw [hbody] at hle
        split at h
        · cases h
          simp only [List.length_cons] at hle ⊢
          omega
        · cases h
    · cases h
  · cases h

/-- Without its control sequences. -/
def plain : Text → Text
  | [] => []
  | c :: rest =>
    match _h : afterSequence? (c :: rest) with
    | some after => plain after
    | none => c :: plain rest
termination_by text => text.length
decreasing_by
  · exact length_afterSequence?_lt ‹_›
  · exact Nat.lt_succ_self _

theorem afterSequence?_of_ne {c : Char} (h : c ≠ escapeChar) (rest : Text) :
    afterSequence? (c :: rest) = none := by
  unfold afterSequence?
  split
  · rename_i heq
    cases heq
    exact if_neg h
  · rfl

theorem plain_eq_self {text : Text} (h : escapeChar ∉ text) : plain text = text := by
  induction text with
  | nil => exact plain.eq_1
  | cons c rest ih =>
    have hc : c ≠ escapeChar := fun e => h (e ▸ List.mem_cons_self)
    have hrest : escapeChar ∉ rest := fun hmem => h (List.mem_cons_of_mem c hmem)
    rw [plain]
    split
    · rename_i hafter
      rw [afterSequence?_of_ne hc] at hafter
      cases hafter
    · rw [ih hrest]

end ExprLang.Text
