import ExprLang.Token.Lexeme

/-!
# The lexer

A lexer stands at a place in its source and reads one token after another.  Blanks between tokens
are skipped.  A lexer that fails stays where it is, behind the blanks, and one at the end of its
source answers with the same end token again and again.

* `next_length_lt` — a token other than the end makes the rest of the source shorter.
* `Lexer.all` — the tokens of the whole source, and how they end.
-/

namespace ExprLang

structure LexicalError where
  reason : LexicalReason
  location : Location
  deriving DecidableEq, Repr

def LexicalError.message (error : LexicalError) : Text :=
  error.reason.message ++ " at line ".toList ++ Text.ofNat error.location.line
    ++ ", column ".toList ++ Text.ofNat error.location.column

/-- Tokens, and what stands behind them: the end token, or the error that keeps further tokens from
being read. -/
structure TokenStream where
  tokens : List Token
  ending : Except LexicalError Token

/-- The source that is still to be read, and where it starts. -/
structure Lexer where
  rest : Text
  location : Location
  deriving DecidableEq, Repr

namespace Lexer

def start (source : Text) : Lexer :=
  ⟨source, .origin⟩

/-- Behind the next `count` characters. -/
def advance (lexer : Lexer) (count : Nat) : Lexer :=
  ⟨lexer.rest.drop count, lexer.location.after (lexer.rest.take count)⟩

/-- Behind the blanks at the front. -/
def skipBlanks (lexer : Lexer) : Lexer :=
  lexer.advance (lexer.rest.takeWhile Unicode.isBlank).length

/-- The token at the front of a source that does not start with a blank. -/
def readToken (lexer : Lexer) : Except LexicalError Token × Lexer :=
  match lexer.rest with
  | [] => (.ok (.eof lexer.location), lexer)
  | c :: rest =>
    match Lexeme.read c rest with
    | .ok lexeme =>
      (.ok ⟨lexeme.content, lexer.location, lexeme.text⟩,
        lexer.advance lexeme.text.length)
    | .error fault =>
      (.error ⟨fault.reason, lexer.location.after (lexer.rest.take fault.offset)⟩, lexer)

/-- The next token, and the lexer behind it. -/
def next (lexer : Lexer) : Except LexicalError Token × Lexer :=
  lexer.skipBlanks.readToken

theorem length_advance (lexer : Lexer) (count : Nat) :
    (lexer.advance count).rest.length = lexer.rest.length - count := by
  simp [advance]

theorem next_length_lt {lexer lexer' : Lexer} {token : Token}
    (h : lexer.next = (.ok token, lexer')) (htype : token.type ≠ .eof) :
    lexer'.rest.length < lexer.rest.length := by
  have hskip : lexer.skipBlanks.rest.length ≤ lexer.rest.length := by
    simp only [skipBlanks, length_advance]; omega
  unfold next readToken at h
  split at h
  · cases h
    exact absurd rfl htype
  · rename_i c rest hrest
    split at h
    · rename_i lexeme hread
      cases h
      have hpos := List.length_pos_iff.2 (Lexeme.text_ne_nil_of_read hread)
      have hlen : 0 < lexer.skipBlanks.rest.length := by rw [hrest]; simp
      rw [length_advance]
      omega
    · exact absurd (congrArg Prod.fst h) (by simp)

/-- The tokens up to the end of the source or up to the first error. -/
def all (lexer : Lexer) : TokenStream :=
  match _hnext : lexer.next with
  | (.error error, _) => ⟨[], .error error⟩
  | (.ok token, lexer') =>
    if _htype : token.type = .eof then ⟨[], .ok token⟩
    else
      let stream := lexer'.all
      ⟨token :: stream.tokens, stream.ending⟩
termination_by lexer.rest.length
decreasing_by exact next_length_lt ‹_› ‹_›

end Lexer

namespace TokenStream

def ofSource (source : Text) : TokenStream :=
  (Lexer.start source).all

/-- The end token behind a list of tokens that was made without one.  It stands directly behind the
last token, on no particular line. -/
def endAfter (tokens : List Token) : Token :=
  match tokens.getLast? with
  | none => .eof .origin
  | some last => .eof ⟨last.location.offset + last.lexeme.length, 1, 1⟩

def ofTokens (tokens : List Token) : TokenStream :=
  ⟨tokens, .ok (endAfter tokens)⟩

/-- All tokens with the end token, or the error. -/
def toList (stream : TokenStream) : Except LexicalError (List Token) :=
  match stream.ending with
  | .ok ending => .ok (stream.tokens ++ [ending])
  | .error error => .error error

end TokenStream

end ExprLang
