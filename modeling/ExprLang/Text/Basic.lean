import ExprLang.Unicode.Blank

/-!
# Texts

A text is the list of its code points, so lengths and indices count code points and the order of
texts is the lexicographic order of their code points.
-/

namespace ExprLang

abbrev Text := List Char

namespace Text

/-- Without the blanks at both ends. -/
def trim (text : Text) : Text :=
  ((text.dropWhile Unicode.isBlank).reverse.dropWhile Unicode.isBlank).reverse

/-- Filled with spaces on the right up to `width`. -/
def padRight (width : Nat) (text : Text) : Text :=
  text ++ List.replicate (width - text.length) ' '

/-- Filled with spaces on the left up to `width`. -/
def padLeft (width : Nat) (text : Text) : Text :=
  List.replicate (width - text.length) ' ' ++ text

/-- The texts in order, with `separator` between neighbours. -/
def joinWith (separator : Text) (texts : List Text) : Text :=
  separator.intercalate texts

/-- The decimal digits of a natural number. -/
def ofNat (n : Nat) : Text :=
  Nat.toDigits 10 n

/-- The decimal digits of an integer after its sign. -/
def ofInt (i : Int) : Text :=
  if i < 0 then '-' :: ofNat i.natAbs else ofNat i.natAbs

/-- Lexicographic order by code point. -/
def less (s t : Text) : Bool :=
  decide (s < t)

end Text

end ExprLang
