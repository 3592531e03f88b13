import ExprLang.Unicode.CodeRange

/-!
# Blank characters

The characters that separate tokens and that trimming removes: the white space characters of
Unicode 14.0 together with the four information separators `U+001C` to `U+001F`.
-/

namespace ExprLang.Unicode

def blankRanges : List CodeRange := [
  (0x9, 0xD), (0x1C, 0x20), (0x85, 0x85), (0xA0, 0xA0), (0x1680, 0x1680), (0x2000, 0x200A),
  (0x2028, 0x2029), (0x202F, 0x202F), (0x205F, 0x205F), (0x3000, 0x3000)]

/-- White space, or an information separator. -/
def isBlank (c : Char) : Bool :=
  inRanges blankRanges c

end ExprLang.Unicode
