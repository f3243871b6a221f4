import SyntaxWatch.Text.CodePoints

/-!
# Blank characters

The characters with the Unicode property `White_Space`. They separate words and are trimmed from a
severity word and from a command; U+200B and U+FEFF are not among them.
-/

set_option autoImplicit false

namespace SyntaxWatch.Text

/-- The code points with the property `White_Space`. -/
def blanks : CodePoints :=
  [(0x9, 0xD), (0x20, 0x20), (0x85, 0x85), (0xA0, 0xA0), (0x1680, 0x1680), (0x2000, 0x200A),
    (0x2028, 0x2029), (0x202F, 0x202F), (0x205F, 0x205F), (0x3000, 0x3000)]

def isBlank (c : Char) : Bool := blanks.has c.toNat

/-- The text without the white space at its two ends. -/
def trimBlanks (text : List Char) : List Char :=
  ((text.dropWhile isBlank).reverse.dropWhile isBlank).reverse

example : trimBlanks "\u2003 a b\u0085\n".toList = "a b".toList := by decide

end SyntaxWatch.Text
