/-!
# Sets of code points

A character class of the Unicode standard is a list of ranges in rising order. Membership walks the
list and stops at the first range that begins beyond the code point, so a character near the
beginning of the code space is decided at once.
-/

set_option autoImplicit false

namespace SyntaxWatch.Text

/-- Ranges of code points, both ends included, in rising order. -/
abbrev CodePoints := List (Nat × Nat)

namespace CodePoints

def has : CodePoints → Nat → Bool
  | [], _ => false
  | (first, last) :: others, n =>
    if n < first then false else if n ≤ last then true else has others n

end CodePoints

end SyntaxWatch.Text
