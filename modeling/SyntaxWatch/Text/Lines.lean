import SyntaxWatch.Text.Split

/-!
# The lines of a text

A line ends at a line feed. One carriage return right before the feed belongs to the line end; a
carriage return anywhere else is an ordinary character, and no other character ends a line, so a
Unicode line separator stays inside its line. What follows the last feed is a line only when it
is not empty.
-/

set_option autoImplicit false

namespace SyntaxWatch.Text

/-- The text without one carriage return at its end. -/
def dropReturn (line : List Char) : List Char :=
  if line.getLast? = some '\r' then line.dropLast else line

/-- The text without any carriage returns and line feeds at its end. -/
def trimLineEnd (line : List Char) : List Char :=
  (line.reverse.dropWhile fun c => c = '\r' ∨ c = '\n').reverse

/-- The lines among the pieces of a text: every piece but the last was ended by a feed. -/
def linesOfPieces : List (List Char) → List (List Char)
  | [] => []
  | [last] => if last = [] then [] else [last]
  | piece :: next :: others => dropReturn piece :: linesOfPieces (next :: others)

/-- The lines of a text, without their ends. -/
def lines (text : List Char) : List (List Char) :=
  linesOfPieces (pieces '\n' text)

example : lines "a\r\nb\rc\n\nd\r".toList = ["a", "b\rc", "", "d\r"].map String.toList := by decide
example : lines "a\n".toList = ["a".toList] := by decide

end SyntaxWatch.Text
