import SyntaxWatch.Position
import SyntaxWatch.Text.Blank
import SyntaxWatch.Text.Digit
import SyntaxWatch.Text.Lines
import SyntaxWatch.Text.WordChar

/-!
# The words of a line

A word is a number with a decimal point (`-1.5`, `.5e3`), or else a run of characters that are neither
white space nor listed punctuation. Words are cut off from the left: at each place a number is tried
first, and where neither form fits the place is passed over. The minus and the point are punctuation,
so they belong to a word only as part of a number.

`Word.at?` finds the word that touches a column. A column at the seam of two words touches both, and
the first is taken; a column right behind the last character of a word touches it.
-/

set_option autoImplicit false

namespace SyntaxWatch

/-- A word's place on its line: the columns of its first character and of the one behind its last. -/
structure Word where
  start : Nat
  stop : Nat
  deriving DecidableEq, Repr

namespace Word

/-! ## 1. The two forms -/

/-- The punctuation that ends a word. -/
def punctuation : List Char :=
  "`~!@#$%^&*()-=+[\x7b]\x7d\\|;:'\",.<>/?".toList

def isPlain (c : Char) : Bool := !(punctuation.contains c || Text.isBlank c)

/-- The length of the run at the front; zero when there is none. -/
def runLength (text : List Char) : Nat := (text.takeWhile isPlain).length

/-- The length of `digits . digit more` at the front, where `more` goes on with word characters. -/
def fractionLength? (text : List Char) : Option Nat :=
  let digits := text.takeWhile Text.isDigit
  match text.dropWhile Text.isDigit with
  | '.' :: d :: more =>
    if Text.isDigit d then some (digits.length + 2 + (more.takeWhile Text.isWordChar).length) else none
  | _ => none

/-- The length of the number at the front, which may have a minus. -/
def numberLength? (text : List Char) : Option Nat :=
  match text with
  | '-' :: rest => (fractionLength? rest).map (· + 1)
  | _ => fractionLength? text

/-- The length of the word at the front; zero when no word begins there. -/
def lengthAt (text : List Char) : Nat := (numberLength? text).getD (runLength text)

/-! ## 2. The words of a line -/

/-- The words of the rest of a line that begins at a column. -/
def wordsFrom (column : Nat) : List Char → List Word
  | [] => []
  | c :: rest =>
    match lengthAt (c :: rest) with
    -- no word begins here, and the next one is sought a character further on
    | 0 => wordsFrom (column + 1) rest
    | n + 1 => ⟨column, column + (n + 1)⟩ :: wordsFrom (column + (n + 1)) (rest.drop n)
termination_by text => text.length
decreasing_by all_goals simp; try omega

def wordsOf (line : List Char) : List Word := wordsFrom 0 line

def touches (w : Word) (column : Nat) : Bool := decide (w.start ≤ column ∧ column ≤ w.stop)

/-- The first word of a line that touches a column. -/
def at? (line : List Char) (column : Nat) : Option Word := (wordsOf line).find? (·.touches column)

/-- The range of the word that touches a position of a text; none behind the last line. -/
def rangeAt? (text : List Char) (p : Position) : Option Range :=
  match (Text.lines text)[p.line.toNat]? with
  | none => none
  | some line =>
    (at? line p.character.toNat).map fun w =>
      Range.onLine p.line (UInt32.ofNat w.start) (UInt32.ofNat w.stop)

end Word

end SyntaxWatch
