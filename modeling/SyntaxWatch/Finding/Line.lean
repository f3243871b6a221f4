import SyntaxWatch.Finding
import SyntaxWatch.Text.Digit
import SyntaxWatch.Text.Lines

/-!
# One line of a checker's output

The conventional form is `path:line:column: severity: message`. The first two characters of the path
are taken as they are, colons included, so that a drive letter survives; from the third on the path
runs up to the first of `: CR LF ~ $ % ^`. Line and column are runs of ASCII digits that fit into 32
bits, the severity is one of three words in any case of letters, and the message is the rest.

`read?` reads a line without its end, `render` writes it. Each part of the form ends where the next one
has to begin (a colon cannot stand in the path after its second character, nor in a number), so a
line has at most one reading.
-/

set_option autoImplicit false

namespace SyntaxWatch.Finding.Line

/-! ## 1. The parts -/

/-- What may stand in a path after its first two characters. -/
def isPathChar (c : Char) : Bool :=
  !(c = ':' || c = '\r' || c = '\n' || c = '~' || c = '$' || c = '%' || c = '^')

/-- The path, and what stands after the colon that ends it. The two free characters may be anything
but line feeds. -/
def readPath? : List Char → Option (List Char × List Char)
  | a :: b :: rest =>
    if a = '\n' ∨ b = '\n' then none
    else
      let body := rest.takeWhile isPathChar
      match body, rest.dropWhile isPathChar with
      | [], _ => none
      | _ :: _, ':' :: after => some (a :: b :: body, after)
      | _ :: _, _ => none
  | _ => none

/-- A number of at most 32 bits, and what stands after the colon that ends it. -/
def readNumber? (text : List Char) : Option (UInt32 × List Char) :=
  let digits := text.takeWhile Char.isDigit
  match Text.asciiDigits? digits, text.dropWhile Char.isDigit with
  | some n, ':' :: after => if n < UInt32.size then some (UInt32.ofNat n, after) else none
  | _, _ => none

/-- The severity words that are diagnostics; follow-up lines (`note:` and the like) are none. -/
def severityWords : List (List Char) :=
  ["fatal error".toList, "error".toList, "warning".toList]

/-- Takes a word off the front, letters in either case: the word as it was written, and the rest. -/
def takeWord? : List Char → List Char → Option (List Char × List Char)
  | [], rest => some ([], rest)
  | w :: word, c :: rest =>
    if c.toLower = w then (takeWord? word rest).map fun (taken, after) => (c :: taken, after)
    else none
  | _ :: _, [] => none

/-- The severity word, and the message that stands after `: `. -/
def readSeverity? (text : List Char) : Option (List Char × List Char) :=
  severityWords.findSome? fun word =>
    match takeWord? word text with
    | some (taken, ':' :: ' ' :: message) => some (taken, message)
    | _ => none

/-! ## 2. The line -/

/-- The finding on a line whose end has been taken off, if it is of the form. -/
def read? (line : List Char) : Option Finding :=
  match readPath? line with
  | none => none
  | some (path, afterPath) =>
    match readNumber? afterPath with
    | none => none
    | some (row, afterRow) =>
      match readNumber? afterRow with
      | some (column, ' ' :: afterColumn) =>
        match readSeverity? afterColumn with
        | none => none
        | some (severity, message) =>
          if '\n' ∈ message then none
          else
            some ⟨String.ofList path, row, column, String.ofList severity, String.ofList message⟩
      | _ => none

def render (f : Finding) : String :=
  f.path ++ ":" ++ toString f.line.toNat ++ ":" ++ toString f.column.toNat ++ ": " ++ f.severity ++ ": "
    ++ f.message

/-- The finding on a line of output, whatever carriage returns and feeds end it. -/
def parse? (line : List Char) : Option Finding := read? (Text.trimLineEnd line)

/-- Adds what a line states, if it states anything, and says whether it did. -/
def addTo (found : Findings) (line : List Char) : Bool × Findings :=
  match parse? line with
  | some f => (true, found.push f)
  | none => (false, found)

example : parse? "C:\\a.c:3:014: Fatal ERROR: no: error: x\r\n".toList
    = some ⟨"C:\\a.c", 3, 14, "Fatal ERROR", "no: error: x"⟩ := by decide

end SyntaxWatch.Finding.Line
