import SyntaxWatch.Uri

/-!
# Quoted text in TOML

Four forms: in double quotes with escapes or in single quotes without, each on one line or, with three
quotes, on several. `read?` is given a text that begins with a quote and yields what stands between the
quotes, with the rest of the text.

No form may hold control characters other than the tab. A line end right after three opening quotes is
not part of the text, a line end inside is kept as it is written, and up to two quotes may stand before
three closing ones.
-/

set_option autoImplicit false

namespace SyntaxWatch.Toml

/-- Control characters that may stand nowhere; the tab and the line feed are not among them. -/
def isControl (c : Char) : Bool :=
  (decide (c.toNat < 0x20) && c != '\t' && c != '\n') || c == '\x7f'

def isSpace (c : Char) : Bool := c == ' ' || c == '\t'

/-- The text behind a line end, if it begins with one. -/
def newline? : List Char → Option (List Char)
  | '\n' :: rest => some rest
  | '\r' :: '\n' :: rest => some rest
  | _ => none

namespace Quoted

abbrev Result := Option (List Char × List Char)

def before (c : Char) (r : Result) : Result := r.map fun (text, rest) => (c :: text, rest)

/-- The character of an escape in one letter. -/
def simpleEscape? : Char → Option Char
  | 'b' => some '\x08'
  | 't' => some '\t'
  | 'n' => some '\n'
  | 'f' => some '\x0c'
  | 'r' => some '\r'
  | '"' => some '"'
  | '\\' => some '\\'
  | _ => none

def hexValue? (digits : List Char) : Option Nat :=
  digits.foldl (fun n? c => n?.bind fun n => (Uri.hexValue? c).map fun d => n * 16 + d) (some 0)

/-- The character with a code point in hexadecimal digits; surrogates are none. -/
def codePoint? (digits : List Char) : Option Char :=
  (hexValue? digits).bind fun n =>
    if n < 0xD800 ∨ (0xDFFF < n ∧ n < 0x110000) then some (Char.ofNat n) else none

/-! ## On one line -/

def basic : List Char → Result
  | [] => none
  | '"' :: rest => some ([], rest)
  | '\\' :: 'u' :: a :: b :: c :: d :: rest =>
    match codePoint? [a, b, c, d] with
    | some ch => before ch (basic rest)
    | none => none
  | '\\' :: 'U' :: a :: b :: c :: d :: e :: f :: g :: h :: rest =>
    match codePoint? [a, b, c, d, e, f, g, h] with
    | some ch => before ch (basic rest)
    | none => none
  | '\\' :: c :: rest =>
    match simpleEscape? c with
    | some ch => before ch (basic rest)
    | none => none
  | c :: rest => if isControl c ∨ c = '\n' ∨ c = '\\' then none else before c (basic rest)

def literal : List Char → Result
  | [] => none
  | '\'' :: rest => some ([], rest)
  | c :: rest => if isControl c ∨ c = '\n' then none else before c (literal rest)

/-! ## On several lines -/

/-- The end of a text where quotes follow each other, the first of them not counted in `rest`: three close
it, and up to two more before them belong to it. None when there are fewer than three. -/
def closing? (quote : Char) (rest : List Char) : Result :=
  let more := (rest.takeWhile (· = quote)).length
  if more < 2 then none
  else
    -- the first quote and `more` others make the three that close and those before them
    let inside := Nat.min (more - 2) 2
    some (List.replicate inside quote, rest.drop (inside + 2))

/-- The rest of a text in three double quotes. While `skipping`, white space after a backslash at the end of
a line is passed over. -/
def multiBasic (skipping : Bool) : List Char → Result
  | [] => none
  | '"' :: rest =>
    match closing? '"' rest with
    | some r => some r
    | none => before '"' (multiBasic false rest)
  | '\\' :: 'u' :: a :: b :: c :: d :: rest =>
    match codePoint? [a, b, c, d] with
    | some ch => before ch (multiBasic false rest)
    | none => none
  | '\\' :: 'U' :: a :: b :: c :: d :: e :: f :: g :: h :: rest =>
    match codePoint? [a, b, c, d, e, f, g, h] with
    | some ch => before ch (multiBasic false rest)
    | none => none
  | '\\' :: c :: rest =>
    match simpleEscape? c with
    | some ch => before ch (multiBasic false rest)
    | none =>
      if (newline? ((c :: rest).dropWhile isSpace)).isNone then none
      else if c = '\r' ∨ c = '\n' ∨ isSpace c then multiBasic true rest
      else none
  | '\r' :: '\n' :: rest =>
    if skipping then multiBasic true rest else before '\r' (before '\n' (multiBasic false rest))
  | c :: rest =>
    if skipping ∧ (isSpace c ∨ c = '\n') then multiBasic true rest
    else if isControl c ∨ c = '\\' then none
    else before c (multiBasic false rest)

def multiLiteral : List Char → Result
  | [] => none
  | '\'' :: rest =>
    match closing? '\'' rest with
    | some r => some r
    | none => before '\'' (multiLiteral rest)
  | '\r' :: '\n' :: rest => before '\r' (before '\n' (multiLiteral rest))
  | c :: rest => if isControl c then none else before c (multiLiteral rest)

def dropNewline (text : List Char) : List Char := (newline? text).getD text

/-- The quoted text at the front, in any of the four forms. -/
def read? : List Char → Result
  | '"' :: '"' :: '"' :: rest => multiBasic false (dropNewline rest)
  | '\'' :: '\'' :: '\'' :: rest => multiLiteral (dropNewline rest)
  | '"' :: rest => basic rest
  | '\'' :: rest => literal rest
  | _ => none

/-- The quoted text at the front, on one line. -/
def readLine? : List Char → Result
  | '"' :: rest => basic rest
  | '\'' :: rest => literal rest
  | _ => none

end Quoted

end SyntaxWatch.Toml
