import SyntaxWatch.Toml.Quoted
import SyntaxWatch.Toml.Scalar
import SyntaxWatch.Toml.Table

/-!
# A TOML document

A document is read line by line: a header opens a table, any other line that is not blank gives a value to
a key of the table that is open. Arrays may run over several lines, inline tables may not.

Arrays and inline tables nest in each other up to a limit, and a dotted key has at most so many parts
(`nestingLimit`). Besides, reading takes a bound on its steps: every step takes at least one character, and
the length of the text is bound enough (`parse?`).
-/

set_option autoImplicit false

namespace SyntaxWatch.Toml

/-! ## 1. Blank stretches -/

def dropSpace (text : List Char) : List Char := text.dropWhile isSpace

/-- The text without a comment at its front; none when the comment holds a control character. -/
def dropComment? (text : List Char) : Option (List Char) :=
  match text with
  | '#' :: rest =>
    let comment := rest.takeWhile (· ≠ '\n')
    let body := if comment.getLast? = some '\r' ∧ comment.length < rest.length then comment.dropLast else comment
    if body.any isControl then none else some (rest.drop body.length)
  | _ => some text

/-- What follows when nothing but a comment is left on the line: the next line, or nothing at all. -/
def lineEnd? (text : List Char) : Option (List Char) :=
  match dropComment? (dropSpace text) with
  | some [] => some []
  | some rest => newline? rest
  | none => none

/-- The text without blank lines, comments and spaces at its front, as between the items of an array. -/
def dropBlank? : Nat → List Char → Option (List Char)
  | 0, text => some text
  | n + 1, text =>
    match dropComment? (dropSpace text) with
    | none => none
    | some rest =>
      match newline? rest with
      | some next => dropBlank? n next
      | none => some rest

/-! ## 2. Keys -/

/-- What a key may be made of without quotes. -/
def isBareChar (c : Char) : Bool := c.isAlphanum || c == '_' || c == '-'

def simpleKey? (text : List Char) : Option (String × List Char) :=
  match text with
  | '"' :: _ => (Quoted.readLine? text).map fun (key, rest) => (String.ofList key, rest)
  | '\'' :: _ => (Quoted.readLine? text).map fun (key, rest) => (String.ofList key, rest)
  | _ =>
    let key := text.takeWhile isBareChar
    if key = [] then none else some (String.ofList key, text.dropWhile isBareChar)

/-- How many tables and arrays may lie in each other, and how many parts a key may have. -/
def nestingLimit : Nat := 80

/-- A key of at most so many parts, and the text behind it and the spaces after it. -/
def keyUpTo? : Nat → List Char → Option (List String × List Char)
  | 0, _ => none
  | n + 1, text =>
    match simpleKey? (dropSpace text) with
    | none => none
    | some (part, rest) =>
      match dropSpace rest with
      | '.' :: more => (keyUpTo? n more).map fun (parts, after) => (part :: parts, after)
      | after => some ([part], after)

def key? (text : List Char) : Option (List String × List Char) := keyUpTo? nestingLimit text

/-! ## 3. Values -/

mutual

/-- The value at the front of a text. `depth` tells how many arrays and inline tables may still be opened. -/
def value? (depth : Nat) : Nat → List Char → Option (Value × List Char)
  | 0, _ => none
  | n + 1, text =>
    match text with
    | '"' :: _ => (Quoted.read? text).map fun (s, rest) => (.text (String.ofList s), rest)
    | '\'' :: _ => (Quoted.read? text).map fun (s, rest) => (.text (String.ofList s), rest)
    | '[' :: rest =>
      if depth = 0 then none
      else (items? (depth - 1) n rest).map fun (items, after) => (.list items, after)
    | '\x7b' :: rest =>
      if depth = 0 then none
      else
        match dropSpace rest with
        | '\x7d' :: after => some (.table [], after)
        | body =>
          (inline? (depth - 1) n [] body).map fun (fields, after) => (.table (Node.fieldValues fields), after)
    | _ => Scalar.read? text

def items? (depth : Nat) : Nat → List Char → Option (List Value × List Char)
  | 0, _ => none
  | n + 1, text =>
    match dropBlank? n text with
    | none => none
    | some (']' :: after) => some ([], after)
    | some body =>
      match value? depth n body with
      | none => none
      | some (v, rest) =>
        match dropBlank? n rest with
        | some (',' :: more) => (items? depth n more).map fun (items, after) => (v :: items, after)
        | some (']' :: after) => some ([v], after)
        | _ => none

def inline? (depth : Nat) : Nat → Fields → List Char → Option (Fields × List Char)
  | 0, _, _ => none
  | n + 1, fields, text =>
    match key? text with
    | some (key, '=' :: rest) =>
      match value? depth n (dropSpace rest) with
      | none => none
      | some (v, rest) =>
        match Fields.assign? fields key v with
        | none => none
        | some fields =>
          match dropSpace rest with
          | ',' :: more => inline? depth n fields more
          | '\x7d' :: after => some (fields, after)
          | _ => none
    | _ => none

end

/-! ## 4. Lines -/

/-- What has been read: all tables, and the path of the one that is open. -/
structure Reading where
  fields : Fields
  path : List String

/-- Reads one line that is not blank, and gives what follows its end. -/
def statement? (r : Reading) (text : List Char) : Option (Reading × List Char) :=
  match text with
  | '[' :: '[' :: rest =>
    match key? rest with
    | some (path, ']' :: ']' :: after) => do
      let next ← lineEnd? after
      let fields ← Fields.openElement? r.fields path
      some (⟨fields, path⟩, next)
    | _ => none
  | '[' :: rest =>
    match key? rest with
    | some (path, ']' :: after) => do
      let next ← lineEnd? after
      let fields ← Fields.openTable? r.fields path
      some (⟨fields, path⟩, next)
    | _ => none
  | _ =>
    match key? text with
    | some (key, '=' :: rest) => do
      let (v, after) ← value? nestingLimit (rest.length + 1) (dropSpace rest)
      let next ← lineEnd? after
      let fields ← Fields.at? false (fun fields => Fields.assign? fields key v) r.path r.fields
      some (⟨fields, r.path⟩, next)
    | _ => none

/-- Reads lines, at most so many, up to the end of the text. -/
def statements? : Nat → Reading → List Char → Option Reading
  | 0, r, text => if text = [] then some r else none
  | n + 1, r, text =>
    match dropSpace text with
    | [] => some r
    | line =>
      match lineEnd? line with
      | some next => statements? n r next
      | none =>
        match statement? r line with
        | some (r, next) => statements? n r next
        | none => none

/-- The top table of a document. A byte-order mark at its front is passed over. -/
def parse? (text : List Char) : Option (List (String × Value)) :=
  let body := if text.head? = some '\uFEFF' then text.drop 1 else text
  (statements? (body.length + 1) ⟨[], []⟩ body).map fun r => Node.fieldValues r.fields

end SyntaxWatch.Toml
