import SyntaxWatch.Path
import SyntaxWatch.Text.Utf8

/-!
# URIs, and files as URIs

A URI is kept as its text: two documents are the same when their URIs have the same text. A file's
URI is `file://` and the components of its absolute path, each behind a slash and percent-encoded
byte by byte. Going back works for every URI that has a rooted path and names no host but the local
one, whatever its scheme.

Here are the two directions between files and URIs. Any other URI comes from outside and is brought
into its normal form when it is read (`Uri.Reading`). A file's URI is in normal form but for one thing:
it keeps the `..` of its path.
-/

set_option autoImplicit false

namespace SyntaxWatch

/-- The text that names a document. -/
structure Uri where
  text : String
  deriving DecidableEq, Repr, Inhabited

namespace Uri

/-- URIs come in the order of their bytes. -/
def le (a b : Uri) : Bool := decide (a.text ≤ b.text)

/-! ## 1. Percent-encoding -/

/-- Whether a byte is written with a percent sign, given the printable characters of ASCII that are:
those, and all controls, and all that is not ASCII. -/
def isEscaped (reserved : List Char) (b : UInt8) : Bool :=
  decide (b < 0x20) || decide (0x7F ≤ b) || reserved.contains (Char.ofNat b.toNat)

def hexDigit (n : Nat) : Char := if n < 10 then Char.ofNat (48 + n) else Char.ofNat (55 + n)

def hexValue? (c : Char) : Option Nat :=
  if c.isDigit then some (c.toNat - 48)
  else if 'a' ≤ c ∧ c ≤ 'f' then some (c.toNat - 87)
  else if 'A' ≤ c ∧ c ≤ 'F' then some (c.toNat - 55)
  else none

/-- A byte as it is written where some characters are reserved. -/
def encodeByte (reserved : List Char) (b : UInt8) : List Char :=
  if isEscaped reserved b then ['%', hexDigit (b.toNat / 16), hexDigit (b.toNat % 16)]
  else [Char.ofNat b.toNat]

def encodeText (reserved : List Char) (text : List Char) : List Char :=
  (Text.Utf8.encode text).flatMap (encodeByte reserved)

/-- The characters that may not stand in a component of a file URI. -/
def nameReserved : List Char := " \"#<>?`\x7b\x7d/%\\".toList

def encodeName (name : List UInt8) : List Char := name.flatMap (encodeByte nameReserved)

/-- The bytes that a percent-encoded text stands for. A percent sign without two hexadecimal digits
behind it stands for itself. -/
def decodeBytes : List Char → List UInt8
  | '%' :: a :: b :: rest =>
    match hexValue? a, hexValue? b with
    | some hi, some lo => UInt8.ofNat (hi * 16 + lo) :: decodeBytes rest
    | _, _ => '%'.toNat.toUInt8 :: decodeBytes (a :: b :: rest)
  | c :: rest => String.utf8EncodeChar c ++ decodeBytes rest
  | [] => []

/-! ## 2. Files -/

/-- A relative path has no URI. -/
structure PathError where
  path : Path
  deriving DecidableEq, Repr

namespace PathError

def message (e : PathError) : String := "cannot convert path to file URI: " ++ e.path.text

end PathError

def ofPath (p : Path) : Except PathError Uri :=
  if p.isAbsolute then
    -- the first step of an absolute path is the root
    match p.components.drop 1 with
    | [] => .ok ⟨"file:///"⟩
    | steps => .ok ⟨"file://" ++ String.ofList (steps.flatMap fun s => '/' :: encodeName s.bytes)⟩
  else .error ⟨p⟩

/-- What follows the scheme of a URI: the host, if one is written, and the path behind it. -/
def hostAndPath (text : List Char) : List Char × List Char :=
  let bare := text.takeWhile fun c => c ≠ '?' ∧ c ≠ '#'
  match (bare.dropWhile (· ≠ ':')).drop 1 with
  | '/' :: '/' :: rest =>
    let authority := rest.takeWhile (· ≠ '/')
    -- a user stands before the host, and a number behind it
    let host := (Text.pieces '@' authority).getLast?.getD []
    (host.takeWhile (· ≠ ':'), rest.dropWhile (· ≠ '/'))
  -- a dot keeps the two slashes behind it from announcing a host
  | '/' :: '.' :: '/' :: '/' :: rest => ([], '/' :: '/' :: rest)
  | path => ([], path)

/-- Whether a path ends in a name like that of a drive, a letter and a colon or a bar. -/
def endsInDrive (bytes : List UInt8) : Bool :=
  match bytes.reverse with
  | mark :: letter :: _ :: _ =>
    (Char.ofNat letter.toNat).isAlpha && (mark == ':'.toNat.toUInt8 || mark == '|'.toNat.toUInt8)
  | _ => false

/-- The path that a URI names on this machine. A drive is a directory, so a slash goes behind it. -/
def toPath? (u : Uri) : Option Path :=
  let (host, path) := hostAndPath u.text.toList
  if (host = [] ∨ host = "localhost".toList) ∧ path.head? = some '/' then
    let decoded := (Text.pieces '/' (path.drop 1)).flatMap fun part => Path.slash :: decodeBytes part
    some ⟨if endsInDrive decoded then decoded ++ [Path.slash] else decoded⟩
  else none

end Uri

end SyntaxWatch
