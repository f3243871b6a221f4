import SyntaxWatch.Text.Lowercase
import SyntaxWatch.Text.Split
import SyntaxWatch.Text.Utf8
import SyntaxWatch.Uri
import SyntaxWatch.Uri.Punycode

/-!
# Hosts of URIs

A host is a name or an address, and is brought into one spelling: a name into lower case and ASCII, an
address of 32 bits into four numbers, one of 128 bits into groups in brackets with the longest run of zeros
left out. Which names are addresses is decided by their last part alone. Where the scheme is none of those
that name hosts of the network, a name is kept as it is (`opaque?`).
-/

set_option autoImplicit false

namespace SyntaxWatch.Uri.Host

/-! ## 1. Addresses of 32 bits -/

/-- A number in a base, with its digits in either case. -/
def numberIn? (base : Nat) (digits : List Char) : Option Nat :=
  digits.foldl
    (fun n? c => n?.bind fun n =>
      (hexValue? c).bind fun d => if d < base then some (n * base + d) else none)
    (some 0)

/-- A part of an address: hexadecimal behind `0x`, octal behind another zero. -/
def part? : List Char → Option Nat
  | [] => none
  | '0' :: 'x' :: digits => numberIn? 16 digits
  | '0' :: c :: digits => numberIn? 8 (c :: digits)
  | digits => numberIn? 10 digits

/-- The parts of a name between its dots, without an empty one at the end. -/
def partsOf (name : List Char) : List (List Char) :=
  let parts := Text.pieces '.' name
  if 1 < parts.length ∧ parts.getLast? = some [] then parts.dropLast else parts

/-- Whether a name is meant as an address: its last part is a number, or at least looks like one. -/
def endsInNumber (name : List Char) : Bool :=
  match (partsOf name).getLast? with
  | some last => (part? last).isSome || (!last.isEmpty && last.all Char.isDigit)
  | none => false

/-- The value of an address: every part but the last is one byte, and the last one fills what is left. -/
def valueOf? (numbers : List Nat) : Option Nat :=
  match numbers.reverse with
  | [] => none
  | last :: others =>
    let rest := 4 - others.length
    if 3 < others.length ∨ others.any (fun n => decide (255 < n)) ∨ Nat.pow 256 rest ≤ last then none
    else some (others.reverse.foldl (fun value n => value * 256 + n) 0 * Nat.pow 256 rest + last)

def dotted (value : Nat) : List Char :=
  Text.join '.' ([16777216, 65536, 256, 1].map fun unit => (toString (value / unit % 256)).toList)

def address? (name : List Char) : Option (List Char) :=
  (((partsOf name).mapM part?).bind valueOf?).map dotted

/-! ## 2. Addresses of 128 bits -/

/-- One byte in base ten without leading zeros. -/
def byte? (digits : List Char) : Option Nat :=
  match digits with
  | [] => none
  | '0' :: _ :: _ => none
  | _ => (numberIn? 10 digits).bind fun n => if n < 256 then some n else none

/-- Two groups that are spelled like an address of 32 bits. -/
def lastGroups? (text : List Char) : Option (List Nat) :=
  match (Text.pieces '.' text).mapM byte? with
  | some [a, b, c, d] => some [a * 256 + b, c * 256 + d]
  | _ => none

def group? (digits : List Char) : Option Nat :=
  if digits = [] ∨ 4 < digits.length then none else numberIn? 16 digits

def allGroups? : List (List Char) → Option (List Nat)
  | [] => some []
  | [last] => if last.contains '.' then lastGroups? last else (group? last).map fun n => [n]
  | first :: others =>
    match group? first, allGroups? others with
    | some n, some more => some (n :: more)
    | _, _ => none

/-- Groups between colons; there may be none. -/
def groups? (text : List Char) : Option (List Nat) :=
  if text = [] then some [] else allGroups? (Text.pieces ':' text)

/-- A text cut at the first two colons that stand together. -/
def cutAtGap : List Char → Option (List Char × List Char)
  | [] => none
  | ':' :: ':' :: rest => some ([], rest)
  | c :: rest => (cutAtGap rest).map fun (before, after) => (c :: before, after)

/-- The eight groups of an address. A gap stands for one group of zeros or more, and nothing like an address
of 32 bits stands before it. -/
def eightGroups? (text : List Char) : Option (List Nat) :=
  match cutAtGap text with
  | none => (groups? text).bind fun groups => if groups.length = 8 then some groups else none
  | some (before, after) =>
    if before.contains '.' then none
    else
      match groups? before, groups? after with
      | some before, some after =>
        let zeros := 8 - (before.length + after.length)
        if zeros = 0 then none else some (before ++ List.replicate zeros 0 ++ after)
      | _, _ => none

/-- A group without leading zeros, in lower case. -/
def groupText (n : Nat) : List Char := (Nat.toDigits 16 n)

def zerosAhead (groups : List Nat) : Nat := (groups.takeWhile (· = 0)).length

def longestZeros : List Nat → Nat
  | [] => 0
  | n :: others => Nat.max (zerosAhead (n :: others)) (longestZeros others)

/-- The groups before a run of zeros that is so long, the first there is. -/
def beforeZeros (length : Nat) : List Nat → List Nat
  | [] => []
  | n :: others =>
    if length ≤ zerosAhead (n :: others) then [] else n :: beforeZeros length others

/-- An address in brackets. A single group of zeros is written out. -/
def bracketed (groups : List Nat) : List Char :=
  let spelled (groups : List Nat) : List Char := Text.join ':' (groups.map groupText)
  let zeros := longestZeros groups
  if zeros < 2 then '[' :: spelled groups ++ [']']
  else
    let before := beforeZeros zeros groups
    '[' :: spelled before ++ "::".toList ++ spelled (groups.drop (before.length + zeros)) ++ [']']

/-! ## 3. Names -/

/-- Whether a character stands in no name of a network host. -/
def isForbidden (c : Char) : Bool :=
  decide (c ≤ ' ') || c == '\x7f' || "%#/:<>?@[\\]^|".toList.contains c

def asciiLabel (label : List Char) : List Char :=
  if label.all fun c => decide (c.toNat < 128) then label else "xn--".toList ++ Punycode.encode label

def asciiName (name : List Char) : List Char :=
  -- the full stops of other scripts part labels like a dot
  let dots := name.map fun c => if "。．｡".toList.contains c then '.' else c
  Text.join '.' ((Text.pieces '.' (dots.flatMap Text.lowerChar)).map asciiLabel)

/-- The address in brackets at the front of a text, if it is one. -/
def inBrackets? (text : List Char) : Option (List Char) :=
  if text.getLast? = some ']' then (eightGroups? text.dropLast).map bracketed else none

def network? (text : List Char) : Option (List Char) :=
  match text with
  | '[' :: rest => inBrackets? rest
  | _ =>
    match Text.Utf8.decode? (decodeBytes text) with
    | none => none
    | some decoded =>
      let name := asciiName decoded
      if name = [] ∨ name.any isForbidden then none
      else if endsInNumber name then address? name
      else some name

/-- Whether a character stands in no name at all. -/
def isDivider (c : Char) : Bool := "\x00\t\n\r #/:<>?@[\\]^|".toList.contains c

/-- The spelling of any other host, which may be empty. -/
def opaque? (text : List Char) : Option (List Char) :=
  match text with
  | '[' :: rest => inBrackets? rest
  | _ => if text.any isDivider then none else some (encodeText [] text)

end SyntaxWatch.Uri.Host
