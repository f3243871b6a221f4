import SyntaxWatch.Settings.Value
import SyntaxWatch.Uri

/-!
# Numbers, truth values and dates in TOML

A scalar that is not quoted is a run of letters, digits and the signs `+ - _ . :`, and it is told from its
form alone what it is. Underscores may stand between digits. A whole number must fit into 64 bits, with or
without a sign, and a fraction must be nearer to a double-precision number than to infinity; a date or a time
only has to be well-formed. No setting is made of the latter three, so their values are not kept.
-/

set_option autoImplicit false

namespace SyntaxWatch.Toml.Scalar

/-! ## 1. Numbers -/

/-- The digits of a run that may have single underscores between digits. -/
def digits? (isDigit : Char → Bool) : List Char → Option (List Char)
  | [] => none
  | [c] => if isDigit c then some [c] else none
  | c :: '_' :: rest => if isDigit c then (digits? isDigit rest).map (c :: ·) else none
  | c :: d :: rest => if isDigit c then (digits? isDigit (d :: rest)).map (c :: ·) else none

def valueIn (base : Nat) (digits : List Char) : Nat :=
  digits.foldl (fun n c => n * base + (Uri.hexValue? c).getD 0) 0

/-- A whole number in a base other than ten. -/
def based? (base : Nat) (text : List Char) : Option Nat :=
  (digits? (fun c => (Uri.hexValue? c).any fun d => decide (d < base)) text).map (valueIn base)

/-- A whole number in base ten without a sign; zero is the only one to begin with a zero. -/
def decimal? (text : List Char) : Option Nat :=
  match digits? Char.isDigit text with
  | some ['0'] => some 0
  | some ('0' :: _) => none
  | some digits => some (valueIn 10 digits)
  | none => none

def int? (text : List Char) : Option Int :=
  let n? : Option Int :=
    match text with
    | '0' :: 'x' :: rest => (based? 16 rest).map Int.ofNat
    | '0' :: 'o' :: rest => (based? 8 rest).map Int.ofNat
    | '0' :: 'b' :: rest => (based? 2 rest).map Int.ofNat
    | '+' :: rest => (decimal? rest).map Int.ofNat
    | '-' :: rest => (decimal? rest).map fun n => -(Int.ofNat n)
    | _ => (decimal? text).map Int.ofNat
  n?.bind fun n => if -0x8000000000000000 ≤ n ∧ n < UInt64.size then some n else none

def unsigned : List Char → List Char
  | '+' :: rest => rest
  | '-' :: rest => rest
  | text => text

/-- The digits of a text that may be missing, with the character before them. -/
def digitsBehind? : List Char → Option (List Char)
  | [] => some []
  | _ :: text => digits? Char.isDigit text

/-- The value of an exponent that may be missing, with its letter. -/
def exponent? : List Char → Option Int
  | [] => some 0
  | _ :: text =>
    (digits? Char.isDigit (unsigned text)).map fun digits =>
      if text.head? = some '-' then -(Int.ofNat (valueIn 10 digits)) else Int.ofNat (valueIn 10 digits)

/-- The least number that is rounded to infinity in double precision: the largest double-precision number
and half of the distance to the one before it. -/
def infinityBound : Nat := (Nat.pow 2 54 - 1) * Nat.pow 2 970

/-- How many decimal digits `infinityBound` has. -/
def boundLength : Nat := 309

/-- Whether `0.digits · 10 ^ exponent` is rounded to a number in double precision and not to infinity. -/
def isFinite (digits : List Char) (exponent : Int) : Bool :=
  let leading := digits.takeWhile (· = '0')
  let significant := digits.drop leading.length
  -- without its leading zeros the number lies between a tenth of this power of ten and the power itself
  let power := exponent - leading.length
  if significant = [] ∨ power < boundLength then true
  else if power = boundLength then
    decide (valueIn 10 significant * Nat.pow 10 boundLength < infinityBound * Nat.pow 10 significant.length)
  else false

/-- Whether a text is a number with a fraction or an exponent, or no number at all by name. -/
def isFloat (text : List Char) : Bool :=
  let body := unsigned text
  if body = "inf".toList ∨ body = "nan".toList then true
  else
    let isMark (c : Char) : Bool := c == 'e' || c == 'E'
    let mantissa := body.takeWhile fun c => !isMark c
    let power := body.dropWhile fun c => !isMark c
    let whole := mantissa.takeWhile (· ≠ '.')
    let fraction := mantissa.dropWhile (· ≠ '.')
    match decimal? whole, digits? Char.isDigit whole, digitsBehind? fraction, exponent? power with
    | some _, some before, some after, some exponent =>
      !(fraction.isEmpty && power.isEmpty) && isFinite (before ++ after) (exponent + before.length)
    | _, _, _, _ => false

/-! ## 2. Dates and times -/

def two? (a b : Char) : Option Nat :=
  if a.isDigit ∧ b.isDigit then some (valueIn 10 [a, b]) else none

def isLeap (year : Nat) : Bool := (year % 4 == 0 && year % 100 != 0) || year % 400 == 0

def daysIn (year month : Nat) : Nat :=
  if month = 2 then (if isLeap year then 29 else 28)
  else if month = 4 ∨ month = 6 ∨ month = 9 ∨ month = 11 then 30
  else 31

/-- What follows a date at the front of a text. -/
def date? : List Char → Option (List Char)
  | a :: b :: c :: d :: '-' :: e :: f :: '-' :: g :: h :: rest =>
    match two? a b, two? c d, two? e f, two? g h with
    | some hi, some lo, some month, some day =>
      if 1 ≤ month ∧ month ≤ 12 ∧ 1 ≤ day ∧ day ≤ daysIn (hi * 100 + lo) month then some rest else none
    | _, _, _, _ => none
  | _ => none

/-- What follows a time of day at the front of a text. A minute may have a leap second. -/
def time? : List Char → Option (List Char)
  | a :: b :: ':' :: c :: d :: ':' :: e :: f :: rest =>
    match two? a b, two? c d, two? e f with
    | some hour, some minute, some second =>
      if hour < 24 ∧ minute < 60 ∧ second ≤ 60 then
        match rest with
        | '.' :: more =>
          if (more.takeWhile Char.isDigit).isEmpty then none else some (more.dropWhile Char.isDigit)
        | _ => some rest
      else none
    | _, _, _ => none
  | _ => none

/-- Whether a text is empty or the distance of a time zone. -/
def isOffset : List Char → Bool
  | [] => true
  | ['Z'] => true
  | ['z'] => true
  | [sign, a, b, ':', c, d] =>
    (sign == '+' || sign == '-')
      && (two? a b).any (fun hour => decide (hour < 24))
      && (two? c d).any (fun minute => decide (minute < 60))
  | _ => false

def isMoment (text : List Char) : Bool :=
  match date? text with
  | some [] => true
  | some (mark :: rest) =>
    (mark == 'T' || mark == 't' || mark == ' ') && (time? rest).any fun after => isOffset after
  | none => time? text == some []

/-! ## 3. Scalars -/

/-- What may stand in a scalar. -/
def isScalarChar (c : Char) : Bool := c.isAlphanum || "+-_.:".toList.contains c

def classify? (text : List Char) : Option Value :=
  if text = "true".toList then some (.bool true)
  else if text = "false".toList then some (.bool false)
  else
    match int? text with
    | some n => some (.int n)
    | none => if isFloat text || isMoment text then some .other else none

/-- The scalar at the front of a text. A date goes on behind one space if a time of day stands there. -/
def read? (text : List Char) : Option (Value × List Char) :=
  let first := text.takeWhile isScalarChar
  let rest := text.dropWhile isScalarChar
  let (run, after) :=
    match date? first, rest with
    | some [], ' ' :: more =>
      if (more.head?.map Char.isDigit).getD false then
        (first ++ ' ' :: more.takeWhile isScalarChar, more.dropWhile isScalarChar)
      else (first, rest)
    | _, _ => (first, rest)
  (classify? run).map fun v => (v, after)

end SyntaxWatch.Toml.Scalar
