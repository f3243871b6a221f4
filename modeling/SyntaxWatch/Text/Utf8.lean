/-!
# Reading bytes as UTF-8

A sequence of bytes is read from the front into characters and faults. A fault is the longest
stretch that begins some well-formed character without completing it, or else one byte that begins
none (the Unicode standard calls it a *maximal subpart*). `scan` gives that reading once, and both
readers are views of it: `decodeLossy` writes U+FFFD for each fault, `decode?` refuses a text that
has one.
-/

set_option autoImplicit false

namespace SyntaxWatch.Text.Utf8

/-! ## 1. One character -/

/-- What a first byte announces: how many bytes follow, the bounds of the first of them, and the
bits of the code point that it carries itself. -/
structure Lead where
  following : Nat
  lower : UInt8
  upper : UInt8
  bits : Nat

/-- The announcement of a first byte above `0x7F`. The bounds on the second byte exclude overlong
forms (`E0`, `F0`), surrogates (`ED`) and code points beyond U+10FFFF (`F4`). -/
def lead? (b : UInt8) : Option Lead :=
  if b < 0xC2 then none
  else if b < 0xE0 then some ⟨1, 0x80, 0xBF, b.toNat - 0xC0⟩
  else if b = 0xE0 then some ⟨2, 0xA0, 0xBF, 0⟩
  else if b = 0xED then some ⟨2, 0x80, 0x9F, 0xD⟩
  else if b < 0xF0 then some ⟨2, 0x80, 0xBF, b.toNat - 0xE0⟩
  else if b = 0xF0 then some ⟨3, 0x90, 0xBF, 0⟩
  else if b < 0xF4 then some ⟨3, 0x80, 0xBF, b.toNat - 0xF0⟩
  else if b = 0xF4 then some ⟨3, 0x80, 0x8F, 4⟩
  else none

/-- Reads the bytes that follow a first byte, as far as they fit: the code point when all of them
are there, and how many were taken either way. -/
def follow : Nat → UInt8 → UInt8 → Nat → List UInt8 → Option Nat × Nat
  | 0, _, _, bits, _ => (some bits, 0)
  | _ + 1, _, _, _, [] => (none, 0)
  | n + 1, lower, upper, bits, b :: rest =>
    if lower ≤ b ∧ b ≤ upper then
      let (point, taken) := follow n 0x80 0xBF (bits * 64 + (b.toNat - 0x80)) rest
      (point, taken + 1)
    else (none, 0)

/-- The reading of the front of a sequence that starts with `b`: a character or a fault, and how
many bytes of `rest` belong to it. -/
def front (b : UInt8) (rest : List UInt8) : Option Char × Nat :=
  if b < 0x80 then (some (Char.ofNat b.toNat), 0)
  else
    match lead? b with
    | none => (none, 0)
    | some l =>
      let (point, taken) := follow l.following l.lower l.upper l.bits rest
      (point.map Char.ofNat, taken)

/-! ## 2. A whole sequence -/

/-- The characters (`some`) and faults (`none`) of a byte sequence, in order. -/
def scan : List UInt8 → List (Option Char)
  | [] => []
  | b :: rest => (front b rest).1 :: scan (rest.drop (front b rest).2)
termination_by bytes => bytes.length
decreasing_by
  rw [List.length_drop, List.length_cons]
  exact Nat.lt_succ_of_le (Nat.sub_le _ _)

/-- The text with U+FFFD in the place of each fault. -/
def decodeLossy (bytes : List UInt8) : List Char :=
  (scan bytes).map fun c => c.getD '\uFFFD'

/-- The text, when no byte of it is at fault. -/
def decode? (bytes : List UInt8) : Option (List Char) :=
  (scan bytes).mapM id

def encode (text : List Char) : List UInt8 :=
  text.flatMap String.utf8EncodeChar

end SyntaxWatch.Text.Utf8
