/-!
# Names of hosts in ASCII

A label of a host name that is not ASCII is written in ASCII by an order of insertions: first the characters
that are ASCII, then, in the order of their code points, where each of the others goes. The distance from
one insertion to the next is a number in base 36 with its least digit first. Every digit has a threshold,
and a digit below it is the last one; the thresholds depend on a `bias` that follows the distances so far.
-/

set_option autoImplicit false

namespace SyntaxWatch.Uri.Punycode

/-- The digits of base 36, the letters coming first. -/
def digit (n : Nat) : Char := if n < 26 then Char.ofNat (97 + n) else Char.ofNat (22 + n)

/-- The threshold of the digit at a position, which is 36 for the first digit and 36 more for every other:
at least 1 and at most 26. -/
def threshold (bias position : Nat) : Nat := Nat.max 1 (Nat.min 26 (position - bias))

theorem threshold_pos (bias position : Nat) : 0 < threshold bias position :=
  Nat.le_max_left ..

/-- The digits of a distance, from the digit at a position on. -/
def distance (bias position n : Nat) : List Char :=
  let t := threshold bias position
  if n < t then [digit n]
  else digit (t + (n - t) % (36 - t)) :: distance bias (position + 36) ((n - t) / (36 - t))
termination_by n
decreasing_by
  have := threshold_pos bias position
  exact Nat.lt_of_le_of_lt (Nat.div_le_self ..) (by omega)

/-- The bias that follows from a distance already cut down. -/
def biasOf (position n : Nat) : Nat :=
  if 455 < n then biasOf (position + 36) (n / 35) else position + 36 * n / (n + 38)
termination_by n
decreasing_by exact Nat.div_lt_self (by omega) (by omega)

/-- The bias behind a distance, when `written` characters have been written; the first distance says
less about the next than any other. -/
def nextBias (first : Bool) (written n : Nat) : Nat :=
  let cut := if first then n / 700 else n / 2
  biasOf 0 (cut + cut / written)

/-- How far the insertions have come. -/
structure Insertions where
  text : List Char
  /-- The distance from the last insertion. -/
  delta : Nat
  bias : Nat
  written : Nat
  first : Bool

/-- Passes a character of the label while the characters with a code point are inserted: a lower one has
been written and is stepped over. -/
def Insertions.pass (point : Nat) (s : Insertions) (c : Char) : Insertions :=
  if c.toNat < point then { s with delta := s.delta + 1 }
  else if c.toNat = point then
    ⟨s.text ++ distance s.bias 36 s.delta, 0, nextBias s.first (s.written + 1) s.delta, s.written + 1, false⟩
  else s

/-- Inserts the characters of the label with these code points, in rising order, the last point before
them being given. -/
def Insertions.insertAll (label : List Char) : List Nat → Nat → Insertions → Insertions
  | [], _, s => s
  | point :: others, before, s =>
    -- for every code point left out, each character written and the end are places passed by
    let s := { s with delta := s.delta + (point - before) * (s.written + 1) }
    let s := label.foldl (Insertions.pass point) s
    insertAll label others (point + 1) { s with delta := s.delta + 1 }

def encode (label : List Char) : List Char :=
  let plain := label.filter fun c => decide (c.toNat < 128)
  let points := (label.map Char.toNat).filter fun n => decide (128 ≤ n)
  let rising := (points.mergeSort fun a b => decide (a ≤ b)).eraseDups
  let start := if plain = [] then [] else plain ++ ['-']
  (Insertions.insertAll label rising 128 ⟨start, 0, 72, plain.length, true⟩).text

end SyntaxWatch.Uri.Punycode
