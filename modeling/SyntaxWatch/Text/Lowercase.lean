import SyntaxWatch.Text.CaseData

/-!
# Lower-casing a text

Full lower-casing after the Unicode standard. All letters but two are mapped one by one: the dotted
capital I becomes an `i` and a combining dot, and a capital sigma becomes the final form `ς` where it
ends a word and `σ` elsewhere. It ends a word when a cased letter stands before it and none after it,
case-ignorable characters on either side being looked through; so the lower-case form of one letter
depends on the whole text.
-/

set_option autoImplicit false

namespace SyntaxWatch.Text

/-! ## 1. One letter -/

/-- The lower-case code point under the runs given, or the code point itself where none maps it. -/
def lowerIn : List CaseRun → Nat → Nat
  | [], n => n
  | run :: others, n =>
    if n < run.first then n
    else if n ≤ run.last ∧ (n - run.first) % run.step = 0 then (n + run.distance).toNat
    else lowerIn others n

/-- The lower-case form of a letter by itself, its surroundings left out of account. -/
def lowerChar (c : Char) : List Char :=
  if c = 'İ' then ['i', '\u0307'] else [Char.ofNat (lowerIn caseRuns c.toNat)]

/-! ## 2. The sigma at the end of a word -/

/-- Whether a cased letter comes next when case-ignorable characters are passed over. -/
def casedNext : List Char → Bool
  | [] => false
  | c :: rest => if caseIgnorable.has c.toNat then casedNext rest else cased.has c.toNat

/-- Lower-cases what is left of a text; `before` holds the characters already passed, the nearest
first. -/
def lowerFrom (before : List Char) : List Char → List Char
  | [] => []
  | c :: rest =>
    (if c = 'Σ' then [if casedNext before && !casedNext rest then 'ς' else 'σ'] else lowerChar c)
      ++ lowerFrom (c :: before) rest

def lower (text : List Char) : List Char := lowerFrom [] text

example : lower "ΟΔΟΣ Σ AΣ. ΑΣΑ İÉ".toList = "οδος σ aς. ασα i̇é".toList := by decide

end SyntaxWatch.Text
