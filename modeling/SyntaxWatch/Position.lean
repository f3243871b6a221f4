/-!
# Places in a text

Lines and characters are counted from zero; a character is one Unicode scalar value. Both counts are
32-bit words, because that is what the numbers of a checker's output are read into, and the largest
of them is an input like any other.
-/

set_option autoImplicit false

namespace SyntaxWatch

/-- A place between two characters of a text. -/
structure Position where
  line : UInt32
  character : UInt32
  deriving DecidableEq, Repr, Inhabited

namespace Position

/-- Positions come in reading order: by line, then by character. -/
def le (a b : Position) : Bool :=
  decide (a.line < b.line) || (a.line == b.line && decide (a.character ≤ b.character))

end Position

/-- The stretch between two positions; the end is not part of it. -/
structure Range where
  start : Position
  stop : Position
  deriving DecidableEq, Repr, Inhabited

namespace Range

/-- The stretch of one line between two characters. -/
def onLine (line first last : UInt32) : Range := ⟨⟨line, first⟩, ⟨line, last⟩⟩

/-- Ranges come in the order of their starts, and of their ends where they start together. -/
def le (a b : Range) : Bool :=
  if a.start = b.start then a.stop.le b.stop else a.start.le b.start

end Range

/-- One less, where there is one less. The numbers a checker prints count from one, but nothing keeps
it from printing a zero. -/
def pred32 (n : UInt32) : UInt32 := if n = 0 then 0 else n - 1

theorem toNat_pred32 (n : UInt32) : (pred32 n).toNat = n.toNat - 1 := by
  unfold pred32
  split
  · next h => subst h; rfl
  · next h =>
    have h0 : n.toNat ≠ 0 := fun e => h (UInt32.toNat_inj.1 e)
    rw [UInt32.toNat_sub_of_le]
    · rfl
    · rw [UInt32.le_iff_toNat_le]; exact Nat.one_le_iff_ne_zero.2 h0

end SyntaxWatch
