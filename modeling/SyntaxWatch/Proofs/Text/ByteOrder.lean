import Mathlib.Data.String.Basic
import Mathlib.Order.Monotone.Basic
import SyntaxWatch.Uri

/-!
# The order of texts, byte by byte

Texts are compared character by character here, and byte by byte wherever it is their encodings that are
compared. `values_strictMono` says that the two orders are one. All of it rests on `encodeChar_lt`: of two
characters the greater one has the greater bytes, and that shows before either encoding ends, so that it
makes no difference what is written behind them.

Bytes are compared by their values, as lists of numbers. URIs come in the order of theirs (`Uri.le_iff`).
-/

set_option autoImplicit false

namespace SyntaxWatch.Text.Utf8

/-! ## 1. One character -/

theorem ofNat_lt_ofNat {m n : Nat} (hm : m < 256) (hn : n < 256) : UInt8.ofNat m < UInt8.ofNat n ↔ m < n := by
  rw [UInt8.lt_iff_toNat_lt, UInt8.toNat_ofNat_of_lt' hm, UInt8.toNat_ofNat_of_lt' hn]

theorem ofNat_eq_ofNat {m n : Nat} (hm : m < 256) (hn : n < 256) : UInt8.ofNat m = UInt8.ofNat n ↔ m = n := by
  rw [← UInt8.toNat_inj, UInt8.toNat_ofNat_of_lt' hm, UInt8.toNat_ofNat_of_lt' hn]

/-- **The greater of two characters has the greater bytes**, whatever is written behind them. -/
theorem encodeChar_lt {c d : Char} (h : c < d) (xs ys : List UInt8) :
    String.utf8EncodeChar c ++ xs < String.utf8EncodeChar d ++ ys := by
  have hlt : c.val.toNat < d.val.toNat := UInt32.lt_iff_toNat_lt.mp h
  have hbound : d.val.toNat < 0x110000 := by
    have hvalid := d.valid
    simp only [UInt32.isValidChar, Nat.isValidChar] at hvalid
    omega
  unfold String.utf8EncodeChar
  generalize c.val.toNat = m at hlt
  generalize d.val.toNat = n at hlt hbound
  -- six bits of a code point go into each byte behind the first, and what is left fits the first
  have hsix : ∀ k : Nat, k / 64 / 64 = k / 4096 := fun k => Nat.div_div_eq_div_mul k 64 64
  have htwelve : ∀ k : Nat, k / 4096 / 64 = k / 262144 := fun k => Nat.div_div_eq_div_mul k 4096 64
  have hfits : ∀ k < 0x110000, k / 262144 % 8 = k / 262144 := by
    intro k hk
    omega
  have hm := hfits m (Nat.lt_trans hlt hbound)
  have hn := hfits n hbound
  have hm' := And.intro (hsix m) (htwelve m)
  have hn' := And.intro (hsix n) (htwelve n)
  -- a case for each pair of lengths: the shorter form begins with a smaller byte
  simp only
  split_ifs <;>
    simp (disch := omega) only [List.cons_append, List.nil_append, List.cons_lt_cons_iff, ofNat_lt_ofNat,
      ofNat_eq_ofNat] <;>
    omega

/-! ## 2. Texts -/

theorem encode_lt_of_lt {a b : List Char} (h : a < b) : encode a < encode b := by
  have hlex : List.Lex (· < ·) a b := List.lex_lt.mpr h
  clear h
  induction hlex with
  | @nil c rest =>
    show ([] : List UInt8) < String.utf8EncodeChar c ++ encode rest
    obtain ⟨first, others, hbytes⟩ := List.exists_cons_of_ne_nil (@String.utf8EncodeChar_ne_nil c)
    rw [hbytes]
    exact List.nil_lt_cons _ _
  | @cons c a b hrest ih => exact List.append_left_lt ih
  | rel hlt => exact encodeChar_lt hlt _ _

/-- The bytes of a text, as numbers. -/
def values (text : String) : List Nat := (encode text.toList).map UInt8.toNat

theorem map_toNat_lt {a b : List UInt8} (h : a < b) : a.map UInt8.toNat < b.map UInt8.toNat := by
  have hlex : List.Lex (· < ·) a b := List.lex_lt.mpr h
  clear h
  induction hlex with
  | nil => exact List.nil_lt_cons _ _
  | cons _ ih => exact List.cons_lt_cons_iff.mpr (.inr ⟨rfl, ih⟩)
  | rel hlt => exact List.cons_lt_cons_iff.mpr (.inl (UInt8.lt_iff_toNat_lt.mp hlt))

/-- **Texts come in the order of their bytes.** -/
theorem values_strictMono : StrictMono values := fun _ _ h => map_toNat_lt (encode_lt_of_lt h)

end SyntaxWatch.Text.Utf8

namespace SyntaxWatch.Uri

/-! ## 3. URIs -/

/-- The bytes of a URI, as numbers. -/
def bytes (u : Uri) : List Nat := Text.Utf8.values u.text

theorem bytes_injective : Function.Injective bytes := by
  rintro ⟨s⟩ ⟨t⟩ h
  exact congrArg Uri.mk (Text.Utf8.values_strictMono.injective h)

theorem le_iff {u v : Uri} : u.le v = true ↔ u.bytes ≤ v.bytes := by
  unfold Uri.le
  rw [decide_eq_true_eq]
  exact Text.Utf8.values_strictMono.le_iff_le.symm

end SyntaxWatch.Uri
