import SyntaxWatch.Text.Lowercase

/-!
# Lower-casing in ASCII

Full lower-casing looks at a whole text and goes by tables of all of Unicode. On a text in ASCII it
comes to the letter by letter `Char.toLower`: no letter of ASCII is the one whose form depends on its
surroundings, and none becomes two.
-/

set_option autoImplicit false

namespace SyntaxWatch.Text

/-- What holds of all code points of ASCII, one by one, holds of its characters. -/
theorem forall_ascii {P : Char → Prop} (hall : ∀ n < 128, P (Char.ofNat n)) {c : Char}
    (hc : c.toNat < 128) : P c := by
  have hn := hall c.toNat hc
  rwa [Char.ofNat_toNat] at hn

theorem toLower_of_not_ascii {c : Char} (hc : 128 ≤ c.toNat) : c.toLower = c := by
  unfold Char.toLower
  refine dif_neg fun hupper => ?_
  have hle : c.toNat ≤ 90 := UInt32.le_iff_toNat_le.mp hupper.2
  omega

theorem toUpper_of_not_ascii {c : Char} (hc : 128 ≤ c.toNat) : c.toUpper = c := by
  unfold Char.toUpper
  refine dif_neg fun hlower => ?_
  have hle : c.toNat ≤ 122 := UInt32.le_iff_toNat_le.mp hlower.2
  omega

theorem ascii_of_toLower {c : Char} (hc : c.toLower.toNat < 128) : c.toNat < 128 := by
  refine Nat.lt_of_not_le fun hlarge => ?_
  rw [toLower_of_not_ascii hlarge] at hc
  omega

theorem lowerChar_of_ascii {c : Char} (hc : c.toNat < 128) : lowerChar c = [c.toLower] :=
  forall_ascii (P := fun c => lowerChar c = [c.toLower]) (by decide) hc

theorem lowerFrom_of_ascii {text : List Char} (htext : ∀ c ∈ text, c.toNat < 128) (before : List Char) :
    lowerFrom before text = text.map Char.toLower := by
  induction text generalizing before with
  | nil => rfl
  | cons c rest ih =>
    have hc : c.toNat < 128 := htext c List.mem_cons_self
    have hsigma : c ≠ 'Σ' := by
      rintro rfl
      exact absurd hc (by decide)
    unfold lowerFrom
    rw [if_neg hsigma, lowerChar_of_ascii hc, ih fun x hx => htext x (List.mem_cons_of_mem c hx)]
    rfl

theorem lower_of_ascii {text : List Char} (htext : ∀ c ∈ text, c.toNat < 128) :
    lower text = text.map Char.toLower := lowerFrom_of_ascii htext []

end SyntaxWatch.Text
