import Mathlib.Data.List.Forall2
import SyntaxWatch.Proofs.Text.AsciiCase
import SyntaxWatch.Proofs.Text.CaseTable

/-!
# Lower-casing

What lower-casing a text comes to is said once more as a relation, `Lowered`, that goes by where a character
stands: a capital sigma has its final form where a word ends (`WordEnd`), and every other character has a
form of its own. `lower` computes it (`lowered_iff`).

Two laws follow, about whole texts, since the form of a sigma depends on what is around it:

* what has been lower-cased stays as it is (`lower_lower`). No capital sigma is left in it, so nothing in it
  depends on its surroundings any more;
* the case of letters of ASCII makes no difference (`lower_eq_of_recased`), not even to a sigma next to them:
  a letter is cased in either case, and case-ignorable in neither.
-/

set_option autoImplicit false

namespace SyntaxWatch.Text

/-! ## 1. Where a word ends -/

/-- The first character that is not case-ignorable is there, and is a cased letter. -/
def CasedNext (text : List Char) : Prop :=
  ∃ skipped c rest, text = skipped ++ c :: rest ∧ (∀ x ∈ skipped, caseIgnorable.has x.toNat = true)
    ∧ caseIgnorable.has c.toNat = false ∧ cased.has c.toNat = true

/-- A word ends between what stands before, the nearest first, and what stands after. -/
def WordEnd (before after : List Char) : Prop := CasedNext before ∧ ¬ CasedNext after

theorem casedNext_iff {text : List Char} : casedNext text = true ↔ CasedNext text := by
  induction text with
  | nil =>
    refine ⟨fun h => (nomatch h), ?_⟩
    rintro ⟨skipped, c, rest, htext, -⟩
    exact absurd htext.symm (List.append_ne_nil_of_right_ne_nil skipped (List.cons_ne_nil c rest))
  | cons x text ih =>
    unfold casedNext
    split_ifs with hignorable
    · rw [ih]
      constructor
      · rintro ⟨skipped, c, rest, rfl, hskipped, hc⟩
        exact ⟨x :: skipped, c, rest, rfl, List.forall_mem_cons.mpr ⟨hignorable, hskipped⟩, hc⟩
      · rintro ⟨skipped, c, rest, htext, hskipped, hc, hcased⟩
        rcases List.cons_eq_append_iff.mp htext with ⟨rfl, hhead⟩ | ⟨skipped', rfl, rfl⟩
        · obtain ⟨rfl, -⟩ := List.cons.inj hhead
          exact absurd (hignorable.symm.trans hc) (by decide)
        · exact ⟨skipped', c, rest, rfl, (List.forall_mem_cons.mp hskipped).2, hc, hcased⟩
    · rw [Bool.not_eq_true] at hignorable
      constructor
      · intro hcased
        exact ⟨[], x, text, rfl, fun _ h => (nomatch h), hignorable, hcased⟩
      · rintro ⟨skipped, c, rest, htext, hskipped, hc, hcased⟩
        rcases List.cons_eq_append_iff.mp htext with ⟨rfl, hhead⟩ | ⟨skipped', rfl, -⟩
        · obtain ⟨rfl, -⟩ := List.cons.inj hhead
          exact hcased
        · exact absurd (hignorable.symm.trans (hskipped x List.mem_cons_self)) (by decide)

theorem wordEnd_iff {before after : List Char} :
    (casedNext before && !casedNext after) = true ↔ WordEnd before after := by
  rw [Bool.and_eq_true, Bool.not_eq_true', ← Bool.not_eq_true, casedNext_iff, casedNext_iff]
  rfl

/-! ## 2. Lower-casing by place -/

/-- What becomes of a character that stands between two texts, `before` nearest first. -/
inductive Form (before after : List Char) : Char → List Char → Prop
  | final (hend : WordEnd before after) : Form before after 'Σ' ['ς']
  | medial (hinner : ¬ WordEnd before after) : Form before after 'Σ' ['σ']
  | dotted : Form before after 'İ' ['i', '\u0307']
  | letter {c d : Char} (hsigma : c ≠ 'Σ') (hdotted : c ≠ 'İ') (hletter : LowerLetter c d) :
      Form before after c [d]

/-- What becomes of the rest of a text. -/
inductive LoweredFrom : List Char → List Char → List Char → Prop
  | nil (before : List Char) : LoweredFrom before [] []
  | cons {before rest form lowered : List Char} {c : Char} (hform : Form before rest c form)
      (hrest : LoweredFrom (c :: before) rest lowered) : LoweredFrom before (c :: rest) (form ++ lowered)

/-- The second text is the first in lower case. -/
def Lowered (text lowered : List Char) : Prop := LoweredFrom [] text lowered

theorem form_iff {before after form : List Char} {c : Char} :
    Form before after c form ↔
      (if c = 'Σ' then [if casedNext before && !casedNext after then 'ς' else 'σ'] else lowerChar c)
        = form := by
  constructor
  · rintro (hend | hinner | _ | ⟨hsigma, hdotted, hletter⟩)
    · rw [if_pos rfl, if_pos (wordEnd_iff.mpr hend)]
    · rw [if_pos rfl, if_neg (mt wordEnd_iff.mp hinner)]
    · rfl
    · rw [if_neg hsigma, lowerChar, if_neg hdotted, lowerLetter_iff.mp hletter]
  · rintro rfl
    by_cases hsigma : c = 'Σ'
    · subst hsigma
      rw [if_pos rfl]
      split_ifs with hend
      · exact .final (wordEnd_iff.mp hend)
      · exact .medial (mt wordEnd_iff.mpr hend)
    · rw [if_neg hsigma, lowerChar]
      split_ifs with hdotted
      · rw [hdotted]
        exact .dotted
      · exact .letter hsigma hdotted (lowerLetter_iff.mpr rfl)

theorem loweredFrom_iff {before text lowered : List Char} :
    LoweredFrom before text lowered ↔ lowerFrom before text = lowered := by
  induction text generalizing before lowered with
  | nil =>
    constructor
    · rintro ⟨⟩
      rfl
    · rintro rfl
      exact .nil before
  | cons c rest ih =>
    unfold lowerFrom
    constructor
    · rintro (_ | ⟨hform, hrest⟩)
      rw [form_iff.mp hform, ih.mp hrest]
    · rintro rfl
      exact .cons (form_iff.mpr rfl) (ih.mpr rfl)

/-- **A text has one lower-case form**, and `lower` finds it. -/
theorem lowered_iff {text lowered : List Char} : Lowered text lowered ↔ lower text = lowered :=
  loweredFrom_iff

/-! ## 3. Lower-casing twice -/

/-- Lower-casing leaves the character as it is, wherever it stands. -/
structure Settled (c : Char) : Prop where
  ne_sigma : c ≠ 'Σ'
  lowerChar : lowerChar c = [c]

instance decidableSettled (c : Char) : Decidable (Settled c) :=
  decidable_of_iff (c ≠ 'Σ' ∧ Text.lowerChar c = [c]) ⟨fun h => ⟨h.1, h.2⟩, fun h => ⟨h.1, h.2⟩⟩

/-- The lower-case letters of the table are settled: no run leads from them, and they are neither the sigma
nor the dotted I, from which a run or a rule of its own leads. -/
theorem settled_lowerIn {c : Char} (hdotted : c ≠ 'İ') : Settled (Char.ofNat (lowerIn caseRuns c.toNat)) := by
  have hfixed : lowerIn caseRuns (Char.ofNat (lowerIn caseRuns c.toNat)).toNat
      = (Char.ofNat (lowerIn caseRuns c.toNat)).toNat := by
    rw [toNat_lowerIn, lowerIn_lowerIn]
  refine ⟨fun hsigma => ?_, ?_⟩
  · rw [hsigma] at hfixed
    exact absurd hfixed (by decide)
  · have hkept : Char.ofNat (lowerIn caseRuns c.toNat) ≠ 'İ' := by
      intro hbecomes
      have hplace : lowerIn caseRuns c.toNat = 0x130 := by
        rw [← toNat_lowerIn, hbecomes]
        rfl
      rcases lowerIn_cases c.toNat with ⟨run, hrun, hmaps, htarget⟩ | ⟨-, hsame⟩
      · exact (caseRuns_sound run hrun).target_ne_dotted hmaps (htarget.symm.trans hplace)
      · exact hdotted (Char.toNat_inj.mp (hsame.symm.trans hplace))
    rw [lowerChar, if_neg hkept, hfixed, Char.ofNat_toNat]

theorem settled_of_form {before after form : List Char} {c d : Char} (hform : Form before after c form)
    (hd : d ∈ form) : Settled d := by
  rcases hform with _ | _ | _ | ⟨hsigma, hdotted, hletter⟩
  · obtain rfl := List.mem_singleton.mp hd
    decide
  · obtain rfl := List.mem_singleton.mp hd
    decide
  · rcases List.mem_cons.mp hd with rfl | hd
    · decide
    · obtain rfl := List.mem_singleton.mp hd
      decide
  · obtain rfl := List.mem_singleton.mp hd
    rw [← lowerLetter_iff.mp hletter]
    exact settled_lowerIn hdotted

/-- All that has been lower-cased is settled. -/
theorem settled_of_loweredFrom {before text lowered : List Char} (hlowered : LoweredFrom before text lowered) :
    ∀ d ∈ lowered, Settled d := by
  induction hlowered with
  | nil => exact fun _ h => (nomatch h)
  | cons hform _ ih =>
    intro d hd
    rcases List.mem_append.mp hd with hd | hd
    · exact settled_of_form hform hd
    · exact ih d hd

theorem lowerFrom_of_settled {text : List Char} (hsettled : ∀ c ∈ text, Settled c) (before : List Char) :
    lowerFrom before text = text := by
  induction text generalizing before with
  | nil => rfl
  | cons c rest ih =>
    obtain ⟨hc, hrest⟩ := List.forall_mem_cons.mp hsettled
    unfold lowerFrom
    rw [if_neg hc.ne_sigma, hc.lowerChar, ih hrest]
    rfl

/-- **What is in lower case stays as it is.** -/
theorem lower_lower (text : List Char) : lower (lower text) = lower text :=
  lowerFrom_of_settled (settled_of_loweredFrom (lowered_iff.mpr rfl)) []

/-! ## 4. The case of ASCII letters -/

/-- `d` is `c`, or else `c` is a letter of ASCII and `d` is it in the other case. -/
def Recased (c d : Char) : Prop := d = c ∨ d = c.toLower ∨ d = c.toUpper

/-- What does not tell the cases of the letters of ASCII apart tells no recased characters apart. -/
theorem Recased.congr {α : Type} {f : Char → α} {c d : Char} (hrecased : Recased c d)
    (hascii : ∀ n < 128, f (Char.ofNat n).toLower = f (Char.ofNat n)
      ∧ f (Char.ofNat n).toUpper = f (Char.ofNat n)) : f d = f c := by
  have hcases : f c.toLower = f c ∧ f c.toUpper = f c := by
    by_cases hc : c.toNat < 128
    · exact forall_ascii (P := fun c => f c.toLower = f c ∧ f c.toUpper = f c) hascii hc
    · rw [toLower_of_not_ascii (not_lt.mp hc), toUpper_of_not_ascii (not_lt.mp hc)]
      exact ⟨rfl, rfl⟩
  rcases hrecased with rfl | rfl | rfl
  · rfl
  · exact hcases.1
  · exact hcases.2

section Recased

variable {c d : Char}

theorem Recased.lowerChar (h : Recased c d) : lowerChar d = lowerChar c := h.congr (by decide)

theorem Recased.cased (h : Recased c d) : cased.has d.toNat = cased.has c.toNat :=
  h.congr (f := fun c => Text.cased.has c.toNat) (by decide)

theorem Recased.caseIgnorable (h : Recased c d) : caseIgnorable.has d.toNat = caseIgnorable.has c.toNat :=
  h.congr (f := fun c => Text.caseIgnorable.has c.toNat) (by decide)

theorem Recased.sigma (h : Recased c d) : d = 'Σ' ↔ c = 'Σ' :=
  iff_of_eq (h.congr (f := fun c => c = 'Σ') (by decide))

end Recased

theorem casedNext_of_recased {text text' : List Char} (h : List.Forall₂ Recased text text') :
    casedNext text' = casedNext text := by
  induction h with
  | nil => rfl
  | cons hc _ ih => simp only [casedNext, hc.cased, hc.caseIgnorable, ih]

theorem lowerFrom_of_recased {before before' text text' : List Char} (h : List.Forall₂ Recased text text')
    (hbefore : List.Forall₂ Recased before before') : lowerFrom before' text' = lowerFrom before text := by
  induction h generalizing before before' with
  | nil => rfl
  | cons hc hrest ih =>
    simp only [lowerFrom, hc.sigma, hc.lowerChar, casedNext_of_recased hbefore, casedNext_of_recased hrest,
      ih (hbefore.cons hc)]

/-- **The case of ASCII letters makes no difference.** -/
theorem lower_eq_of_recased {text text' : List Char} (h : List.Forall₂ Recased text text') :
    lower text' = lower text := lowerFrom_of_recased h .nil

end SyntaxWatch.Text
