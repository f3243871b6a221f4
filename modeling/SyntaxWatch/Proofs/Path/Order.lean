import Mathlib.Data.List.Lex
import Mathlib.Data.Prod.Lex
import SyntaxWatch.Path

/-!
# The order of paths

Paths are compared component by component, components by their kind, and names by their bytes: `a/b` stands
before `a.c`, though it would not as text. Here the comparison is tied to the lists that are compared
(`Path.le_iff`): every component has a place among components, and paths come in the dictionary order of
those places.

The two dictionaries, of names and of paths, are one definition, so there is one lemma about it
(`dictionaryLe_iff`).
-/

set_option autoImplicit false

namespace SyntaxWatch.Path

/-! ## 1. Dictionaries -/

theorem cons_le_cons_iff {β : Type} [LinearOrder β] {a b : β} {as bs : List β} :
    a :: as ≤ b :: bs ↔ a < b ∨ a = b ∧ as ≤ bs := by
  have hlt : b :: bs < a :: as ↔ b < a ∨ b = a ∧ bs < as := List.cons_lt_cons_iff
  rw [← not_lt, hlt, ← not_lt]
  rcases lt_trichotomy a b with h | rfl | h
  · simp [h, h.ne', lt_asymm h]
  · simp
  · simp [h, h.ne', lt_asymm h]

theorem not_cons_le_nil {β : Type} [LinearOrder β] (a : β) (as : List β) : ¬ a :: as ≤ [] :=
  not_le.mpr (List.nil_lt_cons a as)

/-- **A dictionary is ordered as the places of its letters are.** -/
theorem dictionaryLe_iff {α β : Type} [DecidableEq α] [LinearOrder β] {place : α → β}
    (hplace : Function.Injective place) {le : α → α → Bool} (hle : ∀ a b, le a b = true ↔ place a ≤ place b)
    (as bs : List α) : dictionaryLe le as bs = true ↔ as.map place ≤ bs.map place := by
  induction as generalizing bs with
  | nil =>
    have hleast : [] ≤ bs.map place := not_lt.mp (List.not_lt_nil (bs.map place))
    simp [dictionaryLe, hleast]
  | cons a as ih =>
    cases bs with
    | nil => simp [dictionaryLe, not_cons_le_nil]
    | cons b bs =>
      unfold dictionaryLe
      rw [List.map_cons, List.map_cons, cons_le_cons_iff]
      split_ifs with hab
      · subst hab
        simpa using ih bs
      · -- different letters have different places
        have hne : place a ≠ place b := fun h => hab (hplace h)
        rw [hle, le_iff_lt_or_eq]
        simp [hne]

/-! ## 2. Components -/

/-- The place of a component: its kind, then the bytes of the name. -/
def Component.place (c : Component) : Nat ×ₗ List Nat :=
  toLex (c.rank, match c with
    | .name bytes => bytes.map UInt8.toNat
    | _ => [])

theorem toNat_injective : Function.Injective UInt8.toNat := fun _ _ => UInt8.toNat_inj.mp

theorem Component.place_injective : Function.Injective place := by
  intro a b h
  have hkind : a.rank = b.rank := congrArg (fun r => (ofLex r).1) h
  cases a <;> cases b <;> try cases hkind
  case name.name s t =>
    have hbytes : s.map UInt8.toNat = t.map UInt8.toNat := congrArg (fun r => (ofLex r).2) h
    rw [List.map_injective_iff.mpr toNat_injective hbytes]
  all_goals rfl

theorem Component.le_iff (a b : Component) : a.le b = true ↔ a.place ≤ b.place := by
  have hbytes : ∀ x y : UInt8, decide (x ≤ y) = true ↔ x.toNat ≤ y.toNat := by
    intro x y
    rw [decide_eq_true_eq, UInt8.le_iff_toNat_le]
  unfold place
  rw [Prod.Lex.toLex_le_toLex]
  cases a <;> cases b
  case name.name s t =>
    show dictionaryLe _ s t = true ↔ _
    rw [dictionaryLe_iff toNat_injective hbytes]
    simp [rank]
  all_goals simp [Component.le, rank]

/-! ## 3. Paths -/

/-- The places of the components of a path. -/
def places (p : Path) : List (Nat ×ₗ List Nat) := p.components.map Component.place

theorem places_eq_iff {p q : Path} : p.places = q.places ↔ p.components = q.components :=
  (List.map_injective_iff.mpr Component.place_injective).eq_iff

theorem le_iff (p q : Path) : p.le q = true ↔ p.places ≤ q.places :=
  dictionaryLe_iff Component.place_injective Component.le_iff p.components q.components

end SyntaxWatch.Path
