import Mathlib.Data.List.Basic
import Mathlib.Logic.Function.Iterate
import SyntaxWatch.Engine
import SyntaxWatch.Proofs.Checker.Bench

/-!
# What reaches a checker inside an engine

Everything that an engine does to its checkers goes through two doors: an input is delivered to one
of them, or one of them is ended. `Engine.hear` is both, for a `Happening`. It moves one checker as
`Checker.meet` says and leaves every other one as it is, and carrying out the effects touches no
checker at all. Neither door changes the roll or the settings (`SameOffice`).
-/

set_option autoImplicit false

namespace SyntaxWatch

/-! ## 1. One entry of a list -/

section Modify

variable {α : Type} {l : List α} {i : Nat} {a : α}

theorem set_eq_modify (hget : l[i]? = some a) (f : α → α) : l.set i (f a) = l.modify i f := by
  apply List.ext_getElem?
  intro j
  by_cases hij : i = j
  · subst hij
    obtain ⟨hlt, _⟩ := List.getElem?_eq_some_iff.mp hget
    rw [List.getElem?_modify_eq, hget, List.getElem?_set_self hlt]
    rfl
  · rw [List.getElem?_modify_ne _ _ hij, List.getElem?_set_ne hij]

theorem modify_congr (hget : l[i]? = some a) {f g : α → α} (hfg : f a = g a) :
    l.modify i f = l.modify i g := by
  rw [← set_eq_modify hget f, ← set_eq_modify hget g, hfg]

end Modify

namespace Engine

/-! ## 2. Effects -/

theorem carryOut_checkers (e : Engine) (i : Nat) (c : Checker) (effect : Effect) :
    (e.carryOut i c effect).1.checkers = e.checkers := by
  cases effect <;> rfl

theorem carryOutAll_checkers (e : Engine) (i : Nat) (c : Checker) (effects : List Effect) :
    (e.carryOutAll i c effects).1.checkers = e.checkers := by
  induction effects generalizing e with
  | nil => rfl
  | cons effect others ih => exact (ih (e.carryOut i c effect).1).trans (carryOut_checkers e i c effect)

/-- The second engine is the first one, with the same roll and the same settings. -/
structure SameOffice (e f : Engine) : Prop where
  root : f.root = e.root
  delay : f.delay = e.delay
  enrolled : f.enrolled = e.enrolled
  length : f.checkers.length = e.checkers.length
  feedCapacity : f.feedCapacity = e.feedCapacity

theorem SameOffice.refl (e : Engine) : SameOffice e e := ⟨rfl, rfl, rfl, rfl, rfl⟩

theorem SameOffice.trans {e f g : Engine} (hef : SameOffice e f) (hfg : SameOffice f g) : SameOffice e g :=
  ⟨hfg.root.trans hef.root, hfg.delay.trans hef.delay, hfg.enrolled.trans hef.enrolled,
    hfg.length.trans hef.length, hfg.feedCapacity.trans hef.feedCapacity⟩

theorem carryOutAll_office (e : Engine) (i : Nat) (c : Checker) (effects : List Effect) :
    SameOffice e (e.carryOutAll i c effects).1 := by
  induction effects generalizing e with
  | nil => exact .refl e
  | cons effect others ih =>
    refine SameOffice.trans ?_ (ih (e.carryOut i c effect).1)
    cases effect <;> exact ⟨rfl, rfl, rfl, rfl, rfl⟩

/-! ## 3. Inputs -/

theorem deliver_checkers (e : Engine) (i : Nat) (input : Input) :
    (e.deliver i input).1.checkers = e.checkers.modify i fun c => (c.step input).1 := by
  unfold deliver
  cases hc : e.checkers[i]? with
  | none =>
    rw [List.modify_eq_self (List.getElem?_eq_none_iff.mp hc)]
  | some c =>
    show (Engine.carryOutAll _ i _ _).1.checkers = _
    rw [carryOutAll_checkers]
    exact set_eq_modify hc fun c => (c.step input).1

theorem deliver_office (e : Engine) (i : Nat) (input : Input) : SameOffice e (e.deliver i input).1 := by
  unfold deliver
  cases e.checkers[i]? with
  | none => exact .refl e
  | some c =>
    have hset : SameOffice e { e with checkers := e.checkers.set i (c.step input).1 } :=
      ⟨rfl, rfl, rfl, List.length_set, rfl⟩
    exact hset.trans (carryOutAll_office _ i _ _)

/-- **An ended checker hears nothing.** Whatever is delivered to it, the engine stays as it is and
asks for nothing. -/
theorem deliver_of_disposed {e : Engine} {i : Nat} {c : Checker} (hc : e.checkers[i]? = some c)
    (hended : c.isDisposed = true) (input : Input) : e.deliver i input = (e, []) := by
  have hstep : c.step input = (c, []) := by
    unfold Checker.step
    rw [if_pos hended]
  obtain ⟨hlt, hget⟩ := List.getElem?_eq_some_iff.mp hc
  have hset : e.checkers.set i c = e.checkers := by
    rw [← hget]
    exact List.set_getElem_self hlt
  unfold deliver
  rw [hc]
  simp only [hstep, hset]
  rfl

/-! ## 4. Happenings -/

/-- One happening for the checker with a number. -/
def hear (e : Engine) (i : Nat) (h : Happening) : Engine :=
  match h.input? ((e.checkers[i]?.map Checker.name).getD "") with
  | some input => (e.deliver i input).1
  | none => e.disposeOne i

/-- **A happening moves one checker**, as it would move on a bench. -/
theorem hear_checkers (e : Engine) (i : Nat) (h : Happening) :
    (e.hear i h).checkers = e.checkers.modify i fun c => (c.meet h).1 := by
  cases hc : e.checkers[i]? with
  | none =>
    have hnobody : ∀ f : Checker → Checker, e.checkers.modify i f = e.checkers := fun f =>
      List.modify_eq_self (List.getElem?_eq_none_iff.mp hc)
    unfold hear
    split
    · rw [deliver_checkers, hnobody, hnobody]
    · exact (hnobody _).trans (hnobody _).symm
  | some c =>
    unfold hear
    rw [hc]
    show (match h.input? c.name with
      | some input => (e.deliver i input).1
      | none => e.disposeOne i).checkers = _
    cases hinput : h.input? c.name with
    | some input =>
      show (e.deliver i input).1.checkers = _
      rw [deliver_checkers]
      refine modify_congr hc ?_
      unfold Checker.meet
      rw [hinput]
    | none =>
      refine modify_congr hc ?_
      unfold Checker.meet
      rw [hinput]

theorem hear_office (e : Engine) (i : Nat) (h : Happening) : SameOffice e (e.hear i h) := by
  unfold hear
  split
  · exact deliver_office e i _
  · exact ⟨rfl, rfl, rfl, List.length_modify _ _ _, rfl⟩

/-- To be asked for a document is to hear of it, or nothing at all. -/
theorem triggerOne_eq (e : Engine) (document : DocumentRef) (i : Nat) :
    e.triggerOne document i = e ∨ e.triggerOne document i = e.hear i (.trigger document) := by
  unfold triggerOne
  cases e.checkers[i]? with
  | none => exact .inl rfl
  | some c =>
    show (if _ then _ else _) = _ ∨ (if _ then _ else _) = _
    split
    · exact .inr rfl
    · exact .inl rfl

/-! ## 5. Many ends -/

section Ends

variable {is : List Nat} {i : Nat}

theorem foldl_disposeOne_checkers (is : List Nat) (e : Engine) (i : Nat) :
    (is.foldl disposeOne e).checkers[i]? = e.checkers[i]?.map (Checker.dispose^[is.count i]) := by
  induction is generalizing e with
  | nil => simp
  | cons j is ih =>
    rw [List.foldl_cons, ih]
    show (e.checkers.modify j Checker.dispose)[i]?.map _ = _
    by_cases hji : j = i
    · subst hji
      rw [List.getElem?_modify_eq, List.count_cons_self, Option.map_eq_map, Option.map_map]
      rfl
    · rw [List.getElem?_modify_ne _ _ hji, List.count_cons_of_ne hji]

/-- Whoever is told to end has ended. -/
theorem foldl_disposeOne_of_mem (hi : i ∈ is) {e : Engine} {c : Checker}
    (hc : (is.foldl disposeOne e).checkers[i]? = some c) : ∃ b : Checker, b.dispose = c := by
  rw [foldl_disposeOne_checkers] at hc
  obtain ⟨b, _, rfl⟩ := Option.map_eq_some_iff.mp hc
  obtain ⟨n, hn⟩ := Nat.exists_eq_succ_of_ne_zero (Nat.ne_of_gt (List.count_pos_iff.mpr hi))
  refine ⟨Checker.dispose^[n] b, ?_⟩
  rw [hn, Function.iterate_succ_apply']

theorem foldl_disposeOne_of_not_mem (hi : i ∉ is) (e : Engine) :
    (is.foldl disposeOne e).checkers[i]? = e.checkers[i]? := by
  rw [foldl_disposeOne_checkers, List.count_eq_zero.mpr hi, Function.iterate_zero, Option.map_id, id]

theorem foldl_disposeOne_office (is : List Nat) (e : Engine) : SameOffice e (is.foldl disposeOne e) :=
  List.foldlRecOn is disposeOne (SameOffice.refl e) fun _ he i _ => he.trans (hear_office _ i .disposal)

end Ends

end Engine

end SyntaxWatch
