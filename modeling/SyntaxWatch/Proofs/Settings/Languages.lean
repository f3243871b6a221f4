import Mathlib.Data.List.Sort
import Mathlib.Logic.Relation
import SyntaxWatch.Proofs.Settings.Profiles
import SyntaxWatch.Proofs.Text.Lowercase

/-!
# Languages whatever their case

A checker is run for a document whose language has the lower-case form of one of its ids. So its profile
depends on the ids only through the set of their lower-case forms (`ofEntry_eq_of_keys`), and on the language
only through that one's; the order of the ids, repetitions among them and the case they are written in make
no difference (`Restated`).

That lower-casing twice is lower-casing once, and that the case of ASCII letters never shows after it, are
laws of whole texts; they are proved where lower-casing is.
-/

set_option autoImplicit false

namespace SyntaxWatch

/-! ## 1. Keys -/

theorem toList_languageKey (id : String) : (languageKey id).toList = Text.lower id.toList :=
  String.toList_ofList

theorem lowered_languageKey (id : String) : Text.Lowered id.toList (languageKey id).toList :=
  Text.lowered_iff.mpr (toList_languageKey id).symm

theorem languageKey_eq_iff {id other : String} :
    languageKey id = languageKey other
      ↔ ∃ form, Text.Lowered id.toList form ∧ Text.Lowered other.toList form := by
  rw [← String.toList_inj, toList_languageKey, toList_languageKey]
  constructor
  · exact fun h => ⟨Text.lower other.toList, Text.lowered_iff.mpr h, Text.lowered_iff.mpr rfl⟩
  · rintro ⟨form, hid, hother⟩
    rw [Text.lowered_iff.mp hid, Text.lowered_iff.mp hother]

theorem languageKey_of_lowered {id small : String} (h : Text.Lowered id.toList small.toList) :
    languageKey small = languageKey id := by
  rw [← String.toList_inj, toList_languageKey, toList_languageKey, ← Text.lowered_iff.mp h, Text.lower_lower]

theorem languageKey_of_recased {language language' : String}
    (h : List.Forall₂ Text.Recased language.toList language'.toList) :
    languageKey language' = languageKey language := by
  rw [← String.toList_inj, toList_languageKey, toList_languageKey, Text.lower_eq_of_recased h]

/-! ## 2. Ids written otherwise -/

/-- One change of a list of ids that is none of what it stands for. -/
inductive Restated : List String → List String → Prop
  | permuted {ids ids' : List String} (h : ids.Perm ids') : Restated ids ids'
  | repeated {ids : List String} {id : String} (h : id ∈ ids) : Restated ids (id :: ids)
  | lowered {front back : List String} {id small : String} (h : Text.Lowered id.toList small.toList) :
      Restated (front ++ id :: back) (front ++ small :: back)

theorem Restated.keys {ids ids' : List String} (h : Restated ids ids') (key : String) :
    (∃ id ∈ ids, languageKey id = key) ↔ ∃ id ∈ ids', languageKey id = key := by
  cases h with
  | permuted h => simp only [h.mem_iff]
  | repeated h =>
    rw [List.exists_mem_cons_iff]
    exact ⟨.inr, fun hkey => hkey.elim (fun hid => ⟨_, h, hid⟩) id⟩
  | lowered h => simp only [List.mem_append, List.mem_cons, or_and_right, exists_or, exists_eq_left,
      languageKey_of_lowered h]

theorem keys_of_eqvGen {ids ids' : List String} (h : Relation.EqvGen Restated ids ids') (key : String) :
    (∃ id ∈ ids, languageKey id = key) ↔ ∃ id ∈ ids', languageKey id = key := by
  induction h with
  | rel _ _ h => exact h.keys key
  | refl _ => exact Iff.rfl
  | symm _ _ _ ih => exact ih.symm
  | trans _ _ _ _ _ ih ih' => exact ih.trans ih'

/-! ## 3. Profiles -/

namespace CheckerProfile

/-- A profile depends on the ids by their keys alone. -/
theorem ofEntry_eq_of_keys {entry : CheckerEntry} {ids : List String}
    (hkeys : ∀ key, (∃ id ∈ entry.languageIds, languageKey id = key) ↔ ∃ id ∈ ids, languageKey id = key) :
    ofEntry { entry with languageIds := ids } = ofEntry entry := by
  have hready := ofEntry_ready { entry with languageIds := ids }
  have hready' := ofEntry_ready entry
  have hids : (ofEntry { entry with languageIds := ids }).languageIds = (ofEntry entry).languageIds := by
    refine hready.rising.eq_of_mem_iff hready'.rising fun key => ?_
    rw [hready.languageIds, hready'.languageIds]
    exact (hkeys key).symm
  exact congrArg (CheckerProfile.mk entry.command entry.displayName (entry.arguments ++ [stdinArgument])) hids

theorem covers_congr {language language' : String} (h : languageKey language' = languageKey language)
    (profile : CheckerProfile) : profile.covers language' = profile.covers language := by
  unfold covers
  rw [h]

/-- **The case of a language makes no difference, nor does the way the ids are written.** A checker covers
the languages that have the lower-case form of one of its ids. So it covers a language just when it covers
its lower-case form, or the language with letters of ASCII in the other case. Putting the ids in another
order, repeating some and lower-casing some, and undoing any of this, leave the profile as it is. -/
theorem covers_case_stable (entry : CheckerEntry) :
    (∀ language, (ofEntry entry).covers language = true ↔
        ∃ id ∈ entry.languageIds, ∃ form,
          Text.Lowered id.toList form ∧ Text.Lowered language.toList form)
      ∧ (∀ language, Text.Lowered language.toList (languageKey language).toList
        ∧ (ofEntry entry).covers (languageKey language) = (ofEntry entry).covers language)
      ∧ (∀ language language', List.Forall₂ Text.Recased language.toList language'.toList →
        (ofEntry entry).covers language' = (ofEntry entry).covers language)
      ∧ ∀ ids, Relation.EqvGen Restated entry.languageIds ids →
        ofEntry { entry with languageIds := ids } = ofEntry entry := by
  refine ⟨fun language => ?_, fun language => ?_, fun language language' h => ?_, fun ids h => ?_⟩
  · rw [(ofEntry_ready entry).covers language]
    unfold CheckerEntry.Lists
    simp only [languageKey_eq_iff]
  · have hlowered := lowered_languageKey language
    exact ⟨hlowered, covers_congr (languageKey_of_lowered hlowered) _⟩
  · exact covers_congr (languageKey_of_recased h) _
  · exact ofEntry_eq_of_keys (keys_of_eqvGen h)

/-- Ids of which one ends in a sigma, and a language that differs from it in the case of the letter before
that sigma. -/
theorem covers_case_stable_sigma :
    List.Forall₂ Text.Recased "ΑbΣ".toList "ΑBΣ".toList
      ∧ (ofEntry ⟨"lint", "Lint", [], ["ΑbΣ", "C"]⟩).covers "ΑBΣ" = true
      ∧ Relation.EqvGen Restated ["ΑbΣ", "C"] ["c", "ΑbΣ", "ΑbΣ"]
      ∧ ofEntry ⟨"lint", "Lint", [], ["c", "ΑbΣ", "ΑbΣ"]⟩ = ofEntry ⟨"lint", "Lint", [], ["ΑbΣ", "C"]⟩ := by
  have hrecased : List.Forall₂ Text.Recased "ΑbΣ".toList "ΑBΣ".toList :=
    .cons (.inl rfl) (.cons (.inr (.inr rfl)) (.cons (.inl rfl) .nil))
  have hsmall : Restated (["ΑbΣ", "ΑbΣ"] ++ "C" :: []) (["ΑbΣ", "ΑbΣ"] ++ "c" :: []) :=
    .lowered (Text.lowered_iff.mpr (by decide))
  have hrestated : Relation.EqvGen Restated ["ΑbΣ", "C"] ["c", "ΑbΣ", "ΑbΣ"] :=
    .trans _ _ _ (.rel _ _ (.repeated List.mem_cons_self))
      (.trans _ _ _ (.rel _ _ hsmall) (.rel _ _ (.permuted (by decide))))
  obtain ⟨hcovers, -, hlanguages, hids⟩ := covers_case_stable ⟨"lint", "Lint", [], ["ΑbΣ", "C"]⟩
  refine ⟨hrecased, ?_, hrestated, hids _ hrestated⟩
  rw [hlanguages _ _ hrecased, hcovers]
  exact ⟨"ΑbΣ", List.mem_cons_self, Text.lower "ΑbΣ".toList, Text.lowered_iff.mpr rfl, Text.lowered_iff.mpr rfl⟩

end CheckerProfile

end SyntaxWatch
