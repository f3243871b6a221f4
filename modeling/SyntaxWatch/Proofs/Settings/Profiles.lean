import Mathlib.Data.List.DropRight
import Mathlib.Data.List.Forall2
import Mathlib.Data.String.Basic
import SyntaxWatch.Settings

/-!
# Entries made ready

A profile is an entry of the settings, made ready once. What that comes to is said here without the
way it is done: `ReadyFrom` compares the two fields by fields, and the language ids as sets, since the
order and the repetitions of an entry make no difference to its profile.

Which entries are made ready at all is decided by one character of their commands (`HasCommand`).
-/

set_option autoImplicit false

namespace SyntaxWatch

/-! ## 1. Texts in rising order -/

section SortedOnce

variable {x y : String} {xs : List String}

theorem mem_insertOnce : y ∈ insertOnce x xs ↔ y = x ∨ y ∈ xs := by
  induction xs with
  | nil => simp [insertOnce]
  | cons z zs ih =>
    unfold insertOnce
    split_ifs with hsame hless
    · subst hsame
      simp
    · exact List.mem_cons
    · rw [List.mem_cons, ih, List.mem_cons]
      exact or_left_comm

/-- A rising list stays so. -/
theorem insertOnce_rising (hrising : xs.Pairwise (· < ·)) : (insertOnce x xs).Pairwise (· < ·) := by
  induction xs with
  | nil => exact List.pairwise_singleton _ x
  | cons z zs ih =>
    obtain ⟨hfirst, hrest⟩ := List.pairwise_cons.mp hrising
    unfold insertOnce
    split_ifs with hsame hless
    · exact hrising
    · refine List.pairwise_cons.mpr ⟨fun y hy => ?_, hrising⟩
      rcases List.mem_cons.mp hy with rfl | hy
      · exact hless
      · exact String.lt_trans hless (hfirst y hy)
    · have hmore : z < x := ((lt_trichotomy x z).resolve_left hless).resolve_left hsame
      refine List.pairwise_cons.mpr ⟨fun y hy => ?_, ih hrest⟩
      rcases mem_insertOnce.mp hy with rfl | hy
      · exact hmore
      · exact hfirst y hy

theorem mem_sortedOnce : y ∈ sortedOnce xs ↔ y ∈ xs := by
  induction xs with
  | nil => exact Iff.rfl
  | cons x xs ih =>
    show y ∈ insertOnce x (sortedOnce xs) ↔ y ∈ x :: xs
    rw [mem_insertOnce, ih, List.mem_cons]

theorem sortedOnce_rising (xs : List String) : (sortedOnce xs).Pairwise (· < ·) := by
  induction xs with
  | nil => exact .nil
  | cons x xs ih => exact insertOnce_rising ih

end SortedOnce

/-! ## 2. One entry -/

theorem Text.trimBlanks_eq_nil_iff {text : List Char} :
    Text.trimBlanks text = [] ↔ ∀ c ∈ text, Text.isBlank c = true := by
  have htrim : Text.trimBlanks text = (text.dropWhile Text.isBlank).rdropWhile Text.isBlank := rfl
  rw [htrim, List.rdropWhile_eq_nil_iff]
  constructor
  · intro hrest c hc
    rw [← List.takeWhile_append_dropWhile (p := Text.isBlank) (l := text)] at hc
    rcases List.mem_append.mp hc with hfront | hback
    · exact List.mem_takeWhile_imp hfront
    · exact hrest c hback
  · intro hall c hc
    exact hall c (List.dropWhile_subset _ hc)

namespace CheckerEntry

/-- Something is left of the command without the white space at its ends. -/
def HasCommand (entry : CheckerEntry) : Prop := ∃ c ∈ entry.command.toList, Text.isBlank c = false

/-- The entry has an id that lower-cases as the language does. -/
def Lists (entry : CheckerEntry) (language : String) : Prop :=
  ∃ id ∈ entry.languageIds, languageKey id = languageKey language

instance decidableHasCommand (entry : CheckerEntry) : Decidable entry.HasCommand :=
  inferInstanceAs (Decidable (∃ c ∈ entry.command.toList, _))

instance decidableLists (entry : CheckerEntry) (language : String) : Decidable (entry.Lists language) :=
  inferInstanceAs (Decidable (∃ id ∈ entry.languageIds, _))

theorem runnable_iff (entry : CheckerEntry) : Settings.runnable entry = true ↔ entry.HasCommand := by
  unfold Settings.runnable HasCommand
  rw [Bool.not_eq_true', List.isEmpty_eq_false_iff, Ne, Text.trimBlanks_eq_nil_iff]
  simp

end CheckerEntry

/-- The profile is what becomes of the entry. -/
structure CheckerProfile.ReadyFrom (entry : CheckerEntry) (profile : CheckerProfile) : Prop where
  command : profile.command = entry.command
  displayName : profile.displayName = entry.displayName
  arguments : profile.arguments = entry.arguments ++ ["-"]
  /-- The language ids are in rising order, so each of them is there once, … -/
  rising : profile.languageIds.Pairwise (· < ·)
  /-- … and they are those of the entry, lower-cased. -/
  languageIds : ∀ key, key ∈ profile.languageIds ↔ ∃ id ∈ entry.languageIds, languageKey id = key
  covers : ∀ language, profile.covers language = true ↔ entry.Lists language

theorem CheckerProfile.ofEntry_ready (entry : CheckerEntry) : ReadyFrom entry (ofEntry entry) := by
  have hids :
      ∀ key, key ∈ (ofEntry entry).languageIds ↔ ∃ id ∈ entry.languageIds, languageKey id = key := by
    intro key
    show key ∈ sortedOnce (entry.languageIds.map languageKey) ↔ _
    rw [mem_sortedOnce, List.mem_map]
  refine ⟨rfl, rfl, rfl, sortedOnce_rising _, hids, fun language => ?_⟩
  unfold covers
  rw [List.contains_iff_mem]
  exact hids (languageKey language)

/-! ## 3. All entries -/

namespace Settings

/-- The entries that are run. -/
def entries (s : Settings) : List CheckerEntry := s.checkers.filter fun entry => entry.HasCommand

theorem profiles_eq (s : Settings) : s.profiles = s.entries.map CheckerProfile.ofEntry := by
  have hsame : s.checkers.filter runnable = s.entries := by
    refine List.filter_congr fun entry _ => ?_
    rw [Bool.eq_iff_iff, CheckerEntry.runnable_iff, decide_eq_true_eq]
  unfold profiles
  rw [hsame]

/-- **Each entry with a command becomes one profile**, in the order of the entries, whatever their
names are. -/
theorem profiles_ready (s : Settings) : List.Forall₂ CheckerProfile.ReadyFrom s.entries s.profiles := by
  rw [profiles_eq, List.forall₂_map_right_iff]
  exact List.forall₂_same.mpr fun entry _ => CheckerProfile.ofEntry_ready entry

/-- As many profiles cover a language as entries list it. -/
theorem countP_profiles (s : Settings) (language : String) :
    s.profiles.countP (fun profile => profile.covers language)
      = s.entries.countP fun entry => entry.Lists language := by
  rw [profiles_eq, List.countP_map]
  refine List.countP_congr fun entry _ => ?_
  rw [decide_eq_true_eq]
  exact (CheckerProfile.ofEntry_ready entry).covers language

end Settings

end SyntaxWatch
