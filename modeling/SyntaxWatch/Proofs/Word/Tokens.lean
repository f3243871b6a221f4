import Mathlib.Data.List.Basic
import SyntaxWatch.Proofs.Text.Pattern
import SyntaxWatch.Word

/-!
# The words of a line, from the left

A word is what a pattern finds (`Word.pattern`): a number with a decimal point, or else a run of plain
characters. `Word.lengthAt` reads it at one place without going back, and finds the match that the
pattern prefers there (`match?_pattern`).

`Scan` says how the words of a line follow each other: each begins at the first place behind the one
before at which the pattern fits at all. The words of a line are scanned so (`scan_wordsOf`), and whatever
holds of them is derived from that alone, not from the way they are cut off: they lie inside the line and
apart from each other, and no plain character is passed over.
-/

set_option autoImplicit false

namespace SyntaxWatch.Word

open Text (Pattern)

/-! ## 1. The two forms -/

/-- A run of digits, a point, a digit, and word characters. -/
def fraction : Pattern :=
  .andThen (.many Text.isDigit)
    (.andThen (.only '.') (.andThen (.one Text.isDigit) (.many Text.isWordChar)))

def number : Pattern := .andThen (.optional (.only '-')) fraction

/-- One plain character and more of them. -/
def run : Pattern := .andThen (.one isPlain) (.many isPlain)

/-- What a word looks like. -/
def pattern : Pattern := .orElse number run

theorem ne_point_of_isDigit {c : Char} (hc : Text.isDigit c = true) : c ≠ '.' := by
  rintro rfl
  exact absurd hc (by decide)

/-- Digits, and what must follow them. -/
theorem lengths_fraction (text : List Char) :
    fraction.lengths text
      = ((Pattern.andThen (.only '.') (.andThen (.one Text.isDigit) (.many Text.isWordChar))).lengths
          (text.dropWhile Text.isDigit)).map ((text.takeWhile Text.isDigit).length + ·) :=
  Pattern.lengths_many_andThen
    (fun _ rest hc => Pattern.lengths_only_andThen_of_ne (ne_point_of_isDigit hc) _ rest) text

theorem match?_fraction (text : List Char) : fraction.match? text = fractionLength? text := by
  unfold Pattern.match? fractionLength?
  rw [lengths_fraction, List.head?_map]
  split
  · next d more hrest =>
    rw [hrest, Pattern.lengths_only_andThen]
    by_cases hd : Text.isDigit d = true
    · have hmore := Pattern.match?_many Text.isWordChar more
      unfold Pattern.match? at hmore
      rw [Pattern.lengths_one_andThen hd, List.map_map, List.head?_map, hmore]
      simp [hd]
      omega
    · rw [Bool.not_eq_true] at hd
      rw [Pattern.lengths_one_andThen_of_not hd]
      simp [hd]
  · next hno =>
    cases hrest : text.dropWhile Text.isDigit with
    | nil => simp [Pattern.lengths]
    | cons c rest =>
      by_cases hc : c = '.'
      · -- a point with nothing behind it
        subst hc
        cases rest with
        | nil => rfl
        | cons d more => exact absurd hrest (hno d more)
      · rw [Pattern.lengths_only_andThen_of_ne hc]
        rfl

/-- A minus is no digit and no point, so it begins no fraction. -/
theorem lengths_fraction_minus (rest : List Char) : fraction.lengths ('-' :: rest) = [] := by
  have hminus : Text.isDigit '-' = false := by decide
  rw [lengths_fraction, List.dropWhile_cons_of_neg (Bool.eq_false_iff.mp hminus),
    Pattern.lengths_only_andThen_of_ne (by decide)]
  rfl

theorem match?_number (text : List Char) : number.match? text = numberLength? text := by
  unfold Pattern.match? numberLength? number
  split
  · next rest =>
    rw [← match?_fraction]
    simp [Pattern.lengths, Pattern.only, Pattern.match?, lengths_fraction_minus, List.head?_map,
      Nat.add_comm]
  · next hno =>
    rw [← match?_fraction]
    cases text with
    | nil => rfl
    | cons c rest =>
      have hc : c ≠ '-' := by
        rintro rfl
        exact hno rest rfl
      simp [Pattern.lengths, Pattern.only, Pattern.match?, hc]

theorem match?_run (text : List Char) :
    run.match? text = if runLength text = 0 then none else some (runLength text) := by
  unfold run Pattern.match? runLength
  cases text with
  | nil => rfl
  | cons c rest =>
    by_cases hc : isPlain c = true
    · have hmore := Pattern.match?_many isPlain rest
      unfold Pattern.match? at hmore
      rw [Pattern.lengths_one_andThen hc, List.head?_map, hmore]
      simp [hc, Nat.add_comm]
    · rw [Bool.not_eq_true] at hc
      rw [Pattern.lengths_one_andThen_of_not hc]
      simp [hc]

theorem fractionLength?_pos {text : List Char} {n : Nat} (h : fractionLength? text = some n) : 0 < n := by
  unfold fractionLength? at h
  split at h
  · split at h
    · cases h
      omega
    · cases h
  · cases h

theorem numberLength?_pos {text : List Char} {n : Nat} (h : numberLength? text = some n) : 0 < n := by
  unfold numberLength? at h
  split at h
  · obtain ⟨m, _, rfl⟩ := Option.map_eq_some_iff.mp h
    exact Nat.succ_pos m
  · exact fractionLength?_pos h

/-- **The word at the front** is the match that the pattern prefers. -/
theorem match?_pattern (text : List Char) :
    pattern.match? text = if lengthAt text = 0 then none else some (lengthAt text) := by
  unfold pattern lengthAt
  rw [Pattern.match?_orElse, match?_number, match?_run]
  cases hnumber : numberLength? text with
  | none => simp
  | some n =>
    have hn : n ≠ 0 := Nat.ne_of_gt (numberLength?_pos hnumber)
    simp [hn]

theorem match?_pattern_pos {text : List Char} {n : Nat} (h : pattern.match? text = some n) : 0 < n := by
  rw [match?_pattern] at h
  split at h
  · cases h
  · next hne =>
    cases h
    exact Nat.pos_of_ne_zero hne

/-- Where a plain character stands, a word can begin. -/
theorem match?_pattern_of_isPlain {c : Char} (hc : isPlain c = true) (rest : List Char) :
    pattern.match? (c :: rest) ≠ none := by
  intro hnone
  unfold pattern at hnone
  rw [Pattern.match?_orElse, Option.or_eq_none_iff, match?_run] at hnone
  simp [runLength, hc] at hnone

/-! ## 2. One word after the other -/

/-- The words of a line from a column on: each begins at the first place where the pattern fits, and the
next one is sought where it ends. -/
inductive Scan (line : List Char) : Nat → List Word → Prop
  | done {column : Nat} (hnone : ∀ place, column ≤ place → pattern.match? (line.drop place) = none) :
      Scan line column []
  | next {column start n : Nat} {words : List Word} (hle : column ≤ start)
      (hnone : ∀ place, column ≤ place → place < start → pattern.match? (line.drop place) = none)
      (hhere : pattern.match? (line.drop start) = some n) (hrest : Scan line (start + n) words) :
      Scan line column (⟨start, start + n⟩ :: words)

namespace Scan

variable {line : List Char} {column : Nat} {words : List Word}

/-- A place where no word begins is passed over. -/
theorem skip (hhere : pattern.match? (line.drop column) = none) (h : Scan line (column + 1) words) :
    Scan line column words := by
  have hpass : ∀ place, column ≤ place → (column + 1 ≤ place → pattern.match? (line.drop place) = none) →
      pattern.match? (line.drop place) = none := by
    intro place hle hlater
    rcases Nat.eq_or_lt_of_le hle with rfl | hlt
    · exact hhere
    · exact hlater hlt
  cases h with
  | done hnone => exact .done fun place hle => hpass place hle (hnone place)
  | next hle hnone hword hrest =>
    refine .next (Nat.le_of_succ_le hle) ?_ hword hrest
    intro place hplace hlt
    exact hpass place hplace fun hlater => hnone place hlater hlt

/-- **A line has one scan only.** -/
theorem unique (h : Scan line column words) {others : List Word} (h' : Scan line column others) :
    words = others := by
  induction h generalizing others with
  | done hnone =>
    cases h' with
    | done _ => rfl
    | next hle _ hhere _ =>
      rw [hnone _ hle] at hhere
      cases hhere
  | @next column start n words hle hnone hhere hrest ih =>
    cases h' with
    | done hnone' =>
      rw [hnone' _ hle] at hhere
      cases hhere
    | @next _ start' n' _ hle' hnone' hhere' hrest' =>
      -- the pattern fits where either begins, so neither scan can have passed over that place
      have hstart : start = start' := by
        apply Nat.le_antisymm
        · apply Nat.le_of_not_lt
          intro hlt
          rw [hnone _ hle' hlt] at hhere'
          cases hhere'
        · apply Nat.le_of_not_lt
          intro hlt
          rw [hnone' _ hle hlt] at hhere
          cases hhere
      subst hstart
      obtain rfl : n = n' := Option.some.inj (hhere.symm.trans hhere')
      rw [ih hrest']

theorem inside (h : Scan line column words) {w : Word} (hw : w ∈ words) :
    column ≤ w.start ∧ w.start < w.stop ∧ w.stop ≤ line.length := by
  induction h with
  | done _ => cases hw
  | @next column start n words hle _ hhere _ ih =>
    have hpos : 0 < n := match?_pattern_pos hhere
    rcases List.mem_cons.mp hw with rfl | hw
    · have hfits : n ≤ (line.drop start).length := Pattern.le_of_match? hhere
      rw [List.length_drop] at hfits
      refine ⟨hle, ?_, ?_⟩
      · show start < start + n
        omega
      · show start + n ≤ line.length
        omega
    · obtain ⟨hafter, hrest⟩ := ih hw
      exact ⟨by omega, hrest⟩

/-- Each word ends before the next one begins, or right there. -/
theorem apart (h : Scan line column words) : words.Pairwise fun v w => v.stop ≤ w.start := by
  induction h with
  | done _ => exact .nil
  | next _ _ _ hrest ih => exact .cons (fun w hw => (hrest.inside hw).1) ih

/-- No place where a word could begin is left out. -/
theorem covered (h : Scan line column words) {place : Nat} (hplace : column ≤ place)
    (hfits : pattern.match? (line.drop place) ≠ none) : ∃ w ∈ words, w.start ≤ place ∧ place < w.stop := by
  induction h with
  | done hnone => exact absurd (hnone place hplace) hfits
  | @next column start n words _ hnone _ _ ih =>
    by_cases hbefore : place < start
    · exact absurd (hnone place hplace hbefore) hfits
    by_cases hin : place < start + n
    · exact ⟨_, List.mem_cons_self, Nat.le_of_not_lt hbefore, hin⟩
    · obtain ⟨w, hw, hcovers⟩ := ih (Nat.le_of_not_lt hin)
      exact ⟨w, List.mem_cons_of_mem _ hw, hcovers⟩

end Scan

theorem scan_wordsFrom (line : List Char) (column : Nat) (text : List Char)
    (htext : line.drop column = text) : Scan line column (wordsFrom column text) := by
  induction column, text using wordsFrom.induct with
  | case1 column =>
    unfold wordsFrom
    refine .done ?_
    intro place hle
    have hnil : line.drop place = [] := by
      rw [List.drop_eq_nil_iff] at htext ⊢
      omega
    rw [hnil]
    rfl
  | case2 column c rest hlength ih =>
    -- no word begins here
    have hrest : line.drop (column + 1) = rest := by
      rw [← List.drop_drop, htext]
      rfl
    rw [wordsFrom, hlength]
    refine Scan.skip ?_ (ih hrest)
    rw [htext, match?_pattern, if_pos hlength]
  | case3 column c rest n hlength ih =>
    -- the next word is sought where this one ends
    have hrest : line.drop (column + (n + 1)) = rest.drop n := by
      rw [← List.drop_drop, htext]
      rfl
    rw [wordsFrom, hlength]
    refine .next (Nat.le_refl column) ?_ ?_ (ih hrest)
    · intro place hle hlt
      omega
    · rw [htext, match?_pattern, hlength]
      rfl

/-- **The words of a line are its scan.** -/
theorem scan_wordsOf (line : List Char) : Scan line 0 (wordsOf line) :=
  scan_wordsFrom line 0 line rfl

end SyntaxWatch.Word
