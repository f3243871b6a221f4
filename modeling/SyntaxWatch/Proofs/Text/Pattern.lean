import Mathlib.Data.List.Basic

/-!
# Patterns, and the match that is preferred

A pattern may fit the front of a text in several ways. `Pattern.lengths` lists them all in the order in
which they are preferred: the first of two forms before the second, an optional part before its absence,
one more character of a run before its end. The match that counts is the first of that list
(`Pattern.match?`), and it need not be the longest one.

This is the meaning of a pattern and not a way to find its match: whoever reads a text reads it without
going back. What makes that possible is said in section 2, where a run must end at the first character
that it does not take, because what follows it begins with no character that it would take
(`lengths_many_andThen`).
-/

set_option autoImplicit false

namespace SyntaxWatch.Text

/-! ## 1. What a pattern means -/

/-- A form that the front of a text may have. -/
inductive Pattern where
  /-- one character of a class -/
  | one (holds : Char → Bool)
  /-- any number of characters of a class -/
  | many (holds : Char → Bool)
  | optional (p : Pattern)
  | andThen (p q : Pattern)
  | orElse (p q : Pattern)

namespace Pattern

/-- That character and no other. -/
def only (c : Char) : Pattern := .one fun d => d == c

/-- The lengths that a run of a class can have: one more character is tried before the run is ended. -/
def runLengths (holds : Char → Bool) : List Char → List Nat
  | [] => [0]
  | c :: rest => if holds c then (runLengths holds rest).map (· + 1) ++ [0] else [0]

/-- The lengths of all matches at the front of a text, the preferred ones first. -/
def lengths : Pattern → List Char → List Nat
  | one _, [] => []
  | one holds, c :: _ => if holds c then [1] else []
  | many holds, text => runLengths holds text
  | optional p, text => p.lengths text ++ [0]
  | andThen p q, text => (p.lengths text).flatMap fun n => (q.lengths (text.drop n)).map (n + ·)
  | orElse p q, text => p.lengths text ++ q.lengths text

/-- The length of the match at the front of a text, if there is one. -/
def match? (p : Pattern) (text : List Char) : Option Nat := (p.lengths text).head?

theorem le_of_mem_runLengths {holds : Char → Bool} {text : List Char} {n : Nat}
    (h : n ∈ runLengths holds text) : n ≤ text.length := by
  induction text generalizing n with
  | nil => simpa [runLengths] using h
  | cons c rest ih =>
    unfold runLengths at h
    split at h
    · rcases List.mem_append.mp h with h | h
      · obtain ⟨m, hm, rfl⟩ := List.mem_map.mp h
        exact Nat.succ_le_succ (ih hm)
      · rw [List.mem_singleton.mp h]
        exact Nat.zero_le _
    · rw [List.mem_singleton.mp h]
      exact Nat.zero_le _

/-- A match lies within the text. -/
theorem le_of_mem_lengths {p : Pattern} {text : List Char} {n : Nat} (h : n ∈ p.lengths text) :
    n ≤ text.length := by
  induction p generalizing text n with
  | one holds =>
    cases text with
    | nil => cases h
    | cons c rest =>
      unfold lengths at h
      split at h
      · rw [List.mem_singleton.mp h]
        simp
      · cases h
  | many holds => exact le_of_mem_runLengths h
  | optional p ih =>
    rcases List.mem_append.mp h with h | h
    · exact ih h
    · rw [List.mem_singleton.mp h]
      exact Nat.zero_le _
  | andThen p q ihp ihq =>
    obtain ⟨m, hm, h⟩ := List.mem_flatMap.mp h
    obtain ⟨k, hk, rfl⟩ := List.mem_map.mp h
    have hfront : m ≤ text.length := ihp hm
    have hback : k ≤ (text.drop m).length := ihq hk
    rw [List.length_drop] at hback
    omega
  | orElse p q ihp ihq =>
    rcases List.mem_append.mp h with h | h
    · exact ihp h
    · exact ihq h

theorem le_of_match? {p : Pattern} {text : List Char} {n : Nat} (h : p.match? text = some n) :
    n ≤ text.length :=
  le_of_mem_lengths (List.mem_of_head? h)

/-! ## 2. Reading without going back -/

variable {holds : Char → Bool} {p q : Pattern}

theorem match?_orElse (p q : Pattern) (text : List Char) :
    (orElse p q).match? text = (p.match? text).or (q.match? text) := by
  simp [match?, lengths, List.head?_append]

/-- A run that nothing follows takes all it can. -/
theorem match?_many (holds : Char → Bool) (text : List Char) :
    (many holds).match? text = some (text.takeWhile holds).length := by
  show (runLengths holds text).head? = _
  induction text with
  | nil => rfl
  | cons c rest ih =>
    unfold runLengths
    by_cases hc : holds c
    · simp [hc, List.head?_append, ih]
    · simp [hc]

theorem lengths_one_andThen {c : Char} (hc : holds c = true) (q : Pattern) (rest : List Char) :
    (andThen (one holds) q).lengths (c :: rest) = (q.lengths rest).map (1 + ·) := by
  simp [lengths, hc]

theorem lengths_one_andThen_of_not {c : Char} (hc : holds c = false) (q : Pattern) (rest : List Char) :
    (andThen (one holds) q).lengths (c :: rest) = [] := by
  simp [lengths, hc]

theorem lengths_only_andThen (c : Char) (q : Pattern) (rest : List Char) :
    (andThen (only c) q).lengths (c :: rest) = (q.lengths rest).map (1 + ·) := by
  unfold only
  exact lengths_one_andThen (by simp) q rest

theorem lengths_only_andThen_of_ne {c d : Char} (hne : d ≠ c) (q : Pattern) (rest : List Char) :
    (andThen (only c) q).lengths (d :: rest) = [] := by
  unfold only
  exact lengths_one_andThen_of_not (by simp [hne]) q rest

/-- **A run ends in one place only**, when what comes behind it begins with none of its characters. -/
theorem lengths_many_andThen (hq : ∀ c rest, holds c = true → q.lengths (c :: rest) = [])
    (text : List Char) :
    (andThen (many holds) q).lengths text
      = (q.lengths (text.dropWhile holds)).map ((text.takeWhile holds).length + ·) := by
  show ((runLengths holds text).flatMap fun n => (q.lengths (text.drop n)).map (n + ·)) = _
  induction text with
  | nil => simp [runLengths]
  | cons c rest ih =>
    unfold runLengths
    by_cases hc : holds c = true
    · -- stopping before `c` leads nowhere, and all other ways take it
      rw [if_pos hc, List.flatMap_append, List.flatMap_map]
      simp only [List.flatMap_singleton, List.drop_zero, hq c rest hc, List.map_nil, List.append_nil,
        List.drop_succ_cons, List.takeWhile_cons_of_pos hc, List.dropWhile_cons_of_pos hc,
        List.length_cons]
      have hshift : ∀ n, (q.lengths (rest.drop n)).map (n + 1 + ·)
          = ((q.lengths (rest.drop n)).map (n + ·)).map (· + 1) := by
        intro n
        rw [List.map_map]
        apply List.map_congr_left
        intro k _
        simp [Nat.add_right_comm]
      simp only [hshift]
      rw [← List.map_flatMap, ih, List.map_map]
      apply List.map_congr_left
      intro k _
      simp [Nat.add_right_comm]
    · simp [hc]

end Pattern

end SyntaxWatch.Text
