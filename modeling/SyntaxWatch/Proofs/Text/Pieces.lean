import SyntaxWatch.Text.Lines

/-!
# Pieces of what is put together

How the cut of `Text.pieces` behaves when its input is made of parts. At a separator the pieces of
both sides stand side by side (`pieces_append_sep`). Anywhere else the last piece of the front goes
on into the back (`pieces_append`), and this is what lets an input be cut while it is still coming
in.

`throughLast` is the part of an input of which no piece can grow any more: everything up to the last
separator, and that one too.
-/

set_option autoImplicit false

namespace SyntaxWatch.Text

variable {α : Type} [DecidableEq α] {sep : α}

/-! ## 1. Joining two inputs -/

theorem pieces_sep (rest : List α) : pieces sep (sep :: rest) = [] :: pieces sep rest := by
  simp [pieces]

theorem pieces_cons_of_ne {x : α} (hne : x ≠ sep) {rest first : List α} {others : List (List α)}
    (hrest : pieces sep rest = first :: others) :
    pieces sep (x :: rest) = (x :: first) :: others := by
  simp [pieces, hne, hrest]

theorem exists_pieces (sep : α) (xs : List α) : ∃ first others, pieces sep xs = first :: others := by
  cases h : pieces sep xs with
  | nil => exact absurd h (pieces_ne_nil sep xs)
  | cons first others => exact ⟨first, others, rfl⟩

/-- **A separator keeps its two sides apart.** -/
theorem pieces_append_sep (xs ys : List α) :
    pieces sep (xs ++ sep :: ys) = pieces sep xs ++ pieces sep ys := by
  induction xs with
  | nil => exact pieces_sep ys
  | cons x xs ih =>
    rw [List.cons_append]
    by_cases hx : x = sep
    · subst hx
      rw [pieces_sep, pieces_sep, ih]
      rfl
    · obtain ⟨first, others, hpieces⟩ := exists_pieces sep xs
      rw [hpieces, List.cons_append] at ih
      rw [pieces_cons_of_ne hx ih, pieces_cons_of_ne hx hpieces]
      rfl

theorem pieces_of_not_mem {xs : List α} (hfree : sep ∉ xs) : pieces sep xs = [xs] := by
  induction xs with
  | nil => rfl
  | cons x xs ih =>
    rw [List.mem_cons, not_or] at hfree
    exact pieces_cons_of_ne (Ne.symm hfree.1) (ih hfree.2)

theorem exists_last_sep {xs : List α} (hmem : sep ∈ xs) :
    ∃ front last, xs = front ++ sep :: last ∧ sep ∉ last := by
  induction xs with
  | nil => cases hmem
  | cons x xs ih =>
    by_cases hlater : sep ∈ xs
    · obtain ⟨front, last, rfl, hfree⟩ := ih hlater
      exact ⟨x :: front, last, rfl, hfree⟩
    · obtain rfl : sep = x := (List.mem_cons.mp hmem).resolve_right hlater
      exact ⟨[], xs, rfl, hlater⟩

/-- What follows the last separator is the last piece, and what comes before it are the others. -/
theorem pieces_of_last_sep {front last : List α} (hfree : sep ∉ last) :
    pieces sep (front ++ sep :: last) = pieces sep front ++ [last] := by
  rw [pieces_append_sep, pieces_of_not_mem hfree]

theorem exists_last_piece (sep : α) (xs : List α) : ∃ ended last, pieces sep xs = ended ++ [last] :=
  ⟨_, _, (List.dropLast_concat_getLast (pieces_ne_nil sep xs)).symm⟩

/-- **The last piece of the front goes on into the back.** -/
theorem pieces_append {xs last : List α} {ended : List (List α)} (hxs : pieces sep xs = ended ++ [last])
    (ys : List α) : pieces sep (xs ++ ys) = ended ++ pieces sep (last ++ ys) := by
  by_cases hmem : sep ∈ xs
  · obtain ⟨front, back, rfl, hfree⟩ := exists_last_sep hmem
    rw [pieces_of_last_sep hfree] at hxs
    obtain ⟨rfl, hlast⟩ := List.append_inj' hxs rfl
    obtain rfl : back = last := List.head_eq_of_cons_eq hlast
    rw [List.append_assoc, List.cons_append, pieces_append_sep]
  · have hxs : [] ++ [xs] = ended ++ [last] := (pieces_of_not_mem hmem).symm.trans hxs
    obtain ⟨rfl, hlast⟩ := List.append_inj' hxs rfl
    obtain rfl : xs = last := List.head_eq_of_cons_eq hlast
    rfl

/-! ## 2. Parts that are put together -/

/-- **Parts without a separator are cut where they were joined.** -/
theorem pieces_join {parts : List (List α)} (hne : parts ≠ []) (hfree : ∀ part ∈ parts, sep ∉ part) :
    pieces sep (join sep parts) = parts := by
  induction parts with
  | nil => exact absurd rfl hne
  | cons part others ih =>
    have hpart : sep ∉ part := hfree part List.mem_cons_self
    cases others with
    | nil => exact pieces_of_not_mem hpart
    | cons next others =>
      have hothers := ih (by simp) fun other hother => hfree other (List.mem_cons_of_mem _ hother)
      rw [join, pieces_append_sep, pieces_of_not_mem hpart, hothers]
      rfl

theorem mem_join {β : Type} {sep : β} {parts : List (List β)} {x : β} (hx : x ∈ join sep parts) :
    x = sep ∨ ∃ part ∈ parts, x ∈ part := by
  induction parts with
  | nil => cases hx
  | cons part others ih =>
    cases others with
    | nil => exact .inr ⟨part, List.mem_cons_self, hx⟩
    | cons next others =>
      rw [join, List.mem_append, List.mem_cons] at hx
      rcases hx with hx | hx | hx
      · exact .inr ⟨part, List.mem_cons_self, hx⟩
      · exact .inl hx
      · rcases ih hx with hsep | ⟨other, hother, hx⟩
        · exact .inl hsep
        · exact .inr ⟨other, List.mem_cons_of_mem part hother, hx⟩

/-- A separator in front of every part, instead of one between neighbours. -/
theorem flatMap_sep {β : Type} (sep : β) {parts : List (List β)} (hne : parts ≠ []) :
    (parts.flatMap fun part => sep :: part) = sep :: join sep parts := by
  induction parts with
  | nil => exact absurd rfl hne
  | cons part others ih =>
    cases others with
    | nil => simp [join]
    | cons next others => rw [List.flatMap_cons, ih (by simp), join, List.cons_append]

/-! ## 3. What has been ended -/

/-- An input up to its last separator, and that one too. -/
def throughLast (sep : α) (xs : List α) : List α := (xs.reverse.dropWhile (· ≠ sep)).reverse

theorem throughLast_append {last : List α} (hfree : sep ∉ last) (front : List α) :
    throughLast sep (front ++ last) = throughLast sep front := by
  have hlast : ∀ x ∈ last.reverse, decide (x ≠ sep) = true := by
    intro x hx
    rw [decide_eq_true_eq]
    rintro rfl
    exact hfree (List.mem_reverse.mp hx)
  unfold throughLast
  rw [List.reverse_append, List.dropWhile_append_of_pos hlast]

@[simp] theorem throughLast_snoc (xs : List α) : throughLast sep (xs ++ [sep]) = xs ++ [sep] := by
  simp [throughLast]

theorem throughLast_of_last_sep {front last : List α} (hfree : sep ∉ last) :
    throughLast sep (front ++ sep :: last) = front ++ [sep] := by
  rw [← List.singleton_append, ← List.append_assoc, throughLast_append hfree, throughLast_snoc]

theorem throughLast_of_not_mem {xs : List α} (hfree : sep ∉ xs) : throughLast sep xs = [] :=
  throughLast_append hfree []

/-- **What has been ended** consists of all pieces but the last, with nothing after them. -/
theorem pieces_throughLast (xs : List α) :
    pieces sep (throughLast sep xs) = (pieces sep xs).dropLast ++ [[]] := by
  by_cases hmem : sep ∈ xs
  · obtain ⟨front, last, rfl, hfree⟩ := exists_last_sep hmem
    rw [throughLast_of_last_sep hfree, pieces_of_last_sep hfree, pieces_append_sep,
      List.dropLast_concat]
    rfl
  · rw [throughLast_of_not_mem hmem, pieces_of_not_mem hmem]
    rfl

/-! ## 4. Lines -/

/-- The lines of a text that ends with a feed, or is empty, are its pieces but the last. -/
theorem linesOfPieces_concat_nil (ended : List (List Char)) :
    linesOfPieces (ended ++ [[]]) = ended.map dropReturn := by
  induction ended with
  | nil => rfl
  | cons line others ih =>
    obtain ⟨next, rest, hnext⟩ : ∃ next rest, others ++ [[]] = next :: rest := by
      cases others with
      | nil => exact ⟨[], [], rfl⟩
      | cons next rest => exact ⟨next, rest ++ [[]], rfl⟩
    rw [List.cons_append, hnext, linesOfPieces, ← hnext, ih]
    rfl

/-- A return that has been dropped would have been trimmed. -/
theorem trimLineEnd_dropReturn (line : List Char) : trimLineEnd (dropReturn line) = trimLineEnd line := by
  unfold dropReturn
  by_cases hreturn : line.getLast? = some '\r'
  · rw [if_pos hreturn]
    obtain ⟨front, rfl⟩ := List.getLast?_eq_some_iff.mp hreturn
    simp [trimLineEnd]
  · rw [if_neg hreturn]

end SyntaxWatch.Text
