/-!
# Splitting at a separator

A text, a path and a stream of bytes are all cut at one symbol: the line feed, the slash, the byte
`0x0A`. `pieces` is that cut. It never drops anything: there is one more piece than there are
separators, and putting the separator back between the pieces gives the input again
(`join_pieces`).
-/

set_option autoImplicit false

namespace SyntaxWatch.Text

variable {α : Type}

/-- The stretches between the separators, in order; at least one, and empty ones are kept. -/
def pieces [DecidableEq α] (sep : α) : List α → List (List α)
  | [] => [[]]
  | x :: rest =>
    if x = sep then [] :: pieces sep rest
    else
      match pieces sep rest with
      | [] => [[x]]
      | first :: others => (x :: first) :: others

/-- The pieces put together again, with the separator between neighbours. -/
def join (sep : α) : List (List α) → List α
  | [] => []
  | [piece] => piece
  | piece :: next :: others => piece ++ sep :: join sep (next :: others)

theorem pieces_ne_nil [DecidableEq α] (sep : α) (xs : List α) : pieces sep xs ≠ [] := by
  cases xs with
  | nil => simp [pieces]
  | cons x rest =>
    unfold pieces
    split
    · simp
    · split <;> simp

theorem join_cons_cons (sep x : α) (first : List α) (others : List (List α)) :
    join sep ((x :: first) :: others) = x :: join sep (first :: others) := by
  cases others <;> simp [join]

/-- Nothing is lost and nothing is added. -/
theorem join_pieces [DecidableEq α] (sep : α) (xs : List α) : join sep (pieces sep xs) = xs := by
  induction xs with
  | nil => rfl
  | cons x rest ih =>
    have hne := pieces_ne_nil sep rest
    unfold pieces
    split
    · next h =>
      cases hp : pieces sep rest with
      | nil => exact absurd hp hne
      | cons first others => rw [hp] at ih; simp [join, ih, h]
    · cases hp : pieces sep rest with
      | nil => exact absurd hp hne
      | cons first others => rw [hp] at ih; simp [join_cons_cons, ih]

/-- No piece holds the separator. -/
theorem not_mem_of_mem_pieces [DecidableEq α] {sep : α} {xs piece : List α}
    (h : piece ∈ pieces sep xs) :
    sep ∉ piece := by
  induction xs generalizing piece with
  | nil => simp [pieces] at h; simp [h]
  | cons x rest ih =>
    unfold pieces at h
    split at h
    · simp only [List.mem_cons] at h
      rcases h with rfl | h
      · simp
      · exact ih h
    · next hx =>
      cases hp : pieces sep rest with
      | nil => exact absurd hp (pieces_ne_nil sep rest)
      | cons first others =>
        rw [hp] at h
        simp only [List.mem_cons] at h
        rcases h with rfl | h
        · have : sep ∉ first := ih (by simp [hp])
          simp [this, Ne.symm hx]
        · exact ih (by simp [hp, h])

end SyntaxWatch.Text
