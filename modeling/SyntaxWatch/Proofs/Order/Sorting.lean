import Mathlib.Data.List.Nodup
import Mathlib.Data.Prod.Lex

/-!
# Sorting by rank

Whatever is sorted here is sorted by a rank in some linear order: the comparison that the sort is given
says no more than that one rank is at most the other. Two things follow. Where no rank occurs twice there
is one sorted list only, whatever order the elements came in (`mergeSort_eq_of_perm`). And where the
elements came in the order of some second rank, that one decides between those of the same first rank,
since sorting is stable (`mergeSort_rising`).
-/

set_option autoImplicit false

namespace SyntaxWatch.Sorting

variable {α β γ : Type} [LinearOrder β] [LinearOrder γ] {rank : α → β} {tie : α → γ} {le : α → α → Bool}
  {l l' : List α}

section Rank

variable (hle : ∀ a b, le a b = true ↔ rank a ≤ rank b)

include hle

theorem le_trans_of_rank (a b c : α) (hab : le a b = true) (hbc : le b c = true) : le a c = true :=
  (hle a c).mpr (((hle a b).mp hab).trans ((hle b c).mp hbc))

theorem le_total_of_rank (a b : α) : (le a b || le b a) = true := by
  rw [Bool.or_eq_true, hle, hle]
  exact le_total (rank a) (rank b)

/-- Sorting leaves elements of different ranks in the order of their ranks. -/
theorem mergeSort_rising_of_nodup (hnodup : (l.map rank).Nodup) :
    (l.mergeSort le).Pairwise fun a b => rank a < rank b := by
  have hsorted : (l.mergeSort le).Pairwise fun a b => rank a ≤ rank b :=
    (List.pairwise_mergeSort (le_trans_of_rank hle) (le_total_of_rank hle) l).imp fun {a b} => (hle a b).mp
  have hdifferent : (l.mergeSort le).Pairwise fun a b => rank a ≠ rank b :=
    List.pairwise_map.mp (((List.mergeSort_perm l le).map rank).nodup_iff.mpr hnodup)
  exact (hsorted.and hdifferent).imp fun h => lt_of_le_of_ne h.1 h.2

/-- **There is one sorted list** of elements of different ranks. -/
theorem mergeSort_eq_of_perm (hperm : l.Perm l') (hnodup : (l.map rank).Nodup) :
    l.mergeSort le = l'.mergeSort le := by
  have hnodup' : (l'.map rank).Nodup := (hperm.map rank).nodup_iff.mp hnodup
  refine List.Perm.eq_of_pairwise ?_ (mergeSort_rising_of_nodup hle hnodup)
    (mergeSort_rising_of_nodup hle hnodup') ?_
  · exact fun a b _ _ hab hba => absurd hba (lt_asymm hab)
  · exact ((List.mergeSort_perm l le).trans hperm).trans (List.mergeSort_perm l' le).symm

/-- **Sorting is stable**: elements of one rank keep the order in which they came. -/
theorem mergeSort_rising (hl : l.Pairwise fun a b => tie a < tie b) :
    (l.mergeSort le).Pairwise fun a b => toLex (rank a, tie a) < toLex (rank b, tie b) := by
  -- numbered by their places, the elements are sorted by rank and then by place
  have hsorted : (l.zipIdx.mergeSort (List.zipIdxLE le)).Pairwise fun a b => List.zipIdxLE le a b = true :=
    List.pairwise_mergeSort (List.zipIdxLE_trans (le_trans_of_rank hle))
      (List.zipIdxLE_total (le_total_of_rank hle)) l.zipIdx
  have hperm := List.mergeSort_perm l.zipIdx (List.zipIdxLE le)
  have hplaces : (l.zipIdx.mergeSort (List.zipIdxLE le)).Pairwise fun a b => a.2 ≠ b.2 := by
    refine List.pairwise_map.mp ((hperm.map Prod.snd).nodup_iff.mpr ?_)
    rw [List.zipIdx_map_snd]
    exact List.nodup_range'
  rw [← List.mergeSort_zipIdx, List.pairwise_map]
  refine (hsorted.and hplaces).imp_of_mem ?_
  rintro ⟨a, i⟩ ⟨b, j⟩ ha hb ⟨hab, hij⟩
  have hi : l[i]? = some a := List.mem_zipIdx_iff_getElem?.mp (hperm.subset ha)
  have hj : l[j]? = some b := List.mem_zipIdx_iff_getElem?.mp (hperm.subset hb)
  obtain ⟨hil, rfl⟩ := List.getElem?_eq_some_iff.mp hi
  obtain ⟨hjl, rfl⟩ := List.getElem?_eq_some_iff.mp hj
  unfold List.zipIdxLE at hab
  split_ifs at hab with hforth hback
  · have hlt : i < j := lt_of_le_of_ne (of_decide_eq_true hab) hij
    have hsame : rank l[i] = rank l[j] := le_antisymm ((hle _ _).mp hforth) ((hle _ _).mp hback)
    exact Prod.Lex.toLex_lt_toLex.mpr (.inr ⟨hsame, List.pairwise_iff_getElem.mp hl i j hil hjl hlt⟩)
  · rw [hle] at hback
    exact Prod.Lex.toLex_lt_toLex.mpr (.inl (lt_of_not_ge hback))

end Rank

end SyntaxWatch.Sorting
