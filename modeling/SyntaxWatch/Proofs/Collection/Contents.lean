import SyntaxWatch.Collection
import SyntaxWatch.Proofs.Order.Keyed

/-!
# What a collection holds

A collection is looked at in two ways, by what stands in its list of entries and by what is held for a
document. For a *tidy* one they say the same (`Tidy.mem_iff`): no document stands there twice, and none
with an empty list. Every write keeps a collection tidy, and what it changes is said for the second view
alone (`get_set`): the document that is written, and no other one.
-/

set_option autoImplicit false

namespace SyntaxWatch

namespace Collection

variable {c d : Collection} {uri : Uri} {items : List Diagnostic}

/-! ## 1. One write -/

theorem mem_set (halive : c.disposed = false) {entry : Uri × List Diagnostic} :
    entry ∈ (c.set uri items).entries ↔
      (entry ∈ c.entries ∧ entry.1 ≠ uri) ∨ (items ≠ [] ∧ entry = (uri, items)) := by
  unfold Collection.set Collection.without
  rw [if_neg (by simp [halive])]
  by_cases hitems : items = []
  · simp [hitems]
  · simp [hitems]

theorem set_of_disposed (hgone : c.disposed = true) :
    c.set uri items = { c with lateWrites := c.lateWrites + 1 } := by
  unfold Collection.set
  rw [if_pos hgone]

theorem set_disposed (c : Collection) (uri : Uri) (items : List Diagnostic) :
    (c.set uri items).disposed = c.disposed := by
  unfold Collection.set
  split_ifs <;> rfl

theorem keys_nodup_set (hnodup : (c.entries.map Prod.fst).Nodup) (uri : Uri) (items : List Diagnostic) :
    ((c.set uri items).entries.map Prod.fst).Nodup := by
  have hwithout : ((without c.entries uri).map Prod.fst).Nodup :=
    hnodup.sublist (List.filter_sublist.map Prod.fst)
  unfold Collection.set
  split
  · exact hnodup
  · split
    · exact hwithout
    · show ((without c.entries uri ++ [(uri, items)]).map Prod.fst).Nodup
      rw [List.map_append, List.nodup_append]
      refine ⟨hwithout, by simp, ?_⟩
      intro x hx y hy hxy
      obtain ⟨entry, hentry, rfl⟩ := List.mem_map.mp hx
      have hne : entry.1 ≠ uri := by simpa using (List.mem_filter.mp hentry).2
      rw [List.map_singleton, List.mem_singleton] at hy
      exact hne (hxy.trans hy)

/-- **A write changes what is held for its document**, and for no other one. -/
theorem get_set (halive : c.disposed = false) (uri : Uri) (items : List Diagnostic) (other : Uri) :
    (c.set uri items).get other = if other = uri then items else c.get other := by
  unfold Collection.set get without
  rw [if_neg (by simp [halive])]
  by_cases hitems : items = []
  · rw [if_pos hitems, find?_filter_key Prod.fst c.entries uri other, hitems]
    split_ifs <;> rfl
  · rw [if_neg hitems, find?_filter_append Prod.fst c.entries (uri, items) other]
    split_ifs <;> rfl

/-! ## 2. What is held for a document -/

theorem get_of_mem (hnodup : (c.entries.map Prod.fst).Nodup) (hmem : (uri, items) ∈ c.entries) :
    c.get uri = items := by
  unfold get
  rw [(find?_key_iff Prod.fst hnodup).mpr ⟨hmem, rfl⟩]
  rfl

theorem get_of_not_mem (hnone : uri ∉ c.entries.map Prod.fst) : c.get uri = [] := by
  unfold get
  rw [(find?_key_eq_none_iff Prod.fst).mpr hnone]
  rfl

/-! ## 3. Tidy collections -/

/-- Each document is held once, and with something. -/
structure Tidy (c : Collection) : Prop where
  nodup : (c.entries.map Prod.fst).Nodup
  some : ∀ e ∈ c.entries, e.2 ≠ []

theorem tidy_new (name : String) : (new name).Tidy := ⟨List.nodup_nil, nofun⟩

theorem Tidy.set (hc : c.Tidy) (uri : Uri) (items : List Diagnostic) : (c.set uri items).Tidy := by
  refine ⟨keys_nodup_set hc.nodup uri items, fun e he => ?_⟩
  cases hgone : c.disposed with
  | true =>
    rw [set_of_disposed hgone] at he
    exact hc.some e he
  | false =>
    rcases (mem_set hgone).mp he with ⟨hold, _⟩ | ⟨hsome, rfl⟩
    · exact hc.some e hold
    · exact hsome

theorem tidy_clear (c : Collection) : c.clear.Tidy := ⟨List.nodup_nil, nofun⟩

theorem tidy_dispose (c : Collection) : c.dispose.Tidy := ⟨List.nodup_nil, nofun⟩

theorem Tidy.mem_iff (hc : c.Tidy) : (uri, items) ∈ c.entries ↔ items ≠ [] ∧ c.get uri = items := by
  constructor
  · exact fun hmem => ⟨hc.some _ hmem, get_of_mem hc.nodup hmem⟩
  · rintro ⟨hsome, hget⟩
    by_cases hkey : uri ∈ c.entries.map Prod.fst
    · obtain ⟨⟨_, found⟩, hmem, rfl⟩ := List.mem_map.mp hkey
      rw [← hget, get_of_mem hc.nodup hmem]
      exact hmem
    · exact absurd (hget.symm.trans (get_of_not_mem hkey)) hsome

/-- Nothing stands in a tidy collection just when nothing is held for any document. -/
theorem Tidy.entries_eq_nil_iff (hc : c.Tidy) : c.entries = [] ↔ ∀ uri, c.get uri = [] := by
  constructor
  · intro hnil uri
    exact get_of_not_mem (by simp [hnil])
  · intro hall
    refine List.eq_nil_iff_forall_not_mem.mpr fun e he => ?_
    exact hc.some e he ((get_of_mem hc.nodup he).symm.trans (hall e.1))

/-- Tidy collections that hold the same have the same entries, in whatever order. -/
theorem Tidy.perm_of_get (hc : c.Tidy) (hd : d.Tidy) (hsame : ∀ uri, c.get uri = d.get uri) :
    c.entries.Perm d.entries := by
  refine (List.perm_ext_iff_of_nodup hc.nodup.of_map hd.nodup.of_map).mpr fun e => ?_
  rw [hc.mem_iff, hd.mem_iff, hsame]

end Collection

end SyntaxWatch
