import SyntaxWatch.Proofs.Checker.Writing
import SyntaxWatch.Results

/-!
# What is copied out

Copying goes over all collections in use and keeps whatever they hold. `get?_copyFrom` says what has
been kept afterwards without going over them again: under a key stands what its collection holds for
the document, and where nothing is held there, what stood under the key before.

This needs collections that are tidy, and every collection in which answers have been written is.
-/

set_option autoImplicit false

namespace SyntaxWatch

/-! ## 1. Tidy collections -/

theorem Answer.written_tidy (source : String) (answers : List Answer) : (written source answers).Tidy := by
  refine ⟨written_keys_nodup source answers, fun e he => ?_⟩
  obtain ⟨_, a, _, _, hsome, rfl, _⟩ := mem_written.mp he
  exact diagnostics_ne_nil.mpr hsome

/-! ## 2. Keeping results -/

namespace Results

variable {c : Results} {key other : ResultKey} {items : List Diagnostic}

theorem get?_keep (c : Results) (key : ResultKey) (items : List Diagnostic) (other : ResultKey) :
    (c.keep key items).get? other = if other = key then some items else c.get? other := by
  unfold get? keep
  rw [find?_filter_append Prod.fst c.entries (key, items) other]
  split_ifs <;> rfl

/-- Nothing changes under a key that no new result has. -/
theorem get?_foldl_of_not_mem (rs : List (ResultKey × List Diagnostic)) (c : Results)
    (hnone : ∀ r ∈ rs, r.1 ≠ key) : (rs.foldl (fun c r => c.keep r.1 r.2) c).get? key = c.get? key := by
  induction rs generalizing c with
  | nil => rfl
  | cons r rs ih =>
    obtain ⟨hr, hrs⟩ := List.forall_mem_cons.mp hnone
    rw [List.foldl_cons, ih _ hrs, get?_keep, if_neg (Ne.symm hr)]

/-- Under a key stands what the new results have for it, if they agree. -/
theorem get?_foldl_of_mem (rs : List (ResultKey × List Diagnostic)) (c : Results) (hsome : ∃ r ∈ rs, r.1 = key)
    (hagree : ∀ r ∈ rs, r.1 = key → r.2 = items) :
    (rs.foldl (fun c r => c.keep r.1 r.2) c).get? key = some items := by
  induction rs generalizing c with
  | nil =>
    obtain ⟨r, hr, _⟩ := hsome
    cases hr
  | cons r rs ih =>
    obtain ⟨hr, hrs⟩ := List.forall_mem_cons.mp hagree
    rw [List.foldl_cons]
    by_cases hlater : ∃ x ∈ rs, x.1 = key
    · exact ih _ hlater hrs
    · have hnone : ∀ x ∈ rs, x.1 ≠ key := fun x hx h => hlater ⟨x, hx, h⟩
      obtain ⟨x, hx, hkey⟩ := hsome
      have hxr : x = r := (List.mem_cons.mp hx).resolve_right fun h => hnone x h hkey
      rw [get?_foldl_of_not_mem _ _ hnone, get?_keep, ← hxr, if_pos hkey.symm, hxr, hr (hxr ▸ hkey)]

/-! ## 3. Copying -/

/-- What the collection with a number holds for a document. -/
def heldAt (live : List Collection) (key : ResultKey) : List Diagnostic :=
  (live[key.collection]?.map fun c => c.get key.uri).getD []

theorem mem_held {live : List Collection} {r : ResultKey × List Diagnostic} :
    r ∈ held live ↔ ∃ c, live[r.1.collection]? = some c ∧ (r.1.uri, r.2) ∈ c.entries := by
  unfold held
  rw [List.mem_flatMap]
  constructor
  · rintro ⟨⟨c, i⟩, hc, hr⟩
    obtain ⟨⟨uri, items⟩, hentry, rfl⟩ := List.mem_map.mp hr
    refine ⟨c, List.mem_zipIdx_iff_getElem?.mp hc, ?_⟩
    exact (List.mergeSort_perm c.entries Snapshot.le).subset hentry
  · rintro ⟨c, hc, hentry⟩
    refine ⟨(c, r.1.collection), List.mem_zipIdx_iff_getElem?.mpr hc, ?_⟩
    refine List.mem_map.mpr ⟨(r.1.uri, r.2), ?_, rfl⟩
    exact (List.mergeSort_perm c.entries Snapshot.le).symm.subset hentry

theorem mem_held_iff {live : List Collection} (tidy : ∀ c ∈ live, c.Tidy) :
    (key, items) ∈ held live ↔ items ≠ [] ∧ heldAt live key = items := by
  rw [mem_held]
  unfold heldAt
  cases hc : live[key.collection]? with
  | none =>
    constructor
    · rintro ⟨c, hnone, _⟩
      cases hnone
    · rintro ⟨hsome, hnil⟩
      exact absurd hnil.symm hsome
  | some c =>
    have htidy := tidy c (List.mem_of_getElem? hc)
    constructor
    · rintro ⟨_, hsame, hentry⟩
      cases hsame
      exact htidy.mem_iff.mp hentry
    · exact fun h => ⟨c, rfl, htidy.mem_iff.mpr h⟩

/-- **What has been kept after copying** under a key: what its collection holds for the document, or what
was kept before where it holds nothing. -/
theorem get?_copyFrom {live : List Collection} (tidy : ∀ c ∈ live, c.Tidy) (c : Results) (key : ResultKey) :
    (c.copyFrom live).get? key = if heldAt live key = [] then c.get? key else some (heldAt live key) := by
  unfold copyFrom
  by_cases hnone : heldAt live key = []
  · rw [if_pos hnone]
    refine get?_foldl_of_not_mem _ _ ?_
    rintro ⟨_, items⟩ hr rfl
    obtain ⟨hsome, hheld⟩ := (mem_held_iff tidy).mp hr
    exact hsome (hheld.symm.trans hnone)
  · rw [if_neg hnone]
    refine get?_foldl_of_mem _ _ ⟨(key, heldAt live key), (mem_held_iff tidy).mpr ⟨hnone, rfl⟩, rfl⟩ ?_
    rintro ⟨_, items⟩ hr rfl
    exact ((mem_held_iff tidy).mp hr).2.symm

/-! ## 4. Errors in a report -/

/-- Each key stands there once. -/
def Keyed (c : Results) : Prop := (c.entries.map Prod.fst).Nodup

theorem keyed_empty : empty.Keyed := List.nodup_nil

theorem Keyed.keep (hc : c.Keyed) (key : ResultKey) (items : List Diagnostic) : (c.keep key items).Keyed := by
  unfold Keyed Results.keep
  rw [List.map_append, List.map_singleton, List.nodup_append]
  refine ⟨hc.sublist (List.filter_sublist.map Prod.fst), List.nodup_singleton _, ?_⟩
  intro k hk k' hk'
  obtain ⟨r, hr, rfl⟩ := List.mem_map.mp hk
  rw [List.mem_singleton.mp hk']
  simpa using (List.mem_filter.mp hr).2

theorem Keyed.copyFrom (hc : c.Keyed) (live : List Collection) : (c.copyFrom live).Keyed := by
  unfold Results.copyFrom
  generalize held live = rs
  induction rs generalizing c with
  | nil => exact hc
  | cons r rs ih => exact ih (hc.keep r.1 r.2)

theorem Keyed.mem_iff (hc : c.Keyed) : (key, items) ∈ c.entries ↔ c.get? key = some items := by
  unfold get?
  rw [Option.map_eq_some_iff]
  constructor
  · exact fun hmem => ⟨_, (find?_key_iff Prod.fst hc).mpr ⟨hmem, rfl⟩, rfl⟩
  · rintro ⟨⟨_, _⟩, hfind, rfl⟩
    obtain ⟨hmem, rfl⟩ := (find?_key_iff Prod.fst hc).mp hfind
    exact hmem

/-- Each grade is counted by itself. -/
theorem foldl_add (ds : List Diagnostic) (s : Tally) :
    ds.foldl (fun s d => s.add d.severity) s
      = ⟨s.errors + ds.countP fun d => d.severity == .error, s.warnings + ds.countP fun d => d.severity == .warning,
        s.infos + ds.countP fun d => d.severity == .info⟩ := by
  induction ds generalizing s with
  | nil => rfl
  | cons d ds ih =>
    rw [List.foldl_cons, ih, List.countP_cons, List.countP_cons, List.countP_cons]
    cases hd : d.severity <;> simp [Tally.add, Nat.add_assoc, Nat.add_comm]

/-- **A report has an error** when there is one under some key. -/
theorem Keyed.anyError_iff (hc : c.Keyed) :
    c.summary.anyError = true ↔ ∃ key items, c.get? key = some items ∧ ∃ d ∈ items, d.severity = .error := by
  unfold summary Tally.anyError
  rw [decide_eq_true_eq, foldl_add, show Tally.zero.errors = 0 from rfl, Nat.zero_add, List.countP_pos_iff]
  constructor
  · rintro ⟨d, hd, herror⟩
    obtain ⟨⟨key, items⟩, hr, hitem⟩ := List.mem_flatMap.mp hd
    have hmem := (List.mergeSort_perm c.entries _).subset hr
    exact ⟨key, items, hc.mem_iff.mp hmem, d, hitem, by simpa using herror⟩
  · rintro ⟨key, items, hget, d, hitem, herror⟩
    have hmem := (List.mergeSort_perm c.entries fun a b => a.1.le b.1).symm.subset (hc.mem_iff.mpr hget)
    exact ⟨d, List.mem_flatMap.mpr ⟨_, hmem, hitem⟩, by simpa using herror⟩

end Results

end SyntaxWatch
