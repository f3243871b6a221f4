import SyntaxWatch.Collection.Snapshot
import SyntaxWatch.Proofs.Collection.Contents
import SyntaxWatch.Proofs.Order.Sorting
import SyntaxWatch.Proofs.Text.ByteOrder

/-!
# What a collection is shown as

A snapshot is the sorted list of a collection's files. `Shows` says what it is like without sorting
anything: which files are in it, that the files with an error come first, and that the URIs rise within
both halves. This leaves nothing open, so collections that hold the same are shown alike
(`snapshot_congr`).

Both come from one rank, by which the files are sorted: no two files of a tidy collection have the same.
-/

set_option autoImplicit false

namespace SyntaxWatch.Snapshot

/-! ## 1. The order of files -/

/-- One of the file's diagnostics is an error. -/
def Faulty (file : Uri × List Diagnostic) : Prop := ∃ d ∈ file.2, d.severity = .error

instance decidableFaulty (file : Uri × List Diagnostic) : Decidable (Faulty file) :=
  inferInstanceAs (Decidable (∃ d ∈ file.2, d.severity = .error))

/-- The place of a file among others: zero or one, then the bytes of its URI. -/
def rank (file : Uri × List Diagnostic) : Nat ×ₗ List Nat := toLex (if Faulty file then 0 else 1, file.1.bytes)

theorem hasError_iff (file : Uri × List Diagnostic) : hasError file = true ↔ Faulty file := by
  unfold hasError Faulty Severity.isError
  simp

theorem le_iff (a b : Uri × List Diagnostic) : le a b = true ↔ rank a ≤ rank b := by
  have ha := hasError_iff a
  have hb := hasError_iff b
  unfold le rank
  rw [Prod.Lex.toLex_le_toLex]
  by_cases hfa : Faulty a <;> by_cases hfb : Faulty b <;> simp_all [Uri.le_iff]

theorem faulty_of_rank_lt {a b : Uri × List Diagnostic} (h : rank a < rank b) (hb : Faulty b) : Faulty a := by
  unfold rank at h
  rw [Prod.Lex.toLex_lt_toLex, if_pos hb] at h
  by_contra ha
  simp [ha] at h

theorem bytes_of_rank_lt {a b : Uri × List Diagnostic} (h : rank a < rank b) (hsame : Faulty a ↔ Faulty b) :
    a.1.bytes < b.1.bytes := by
  unfold rank at h
  rw [Prod.Lex.toLex_lt_toLex] at h
  simpa [hsame] using h

end SyntaxWatch.Snapshot

namespace SyntaxWatch

variable {c d : Collection}

theorem Collection.Tidy.rank_nodup (hc : c.Tidy) : (c.entries.map Snapshot.rank).Nodup := by
  refine List.Nodup.of_map (fun r => (ofLex r).2) ?_
  rw [List.map_map]
  have hbytes : (fun r => (ofLex r).2) ∘ Snapshot.rank = Uri.bytes ∘ Prod.fst := rfl
  rw [hbytes, ← List.map_map]
  exact hc.nodup.map Uri.bytes_injective

/-- **Collections that hold the same are shown alike**, whatever was written to them when. -/
theorem Collection.Tidy.snapshot_congr (hc : c.Tidy) (hd : d.Tidy) (hsame : ∀ uri, c.get uri = d.get uri) :
    c.snapshot = d.snapshot :=
  congrArg Snapshot.mk (Sorting.mergeSort_eq_of_perm Snapshot.le_iff (hc.perm_of_get hd hsame) hc.rank_nodup)

/-! ## 2. The snapshot of a collection -/

/-- The snapshot shows what the collection holds, and nothing else. -/
structure Snapshot.Shows (s : Snapshot) (c : Collection) : Prop where
  held : ∀ uri items, (uri, items) ∈ s.files ↔ items ≠ [] ∧ c.get uri = items
  once : (s.files.map Prod.fst).Nodup
  errorsFirst : s.files.Pairwise fun a b => Faulty b → Faulty a
  rising : s.files.Pairwise fun a b => (Faulty a ↔ Faulty b) → a.1.bytes < b.1.bytes
  total : s.count .error + s.count .warning + s.count .info = s.totalCount
  status : s.status = "" ↔ ∀ uri, c.get uri = []

/-- Every diagnostic has one of the three grades. -/
theorem Diagnostic.countP_grades (ds : List Diagnostic) :
    (ds.countP fun d => d.severity == .error) + (ds.countP fun d => d.severity == .warning)
      + (ds.countP fun d => d.severity == .info) = ds.length := by
  induction ds with
  | nil => rfl
  | cons d ds ih =>
    simp only [List.countP_cons, List.length_cons]
    cases d.severity <;> simp <;> omega

theorem Snapshot.status_eq_empty_iff (s : Snapshot) : s.status = "" ↔ s.files = [] := by
  unfold status isEmpty
  cases s.files with
  | nil => simp
  | cons file others => simp [← String.toList_inj]

theorem Collection.Tidy.shows (hc : c.Tidy) : c.snapshot.Shows c := by
  have hperm : c.snapshot.files.Perm c.entries := List.mergeSort_perm _ _
  have hrising := Sorting.mergeSort_rising_of_nodup Snapshot.le_iff hc.rank_nodup
  refine ⟨?_, (hperm.map Prod.fst).nodup_iff.mpr hc.nodup, ?_, ?_, Diagnostic.countP_grades _, ?_⟩
  · intro uri items
    rw [hperm.mem_iff, hc.mem_iff]
  · exact hrising.imp Snapshot.faulty_of_rank_lt
  · exact hrising.imp Snapshot.bytes_of_rank_lt
  · rw [Snapshot.status_eq_empty_iff, ← hc.entries_eq_nil_iff]
    exact ⟨fun hnil => (hnil ▸ hperm).symm.eq_nil, fun hnil => (hnil ▸ hperm).eq_nil⟩

end SyntaxWatch
