import Mathlib
import SyntaxWatch.Proofs.Collection.History
import SyntaxWatch.Proofs.Path.Order
import SyntaxWatch.Proofs.Results.Copying

/-!
# What a report lists

A report is made in two steps: results are copied out as often as one likes, and then all that has been
kept is sorted and written, a line for each diagnostic. `get?_absorbed` says what has been kept, and
`Listed` what is written, without the steps: the kept diagnostics, each with the place it is kept at, in
the one order that all of path, start, collection, URI and place make together.

That order is total, though the sort looks at paths and starts only. The rest of it is the order in which
the sort finds the diagnostics, and it decides between rows that the sort takes for equal.
-/

set_option autoImplicit false

namespace SyntaxWatch

/-! ## 1. Keys and rows -/

/-- Keys come by collection, then by the bytes of the URI. -/
def ResultKey.rank (key : ResultKey) : Nat ×ₗ List Nat := toLex (key.collection, key.uri.bytes)

theorem ResultKey.rank_injective : Function.Injective rank := by
  rintro ⟨i, u⟩ ⟨j, v⟩ h
  have hcollection : i = j := congrArg (fun r => (ofLex r).1) h
  have huri : u = v := Uri.bytes_injective (congrArg (fun r => (ofLex r).2) h)
  rw [hcollection, huri]

theorem ResultKey.le_iff (a b : ResultKey) : a.le b = true ↔ a.rank ≤ b.rank := by
  unfold le rank
  rw [Prod.Lex.toLex_le_toLex]
  split_ifs with hsame
  · simp [hsame, Uri.le_iff]
  · simp [hsame, le_iff_lt_or_eq]

/-- Rows come by the components of their paths, then by line, then by character. -/
def ReportRow.rank (r : ReportRow) : List (Nat ×ₗ List Nat) ×ₗ (Nat ×ₗ Nat) :=
  toLex (r.path.places,
    toLex (r.diagnostic.range.start.line.toNat, r.diagnostic.range.start.character.toNat))

theorem Position.le_iff (a b : Position) :
    a.le b = true ↔ toLex (a.line.toNat, a.character.toNat) ≤ toLex (b.line.toNat, b.character.toNat) := by
  unfold le
  rw [Prod.Lex.toLex_le_toLex, Bool.or_eq_true, Bool.and_eq_true, decide_eq_true_eq, decide_eq_true_eq, beq_iff_eq,
    UInt32.lt_iff_toNat_lt, UInt32.le_iff_toNat_le, ← UInt32.toNat_inj]

theorem ReportRow.le_iff (a b : ReportRow) : a.le b = true ↔ a.rank ≤ b.rank := by
  unfold le rank
  rw [Prod.Lex.toLex_le_toLex]
  split_ifs with hsame
  · rw [Position.le_iff]
    simp [Path.places_eq_iff.mpr hsame]
  · have hne : a.path.places ≠ b.path.places := fun h => hsame (Path.places_eq_iff.mp h)
    rw [Path.le_iff, le_iff_lt_or_eq]
    simp [hne]

/-! ## 2. Kept diagnostics -/

/-- A diagnostic, with the key of the list that it is kept in and its place in that list. -/
structure Filed where
  key : ResultKey
  place : Nat
  diagnostic : Diagnostic
  deriving DecidableEq, Repr

namespace Filed

/-- The row that is shown for it. -/
def row (root : Path) (f : Filed) : ReportRow := ⟨Workspace.shownPath root f.key.uri, f.diagnostic⟩

/-- Where it is found: by key, then by place. -/
def filing (f : Filed) : (Nat ×ₗ List Nat) ×ₗ Nat := toLex (f.key.rank, f.place)

/-- Its place in a report: by path, line and character, then by collection, URI and place. -/
def rank (root : Path) (f : Filed) :
    (List (Nat ×ₗ List Nat) ×ₗ (Nat ×ₗ Nat)) ×ₗ ((Nat ×ₗ List Nat) ×ₗ Nat) :=
  toLex ((f.row root).rank, f.filing)

end Filed

namespace Results

variable {c : Results}

/-- The diagnostic is kept there. -/
def Keeps (c : Results) (f : Filed) : Prop := ∃ items, c.get? f.key = some items ∧ items[f.place]? = some f.diagnostic

/-- All that is kept, by key and then as the collection listed it. -/
def filed (c : Results) : List Filed :=
  c.ordered.flatMap fun (key, items) => items.zipIdx.map fun (d, i) => ⟨key, i, d⟩

theorem Keyed.mem_filed (hc : c.Keyed) {f : Filed} : f ∈ c.filed ↔ c.Keeps f := by
  have hordered : ∀ r, r ∈ c.ordered ↔ r ∈ c.entries := fun _ => (List.mergeSort_perm _ _).mem_iff
  unfold filed Keeps
  rw [List.mem_flatMap]
  constructor
  · rintro ⟨⟨key, items⟩, hr, hf⟩
    obtain ⟨⟨d, i⟩, hd, rfl⟩ := List.mem_map.mp hf
    exact ⟨items, hc.mem_iff.mp ((hordered _).mp hr), List.mem_zipIdx_iff_getElem?.mp hd⟩
  · rintro ⟨items, hget, hd⟩
    refine ⟨(f.key, items), (hordered _).mpr (hc.mem_iff.mpr hget), ?_⟩
    exact List.mem_map.mpr ⟨(f.diagnostic, f.place), List.mem_zipIdx_iff_getElem?.mpr hd, rfl⟩

theorem Keyed.ordered_rising (hc : c.Keyed) : c.ordered.Pairwise fun a b => a.1.rank < b.1.rank := by
  have hle : ∀ a b : ResultKey × List Diagnostic, a.1.le b.1 = true ↔ a.1.rank ≤ b.1.rank :=
    fun a b => ResultKey.le_iff a.1 b.1
  refine Sorting.mergeSort_rising_of_nodup hle ?_
  have hranks := List.Nodup.map ResultKey.rank_injective hc
  rwa [List.map_map] at hranks

theorem Keyed.filed_rising (hc : c.Keyed) : c.filed.Pairwise fun a b => a.filing < b.filing := by
  unfold filed
  rw [List.pairwise_flatMap]
  constructor
  · -- in one list the places decide
    rintro ⟨key, items⟩ _
    rw [List.pairwise_map, List.pairwise_iff_getElem]
    intro i j hi hj hij
    simpa [Filed.filing, Prod.Lex.toLex_lt_toLex] using hij
  · -- between two lists the keys do
    refine hc.ordered_rising.imp ?_
    rintro ⟨key, items⟩ ⟨key', items'⟩ hlt f hf g hg
    obtain ⟨x, _, rfl⟩ := List.mem_map.mp hf
    obtain ⟨y, _, rfl⟩ := List.mem_map.mp hg
    exact Prod.Lex.toLex_lt_toLex.mpr (.inl hlt)

theorem map_row_filed (c : Results) (root : Path) : c.filed.map (Filed.row root) = c.rows root := by
  unfold filed rows
  rw [List.map_flatMap]
  refine List.flatMap_congr fun ⟨key, items⟩ _ => ?_
  show (items.zipIdx.map _).map (Filed.row root) = items.map _
  rw [List.map_map]
  conv_rhs => rw [← List.zipIdx_map_fst 0 items, List.map_map]
  rfl

theorem map_diagnostic_filed (c : Results) : c.filed.map Filed.diagnostic = c.ordered.flatMap Prod.snd := by
  unfold filed
  rw [List.map_flatMap]
  refine List.flatMap_congr fun ⟨key, items⟩ _ => ?_
  show (items.zipIdx.map _).map Filed.diagnostic = items
  rw [List.map_map]
  exact List.zipIdx_map_fst 0 items

/-! ## 3. The report -/

/-- All that is kept, in the order of the report. -/
def listing (c : Results) (root : Path) : List Filed :=
  c.filed.mergeSort fun a b => (a.row root).le (b.row root)

theorem listing_perm (c : Results) (root : Path) : (c.listing root).Perm c.filed := List.mergeSort_perm _ _

theorem map_row_listing (c : Results) (root : Path) : (c.listing root).map (Filed.row root) = c.sortedRows root := by
  unfold listing sortedRows
  rw [← map_row_filed]
  exact List.map_mergeSort fun _ _ _ _ => rfl

theorem Keyed.listing_rising (hc : c.Keyed) (root : Path) :
    (c.listing root).Pairwise fun a b => a.rank root < b.rank root :=
  Sorting.mergeSort_rising (fun a b => ReportRow.le_iff (a.row root) (b.row root)) hc.filed_rising

theorem summary_eq (c : Results) (root : Path) :
    c.summary = ⟨((c.listing root).map Filed.diagnostic).countP fun d => d.severity == .error,
      ((c.listing root).map Filed.diagnostic).countP fun d => d.severity == .warning,
      ((c.listing root).map Filed.diagnostic).countP fun d => d.severity == .info⟩ := by
  have hperm : (c.ordered.flatMap Prod.snd).Perm ((c.listing root).map Filed.diagnostic) := by
    rw [← map_diagnostic_filed]
    exact ((c.listing_perm root).map Filed.diagnostic).symm
  unfold summary
  rw [foldl_add, hperm.countP_eq, hperm.countP_eq, hperm.countP_eq]
  simp [Tally.zero]

/-- The report lists what is kept, each diagnostic in a line of its own. -/
structure Listed (root : Path) (c : Results) (listing : List Filed) : Prop where
  kept : ∀ f, f ∈ listing ↔ c.Keeps f
  /-- Path, line and character decide, and then the collection, the URI and the place; so nothing is listed
  twice. -/
  rising : listing.Pairwise fun a b => a.rank root < b.rank root
  lines : c.lines root = listing.map fun f => f.diagnostic.line (Workspace.shownPath root f.key.uri)
  errors : c.summary.errors = (listing.map Filed.diagnostic).countP fun d => d.severity == .error
  warnings : c.summary.warnings = (listing.map Filed.diagnostic).countP fun d => d.severity == .warning
  infos : c.summary.infos = (listing.map Filed.diagnostic).countP fun d => d.severity == .info
  total : c.summary.errors + c.summary.warnings + c.summary.infos = (c.lines root).length
  anyError : c.summary.anyError = true ↔ ∃ f ∈ listing, f.diagnostic.severity = .error

theorem Keyed.listed (hc : c.Keyed) (root : Path) : Listed root c (c.listing root) := by
  have hsummary := c.summary_eq root
  have hlines : c.lines root
      = (c.listing root).map fun f => f.diagnostic.line (Workspace.shownPath root f.key.uri) := by
    unfold lines
    rw [← map_row_listing, List.map_map]
    rfl
  refine ⟨fun f => ?_, hc.listing_rising root, hlines, by rw [hsummary], by rw [hsummary], by rw [hsummary], ?_, ?_⟩
  · rw [(c.listing_perm root).mem_iff, hc.mem_filed]
  · rw [hsummary, hlines, List.length_map, ← List.length_map Filed.diagnostic]
    exact Diagnostic.countP_grades _
  · unfold Tally.anyError
    rw [hsummary, decide_eq_true_eq, List.countP_pos_iff]
    simp

/-! ## 4. Everything that was ever copied out -/

/-- What has been kept when the collections of some shelves have been copied out, one shelf after the other. -/
def absorbed (shelves : List Shelf) : Results := shelves.foldl (fun c s => c.copyFrom s.live) .empty

theorem absorbed_snoc (shelves : List Shelf) (s : Shelf) :
    absorbed (shelves ++ [s]) = (absorbed shelves).copyFrom s.live := by
  simp [absorbed]

theorem absorbed_keyed (shelves : List Shelf) : (absorbed shelves).Keyed := by
  induction shelves using List.reverseRecOn with
  | nil => exact keyed_empty
  | append_singleton shelves s ih =>
    rw [absorbed_snoc]
    exact ih.copyFrom s.live

end Results

/-- All that a shelf holds has come about by what was done to new collections. -/
def Shelf.Stocked (s : Shelf) : Prop := ∀ k ∈ s.kept, ∃ name changes, k.2 = Collection.after name changes

theorem Shelf.Stocked.tidy {s : Shelf} (hs : s.Stocked) : ∀ c ∈ s.live, c.Tidy := by
  intro c hc
  obtain ⟨k, hk, rfl⟩ := List.mem_map.mp (List.mem_of_mem_filter hc)
  obtain ⟨name, changes, hafter⟩ := hs k hk
  rw [hafter]
  exact (Collection.after_recorded name changes).tidy

namespace Results

/-- **Under a key stands the last list that was found there** and was not empty. -/
theorem get?_absorbed {shelves : List Shelf} (hstocked : ∀ s ∈ shelves, s.Stocked) (key : ResultKey) :
    (absorbed shelves).get? key
      = ((shelves.map fun s => heldAt s.live key).filter fun items => items ≠ []).getLast? := by
  induction shelves using List.reverseRecOn with
  | nil => rfl
  | append_singleton shelves s ih =>
    have hbefore := ih fun x hx => hstocked x (List.mem_append_left _ hx)
    have hs : s.Stocked := hstocked s (by simp)
    rw [absorbed_snoc, get?_copyFrom hs.tidy, hbefore, List.map_append, List.filter_append, List.getLast?_append]
    split_ifs with hnone
    · simp [hnone]
    · simp [hnone]

/-- **A report loses nothing and lists it in one order**: whatever has been copied out, when and how often, the
last list of each key is written, a line for each of its diagnostics. -/
theorem report_listed (root : Path) (shelves : List Shelf) (hstocked : ∀ s ∈ shelves, s.Stocked) :
    (∀ key, (absorbed shelves).get? key
        = ((shelves.map fun s => heldAt s.live key).filter fun items => items ≠ []).getLast?)
      ∧ ∃ listing, Listed root (absorbed shelves) listing :=
  ⟨get?_absorbed hstocked, _, (absorbed_keyed shelves).listed root⟩

/-- Two files whose paths stand the other way round than their texts do. -/
def plainFile : Uri := ⟨"file:///ws/a.c"⟩

def nestedFile : Uri := ⟨"file:///ws/a/b"⟩

def firstResult : List Diagnostic := [⟨.onLine 4 0 1, "late", .warning, "GCC"⟩, ⟨.onLine 1 0 1, "early", .error, "GCC"⟩]

def secondResult (message : String) : List Diagnostic := [⟨.onLine 2 0 1, message, .info, "Lint"⟩]

/-- Two collections, with what they hold after a first file has been checked. -/
def firstShelf : Shelf :=
  (((Shelf.empty.create "GCC").create "Lint").modify 0 fun c => c.set plainFile firstResult).modify 1 fun c =>
    c.set nestedFile (secondResult "style")

/-- The same collections after the next file: the first one has been cleared, the other has a new result. -/
def secondShelf : Shelf :=
  (firstShelf.modify 0 Collection.clear).modify 1 fun c => c.set nestedFile (secondResult "spelling")

theorem report_listed_replaced :
    (∀ s ∈ [firstShelf, secondShelf], s.Stocked)
      ∧ (absorbed [firstShelf, secondShelf]).get? ⟨0, plainFile⟩ = some firstResult
      ∧ (absorbed [firstShelf, secondShelf]).get? ⟨1, nestedFile⟩ = some (secondResult "spelling")
      ∧ (∃ listing, Listed (.ofText "/ws") (absorbed [firstShelf, secondShelf]) listing)
      ∧ (absorbed [firstShelf, secondShelf]).lines (.ofText "/ws")
        = ["a/b:3:1: info: [Lint] spelling", "a.c:2:1: error: [GCC] early", "a.c:5:1: warning: [GCC] late"] := by
  have hfirst : firstShelf.Stocked := by
    refine List.forall_mem_cons.mpr ⟨⟨"GCC", [.set plainFile firstResult], rfl⟩, ?_⟩
    exact List.forall_mem_singleton.mpr ⟨"Lint", [.set nestedFile (secondResult "style")], rfl⟩
  have hsecond : secondShelf.Stocked := by
    refine List.forall_mem_cons.mpr ⟨⟨"GCC", [.set plainFile firstResult, .clear], rfl⟩, ?_⟩
    exact List.forall_mem_singleton.mpr
      ⟨"Lint", [.set nestedFile (secondResult "style"), .set nestedFile (secondResult "spelling")], rfl⟩
  have hstocked : ∀ s ∈ [firstShelf, secondShelf], s.Stocked :=
    List.forall_mem_cons.mpr ⟨hfirst, List.forall_mem_singleton.mpr hsecond⟩
  obtain ⟨hget, hlisted⟩ := report_listed (.ofText "/ws") _ hstocked
  refine ⟨hstocked, ?_, ?_, hlisted, ?_⟩
  · rw [hget]
    decide
  · rw [hget]
    decide
  · cbv

end Results

end SyntaxWatch
