import Mathlib
import SyntaxWatch.Proofs.Collection.Showing

/-!
# A collection and its history

What a collection holds is decided by what has been done to it, and can be read off the list of those
changes from its end: going back as far as the last clearing, the first list met for a document is what is
held for it, and nothing is held any more once the collection has been disposed (`Recorded`). Each change
adds what it says to the record (`Recorded.apply`), and the rest is induction.
-/

set_option autoImplicit false

namespace SyntaxWatch.Collection

/-! ## 1. Changes -/

/-- What is done to a collection. -/
inductive Change where
  | set (uri : Uri) (items : List Diagnostic)
  | clear
  | dispose
  deriving DecidableEq, Repr

namespace Change

def apply (c : Collection) : Change → Collection
  | set uri items => c.set uri items
  | clear => c.clear
  | dispose => c.dispose

/-- The list that a document is set to, if it is set at all. -/
def setting? (uri : Uri) : Change → Option (List Diagnostic)
  | set other items => if other = uri then some items else none
  | clear => none
  | dispose => none

end Change

/-- A new collection to which all of this has been done. -/
def after (name : String) (changes : List Change) : Collection := changes.foldl Change.apply (.new name)

/-- The changes since the last clearing, the last of them first. -/
def sinceClear (changes : List Change) : List Change := changes.reverse.takeWhile (· ≠ .clear)

/-- What a document was set to last, if that has not been cleared since; else nothing. -/
def lastSet (changes : List Change) (uri : Uri) : List Diagnostic :=
  ((sinceClear changes).findSome? (Change.setting? uri)).getD []

theorem after_snoc (name : String) (changes : List Change) (change : Change) :
    after name (changes ++ [change]) = change.apply (after name changes) := by
  simp [after]

theorem lastSet_set (changes : List Change) (uri : Uri) (items : List Diagnostic) (other : Uri) :
    lastSet (changes ++ [.set uri items]) other = if other = uri then items else lastSet changes other := by
  have hsetting : Change.setting? other (.set uri items) = if other = uri then some items else none := by
    unfold Change.setting?
    exact if_congr eq_comm rfl rfl
  unfold lastSet sinceClear
  rw [List.reverse_append, List.reverse_singleton, List.singleton_append, List.takeWhile_cons_of_pos rfl,
    List.findSome?_cons, hsetting]
  split_ifs <;> rfl

theorem lastSet_clear (changes : List Change) (uri : Uri) : lastSet (changes ++ [.clear]) uri = [] := by
  simp [lastSet, sinceClear]

/-! ## 2. The record -/

/-- The collection is what the changes have made of it. -/
structure Recorded (changes : List Change) (c : Collection) : Prop where
  tidy : c.Tidy
  disposed : c.disposed = true ↔ .dispose ∈ changes
  get : ∀ uri, c.get uri = if .dispose ∈ changes then [] else lastSet changes uri

theorem recorded_new (name : String) : Recorded [] (new name) :=
  ⟨tidy_new name, by simp [new], fun _ => rfl⟩

theorem Recorded.entries_of_disposed {changes : List Change} {c : Collection} (hc : Recorded changes c)
    (hgone : .dispose ∈ changes) : c.entries = [] := by
  refine hc.tidy.entries_eq_nil_iff.mpr fun uri => ?_
  rw [hc.get, if_pos hgone]

theorem Recorded.apply {changes : List Change} {c : Collection} (hc : Recorded changes c) (change : Change) :
    Recorded (changes ++ [change]) (change.apply c) := by
  cases change with
  | set uri items =>
    have hmem : Change.dispose ∈ changes ++ [.set uri items] ↔ .dispose ∈ changes := by simp
    refine ⟨hc.tidy.set uri items, ?_, fun other => ?_⟩
    · rw [hmem, ← hc.disposed]
      exact Bool.eq_iff_iff.mp (set_disposed c uri items)
    · simp only [hmem]
      by_cases hgone : Change.dispose ∈ changes
      · -- a write that comes too late changes nothing but the count of such writes
        have hsame := hc.get other
        rw [if_pos hgone] at hsame ⊢
        rw [← hsame]
        show (c.set uri items).get other = c.get other
        rw [set_of_disposed (hc.disposed.mpr hgone)]
        rfl
      · have halive : c.disposed = false := by
          rw [← Bool.not_eq_true, hc.disposed]
          exact hgone
        have hsame := hc.get other
        rw [if_neg hgone] at hsame ⊢
        rw [lastSet_set, ← hsame]
        exact get_set halive uri items other
  | clear =>
    have hmem : Change.dispose ∈ changes ++ [.clear] ↔ .dispose ∈ changes := by simp
    refine ⟨tidy_clear c, ?_, fun uri => ?_⟩
    · rw [hmem, ← hc.disposed]
      rfl
    · rw [lastSet_clear, ite_self]
      rfl
  | dispose =>
    have hmem : Change.dispose ∈ changes ++ [.dispose] := by simp
    refine ⟨tidy_dispose c, ?_, fun uri => ?_⟩
    · exact ⟨fun _ => hmem, fun _ => rfl⟩
    · rw [if_pos hmem]
      rfl

theorem after_recorded (name : String) (changes : List Change) : Recorded changes (after name changes) := by
  induction changes using List.reverseRecOn with
  | nil => exact recorded_new name
  | append_singleton changes change ih =>
    rw [after_snoc]
    exact ih.apply change

/-! ## 3. All of it -/

/-- What a collection is like after some changes. -/
structure Follows (changes : List Change) (c : Collection) : Prop where
  get : ∀ uri, c.get uri = if .dispose ∈ changes then [] else lastSet changes uri
  some : ∀ entry ∈ c.entries, entry.2 ≠ []
  shown : c.snapshot.Shows c
  disposed : c.disposed = true ↔ .dispose ∈ changes
  /-- A disposed collection holds nothing, whatever is done to it afterwards. -/
  empty : .dispose ∈ changes → c.entries = [] ∧ c.snapshot.files = []

theorem Recorded.follows {changes : List Change} {c : Collection} (hc : Recorded changes c) : Follows changes c := by
  refine ⟨hc.get, hc.tidy.some, hc.tidy.shows, hc.disposed, fun hgone => ?_⟩
  have hnil := hc.entries_of_disposed hgone
  refine ⟨hnil, ?_⟩
  unfold snapshot
  rw [hnil, List.mergeSort_nil]

/-- **A collection is a map from documents to lists**, and shown in one way only. -/
theorem contents_exact :
    (∀ name changes, Follows changes (after name changes))
      ∧ ∀ name name' changes changes',
        (∀ uri, (after name changes).get uri = (after name' changes').get uri) →
          (after name changes).snapshot = (after name' changes').snapshot := by
  refine ⟨fun name changes => (after_recorded name changes).follows, ?_⟩
  intro name name' changes changes' hsame
  exact (after_recorded name changes).tidy.snapshot_congr (after_recorded name' changes').tidy hsame

/-- A file with a warning. -/
def mildFile : Uri × List Diagnostic := (⟨"file:///ws/a.c"⟩, [⟨.onLine 1 0 1, "unused", .warning, "Lint"⟩])

/-- A file with an error. -/
def faultyFile : Uri × List Diagnostic := (⟨"file:///ws/b.c"⟩, [⟨.onLine 1 0 1, "undeclared", .error, "Lint"⟩])

/-- One file is replaced. -/
def replaced : List Change :=
  [.set faultyFile.1 mildFile.2, .set mildFile.1 mildFile.2, .set faultyFile.1 faultyFile.2]

/-- One file is cleared away, the other one is taken out, and both come back. -/
def cleared : List Change :=
  [.set faultyFile.1 mildFile.2, .clear, .set faultyFile.1 faultyFile.2, .set mildFile.1 faultyFile.2,
    .set mildFile.1 [], .set mildFile.1 mildFile.2]

theorem contents_exact_cleared :
    (∀ uri, (after "Lint" replaced).get uri = (after "GCC" cleared).get uri)
      ∧ (after "Lint" replaced).snapshot = (after "GCC" cleared).snapshot
      ∧ (after "GCC" cleared).snapshot.files = [faultyFile, mildFile]
      ∧ (after "GCC" (cleared ++ [.dispose] ++ replaced)).entries = [] := by
  have hsame : ∀ uri, (after "Lint" replaced).get uri = (after "GCC" cleared).get uri := by
    intro uri
    rw [(contents_exact.1 "Lint" replaced).get, (contents_exact.1 "GCC" cleared).get, if_neg (by decide),
      if_neg (by decide)]
    by_cases hb : faultyFile.1 = uri
    · subst hb
      decide
    · by_cases ha : mildFile.1 = uri
      · subst ha
        decide
      · simp [lastSet, sinceClear, replaced, cleared, Change.setting?, ha, hb]
  refine ⟨hsame, contents_exact.2 _ _ _ _ hsame, by cbv, ?_⟩
  exact ((contents_exact.1 _ _).empty (by decide)).1

end SyntaxWatch.Collection
