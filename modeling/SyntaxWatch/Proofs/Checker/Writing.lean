import Mathlib.Data.List.Induction
import SyntaxWatch.Collection.Snapshot
import SyntaxWatch.Proofs.Checker.Bench
import SyntaxWatch.Proofs.Collection.Contents

/-!
# Answers, written one after the other

A collection is written to by nothing but the answers that come in. `Answer.written` is what a list
of them leaves behind, and `Answer.mem_written` says what that is without replaying the writes: a
document is held with what the last answer for it brought, unless that one had no findings. So an
answer that comes after another one for the same document takes away what that one had brought, and
`totalCount_written` says how much is left.
-/

set_option autoImplicit false

namespace SyntaxWatch

/-! ## 1. One write -/

/-- A collection of this name that has not been disposed, so that no write to it came too late. -/
structure Collection.IsOpen (name : String) (c : Collection) : Prop where
  name : c.name = name
  disposed : c.disposed = false
  lateWrites : c.lateWrites = 0

theorem Collection.IsOpen.set {name : String} {c : Collection} (hc : c.IsOpen name) (uri : Uri)
    (items : List Diagnostic) : (c.set uri items).IsOpen name := by
  unfold Collection.set
  rw [if_neg (by simp [hc.disposed])]
  split <;> exact ⟨hc.name, hc.disposed, hc.lateWrites⟩

theorem Collection.IsOpen.clear {name : String} {c : Collection} (hc : c.IsOpen name) :
    c.clear = .new name := by
  unfold Collection.clear Collection.new
  rw [hc.name, hc.disposed, hc.lateWrites]

/-! ## 2. All of them -/

namespace Answer

/-- The collection in which these answers, and nothing else, have been written. -/
def written (source : String) (answers : List Answer) : Collection :=
  answers.foldl (fun c a => c.set a.uri (a.diagnostics source)) (.new source)

/-- How the writing of an answer is told. -/
def published (a : Answer) : Event := .published a.uri a.parcel.findings.length

theorem length_diagnostics (source : String) (a : Answer) :
    (a.diagnostics source).length = a.parcel.findings.length := by
  simp [diagnostics, Diagnostic.place]

theorem diagnostics_ne_nil {source : String} {a : Answer} :
    a.diagnostics source ≠ [] ↔ a.parcel.findings ≠ [] := by
  rw [← List.length_pos_iff, length_diagnostics, List.length_pos_iff]

theorem written_snoc (source : String) (answers : List Answer) (a : Answer) :
    written source (answers ++ [a]) = (written source answers).set a.uri (a.diagnostics source) := by
  simp [written]

theorem written_isOpen (source : String) (answers : List Answer) :
    (written source answers).IsOpen source := by
  have hfrom : ∀ (later : List Answer) (c : Collection), c.IsOpen source →
      (later.foldl (fun c a => c.set a.uri (a.diagnostics source)) c).IsOpen source := by
    intro later
    induction later with
    | nil => exact fun c hc => hc
    | cons a later ih => exact fun c hc => ih _ (hc.set a.uri (a.diagnostics source))
  exact hfrom answers (.new source) ⟨rfl, rfl, rfl⟩

/-- **What has been written** for a document is what the last answer for it brought. -/
theorem mem_written {source : String} {answers : List Answer} {entry : Uri × List Diagnostic} :
    entry ∈ (written source answers).entries ↔
      ∃ earlier a later, answers = earlier ++ a :: later ∧ a.parcel.findings ≠ []
        ∧ entry = (a.uri, a.diagnostics source) ∧ ∀ x ∈ later, x.uri ≠ a.uri := by
  -- the last answer is written last, so the induction takes it off first
  have hreverse : ∀ rev : List Answer, entry ∈ (written source rev.reverse).entries ↔
      ∃ earlier a later, rev.reverse = earlier ++ a :: later ∧ a.parcel.findings ≠ []
        ∧ entry = (a.uri, a.diagnostics source) ∧ ∀ x ∈ later, x.uri ≠ a.uri := by
    intro rev
    induction rev with
    | nil => simp [written, Collection.new]
    | cons last rev ih =>
      rw [List.reverse_cons, written_snoc, Collection.mem_set (written_isOpen _ _).disposed, ih]
      constructor
      · rintro (⟨⟨earlier, a, later, hsplit, hfindings, rfl, hlast⟩, hother⟩ | ⟨hsome, rfl⟩)
        · refine ⟨earlier, a, later ++ [last], by simp [hsplit], hfindings, rfl, ?_⟩
          intro x hx
          rcases List.mem_append.mp hx with hx | hx
          · exact hlast x hx
          · rw [List.mem_singleton.mp hx]
            exact fun h => hother h.symm
        · exact ⟨rev.reverse, last, [], rfl, diagnostics_ne_nil.mp hsome, rfl, nofun⟩
      · rintro ⟨earlier, a, later, hsplit, hfindings, rfl, hlast⟩
        rcases Bench.split_snoc hsplit with ⟨_, rfl, rfl⟩ | ⟨front, rfl, hfront⟩
        · exact .inr ⟨diagnostics_ne_nil.mpr hfindings, rfl⟩
        · refine .inl ⟨⟨earlier, a, front, hfront, hfindings, rfl, ?_⟩, ?_⟩
          · intro x hx
            exact hlast x (by simp [hx])
          · exact fun h => hlast last (by simp) h.symm
  simpa using hreverse answers.reverse

theorem exists_last {uri : Uri} {answers : List Answer} (hsome : ∃ a ∈ answers, a.uri = uri) :
    ∃ earlier a later, answers = earlier ++ a :: later ∧ a.uri = uri ∧ ∀ x ∈ later, x.uri ≠ uri := by
  induction answers with
  | nil =>
    obtain ⟨a, ha, _⟩ := hsome
    cases ha
  | cons first others ih =>
    by_cases hlater : ∃ a ∈ others, a.uri = uri
    · obtain ⟨earlier, a, later, rfl, huri, hlast⟩ := ih hlater
      exact ⟨first :: earlier, a, later, rfl, huri, hlast⟩
    · obtain ⟨a, ha, huri⟩ := hsome
      rcases List.mem_cons.mp ha with rfl | ha
      · exact ⟨[], a, others, rfl, huri, fun x hx h => hlater ⟨x, hx, h⟩⟩
      · exact absurd ⟨a, ha, huri⟩ hlater

theorem mem_keys_written {source : String} {answers : List Answer} {uri : Uri}
    (hfindings : ∀ a ∈ answers, a.parcel.findings ≠ []) :
    uri ∈ (written source answers).entries.map Prod.fst ↔ ∃ a ∈ answers, a.uri = uri := by
  rw [List.mem_map]
  constructor
  · rintro ⟨entry, hentry, rfl⟩
    obtain ⟨earlier, a, later, rfl, _, rfl, _⟩ := mem_written.mp hentry
    exact ⟨a, by simp, rfl⟩
  · intro hsome
    obtain ⟨earlier, a, later, hsplit, rfl, hlast⟩ := exists_last hsome
    have ha : a ∈ answers := by simp [hsplit]
    exact ⟨(a.uri, a.diagnostics source),
      mem_written.mpr ⟨earlier, a, later, hsplit, hfindings a ha, rfl, hlast⟩, rfl⟩

theorem written_keys_nodup (source : String) (answers : List Answer) :
    ((written source answers).entries.map Prod.fst).Nodup := by
  have hreverse : ∀ rev : List Answer, ((written source rev.reverse).entries.map Prod.fst).Nodup := by
    intro rev
    induction rev with
    | nil => simp [written, Collection.new]
    | cons last rev ih =>
      rw [List.reverse_cons, written_snoc]
      exact Collection.keys_nodup_set ih _ _
  simpa using hreverse answers.reverse

end Answer

/-! ## 3. How many are held -/

namespace Collection

variable {c : Collection}

/-- As many as the entries have between them. -/
theorem totalCount_snapshot (c : Collection) :
    c.snapshot.totalCount = (c.entries.flatMap Prod.snd).length :=
  ((List.mergeSort_perm c.entries Snapshot.le).flatMap_right Prod.snd).length_eq

/-- What is taken out for a document is what is held for it. -/
theorem length_without (entries : List (Uri × List Diagnostic)) (hnodup : (entries.map Prod.fst).Nodup)
    (uri : Uri) :
    ((without entries uri).flatMap Prod.snd).length
        + (((entries.find? fun e => e.1 = uri).map Prod.snd).getD []).length
      = (entries.flatMap Prod.snd).length := by
  induction entries with
  | nil => rfl
  | cons e entries ih =>
    rw [List.map_cons, List.nodup_cons] at hnodup
    unfold without
    by_cases he : e.1 = uri
    · have hothers : entries.filter (fun e => e.1 ≠ uri) = entries := by
        rw [List.filter_eq_self]
        intro x hx
        simpa using fun hxu => hnodup.1 (List.mem_map.mpr ⟨x, hx, hxu.trans he.symm⟩)
      rw [List.filter_cons_of_neg (by simp [he]), List.find?_cons_of_pos (by simp [he]), hothers,
        List.flatMap_cons, List.length_append, Nat.add_comm]
      rfl
    · rw [List.filter_cons_of_pos (by simp [he]), List.find?_cons_of_neg (by simp [he]),
        List.flatMap_cons, List.flatMap_cons, List.length_append, List.length_append, Nat.add_assoc]
      exact congrArg _ (ih hnodup.2)

theorem totalCount_set (halive : c.disposed = false) (hnodup : (c.entries.map Prod.fst).Nodup) (uri : Uri)
    (items : List Diagnostic) :
    (c.set uri items).snapshot.totalCount + (c.get uri).length = c.snapshot.totalCount + items.length := by
  have hwithout : ((without c.entries uri).flatMap Prod.snd).length + (c.get uri).length
      = (c.entries.flatMap Prod.snd).length := length_without c.entries hnodup uri
  rw [totalCount_snapshot, totalCount_snapshot, ← hwithout]
  unfold set
  rw [if_neg (by simp [halive])]
  by_cases hitems : items = []
  · rw [if_pos hitems, hitems, List.length_nil, Nat.add_zero]
  · rw [if_neg hitems, List.flatMap_append, List.flatMap_singleton, List.length_append]
    exact Nat.add_right_comm _ _ _

end Collection

namespace Answer

variable {source : String} {answers : List Answer}

theorem get_written_eq_nil_iff (hfindings : ∀ a ∈ answers, a.parcel.findings ≠ []) (uri : Uri) :
    (written source answers).get uri = [] ↔ ∀ a ∈ answers, a.uri ≠ uri := by
  have hkeys : uri ∈ (written source answers).entries.map Prod.fst ↔ ∃ a ∈ answers, a.uri = uri :=
    mem_keys_written hfindings
  constructor
  · intro hnil a ha huri
    obtain ⟨⟨_, items⟩, hentry, rfl⟩ := List.mem_map.mp (hkeys.mpr ⟨a, ha, huri⟩)
    rw [Collection.get_of_mem (written_keys_nodup source answers) hentry] at hnil
    obtain ⟨_, last, _, _, hsome, heq, _⟩ := mem_written.mp hentry
    exact diagnostics_ne_nil.mpr hsome ((congrArg Prod.snd heq).symm.trans hnil)
  · intro hnone
    exact Collection.get_of_not_mem fun hmem =>
      let ⟨a, ha, huri⟩ := hkeys.mp hmem
      hnone a ha huri

/-- **No more is held than has been brought**, and all of it is held if no two of the answers were for
one document. -/
theorem totalCount_written (source : String) (hfindings : ∀ a ∈ answers, a.parcel.findings ≠ []) :
    (written source answers).snapshot.totalCount ≤ (answers.flatMap fun a => a.parcel.findings).length
      ∧ ((written source answers).snapshot.totalCount = (answers.flatMap fun a => a.parcel.findings).length
          ↔ (answers.map uri).Nodup) := by
  induction answers using List.reverseRecOn with
  | nil => simp [written, Collection.new, Collection.totalCount_snapshot]
  | append_singleton answers a ih =>
    obtain ⟨hle, hiff⟩ := ih fun x hx => hfindings x (List.mem_append_left _ hx)
    have hset := Collection.totalCount_set (written_isOpen source answers).disposed
      (written_keys_nodup source answers) a.uri (a.diagnostics source)
    have hnil : (written source answers).get a.uri = [] ↔ ∀ x ∈ answers, x.uri ≠ a.uri :=
      get_written_eq_nil_iff (fun x hx => hfindings x (List.mem_append_left _ hx)) a.uri
    rw [← written_snoc, length_diagnostics] at hset
    rw [List.flatMap_append, List.flatMap_singleton, List.length_append]
    refine ⟨by omega, ?_⟩
    have hlast : ((answers ++ [a]).map uri).Nodup
        ↔ (answers.map uri).Nodup ∧ ∀ x ∈ answers, x.uri ≠ a.uri := by
      simp [List.nodup_append]
    rw [hlast, ← hiff, ← hnil, ← List.length_eq_zero_iff]
    omega

end Answer

end SyntaxWatch
