import SyntaxWatch.Proofs.Checker.Invariant

/-!
# Nothing stale in the collection

Runs of one checker overlap as they like, and what an old one started comes back when it comes back.
The collection never shows it. Whatever the collection holds can be traced to its *origin*: an
output that was taken in for the run which is the latest one still, a group of that output, the
document to which its path leads, and what the lookup for this very group has found there.

From the same invariant it follows when the collection is empty: after a run has started and before
anything has been published for it, and after the latest run has failed.
-/

set_option autoImplicit false

namespace SyntaxWatch

namespace Bench

/-! ## 1. Where errands come from -/

theorem sent_of_out {start : Bench} (hstart : ∀ e ∈ start.errands, e ∈ start.sent)
    (past : List Happening) : ∀ e ∈ (start.after past).errands, e ∈ (start.after past).sent := by
  induction past generalizing start with
  | nil => exact hstart
  | cons h past ih =>
    refine @ih (start.meet h) ?_
    intro e he
    rw [meet_sent]
    rcases List.mem_append.mp he with he | he
    · exact List.mem_append_left _ (hstart e (mem_of_mem_without he))
    · exact List.mem_append_right _ he

theorem launched_of_out {profile : CheckerProfile} {root : Path} {delay token : Nat}
    {past : List Happening} {document : DocumentRef}
    (hout : .process token document ∈ ((opening profile root delay).after past).errands) :
    .launch token document ∈ ((opening profile root delay).after past).effects := by
  obtain ⟨x, hx, hof⟩ := List.mem_filterMap.mp (sent_of_out (by simp [opening]) past _ hout)
  cases x with
  | launch t d =>
    cases hof
    exact hx
  | lookUp t target findings => cases hof
  | _ => cases hof

/-! ## 2. The origin of an entry -/

/-- A place in a history at which an output comes, one of its groups with the document to which its
path leads, and what the lookup for it found. -/
structure Origin where
  before : List Happening
  document : DocumentRef
  printed : List Finding
  later : List Happening
  group : String × List Finding
  target : Target
  found : Option Document

/-- An entry of the collection after a history comes from this origin. -/
structure Origin.Explains (o : Origin) (start : Bench) (past : List Happening)
    (entry : Uri × List Diagnostic) : Prop where
  /-- The output is one of the run with the current token … -/
  split : past = o.before ++ .output (start.after past).token o.document o.printed :: o.later
  /-- … which the checker had launched … -/
  launched : .launch (start.after past).token o.document ∈ (start.after o.before).effects
  /-- … and it was taken in. -/
  accepted : (start.after o.before).checker.runs.counts (start.after past).token = true
  /-- No run has started since this one. -/
  latest : ∃ earlier since,
    (start.after past).events = earlier ++ .started (start.after past).token o.document.uri :: since
      ∧ ∀ e ∈ since, e.isStart = false
  group : o.group ∈ (Findings.ofList o.printed).groups
  target : Target.resolve start.checker.root o.document.uri o.group.1 = .ok o.target
  /-- The lookup for this group has been answered. -/
  answered : .answer (start.after past).token ⟨⟨o.target, o.group.2⟩, o.found⟩ ∈ o.later
  entry : entry = (o.target.uri, Diagnostic.place o.group.2 start.checker.name o.target o.found)

section

variable {profile : CheckerProfile} {root : Path} {delay : Nat} {past : List Happening}

theorem Live.explained {entry : Uri × List Diagnostic}
    (possible : (opening profile root delay).Possible past)
    (hl : Live (opening profile root delay) past ((opening profile root delay).after past))
    (hentry : entry ∈ ((opening profile root delay).after past).checker.collection.entries) :
    ∃ o : Origin, o.Explains (opening profile root delay) past entry := by
  have hentry : entry ∈ ((opening profile root delay).after past).currentRun.collection.entries := hentry
  cases hl.stage with
  | spent phase =>
    rw [phase.collection] at hentry
    cases hentry
  | waiting document phase =>
    rw [phase.collection] at hentry
    cases hentry
  | placing document printed before later split counted phase =>
    rw [phase.collection] at hentry
    obtain ⟨earlier, a, rest, hanswers, _, rfl, _⟩ := Answer.mem_written.mp hentry
    have ha : a ∈ Happening.answersTo ((opening profile root delay).after past).token later := by
      rw [hanswers]
      simp
    have hparcel : a.parcel ∈ Parcel.ofPrinted root document.uri printed :=
      phase.parcels.subset (List.mem_append_left _ (List.mem_map_of_mem ha))
    obtain ⟨group, hgroup, htarget, hfindings⟩ := Parcel.mem_ofPrinted.mp hparcel
    have hout := possible
    rw [split, possible_append] at hout
    refine ⟨⟨before, document, printed, later, group, a.parcel.target, a.found⟩, split,
      launched_of_out hout.2.1, counted, ?_, hgroup, htarget, ?_, ?_⟩
    · have hstart : .started ((opening profile root delay).after past).token document.uri
          ∈ (Event.pages ((opening profile root delay).after past).events).2 := by
        have htold : .started ((opening profile root delay).after past).token document.uri
            ∈ ((opening profile root delay).after past).currentRun.told := by
          rw [phase.told]
          exact List.mem_cons_self
        exact (List.mem_filter.mp htold).1
      obtain ⟨since, hevents, hsince⟩ := Event.latest_start hstart rfl
      exact ⟨_, since, hevents, hsince⟩
    · rw [← hfindings]
      exact Happening.mem_of_mem_answersTo ha
    · rw [← hfindings]
      rfl

/-- **Every entry is explained**, after every possible history. -/
theorem explained {entry : Uri × List Diagnostic} (possible : (opening profile root delay).Possible past)
    (hentry : entry ∈ ((opening profile root delay).after past).checker.collection.entries) :
    ∃ o : Origin, o.Explains (opening profile root delay) past entry := by
  rcases live_or_ended possible with hl | he
  · exact hl.explained possible hentry
  · rw [he.collection] at hentry
    cases hentry

/-! ## 3. When the collection is empty -/

theorem Live.empty_of_unpublished {earlier since : List Event} {token : Nat} {uri : Uri} {b start : Bench}
    (hl : Live start past b) (hevents : b.events = earlier ++ .started token uri :: since)
    (hunpublished : ∀ u n, .published u n ∉ since) : b.checker.collection.entries = [] := by
  show b.currentRun.collection.entries = []
  cases hl.stage with
  | spent phase => rw [phase.collection]; rfl
  | waiting document phase => rw [phase.collection]; rfl
  | placing document printed before later split counted phase =>
    have hnone : Happening.answersTo b.token later = [] := by
      rw [List.eq_nil_iff_forall_not_mem]
      intro a ha
      have htold : a.published ∈ b.currentRun.told := by
        rw [phase.told]
        exact List.mem_append_left _ (List.mem_cons_of_mem _ (List.mem_map_of_mem ha))
      have hpage := (List.mem_filter.mp htold).1
      rw [hevents] at hpage
      rcases List.mem_cons.mp (Event.mem_of_mem_page (e := .started token uri) rfl _ hpage) with h | h
      · cases h
      · exact hunpublished _ _ h
    rw [phase.collection, hnone]
    rfl

theorem Live.empty_of_failed {b start : Bench} (hl : Live start past b) {cause : RunFailure}
    (hfailed : .failed b.token cause ∈ b.events) : b.checker.collection.entries = [] := by
  have htold : .failed b.token cause ∈ b.currentRun.told := by
    rw [← Event.pages_join b.events] at hfailed
    rcases List.mem_append.mp hfailed with h | h
    · -- no older event names the current run
      exact absurd (hl.orderly.earlier _ h b.token rfl) (Nat.lt_irrefl _)
    · exact List.mem_filter.mpr ⟨h, by simp [Event.concerns, Event.token?]⟩
  show b.currentRun.collection.entries = []
  cases hl.stage with
  | spent phase => rw [phase.collection]; rfl
  | waiting document phase =>
    rw [phase.told] at htold
    simp at htold
  | placing document printed before later split counted phase =>
    rw [phase.told] at htold
    split at htold <;> simp [Answer.published] at htold

/-! ## 4. Together -/

end

/-- The collection after a history holds nothing stale. -/
structure Fresh (start : Bench) (past : List Happening) : Prop where
  /-- Every entry comes from the latest run. -/
  explained : ∀ entry ∈ (start.after past).checker.collection.entries,
    ∃ o : Origin, o.Explains start past entry
  /-- From the start of a run until something is published for it, there is no entry. -/
  unpublished : ∀ earlier since token uri,
    (start.after past).events = earlier ++ .started token uri :: since →
    (∀ u n, .published u n ∉ since) → (start.after past).checker.collection.entries = []
  /-- There is none once the latest run has failed. -/
  failed : ∀ cause, .failed (start.after past).token cause ∈ (start.after past).events →
    (start.after past).checker.collection.entries = []

/-- **Stale results never reach the collection**, whatever the history. -/
theorem collection_fresh {profile : CheckerProfile} {root : Path} {delay : Nat} {past : List Happening}
    (possible : (opening profile root delay).Possible past) : Fresh (opening profile root delay) past := by
  refine ⟨fun entry hentry => explained possible hentry, ?_, ?_⟩
  · intro earlier since token uri hevents hunpublished
    rcases live_or_ended possible with hl | he
    · exact hl.empty_of_unpublished hevents hunpublished
    · rw [he.collection]
  · intro cause hfailed
    rcases live_or_ended possible with hl | he
    · exact hl.empty_of_failed hfailed
    · rw [he.collection]

/-- Two runs of one checker. The second begins before the first has been answered, and both are
answered. -/
def overlapping : List Happening :=
  [.trigger sampleDocument, .expiry 1 sampleDocument, .output 1 sampleDocument [sampleFinding "<stdin>"],
    .trigger sampleDocument, .expiry 2 sampleDocument, .output 2 sampleDocument [sampleFinding "<stdin>"],
    .answer 1 ⟨sampleParcel, none⟩, .answer 2 ⟨sampleParcel, none⟩]

theorem collection_fresh_overlapping :
    sample.Possible overlapping ∧ (sample.after overlapping).checker.collection.entries ≠ []
      ∧ Fresh sample overlapping :=
  ⟨by decide, by decide, collection_fresh (by decide)⟩

end Bench

end SyntaxWatch
