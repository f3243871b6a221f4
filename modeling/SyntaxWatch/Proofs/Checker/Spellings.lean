import Mathlib.Data.List.Pairwise
import SyntaxWatch.Proofs.Checker.Settlement
import SyntaxWatch.Proofs.Finding.Grouping

/-!
# Spellings of one document

A checker may print one and the same document under several paths: `a.c`, `./a.c`, its absolute path,
or a marker for the buffer it was handed. What it prints is grouped by the path as it is spelled, and
each group is written by itself, in the place of whatever the document was held with. So when a run is
settled, a document is held with everything that was printed under *one* of its spellings, the one
that was answered last.

`Represented` says this, and how much of the output the collection has in the end: everything with a
path that leads somewhere, just when no document was spelled in two ways.
-/

set_option autoImplicit false

namespace SyntaxWatch

/-! ## 1. Where paths lead -/

namespace Target

/-- The document that a path string refers to, if it refers to any. -/
def uri? (root : Path) (trigger : Uri) (path : String) : Option Uri :=
  match resolve root trigger path with
  | .ok target => some target.uri
  | .error _ => none

theorem uri?_eq_some {root : Path} {trigger : Uri} {path : String} {uri : Uri} :
    uri? root trigger path = some uri ↔ ∃ target, resolve root trigger path = .ok target ∧ target.uri = uri := by
  unfold uri?
  cases resolve root trigger path with
  | ok target => simp
  | error cause => simp

end Target

namespace Parcel

variable {root : Path} {trigger : Uri} {printed : List Finding}

/-- A parcel has all that was printed under one spelling. -/
theorem mem_ofPrinted_iff_spelled {parcel : Parcel} :
    parcel ∈ ofPrinted root trigger printed ↔
      ∃ f ∈ printed, Target.resolve root trigger f.path = .ok parcel.target
        ∧ parcel.findings = printed.filter fun g => g.path = f.path := by
  rw [mem_ofPrinted, Findings.groups_ofList]
  unfold Findings.groupsOf
  constructor
  · rintro ⟨group, hgroup, htarget, hfindings⟩
    obtain ⟨path, hpath, rfl⟩ := List.mem_map.mp hgroup
    obtain ⟨f, hf, rfl⟩ := Findings.mem_pathsOf.mp hpath
    exact ⟨f, hf, htarget, hfindings⟩
  · rintro ⟨f, hf, htarget, hfindings⟩
    exact ⟨_, List.mem_map_of_mem (Findings.mem_pathsOf.mpr ⟨f, hf, rfl⟩), htarget, hfindings⟩

theorem uri_ofGroup? (group : String × List Finding) :
    (ofGroup? root trigger group).map (fun p => p.target.uri) = Target.uri? root trigger group.1 := by
  unfold ofGroup? Target.uri?
  cases Target.resolve root trigger group.1 <;> rfl

/-- There is one parcel for every path that leads somewhere, whatever it leads to. -/
theorem uris_ofPrinted (root : Path) (trigger : Uri) (printed : List Finding) :
    (ofPrinted root trigger printed).map (fun p => p.target.uri)
      = (Findings.pathsOf printed).filterMap (Target.uri? root trigger) := by
  unfold ofPrinted ofGroups
  rw [Findings.groups_ofList, List.map_filterMap]
  unfold Findings.groupsOf
  rw [List.filterMap_map]
  exact List.filterMap_congr fun path _ => uri_ofGroup? (path, _)

theorem length_ofGroups (groups : List (String × List Finding)) :
    ((ofGroups root trigger groups).flatMap findings).length
      = (Findings.under (fun path => (Target.uri? root trigger path).isSome) ⟨groups⟩).length := by
  induction groups with
  | nil => rfl
  | cons group groups ih =>
    obtain ⟨path, items⟩ := group
    rw [Findings.length_under_cons]
    unfold Target.uri?
    cases hgoal : Target.resolve root trigger path with
    | ok target =>
      rw [ofGroups_cons_of_ok groups hgoal, List.flatMap_cons, List.length_append, ih]
      rfl
    | error cause =>
      rw [ofGroups_cons_of_error groups hgoal, ih]
      exact (Nat.zero_add _).symm

/-- The parcels have as many findings as were printed with a path that leads somewhere. -/
theorem length_ofPrinted (printed : List Finding) :
    ((ofPrinted root trigger printed).flatMap findings).length
      = printed.countP fun f => (Target.uri? root trigger f.path).isSome := by
  unfold ofPrinted
  rw [length_ofGroups]
  exact Findings.length_under_ofList _ printed

/-- Two parcels are for one document just when it was spelled in two ways. -/
theorem uris_ofPrinted_nodup :
    ((ofPrinted root trigger printed).map fun p => p.target.uri).Nodup ↔
      ∀ f ∈ printed, ∀ g ∈ printed, ∀ uri, Target.uri? root trigger f.path = some uri →
        Target.uri? root trigger g.path = some uri → f.path = g.path := by
  rw [uris_ofPrinted, List.Nodup, List.pairwise_filterMap]
  constructor
  · intro hpairwise f hf g hg uri hfuri hguri
    by_contra hne
    have : Std.Symm fun p q => ∀ u, Target.uri? root trigger p = some u →
        ∀ v, Target.uri? root trigger q = some v → u ≠ v :=
      ⟨fun _ _ h u hu v hv => (h v hv u hu).symm⟩
    exact hpairwise.forall (Findings.mem_pathsOf.mpr ⟨f, hf, rfl⟩) (Findings.mem_pathsOf.mpr ⟨g, hg, rfl⟩) hne
      uri hfuri uri hguri rfl
  · intro honce
    refine (Findings.pathsOf_nodup printed).pairwise_of_forall_ne fun p hp q hq hne u hu v hv huv => hne ?_
    obtain ⟨f, hf, rfl⟩ := Findings.mem_pathsOf.mp hp
    obtain ⟨g, hg, rfl⟩ := Findings.mem_pathsOf.mp hq
    exact honce f hf g hg u hu (huv ▸ hv)

end Parcel

namespace Bench

/-! ## 2. What is held of an output -/

/-- What a collection holds of a run's output when the last of its answers has come. -/
structure Represented (root : Path) (source : String) (trigger : Uri) (printed : List Finding)
    (answers : List Answer) (c : Collection) : Prop where
  /-- A document is held with all that was printed under one of its spellings, as it was placed. Its
  other spellings had been answered before. -/
  held : ∀ uri items, (uri, items) ∈ c.entries ↔
    ∃ earlier target found rest, ∃ f ∈ printed,
      answers = earlier ++ ⟨⟨target, printed.filter fun g => g.path = f.path⟩, found⟩ :: rest
        ∧ Target.resolve root trigger f.path = .ok target ∧ target.uri = uri
        ∧ (∀ x ∈ rest, x.uri ≠ uri)
        ∧ items = Diagnostic.place (printed.filter fun g => g.path = f.path) source target found
  /-- Every spelling that leads somewhere has been answered, and only once. -/
  answered : (answers.map Answer.parcel).Perm (Parcel.ofPrinted root trigger printed)
  /-- Whatever was printed about a document, the document is held. -/
  covered : ∀ f ∈ printed, ∀ uri, Target.uri? root trigger f.path = some uri →
    uri ∈ c.entries.map Prod.fst
  /-- A document that was spelled in one way only is held with all that was printed about it. -/
  whole : ∀ uri, (∀ f ∈ printed, ∀ g ∈ printed, Target.uri? root trigger f.path = some uri →
      Target.uri? root trigger g.path = some uri → f.path = g.path) →
    ∀ items, (uri, items) ∈ c.entries → ∃ target found, target.uri = uri
      ∧ items = Diagnostic.place (printed.filter fun f => Target.uri? root trigger f.path = some uri)
          source target found
  /-- No more is held than was printed with a path that leads somewhere. -/
  count_le : c.snapshot.totalCount ≤ printed.countP fun f => (Target.uri? root trigger f.path).isSome
  /-- All of it is held just when no document was spelled in two ways. -/
  count_eq : c.snapshot.totalCount = printed.countP (fun f => (Target.uri? root trigger f.path).isSome) ↔
    ∀ f ∈ printed, ∀ g ∈ printed, ∀ uri, Target.uri? root trigger f.path = some uri →
      Target.uri? root trigger g.path = some uri → f.path = g.path

section Answered

variable {root : Path} {trigger : Uri} {printed : List Finding} {answers : List Answer}

/-- An answer is about all that was printed under one spelling, … -/
theorem spelled_of_answered (answered : (answers.map Answer.parcel).Perm (Parcel.ofPrinted root trigger printed))
    {a : Answer} (ha : a ∈ answers) :
    ∃ f ∈ printed, Target.resolve root trigger f.path = .ok a.parcel.target
      ∧ a.parcel.findings = printed.filter fun g => g.path = f.path :=
  Parcel.mem_ofPrinted_iff_spelled.mp (answered.subset (List.mem_map_of_mem ha))

/-- … and so there is something in it. -/
theorem findings_of_answered (answered : (answers.map Answer.parcel).Perm (Parcel.ofPrinted root trigger printed)) :
    ∀ a ∈ answers, a.parcel.findings ≠ [] := by
  intro a ha
  obtain ⟨f, hf, _, hall⟩ := spelled_of_answered answered ha
  rw [hall]
  exact List.ne_nil_of_mem (List.mem_filter.mpr ⟨hf, by simp⟩)

/-- A document is held with what was printed under the spelling that was answered last. -/
theorem mem_written_of_answered (source : String)
    (answered : (answers.map Answer.parcel).Perm (Parcel.ofPrinted root trigger printed)) (uri : Uri)
    (items : List Diagnostic) :
    (uri, items) ∈ (Answer.written source answers).entries ↔
      ∃ earlier target found rest, ∃ f ∈ printed,
        answers = earlier ++ ⟨⟨target, printed.filter fun g => g.path = f.path⟩, found⟩ :: rest
          ∧ Target.resolve root trigger f.path = .ok target ∧ target.uri = uri
          ∧ (∀ x ∈ rest, x.uri ≠ uri)
          ∧ items = Diagnostic.place (printed.filter fun g => g.path = f.path) source target found := by
  rw [Answer.mem_written]
  constructor
  · rintro ⟨earlier, ⟨⟨target, findings⟩, found⟩, rest, hanswers, _, hentry, hlast⟩
    have hmem : ⟨⟨target, findings⟩, found⟩ ∈ answers := by simp [hanswers]
    obtain ⟨f, hf, htarget, rfl⟩ := spelled_of_answered answered hmem
    obtain ⟨rfl, rfl⟩ := Prod.mk.inj hentry
    exact ⟨earlier, target, found, rest, f, hf, hanswers, htarget, rfl, hlast, rfl⟩
  · rintro ⟨earlier, target, found, rest, f, hf, hanswers, htarget, rfl, hlast, rfl⟩
    have hmem : ⟨⟨target, printed.filter fun g => g.path = f.path⟩, found⟩ ∈ answers := by simp [hanswers]
    exact ⟨earlier, _, rest, hanswers, findings_of_answered answered _ hmem, rfl, hlast⟩

/-- Whatever was printed about a document, somebody has answered for it. -/
theorem answer_of_printed (answered : (answers.map Answer.parcel).Perm (Parcel.ofPrinted root trigger printed))
    {f : Finding} (hf : f ∈ printed) {uri : Uri} (huri : Target.uri? root trigger f.path = some uri) :
    ∃ a ∈ answers, a.uri = uri := by
  obtain ⟨target, htarget, rfl⟩ := Target.uri?_eq_some.mp huri
  have hsent : ⟨target, printed.filter fun g => g.path = f.path⟩ ∈ Parcel.ofPrinted root trigger printed :=
    Parcel.mem_ofPrinted_iff_spelled.mpr ⟨f, hf, htarget, rfl⟩
  obtain ⟨a, ha, hparcel⟩ := List.mem_map.mp (answered.symm.subset hsent)
  refine ⟨a, ha, ?_⟩
  unfold Answer.uri
  rw [hparcel]

/-- The output is represented once every parcel has been answered. -/
theorem Represented.of_written (source : String)
    (answered : (answers.map Answer.parcel).Perm (Parcel.ofPrinted root trigger printed)) :
    Represented root source trigger printed answers (Answer.written source answers) := by
  have hfindings := findings_of_answered answered
  have hheld := mem_written_of_answered source answered
  have hbrought : (answers.flatMap fun a => a.parcel.findings).length
      = printed.countP fun f => (Target.uri? root trigger f.path).isSome := by
    rw [← Parcel.length_ofPrinted, ← (answered.flatMap_right Parcel.findings).length_eq, List.flatMap_map]
  have hnodup : (answers.map Answer.uri).Nodup ↔
      ((Parcel.ofPrinted root trigger printed).map fun p => p.target.uri).Nodup := by
    rw [← (answered.map fun p => p.target.uri).nodup_iff, List.map_map]
    rfl
  obtain ⟨hle, hiff⟩ := Answer.totalCount_written source hfindings
  rw [hbrought] at hle hiff
  refine ⟨hheld, answered, ?_, ?_, hle, hiff.trans (hnodup.trans Parcel.uris_ofPrinted_nodup)⟩
  · intro f hf uri huri
    exact (Answer.mem_keys_written hfindings).mpr (answer_of_printed answered hf huri)
  · intro uri honce items hitems
    obtain ⟨_, target, found, _, f, hf, _, htarget, huri, _, rfl⟩ := (hheld uri items).mp hitems
    have hfuri := Target.uri?_eq_some.mpr ⟨target, htarget, huri⟩
    refine ⟨target, found, huri, ?_⟩
    congr 1
    refine List.filter_congr fun g hg => ?_
    rw [decide_eq_decide]
    constructor
    · intro hpath
      rw [hpath]
      exact hfuri
    · intro hguri
      exact honce g hg f hf hguri hfuri

end Answered

/-! ## 3. From the history -/

section Settled

variable {profile : CheckerProfile} {root : Path} {delay : Nat} {token : Nat} {document : DocumentRef}
  {printed : List Finding} {before later : List Happening}

/-- A run that is told to be settled has no parcel out any more. -/
theorem nothing_out {b : Bench} {source : String} {sent : List Parcel} {answers : List Answer}
    (hp : b.currentRun.Placing source document sent answers) (ho : b.Orderly) (htoken : token = b.token)
    (settled : .settled token ∈ b.events) : b.currentRun.parcels = [] := by
  subst htoken
  obtain ⟨earlier, since, hevents, hearlier, hsince⟩ := told_since hp ho
  have hmem : .settled b.token ∈ since.filter (Event.concerns b.token) := by
    rw [hevents] at settled
    rcases List.mem_append.mp settled with hmem | hmem
    · exact absurd rfl (hearlier _ hmem)
    · rw [List.mem_filter]
      exact ⟨(List.mem_cons.mp hmem).resolve_left nofun, by simp [Event.concerns, Event.token?]⟩
  rw [hsince] at hmem
  by_contra hout
  rw [if_neg hout, List.append_nil] at hmem
  obtain ⟨a, _, ha⟩ := List.mem_map.mp hmem
  cases ha

/-- **A settled run is represented by one spelling of each document.** This holds of every output, of
every history in which nothing newer has come, and of every order of the answers. -/
theorem spellings_exact
    (possible : (opening profile root delay).Possible (before ++ .output token document printed :: later))
    (accepted : ((opening profile root delay).after before).checker.runs.counts token = true)
    (current : ((opening profile root delay).after
      (before ++ .output token document printed :: later)).checker.runs.counts token = true)
    (settled : .settled token ∈ ((opening profile root delay).after
      (before ++ .output token document printed :: later)).events) :
    Represented root profile.displayName document.uri printed (Happening.answersTo token later)
      ((opening profile root delay).after
        (before ++ .output token document printed :: later)).checker.collection := by
  obtain ⟨ho, hp⟩ := placing_of_accepted possible accepted current
  have hanswered := hp.parcels
  rw [nothing_out hp ho (RunState.counts_iff.mp current).2 settled, List.append_nil] at hanswered
  have hrepresented := Represented.of_written profile.displayName hanswered
  rw [← hp.collection] at hrepresented
  exact hrepresented

end Settled

/-! ### A document spelled in three ways -/

/-- One file spelled in three ways, twice in one of them, and a header. -/
def severalSpellings : List Finding :=
  [sampleFinding "a.c", sampleFinding "b.h", sampleFinding "<stdin>", sampleFinding "./a.c", sampleFinding "a.c"]

def spelled (path : String) (findings : List Finding) : Parcel :=
  ⟨⟨if path = "b.h" then ⟨"file:///w/b.h"⟩ else sampleDocument.uri, decide (path = "<stdin>")⟩, findings⟩

/-- The marker is answered first, and the path with the two findings before the other one. -/
def answersToSpellings : List Happening :=
  [.answer 1 ⟨spelled "<stdin>" [sampleFinding "<stdin>"], none⟩,
    .answer 1 ⟨spelled "a.c" [sampleFinding "a.c", sampleFinding "a.c"], none⟩,
    .answer 1 ⟨spelled "b.h" [sampleFinding "b.h"], none⟩,
    .answer 1 ⟨spelled "./a.c" [sampleFinding "./a.c"], none⟩]

def beforeSpellings : List Happening := [.trigger sampleDocument, .expiry 1 sampleDocument]

theorem spellings_exact_three :
    sample.Possible (beforeSpellings ++ .output 1 sampleDocument severalSpellings :: answersToSpellings)
      ∧ (sample.after beforeSpellings).checker.runs.counts 1 = true
      ∧ (sample.after (beforeSpellings ++ .output 1 sampleDocument severalSpellings
          :: answersToSpellings)).checker.runs.counts 1 = true
      ∧ .settled 1 ∈ (sample.after (beforeSpellings ++ .output 1 sampleDocument severalSpellings
          :: answersToSpellings)).events
      ∧ Represented sample.checker.root "Check" sampleDocument.uri severalSpellings
          (Happening.answersTo 1 answersToSpellings)
          (sample.after (beforeSpellings ++ .output 1 sampleDocument severalSpellings
            :: answersToSpellings)).checker.collection := by
  have possible : sample.Possible
      (beforeSpellings ++ .output 1 sampleDocument severalSpellings :: answersToSpellings) := by decide
  have accepted : (sample.after beforeSpellings).checker.runs.counts 1 = true := by decide
  have current : (sample.after (beforeSpellings ++ .output 1 sampleDocument severalSpellings
      :: answersToSpellings)).checker.runs.counts 1 = true := by decide
  have settled : .settled 1 ∈ (sample.after (beforeSpellings ++ .output 1 sampleDocument severalSpellings
      :: answersToSpellings)).events := by decide
  exact ⟨possible, accepted, current, settled, spellings_exact possible accepted current settled⟩

/-- Not everything that was printed about a document is held in the end: five findings have paths
that lead somewhere, and two of them are left. -/
theorem not_all_spellings_held :
    ¬ ∀ (profile : CheckerProfile) (root : Path) (delay token : Nat) (document : DocumentRef)
        (printed : List Finding) (before later : List Happening),
      (opening profile root delay).Possible (before ++ .output token document printed :: later) →
      ((opening profile root delay).after before).checker.runs.counts token = true →
      ((opening profile root delay).after
        (before ++ .output token document printed :: later)).checker.runs.counts token = true →
      .settled token ∈ ((opening profile root delay).after
        (before ++ .output token document printed :: later)).events →
      ((opening profile root delay).after
        (before ++ .output token document printed :: later)).checker.collection.snapshot.totalCount
        = printed.countP fun f => (Target.uri? root document.uri f.path).isSome := by
  intro hall
  have hcount := hall ⟨"check", "Check", [], ["c"]⟩ (Path.ofText "/w") 500 1 sampleDocument severalSpellings
    beforeSpellings answersToSpellings (by decide) (by decide) (by decide) (by decide)
  rw [Collection.totalCount_snapshot] at hcount
  revert hcount
  decide

end Bench

end SyntaxWatch
