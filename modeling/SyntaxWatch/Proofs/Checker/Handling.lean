import Mathlib.Data.List.Basic
import SyntaxWatch.Proofs.Checker.CurrentRun
import SyntaxWatch.Proofs.Checker.Writing

/-!
# From a call to the end of the run

Somebody who checks one file after the other calls a checker once and calls it again only when the run
that came of it has ended. Between the two the checker has something under way at every moment: the
call itself, then the timer, then the process, then the lookups. A `Job` is such a thing, and a
`Return` is what comes of it. `Handling` says how a checker that was at rest stands when it has so
much under way, down to what its collection holds.

Whatever comes back, and in whatever order, the checker goes on handling the document
(`Handling.step`). It tells of the ending of its run exactly when nothing is left under way, and tells
nothing after it (`Report`).

## What is *not* in it

A call that comes while something is under way, and the end of the checker. A bench has both.
-/

set_option autoImplicit false

namespace SyntaxWatch

/-! ## 1. Jobs -/

/-- Something that is under way for a checker and comes back to it. -/
inductive Job where
  /-- The document has been announced, and the checker has not heard of it yet. -/
  | call (document : DocumentRef)
  | timer (seq : Nat) (document : DocumentRef)
  | process (token : Nat) (document : DocumentRef)
  | lookUp (token : Nat) (parcel : Parcel)
  deriving DecidableEq, Repr

/-- What an effect gets under way. -/
def Job.ofEffect? : Effect → Option Job
  | .startTimer seq document => some (.timer seq document)
  | .launch token document => some (.process token document)
  | .lookUp token target findings => some (.lookUp token ⟨target, findings⟩)
  | .emit _ | .warn _ => none

/-- What comes back. A process may bring any output. -/
inductive Return where
  | call (document : DocumentRef)
  | expiry (seq : Nat) (document : DocumentRef)
  | output (token : Nat) (document : DocumentRef) (found : Findings)
  | failure (token : Nat) (document : DocumentRef) (cause : RunFailure)
  | death (token : Nat) (document : DocumentRef)
  | answer (token : Nat) (a : Answer)
  deriving DecidableEq, Repr

namespace Return

/-- Where it comes from. -/
def job : Return → Job
  | call document => .call document
  | expiry seq document => .timer seq document
  | output token document _ | failure token document _ | death token document => .process token document
  | answer token a => .lookUp token a.parcel

/-- What a checker of this name hears. -/
def input (source : String) : Return → Input
  | call document => .trigger document
  | expiry seq document => .expired seq document
  | output token document found => .finished token document found
  | failure token _ cause => .failed token cause
  | death token _ => .aborted token
  | answer token a => .placed token a.uri (a.diagnostics source)

end Return

/-! ## 2. A checker that handles a document -/

namespace Checker

/-- The checker waits for nothing. -/
structure AtRest (c : Checker) : Prop where
  alive : c.runs.disposed = false
  armed : c.runs.armed = none
  running : c.runs.running = none
  isOpen : c.collection.IsOpen c.name

/-- The checker after a call. -/
def called (c : Checker) : Checker :=
  { c with runs := { c.runs with armings := c.runs.armings + 1, armed := some (c.runs.armings + 1) } }

/-- The token of the run that comes of a call. -/
def nextToken (c : Checker) : Nat := c.runs.token + 1

/-- The checker in the run that comes of a call, with so many files left to write and this in its
collection. -/
def inRun (c : Checker) (launched : Bool) (left : Nat) (collection : Collection) : Checker :=
  { c with
    runs := { c.runs with
      armings := c.runs.armings + 1
      armed := none
      token := c.nextToken
      running := if launched then some c.nextToken else none
      unwritten := left }
    collection := collection }

/-- What can be in the collection when the run on a document has ended. -/
inductive Brought (c : Checker) (document : DocumentRef) : Collection → Prop where
  /-- The run came to nothing. -/
  | nothing : Brought c document (.new c.name)
  /-- The parcels of this output have all been answered, and the answers written. -/
  | output (found : Findings) (answers : List Answer)
      (answered : (answers.map Answer.parcel).Perm (Parcel.ofGroups c.root document.uri found.groups)) :
      Brought c document (Answer.written c.name answers)

/-- The first checker has been called for a document. It has become the second one, and has these
jobs under way. -/
inductive Handling (c : Checker) (document : DocumentRef) : Checker → List Job → Prop where
  | call : Handling c document c [.call document]
  | timer : Handling c document c.called [.timer (c.runs.armings + 1) document]
  | process : Handling c document (c.inRun true 0 (.new c.name)) [.process c.nextToken document]
  /-- Some parcels of the output have been answered, and these have not. -/
  | lookUps (found : Findings) (answers : List Answer) (parcels : List Parcel) {jobs : List Job}
      (left : parcels ≠ []) (out : jobs.Perm (parcels.map (.lookUp c.nextToken)))
      (answered : (answers.map Answer.parcel ++ parcels).Perm
        (Parcel.ofGroups c.root document.uri found.groups)) :
      Handling c document (c.inRun true parcels.length (Answer.written c.name answers)) jobs
  | ended {collection : Collection} (brought : c.Brought document collection) :
      Handling c document (c.inRun false 0 collection) []

/-- What is told in a step that leaves these jobs. -/
structure Report (left : List Job) (events : List Event) : Prop where
  /-- The ending is told when nothing is left, and only then. -/
  ending : events.countP Event.isTerminal = if left = [] then 1 else 0
  /-- Nothing is told after the ending. -/
  last : left = [] → ∃ e ∈ events.getLast?, e.isTerminal = true
  short : events.length ≤ 2

variable {c d : Checker} {document : DocumentRef} {jobs : List Job}

theorem Brought.isOpen {collection : Collection} (hb : c.Brought document collection) :
    collection.IsOpen c.name := by
  cases hb with
  | nothing => exact ⟨rfl, rfl, rfl⟩
  | output found answers answered => exact Answer.written_isOpen _ _

/-- The order of the jobs makes no difference. -/
theorem Handling.perm {others : List Job} (hh : Handling c document d jobs) (hperm : jobs.Perm others) :
    Handling c document d others := by
  cases hh with
  | call =>
    rw [List.perm_singleton.mp hperm.symm]
    exact .call
  | timer =>
    rw [List.perm_singleton.mp hperm.symm]
    exact .timer
  | process =>
    rw [List.perm_singleton.mp hperm.symm]
    exact .process
  | lookUps found answers parcels left out answered =>
    exact .lookUps found answers parcels left (hperm.symm.trans out) answered
  | ended brought =>
    rw [List.nil_perm.mp hperm]
    exact .ended brought

theorem Handling.name (hh : Handling c document d jobs) : d.name = c.name := by
  cases hh <;> rfl

/-- **When nothing is under way any more, the run has ended.** -/
theorem Handling.ended_of_nil (hh : Handling c document d []) :
    ∃ collection, c.Brought document collection ∧ d = c.inRun false 0 collection := by
  generalize hnone : ([] : List Job) = jobs at hh
  cases hh with
  | ended brought => exact ⟨_, brought, rfl⟩
  | lookUps found answers parcels left out answered =>
    rw [← hnone] at out
    exact absurd (List.map_eq_nil_iff.mp (List.nil_perm.mp out)) left
  | _ => cases hnone

/-- As long as the call is under way, nothing has happened. -/
theorem Handling.of_call (hh : Handling c document d jobs) {other : DocumentRef} (hcall : .call other ∈ jobs) :
    d = c ∧ jobs = [.call document] := by
  cases hh with
  | call => exact ⟨rfl, rfl⟩
  | lookUps found answers parcels left out answered =>
    obtain ⟨_, _, hjob⟩ := List.mem_map.mp (out.subset hcall)
    cases hjob
  | ended brought => cases hcall
  | timer => cases List.mem_singleton.mp hcall
  | process => cases List.mem_singleton.mp hcall

theorem AtRest.inRun (hc : c.AtRest) {collection : Collection} (hb : c.Brought document collection) :
    (c.inRun false 0 collection).AtRest := ⟨hc.alive, rfl, rfl, hb.isOpen⟩

/-! ## 3. One return -/

theorem inRun_withLeft (launched : Bool) (left n : Nat) (collection : Collection) :
    (c.inRun launched left collection).withLeft c.nextToken n = c.inRun (decide (n ≠ 0)) n collection := by
  unfold withLeft RunState.withLeft inRun
  by_cases hn : n = 0
  · simp [hn]
  · simp [hn]

theorem jobs_endingIf (done : Bool) (token : Nat) : (endingIf done token).filterMap Job.ofEffect? = [] := by
  cases done <;> rfl

theorem jobs_sending (token : Nat) (parcels : List Parcel) :
    (sending token 0 parcels).filterMap Job.ofEffect? = parcels.map (.lookUp token) := by
  unfold sending
  rw [List.filterMap_append, jobs_endingIf, List.append_nil, List.filterMap_map, ← List.filterMap_eq_map]
  rfl

theorem Report.quiet {left : List Job} {events : List Event} (hleft : left ≠ [])
    (hquiet : ∀ e ∈ events, e.isTerminal = false) (hshort : events.length ≤ 2) : Report left events := by
  refine ⟨?_, fun h => absurd h hleft, hshort⟩
  rw [if_neg hleft, List.countP_eq_zero]
  intro e he
  rw [hquiet e he]
  exact Bool.false_ne_true

theorem Report.closing (before : List Event) {ending : Event} (hquiet : ∀ e ∈ before, e.isTerminal = false)
    (hending : ending.isTerminal = true) (hshort : before.length ≤ 1) : Report [] (before ++ [ending]) := by
  refine ⟨?_, fun _ => ⟨ending, by simp, hending⟩, by simpa using hshort⟩
  rw [if_pos rfl, List.countP_append, List.countP_singleton, if_pos hending, List.countP_eq_zero.mpr]
  intro e he
  rw [hquiet e he]
  exact Bool.false_ne_true

/-- What a step has made of the checker that handles a document, when these jobs had been left before
its effects. -/
structure Handled (c : Checker) (document : DocumentRef) (left : List Job) (result : Checker × List Effect) :
    Prop where
  handling : Handling c document result.1 (left ++ result.2.filterMap Job.ofEffect?)
  report : Report (left ++ result.2.filterMap Job.ofEffect?) (eventsOf result.2)

section Step

variable (hc : c.AtRest)

include hc

theorem step_call : c.step (.trigger document) = (c.called, [.startTimer (c.runs.armings + 1) document]) :=
  meet_trigger hc.alive document

theorem step_expiry :
    c.called.step (.expired (c.runs.armings + 1) document)
      = (c.inRun true 0 (.new c.name),
          [.emit (.started c.nextToken document.uri), .launch c.nextToken document]) := by
  have hfire : c.called.step (.expired (c.runs.armings + 1) document) = _ :=
    meet_expiry (c := c.called) hc.alive document rfl
  rw [show c.called.collection.clear = .new c.name from hc.isOpen.clear] at hfire
  exact hfire

theorem step_output (found : Findings) :
    (c.inRun true 0 (.new c.name)).step (.finished c.nextToken document found)
      = (c.inRun (decide ((Parcel.ofGroups c.root document.uri found.groups).length ≠ 0))
            (Parcel.ofGroups c.root document.uri found.groups).length (.new c.name),
          sending c.nextToken 0 (Parcel.ofGroups c.root document.uri found.groups)) := by
  have htake := takeOutput_eq (c := c.inRun true 0 (.new c.name)) hc.alive rfl document found
  unfold step
  rw [if_neg (by simp [isDisposed, inRun, hc.alive]), ← inRun_withLeft]
  exact htake

theorem step_failure (cause : RunFailure) :
    (c.inRun true 0 (.new c.name)).step (.failed c.nextToken cause)
      = (c.inRun false 0 (.new c.name),
          [.warn ("Checker " ++ c.name ++ " received error: " ++ cause.message),
            .emit (.failed c.nextToken cause)]) := by
  have hfail : (c.inRun true 0 (.new c.name)).step (.failed c.nextToken cause) = _ :=
    meet_failure (c := c.inRun true 0 (.new c.name)) hc.alive c.nextToken default cause
  rw [hfail]
  simp [inRun, RunState.giveUp, name]

theorem step_death :
    (c.inRun true 0 (.new c.name)).step (.aborted c.nextToken)
      = (c.inRun false 0 (.new c.name), [.emit (.failed c.nextToken .aborted)]) := by
  have hfail : (c.inRun true 0 (.new c.name)).step (.aborted c.nextToken) = _ :=
    meet_death (c := c.inRun true 0 (.new c.name)) hc.alive c.nextToken default
  rw [hfail]
  simp [inRun, RunState.giveUp]

theorem step_answer (a : Answer) (n : Nat) (collection : Collection) :
    (c.inRun true (n + 1) collection).step (.placed c.nextToken a.uri (a.diagnostics c.name))
      = (c.inRun (decide (n ≠ 0)) n (collection.set a.uri (a.diagnostics c.name)),
          .emit (.published a.uri (a.diagnostics c.name).length) :: endingIf (decide (n = 0)) c.nextToken) := by
  have hwrite : (c.inRun true (n + 1) collection).step (.placed c.nextToken a.uri (a.diagnostics c.name)) = _ :=
    meet_answer (c := c.inRun true (n + 1) collection) hc.alive rfl a rfl
  rw [hwrite, ← inRun_withLeft true (n + 1) n]
  rfl

theorem handled_call : Handled c document [] (c.step (.trigger document)) := by
  rw [step_call hc]
  exact ⟨.timer, .quiet nofun nofun (Nat.zero_le 2)⟩

theorem handled_expiry : Handled c document [] (c.called.step (.expired (c.runs.armings + 1) document)) := by
  rw [step_expiry hc]
  exact ⟨.process, .quiet nofun (by simp [eventsOf, Event.isTerminal]) (Nat.le_succ 1)⟩

theorem handled_output (found : Findings) :
    Handled c document [] ((c.inRun true 0 (.new c.name)).step (.finished c.nextToken document found)) := by
  rw [step_output hc]
  generalize hparcels : Parcel.ofGroups c.root document.uri found.groups = parcels
  by_cases hnone : parcels = []
  · subst hnone
    exact ⟨.ended (.output found [] (by simp [hparcels])), .closing [] nofun rfl (Nat.zero_le 1)⟩
  · have hlength : parcels.length ≠ 0 := fun h => hnone (List.length_eq_zero_iff.mp h)
    have hleft : parcels.map (Job.lookUp c.nextToken) ≠ [] := fun h => hnone (List.map_eq_nil_iff.mp h)
    refine ⟨?_, ?_⟩
    · rw [decide_eq_true hlength, jobs_sending]
      exact .lookUps found [] parcels hnone .rfl (by simp [hparcels])
    · rw [jobs_sending, Bench.eventsOf_sending, if_neg hnone]
      exact .quiet hleft (fun _ he => nomatch he) (Nat.zero_le 2)

theorem handled_failure (cause : RunFailure) :
    Handled c document [] ((c.inRun true 0 (.new c.name)).step (.failed c.nextToken cause)) := by
  rw [step_failure hc]
  exact ⟨.ended .nothing, .closing [] nofun rfl (Nat.zero_le 1)⟩

theorem handled_death :
    Handled c document [] ((c.inRun true 0 (.new c.name)).step (.aborted c.nextToken)) := by
  rw [step_death hc]
  exact ⟨.ended .nothing, .closing [] nofun rfl (Nat.zero_le 1)⟩

theorem handled_answer {found : Findings} {answers : List Answer} {parcels : List Parcel} {a : Answer}
    (ha : a.parcel ∈ parcels) (hjobs : jobs.Perm ((parcels.erase a.parcel).map (.lookUp c.nextToken)))
    (answered : (answers.map Answer.parcel ++ parcels).Perm
      (Parcel.ofGroups c.root document.uri found.groups)) :
    Handled c document jobs
      ((c.inRun true parcels.length (Answer.written c.name answers)).step
        (.placed c.nextToken a.uri (a.diagnostics c.name))) := by
  have hlength : parcels.length = (parcels.erase a.parcel).length + 1 := by
    have hpos := List.length_pos_of_mem ha
    rw [List.length_erase_of_mem ha]
    omega
  have hsplit : ((answers ++ [a]).map Answer.parcel ++ parcels.erase a.parcel).Perm
      (Parcel.ofGroups c.root document.uri found.groups) := by
    rw [List.map_append, List.append_assoc]
    exact ((List.perm_cons_erase ha).symm.append_left _).trans answered
  rw [hlength, step_answer hc, ← Answer.written_snoc]
  generalize parcels.erase a.parcel = rest at hjobs hsplit
  by_cases hrest : rest = []
  · subst hrest
    rw [List.append_nil] at hsplit
    rw [List.perm_nil.mp hjobs]
    exact ⟨.ended (.output found (answers ++ [a]) hsplit),
      .closing [.published a.uri _] (by simp [Event.isTerminal]) rfl (Nat.le_refl 1)⟩
  · have hne : rest.length ≠ 0 := fun h => hrest (List.length_eq_zero_iff.mp h)
    have hleft : jobs ≠ [] := by
      rintro rfl
      exact hrest (List.map_eq_nil_iff.mp (List.nil_perm.mp hjobs))
    rw [decide_eq_true hne, decide_eq_false hne]
    have hsame : jobs ++ (Effect.emit (.published a.uri (a.diagnostics c.name).length)
        :: endingIf false c.nextToken).filterMap Job.ofEffect? = jobs := List.append_nil jobs
    refine ⟨?_, ?_⟩
    · rw [hsame]
      exact .lookUps found (answers ++ [a]) rest hrest hjobs hsplit
    · rw [hsame]
      exact .quiet hleft (by simp [endingIf, eventsOf, Event.isTerminal]) (Nat.le_succ 1)

/-- **Whatever comes back, the document is still handled**, and the ending of the run is told when it
was the last thing under way. -/
theorem Handling.step (hh : Handling c document d jobs) {r : Return} (hr : r.job ∈ jobs) :
    Handled c document (jobs.erase r.job) (d.step (r.input d.name)) := by
  rw [hh.name]
  cases hh with
  | call =>
    have hjob := List.mem_singleton.mp hr
    rw [hjob, List.erase_cons_head]
    cases r with
    | call document =>
      cases hjob
      exact handled_call hc
    | _ => cases hjob
  | timer =>
    have hjob := List.mem_singleton.mp hr
    rw [hjob, List.erase_cons_head]
    cases r with
    | expiry seq document =>
      cases hjob
      exact handled_expiry hc
    | _ => cases hjob
  | process =>
    have hjob := List.mem_singleton.mp hr
    rw [hjob, List.erase_cons_head]
    cases r with
    | output token document found =>
      cases hjob
      exact handled_output hc found
    | failure token document cause =>
      cases hjob
      exact handled_failure hc cause
    | death token document =>
      cases hjob
      exact handled_death hc
    | _ => cases hjob
  | lookUps found answers parcels left out answered =>
    obtain ⟨parcel, hparcel, hjob⟩ := List.mem_map.mp (out.subset hr)
    cases r with
    | answer token a =>
      cases hjob
      have hinj : Function.Injective (Job.lookUp c.nextToken) := fun _ _ h => (Job.lookUp.inj h).2
      refine handled_answer hc hparcel ?_ answered
      rw [List.map_erase hinj]
      exact out.erase _
    | _ => cases hjob
  | ended brought => cases hr

end Step

end Checker

end SyntaxWatch
