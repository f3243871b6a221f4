import SyntaxWatch.Proofs.Checker.Phase

/-!
# What holds after every history

`Live` is the invariant of a checker that has not ended: the tokens on its bench are in order, and
its current run is in one of the phases. The third phase is tied to the history: it names the output
that was taken in, and its answers are those that came since. `Ended` is the only other possibility.

One of the two holds after every possible history, `live_or_ended`. The step is taken by one lemma
for the happenings aside, and by one for each happening of the current run.
-/

set_option autoImplicit false

namespace SyntaxWatch

namespace Bench

/-! ## 1. The invariant -/

inductive Stage (start : Bench) (past : List Happening) (b : Bench) : Prop where
  | spent (phase : b.currentRun.Spent start.checker.name)
  | waiting (document : DocumentRef) (phase : b.currentRun.Waiting start.checker.name document)
  | placing (document : DocumentRef) (printed : List Finding) (before later : List Happening)
      (split : past = before ++ .output b.token document printed :: later)
      (counted : (start.after before).checker.runs.counts b.token = true)
      (phase : b.currentRun.Placing start.checker.name document
        (Parcel.ofPrinted start.checker.root document.uri printed) (Happening.answersTo b.token later))

structure Live (start : Bench) (past : List Happening) (b : Bench) : Prop where
  orderly : b.Orderly
  stage : Stage start past b

/-- The checker has ended with nothing in its collection, and nothing has been written since. -/
structure Ended (name : String) (b : Bench) : Prop where
  disposed : b.checker.runs.disposed = true
  collection : b.checker.collection = ⟨name, [], true, 0⟩

theorem after_later (start : Bench) (past : List Happening) :
    Checker.Later start.checker (start.after past).checker := by
  induction past generalizing start with
  | nil => exact .refl _
  | cons h past ih => exact (Checker.meet_later h).trans (ih (start.meet h))

/-- Who has not ended by now had not ended before. -/
theorem alive_upto {start : Bench} {past later : List Happening}
    (alive : (start.after (past ++ later)).checker.runs.disposed = false) :
    (start.after past).checker.runs.disposed = false := by
  rw [← Bool.not_eq_true]
  intro hended
  rw [after_append, (after_later _ later).disposed hended] at alive
  cases alive

variable {start b : Bench} {past : List Happening}

theorem Stage.isOpen (hs : Stage start past b) : b.checker.collection.IsOpen start.checker.name := by
  show b.currentRun.collection.IsOpen start.checker.name
  cases hs with
  | spent phase =>
    rw [phase.collection]
    exact ⟨rfl, rfl, rfl⟩
  | waiting document phase =>
    rw [phase.collection]
    exact ⟨rfl, rfl, rfl⟩
  | placing document printed before later split counted phase =>
    rw [phase.collection]
    exact Answer.written_isOpen _ _

/-- A process of the current run is out only while the run is waiting for it. -/
theorem Stage.waiting_of_process (hs : Stage start past b) {document : DocumentRef}
    (hout : .process b.token document ∈ b.errands) :
    b.currentRun.Waiting start.checker.name document := by
  have hmem := mem_processes hout
  cases hs with
  | spent phase =>
    rw [phase.processes] at hmem
    cases hmem
  | waiting document' phase =>
    rw [phase.processes] at hmem
    cases List.mem_singleton.mp hmem
    exact phase
  | placing document' printed before later split counted phase =>
    rw [phase.processes] at hmem
    cases hmem

/-! ## 2. One happening -/

/-- What is still out for the current run when a happening aside comes is still out afterwards. -/
theorem Stage.meet_aside (hs : Stage start past b) {h : Happening} (haside : h.IsAside b.checker.runs)
    (hview : (b.meet h).currentRun = b.currentRun) : Stage start (past ++ [h]) (b.meet h) := by
  have htoken : (b.meet h).token = b.token := congrArg CurrentRun.token hview
  cases hs with
  | spent phase =>
    rw [← hview] at phase
    exact .spent phase
  | waiting document phase =>
    rw [← hview] at phase
    exact .waiting document phase
  | placing document printed before later split counted phase =>
    have hanswers : Happening.answersTo b.token (later ++ [h]) = Happening.answersTo b.token later := by
      cases h with
      | answer token a => simp [Happening.answersTo, Happening.answer?, show token ≠ b.token from haside]
      | _ => simp [Happening.answersTo, Happening.answer?]
    rw [← hview, ← hanswers] at phase
    rw [← htoken] at counted phase
    refine .placing document printed before (later ++ [h]) ?_ counted phase
    rw [htoken, split]
    simp

section Step

variable (hl : Live start past (start.after past)) {document : DocumentRef}

include hl

theorem Live.meet_aside {h : Happening} (hcan : (start.after past).CanMeet h)
    (haside : h.IsAside (start.after past).checker.runs) :
    Live start (past ++ [h]) ((start.after past).meet h) := by
  obtain ⟨horderly, hview⟩ := hl.orderly.meet_aside hcan haside
  exact ⟨horderly, hl.stage.meet_aside haside hview⟩

theorem Live.meet_expiry {seq : Nat} (harmed : (start.after past).checker.runs.armed = some seq) :
    Live start (past ++ [.expiry seq document]) ((start.after past).meet (.expiry seq document)) := by
  have hname := (after_later start past).name
  have hwaiting : ((start.after past).meet (.expiry seq document)).currentRun.Waiting
      (start.after past).checker.name document :=
    waiting_of_expiry hl.orderly harmed (hname ▸ hl.stage.isOpen)
  rw [hname] at hwaiting
  exact ⟨hl.orderly.meet_expiry document harmed, .waiting document hwaiting⟩

section Process

variable (hout : .process (start.after past).token document ∈ (start.after past).errands)

include hout

theorem Live.waiting : (start.after past).currentRun.Waiting (start.after past).checker.name document := by
  rw [(after_later start past).name]
  exact hl.stage.waiting_of_process hout

theorem Live.meet_output (printed : List Finding) :
    Live start (past ++ [.output (start.after past).token document printed])
      ((start.after past).meet (.output (start.after past).token document printed)) := by
  have hwaiting := hl.waiting hout
  have hplacing := placing_of_output hl.orderly hwaiting printed
  have htoken := token_of_output hl.orderly hwaiting printed
  rw [(after_later start past).name, (after_later start past).root] at hplacing
  refine ⟨hl.orderly.meet_output hwaiting printed, .placing document printed past [] ?_ ?_ hplacing⟩
  · rw [htoken]
  · rw [htoken]
    exact RunState.counts_iff.mpr ⟨hl.orderly.alive, rfl⟩

theorem Live.meet_failure (cause : RunFailure) :
    Live start (past ++ [.failure (start.after past).token document cause])
      ((start.after past).meet (.failure (start.after past).token document cause)) := by
  have hwaiting := hl.waiting hout
  have hspent := spent_of_failure hl.orderly hwaiting cause
  rw [(after_later start past).name] at hspent
  exact ⟨hl.orderly.meet_failure hwaiting.running cause, .spent hspent⟩

theorem Live.meet_death :
    Live start (past ++ [.death (start.after past).token document])
      ((start.after past).meet (.death (start.after past).token document)) := by
  have hwaiting := hl.waiting hout
  have hspent := spent_of_death hl.orderly hwaiting
  rw [(after_later start past).name] at hspent
  exact ⟨hl.orderly.meet_death hwaiting.running, .spent hspent⟩

end Process

/-- An answer comes to the current run only while it is placing its parcels. -/
theorem Live.meet_answer {a : Answer}
    (hout : .lookUp (start.after past).token a.parcel ∈ (start.after past).errands) :
    Live start (past ++ [.answer (start.after past).token a])
      ((start.after past).meet (.answer (start.after past).token a)) := by
  have hmem := mem_parcels hout rfl
  cases hl.stage with
  | spent phase =>
    rw [phase.parcels] at hmem
    cases hmem
  | waiting document phase =>
    rw [phase.parcels] at hmem
    cases hmem
  | placing document printed before later split counted phase =>
    have hname := (after_later start past).name
    rw [← hname] at phase
    have hplacing := placing_of_answer hl.orderly phase hout
    have htoken := token_of_answer hl.orderly phase hout
    refine ⟨hl.orderly.meet_answer phase hout, .placing document printed before
      (later ++ [.answer (start.after past).token a]) ?_ ?_ ?_⟩
    · rw [htoken, ← List.cons_append, ← List.append_assoc, ← split]
    · rw [htoken]
      exact counted
    · have hanswers : Happening.answersTo (start.after past).token
            (later ++ [.answer (start.after past).token a])
          = Happening.answersTo (start.after past).token later ++ [a] := by
        simp [Happening.answersTo, Happening.answer?]
      rw [htoken, hanswers, ← hname]
      exact hplacing

/-- **What one happening does to a checker that has not ended.** -/
theorem Live.meet {h : Happening} (hcan : (start.after past).CanMeet h) (hne : h ≠ .disposal) :
    Live start (past ++ [h]) ((start.after past).meet h) := by
  by_cases haside : h.IsAside (start.after past).checker.runs
  · exact hl.meet_aside hcan haside
  · -- what is not aside belongs to the current run or starts the next one
    cases h with
    | trigger document => exact absurd trivial haside
    | expiry seq document => exact hl.meet_expiry (Decidable.not_not.mp haside)
    | output token document printed =>
      obtain rfl : token = (start.after past).token := Decidable.not_not.mp haside
      exact hl.meet_output hcan printed
    | failure token document cause =>
      obtain rfl : token = (start.after past).token := Decidable.not_not.mp haside
      exact hl.meet_failure hcan cause
    | death token document =>
      obtain rfl : token = (start.after past).token := Decidable.not_not.mp haside
      exact hl.meet_death hcan
    | answer token a =>
      obtain rfl : token = (start.after past).token := Decidable.not_not.mp haside
      exact hl.meet_answer hcan
    | disposal => exact absurd rfl hne

end Step

theorem Live.meet_disposal (hl : Live start past b) :
    (b.meet .disposal).Ended start.checker.name := by
  have hopen := hl.stage.isOpen
  refine ⟨rfl, ?_⟩
  show b.checker.collection.dispose = _
  unfold Collection.dispose
  rw [hopen.name, hopen.lateWrites]

theorem Ended.meet {name : String} (he : b.Ended name) (h : Happening) :
    (b.meet h).Ended name ∧ (b.meet h).effects = b.effects := by
  by_cases hdisposal : h = .disposal
  · subst hdisposal
    refine ⟨⟨rfl, ?_⟩, ?_⟩
    · show b.checker.collection.dispose = _
      rw [he.collection]
      rfl
    · rw [meet_effects, Checker.meet_disposal, List.append_nil]
  · have hmeet := Checker.meet_of_disposed he.disposed hdisposal
    refine ⟨⟨?_, ?_⟩, ?_⟩
    · rw [meet_checker, hmeet]
      exact he.disposed
    · rw [meet_checker, hmeet]
      exact he.collection
    · rw [meet_effects, hmeet, List.append_nil]

/-- **The end is final**, whatever comes afterwards, possible or not. -/
theorem Ended.after {name : String} (he : b.Ended name) (later : List Happening) :
    (b.after later).Ended name ∧ (b.after later).effects = b.effects := by
  induction later generalizing b with
  | nil => exact ⟨he, rfl⟩
  | cons h later ih =>
    obtain ⟨hended, heffects⟩ := he.meet h
    obtain ⟨hrest, hsame⟩ := ih hended
    exact ⟨hrest, hsame.trans heffects⟩

/-! ## 3. Every history -/

theorem opening_live (profile : CheckerProfile) (root : Path) (delay : Nat) :
    Live (opening profile root delay) [] (opening profile root delay) :=
  ⟨opening_orderly profile root delay, .spent ⟨rfl, rfl, rfl⟩⟩

/-- **After every possible history, a checker is live or has ended.** -/
theorem live_or_ended {profile : CheckerProfile} {root : Path} {delay : Nat} {past : List Happening}
    (possible : (opening profile root delay).Possible past) :
    Live (opening profile root delay) past ((opening profile root delay).after past)
      ∨ ((opening profile root delay).after past).Ended profile.displayName := by
  refine after_induction (P := fun past b => Live (opening profile root delay) past b
    ∨ b.Ended profile.displayName) (.inl (opening_live profile root delay)) ?_ possible
  intro past h _ hbefore hcan
  rcases hbefore with hl | he
  · by_cases hdisposal : h = .disposal
    · subst hdisposal
      exact .inr hl.meet_disposal
    · exact .inl (hl.meet hcan hdisposal)
  · exact .inr (he.meet h).1

end Bench

end SyntaxWatch
