import SyntaxWatch.Proofs.Checker.Invariant

/-!
# When a run begins

A run begins when a document has not been touched for a while: every trigger arms the timer anew, and
only the timer of the latest arming starts a run. Calling a timer off does not keep its expiry from
coming, so what decides is the number of the arming and not whether the timer was called off.

`Debounced` says this of a whole history. The `n`-th arming is that of the `n`-th trigger, so that
everything can be said in terms of the triggers that have come: a run begins on the expiry of the
latest of them and is of its document, and no arming starts two runs.

Section 1 is about inputs of any kind, whether they can come or not. Apart from triggers and the
expiry that is waited for, none of them starts a timer or a run, or touches what is armed.
-/

set_option autoImplicit false

namespace SyntaxWatch

/-! ## 1. Inputs that are not about time -/

namespace RunState

/-- The second state has the same timer as the first. -/
structure SameTimer (s t : RunState) : Prop where
  armings : t.armings = s.armings
  armed : t.armed = s.armed
  disposed : t.disposed = s.disposed

variable {s t u : RunState}

theorem SameTimer.refl (s : RunState) : SameTimer s s := ⟨rfl, rfl, rfl⟩

theorem SameTimer.trans (hst : SameTimer s t) (htu : SameTimer t u) : SameTimer s u :=
  ⟨htu.armings.trans hst.armings, htu.armed.trans hst.armed, htu.disposed.trans hst.disposed⟩

theorem SameTimer.settle (hst : SameTimer s t) : SameTimer s t.settleIfNoneLeft.1 := by
  unfold settleIfNoneLeft
  split
  · exact ⟨hst.armings, hst.armed, hst.disposed⟩
  · exact hst

theorem fileWritten_sameTimer (s : RunState) (token : Nat) : SameTimer s (s.fileWritten token).1 := by
  unfold fileWritten
  split
  · exact SameTimer.settle ⟨rfl, rfl, rfl⟩
  · exact .refl s

theorem awaitFiles_sameTimer (s : RunState) (token files : Nat) :
    SameTimer s (s.awaitFiles token files).1 := by
  unfold awaitFiles
  split
  · exact SameTimer.settle ⟨rfl, rfl, rfl⟩
  · exact .refl s

theorem giveUp_sameTimer (s : RunState) (token : Nat) : SameTimer s (s.giveUp token) := by
  unfold giveUp
  split
  · exact ⟨rfl, rfl, rfl⟩
  · exact .refl s

end RunState

/-- Whether an effect starts a timer or a run. -/
def Effect.isTiming : Effect → Bool
  | startTimer _ _ | launch _ _ => true
  | lookUp _ _ _ | emit _ | warn _ => false

/-- Whether an input arms the timer, or is the expiry that is waited for. -/
def Input.isTiming (s : RunState) : Input → Bool
  | trigger _ => true
  | expired seq _ => s.armed == some seq
  | finished _ _ _ | failed _ _ | aborted _ | placed _ _ _ => false

namespace Checker

variable {c : Checker}

/-- The timer stays as it is, and neither a timer nor a run is started. -/
structure KeepsTime (c : Checker) (next : Checker × List Effect) : Prop where
  runs : RunState.SameTimer c.runs next.1.runs
  effects : ∀ x ∈ next.2, x.isTiming = false

theorem keepsTime_of_told {s : RunState} {collection : Collection} {effects : List Effect}
    (hs : RunState.SameTimer c.runs s) (heffects : ∀ x ∈ effects, x.isTiming = false) :
    KeepsTime c ({ c with runs := s, collection := collection }, effects) := ⟨hs, heffects⟩

theorem endingIf_isTiming (done : Bool) (token : Nat) :
    ∀ x ∈ endingIf done token, x.isTiming = false := by
  cases done <;> simp [endingIf, Effect.isTiming]

theorem sendGroup_keepsTime (token : Nat) (trigger : Uri) (group : String × List Finding) :
    KeepsTime c (c.sendGroup token trigger group) := by
  unfold sendGroup
  split
  · exact ⟨.refl c.runs, by simp [Effect.isTiming]⟩
  · exact keepsTime_of_told (RunState.fileWritten_sameTimer c.runs token) (endingIf_isTiming _ token)

theorem sendGroups_keepsTime (token : Nat) (trigger : Uri) (groups : List (String × List Finding)) :
    KeepsTime c (c.sendGroups token trigger groups) := by
  induction groups generalizing c with
  | nil => exact ⟨.refl c.runs, nofun⟩
  | cons group others ih =>
    have hfirst : KeepsTime c (c.sendGroup token trigger group) := sendGroup_keepsTime token trigger group
    have hrest := ih (c := (c.sendGroup token trigger group).1)
    refine ⟨hfirst.runs.trans hrest.runs, ?_⟩
    intro x hx
    rcases List.mem_append.mp hx with hx | hx
    · exact hfirst.effects x hx
    · exact hrest.effects x hx

theorem takeOutput_keepsTime (token : Nat) (document : DocumentRef) (output : Findings) :
    KeepsTime c (c.takeOutput token document output) := by
  have hawait := RunState.awaitFiles_sameTimer c.runs token output.fileCount
  unfold takeOutput
  split
  · split
    · rename_i s heq
      rw [heq] at hawait
      exact keepsTime_of_told hawait (by simp [Effect.isTiming])
    · rename_i s heq
      rw [heq] at hawait
      have hloop := sendGroups_keepsTime (c := { c with runs := s }) token document.uri output.groups
      exact ⟨hawait.trans hloop.runs, hloop.effects⟩
  · exact ⟨.refl c.runs, by simp [Effect.isTiming]⟩

theorem write_keepsTime (token : Nat) (uri : Uri) (diagnostics : List Diagnostic) :
    KeepsTime c (c.write token uri diagnostics) := by
  unfold write
  split
  · refine keepsTime_of_told (RunState.fileWritten_sameTimer c.runs token) ?_
    intro x hx
    rcases List.mem_cons.mp hx with rfl | hx
    · rfl
    · exact endingIf_isTiming _ token x hx
  · exact ⟨.refl c.runs, nofun⟩

/-- **Only triggers and the expiry that is waited for are about time.** -/
theorem step_keepsTime {input : Input} (haside : input.isTiming c.runs = false) :
    KeepsTime c (c.step input) := by
  unfold step
  split
  · exact ⟨.refl c.runs, nofun⟩
  · cases input with
    | trigger document => cases haside
    | expired seq document =>
      have hlate : c.runs.armed ≠ some seq := by simpa [Input.isTiming] using haside
      simp only [react, beginRun, RunState.fire, hlate, ne_eq, not_false_eq_true, or_true, if_true]
      exact ⟨.refl c.runs, nofun⟩
    | finished token document output => exact takeOutput_keepsTime token document output
    | failed token failure =>
      exact keepsTime_of_told (RunState.giveUp_sameTimer c.runs token) (by simp [Effect.isTiming])
    | aborted token =>
      exact keepsTime_of_told (RunState.giveUp_sameTimer c.runs token) (by simp [Effect.isTiming])
    | placed token uri diagnostics => exact write_keepsTime token uri diagnostics

theorem step_trigger (alive : c.runs.disposed = false) (document : DocumentRef) :
    c.step (.trigger document)
      = ({ c with
            runs := { c.runs with armings := c.runs.armings + 1, armed := some (c.runs.armings + 1) } },
          [.startTimer (c.runs.armings + 1) document]) :=
  meet_trigger alive document

theorem step_expired (alive : c.runs.disposed = false) {seq : Nat} (document : DocumentRef)
    (harmed : c.runs.armed = some seq) :
    c.step (.expired seq document)
      = ({ c with
            runs := { c.runs with
              armed := none
              token := c.runs.token + 1
              running := some (c.runs.token + 1)
              unwritten := 0 }
            collection := c.collection.clear },
          [.emit (.started (c.runs.token + 1) document.uri), .launch (c.runs.token + 1) document]) :=
  meet_expiry alive document harmed

end Checker

/-! ## 2. Runs that begin -/

namespace Happening

def trigger? : Happening → Option DocumentRef
  | trigger document => some document
  | expiry _ _ | output _ _ _ | failure _ _ _ | death _ _ | answer _ _ | disposal => none

/-- The documents of the triggers in a history. -/
def triggers (past : List Happening) : List DocumentRef := past.filterMap trigger?

/-- Whether a happening is a trigger or the expiry of a timer. -/
def isTimely : Happening → Bool
  | trigger _ | expiry _ _ => true
  | output _ _ _ | failure _ _ _ | death _ _ | answer _ _ | disposal => false

theorem triggers_append (past later : List Happening) :
    triggers (past ++ later) = triggers past ++ triggers later := by
  unfold triggers
  exact List.filterMap_append

end Happening

open Happening (triggers triggers_append)

namespace Bench

/-- A happening is met by starting a run of a document. -/
def Launches (b : Bench) (h : Happening) (document : DocumentRef) : Prop :=
  ∃ token, .launch token document ∈ (b.checker.meet h).2

/-- An arming has started a run. -/
def Fired (start : Bench) (past : List Happening) (seq : Nat) : Prop :=
  ∃ before document later, past = before ++ .expiry seq document :: later
    ∧ (start.after before).Launches (.expiry seq document) document

variable {start b : Bench} {past : List Happening} {h : Happening} {document : DocumentRef}

theorem keepsTime_meet (input : Input) (hinput : h.input? b.checker.name = some input)
    (haside : input.isTiming b.checker.runs = false) :
    Checker.KeepsTime b.checker (b.checker.meet h) := by
  unfold Checker.meet
  rw [hinput]
  exact Checker.step_keepsTime haside

/-- Whether a happening is a trigger, the expiry that is waited for, or the end of the checker. -/
def Concerns (b : Bench) : Happening → Prop
  | .trigger _ | .disposal => True
  | .expiry seq _ => b.checker.runs.armed = some seq
  | .output _ _ _ | .failure _ _ _ | .death _ _ | .answer _ _ => False

theorem keepsTime_of_not_concerns (hother : ¬ b.Concerns h) :
    Checker.KeepsTime b.checker (b.checker.meet h) := by
  cases h with
  | trigger document => exact absurd trivial hother
  | disposal => exact absurd trivial hother
  | expiry seq document =>
    apply keepsTime_meet (.expired seq document) rfl
    exact beq_eq_false_iff_ne.mpr hother
  | output token document printed => exact keepsTime_meet (.finished token document _) rfl rfl
  | failure token document cause => exact keepsTime_meet (.failed token cause) rfl rfl
  | death token document => exact keepsTime_meet (.aborted token) rfl rfl
  | answer token a => exact keepsTime_meet (.placed token _ _) rfl rfl

/-- **A run begins on the expiry that is waited for**, and on nothing else. -/
theorem launches_iff (alive : b.checker.runs.disposed = false) :
    b.Launches h document ↔ ∃ seq, h = .expiry seq document ∧ b.checker.runs.armed = some seq := by
  constructor
  · rintro ⟨token, hlaunch⟩
    by_cases hconcerns : b.Concerns h
    · cases h with
      | trigger d =>
        rw [Checker.meet_trigger alive] at hlaunch
        cases List.mem_singleton.mp hlaunch
      | expiry seq d =>
        rw [Checker.meet_expiry alive d hconcerns] at hlaunch
        simp only [List.mem_cons, List.not_mem_nil, or_false, reduceCtorEq, false_or] at hlaunch
        cases hlaunch
        exact ⟨seq, rfl, hconcerns⟩
      | disposal => cases hlaunch
      | _ => exact absurd hconcerns not_false
    · have hnone := (keepsTime_of_not_concerns hconcerns).effects _ hlaunch
      cases hnone
  · rintro ⟨seq, rfl, harmed⟩
    refine ⟨b.checker.runs.token + 1, ?_⟩
    rw [Checker.meet_expiry alive document harmed]
    exact List.mem_cons_of_mem _ (List.mem_singleton_self _)

theorem not_launches_of_disposed (hended : b.checker.runs.disposed = true) :
    ¬ b.Launches h document := by
  rintro ⟨token, hlaunch⟩
  by_cases hdisposal : h = .disposal
  · subst hdisposal
    cases hlaunch
  · rw [Checker.meet_of_disposed hended hdisposal] at hlaunch
    cases hlaunch

theorem Fired.snoc {seq : Nat} (hf : Fired start past seq) (h : Happening) : Fired start (past ++ [h]) seq := by
  obtain ⟨before, document, later, rfl, hlaunch⟩ := hf
  exact ⟨before, document, later ++ [h], by simp, hlaunch⟩

theorem Fired.of_launches {seq : Nat} (hlaunch : (start.after past).Launches (.expiry seq document) document) :
    Fired start (past ++ [.expiry seq document]) seq :=
  ⟨past, document, [], rfl, hlaunch⟩

/-- What has fired has fired before the latest happening, or with it. -/
theorem fired_snoc {seq : Nat} (hf : Fired start (past ++ [h]) seq) :
    Fired start past seq ∨ ∃ document, h = .expiry seq document ∧ (start.after past).Launches h document := by
  obtain ⟨before, document, later, hsplit, hlaunch⟩ := hf
  rcases split_snoc hsplit with ⟨rfl, rfl, _⟩ | ⟨front, _, hpast⟩
  · exact .inr ⟨document, rfl, hlaunch⟩
  · exact .inl ⟨before, document, front, hpast, hlaunch⟩

/-! ## 3. The timer after every history -/

/-- What holds of the timer of a checker that has not ended. -/
structure Timed (start : Bench) (past : List Happening) (b : Bench) : Prop where
  armings : b.checker.runs.armings = (triggers past).length
  /-- Only the latest arming is waited for, … -/
  armed : ∀ seq, b.checker.runs.armed = some seq → seq = (triggers past).length
  /-- … unless there is none or it has started its run. -/
  unarmed : b.checker.runs.armed = none ↔ triggers past = [] ∨ Fired start past (triggers past).length
  fired : ∀ seq, Fired start past seq → seq ≤ (triggers past).length
  /-- Every timer was started for the document of its trigger. -/
  timers : ∀ seq document, .startTimer seq document ∈ b.effects →
    0 < seq ∧ (triggers past)[seq - 1]? = some document

theorem Timed.meet_other (ht : Timed start past (start.after past)) (hother : ¬ (start.after past).Concerns h) :
    Timed start (past ++ [h]) ((start.after past).meet h) := by
  have hkeeps := keepsTime_of_not_concerns hother
  have htriggers : triggers (past ++ [h]) = triggers past := by
    rw [triggers_append]
    cases h with
    | trigger document => exact absurd trivial hother
    | _ => exact List.append_nil _
  have hnone : ∀ document, ¬ (start.after past).Launches h document := by
    rintro document ⟨token, hlaunch⟩
    have hkept := hkeeps.effects _ hlaunch
    cases hkept
  have hfired : ∀ seq, Fired start (past ++ [h]) seq ↔ Fired start past seq := by
    intro seq
    refine ⟨?_, fun hf => hf.snoc h⟩
    intro hf
    rcases fired_snoc hf with hf | ⟨document, _, hlaunch⟩
    · exact hf
    · exact absurd hlaunch (hnone document)
  refine ⟨?_, ?_, ?_, ?_, ?_⟩
  · rw [meet_checker, hkeeps.runs.armings, htriggers]
    exact ht.armings
  · rw [meet_checker, hkeeps.runs.armed, htriggers]
    exact ht.armed
  · rw [meet_checker, hkeeps.runs.armed, htriggers, hfired]
    exact ht.unarmed
  · intro seq hf
    rw [htriggers]
    exact ht.fired seq ((hfired seq).mp hf)
  · intro seq document hstart
    rw [htriggers]
    rw [meet_effects] at hstart
    rcases List.mem_append.mp hstart with hstart | hstart
    · exact ht.timers seq document hstart
    · have hkept := hkeeps.effects _ hstart
      cases hkept

section Step

variable (ht : Timed start past (start.after past)) (alive : (start.after past).checker.runs.disposed = false)

include ht alive

theorem Timed.meet_trigger (document : DocumentRef) :
    Timed start (past ++ [.trigger document]) ((start.after past).meet (.trigger document)) := by
  have hmeet := Checker.meet_trigger alive document
  have htriggers : triggers (past ++ [.trigger document]) = triggers past ++ [document] := triggers_append _ _
  have hlength : (triggers (past ++ [.trigger document])).length = (triggers past).length + 1 := by
    rw [htriggers, List.length_append]
    rfl
  have hfired : ∀ seq, Fired start (past ++ [.trigger document]) seq → seq ≤ (triggers past).length := by
    intro seq hf
    rcases fired_snoc hf with hf | ⟨d, hd, _⟩
    · exact ht.fired seq hf
    · cases hd
  refine ⟨?_, ?_, ?_, ?_, ?_⟩
  · rw [meet_checker, hmeet, hlength, ← ht.armings]
  · intro seq harmed
    rw [meet_checker, hmeet] at harmed
    rw [hlength, ← ht.armings]
    exact (Option.some.inj harmed).symm
  · rw [meet_checker, hmeet, hlength]
    constructor
    · exact nofun
    · rintro (hnone | hf)
      · rw [htriggers] at hnone
        simp at hnone
      · exact absurd (hfired _ hf) (Nat.not_succ_le_self _)
  · intro seq hf
    rw [hlength]
    exact Nat.le_succ_of_le (hfired seq hf)
  · intro seq d hstart
    rw [meet_effects, hmeet] at hstart
    rcases List.mem_append.mp hstart with hstart | hstart
    · obtain ⟨hpos, hd⟩ := ht.timers seq d hstart
      refine ⟨hpos, ?_⟩
      rw [htriggers, List.getElem?_append_left (List.getElem?_eq_some_iff.mp hd).1]
      exact hd
    · cases List.mem_singleton.mp hstart
      refine ⟨Nat.succ_pos _, ?_⟩
      rw [htriggers, ht.armings]
      simp

theorem Timed.meet_expiry {seq : Nat} (document : DocumentRef)
    (harmed : (start.after past).checker.runs.armed = some seq) :
    Timed start (past ++ [.expiry seq document]) ((start.after past).meet (.expiry seq document)) := by
  have hmeet := Checker.meet_expiry alive document harmed
  have htriggers : triggers (past ++ [.expiry seq document]) = triggers past := by
    rw [triggers_append]
    exact List.append_nil _
  have hlatest := ht.armed seq harmed
  have hlaunch : (start.after past).Launches (.expiry seq document) document :=
    (launches_iff alive).mpr ⟨seq, rfl, harmed⟩
  refine ⟨?_, ?_, ?_, ?_, ?_⟩
  · rw [meet_checker, hmeet, htriggers]
    exact ht.armings
  · intro seq' harmed'
    rw [meet_checker, hmeet] at harmed'
    cases harmed'
  · rw [meet_checker, hmeet, htriggers, ← hlatest]
    exact ⟨fun _ => .inr (.of_launches hlaunch), fun _ => rfl⟩
  · intro seq' hf
    rw [htriggers]
    rcases fired_snoc hf with hf | ⟨d, hd, _⟩
    · exact ht.fired seq' hf
    · cases hd
      exact Nat.le_of_eq hlatest
  · intro seq' d hstart
    rw [htriggers]
    rw [meet_effects, hmeet] at hstart
    rcases List.mem_append.mp hstart with hstart | hstart
    · exact ht.timers seq' d hstart
    · simp at hstart

theorem Timed.meet (hne : h ≠ .disposal) : Timed start (past ++ [h]) ((start.after past).meet h) := by
  by_cases hconcerns : (start.after past).Concerns h
  · cases h with
    | trigger document => exact ht.meet_trigger alive document
    | expiry seq document => exact ht.meet_expiry alive document hconcerns
    | disposal => exact absurd rfl hne
    | _ => exact absurd hconcerns not_false
  · exact ht.meet_other hconcerns

end Step

theorem opening_timed (profile : CheckerProfile) (root : Path) (delay : Nat) :
    Timed (opening profile root delay) [] (opening profile root delay) where
  armings := rfl
  armed := nofun
  unarmed := ⟨fun _ => .inl rfl, fun _ => rfl⟩
  fired := by
    rintro seq ⟨before, document, later, hsplit, _⟩
    exact absurd (congrArg List.length hsplit) (by simp)
  timers := nofun

section Every

variable {profile : CheckerProfile} {root : Path} {delay : Nat} {before middle later : List Happening}

/-- **The timer of a checker that has not ended is in order**, whatever has come. -/
theorem timed_of_alive (past later : List Happening)
    (ht : Timed (opening profile root delay) past ((opening profile root delay).after past))
    (alive : ((opening profile root delay).after (past ++ later)).checker.runs.disposed = false) :
    Timed (opening profile root delay) (past ++ later)
      ((opening profile root delay).after (past ++ later)) := by
  induction later generalizing past with
  | nil =>
    rw [List.append_nil]
    exact ht
  | cons h later ih =>
    have hnow := alive_upto alive
    rw [List.append_cons] at alive ⊢
    refine ih (past ++ [h]) ?_ alive
    rw [after_snoc]
    refine ht.meet hnow ?_
    rintro rfl
    have hnext := alive_upto alive
    rw [after_snoc] at hnext
    cases hnext

theorem timed (alive : ((opening profile root delay).after past).checker.runs.disposed = false) :
    Timed (opening profile root delay) past ((opening profile root delay).after past) :=
  timed_of_alive [] past (opening_timed profile root delay) alive

theorem alive_of_launches (hlaunch : b.Launches h document) : b.checker.runs.disposed = false := by
  rw [← Bool.not_eq_true]
  intro hended
  exact not_launches_of_disposed hended hlaunch

/-! ## 4. Every history -/

/-- Runs begin when they should in a history. -/
structure Debounced (start : Bench) (past : List Happening) : Prop where
  /-- A run begins on the expiry of the latest arming, and is of the document of the latest
  trigger. -/
  latest : ∀ before h later document, past = before ++ h :: later →
    (start.after before).Launches h document →
    h = .expiry (triggers before).length document ∧ (triggers before).getLast? = some document
  /-- No arming starts two runs, … -/
  once : ∀ before seq d middle d' later,
    past = (before ++ .expiry seq d :: middle) ++ .expiry seq d' :: later →
    (start.after before).Launches (.expiry seq d) d →
    ¬ (start.after (before ++ .expiry seq d :: middle)).Launches (.expiry seq d') d'
  /-- … and the latest one does start its run. -/
  fires : ∀ before document later, past = before ++ .expiry (triggers before).length document :: later →
    (start.after before).checker.runs.disposed = false → ¬ Fired start before (triggers before).length →
    (start.after before).Launches (.expiry (triggers before).length document) document
  /-- While triggers come, and expiries that start nothing, what is out stays out, the current run
  stays as it is, and whoever counts goes on counting. -/
  undisturbed : ∀ before middle later, past = before ++ middle ++ later →
    (∀ h ∈ middle, h.isTimely = true) →
    (∀ earlier h rest document, middle = earlier ++ h :: rest →
      ¬ (start.after (before ++ earlier)).Launches h document) →
    (start.after (before ++ middle)).errands = (start.after before).errands
      ∧ (start.after (before ++ middle)).currentRun = (start.after before).currentRun
      ∧ ∀ token, (start.after (before ++ middle)).checker.runs.counts token
        = (start.after before).checker.runs.counts token

/-- One trigger, or one expiry that starts nothing. -/
theorem meet_timely (hb : Live start past b ∨ b.checker.runs.disposed = true) (hcan : b.CanMeet h)
    (htimely : h.isTimely = true) (hnone : ∀ document, ¬ b.Launches h document) :
    (b.meet h).errands = b.errands ∧ (b.meet h).currentRun = b.currentRun
      ∧ ∀ token, (b.meet h).checker.runs.counts token = b.checker.runs.counts token := by
  rcases hb with hl | hended
  · have alive := hl.orderly.alive
    cases h with
    | trigger document =>
      have hmeet := Checker.meet_trigger alive document
      refine ⟨?_, (hl.orderly.meet_aside hcan trivial).2, ?_⟩
      · rw [meet_errands, hmeet]
        exact List.append_nil _
      · intro token
        rw [meet_checker, hmeet]
        rfl
    | expiry seq document =>
      have hlate : b.checker.runs.armed ≠ some seq := by
        intro harmed
        exact hnone document ((launches_iff alive).mpr ⟨seq, rfl, harmed⟩)
      have hmeet := Checker.meet_expiry_of_ne alive document hlate
      refine ⟨?_, (hl.orderly.meet_aside hcan hlate).2, ?_⟩
      · rw [meet_errands, hmeet]
        exact List.append_nil _
      · intro token
        rw [meet_checker, hmeet]
    | _ => cases htimely
  · have hsame : b.meet h = b := by
      have herrands : without b.errands h = b.errands := by
        cases h with
        | trigger document => rfl
        | expiry seq document => rfl
        | _ => cases htimely
      have hmeet := Checker.meet_of_disposed (c := b.checker) hended (h := h) (by rintro rfl; cases htimely)
      unfold Bench.meet
      rw [hmeet, herrands]
      simp
    rw [hsame]
    exact ⟨rfl, rfl, fun _ => rfl⟩

theorem undisturbed (possible : (opening profile root delay).Possible (before ++ middle))
    (htimely : ∀ h ∈ middle, h.isTimely = true)
    (hnone : ∀ earlier h rest document, middle = earlier ++ h :: rest →
      ¬ ((opening profile root delay).after (before ++ earlier)).Launches h document) :
    ((opening profile root delay).after (before ++ middle)).errands
        = ((opening profile root delay).after before).errands
      ∧ ((opening profile root delay).after (before ++ middle)).currentRun
        = ((opening profile root delay).after before).currentRun
      ∧ ∀ token, ((opening profile root delay).after (before ++ middle)).checker.runs.counts token
        = ((opening profile root delay).after before).checker.runs.counts token := by
  induction middle generalizing before with
  | nil => simp
  | cons h middle ih =>
    obtain ⟨hbefore, hcan, _⟩ := possible_append.mp possible
    have hfirst : ∀ document, ¬ ((opening profile root delay).after before).Launches h document := by
      intro document
      have hfirst := hnone [] h middle document rfl
      rw [List.append_nil] at hfirst
      exact hfirst
    have hb : Live (opening profile root delay) before ((opening profile root delay).after before)
        ∨ ((opening profile root delay).after before).checker.runs.disposed = true :=
      (live_or_ended hbefore).imp_right Ended.disposed
    obtain ⟨herrands, hview, hcounts⟩ := meet_timely hb hcan (htimely h List.mem_cons_self) hfirst
    rw [List.append_cons] at possible ⊢
    have hrest := ih possible (fun x hx => htimely x (List.mem_cons_of_mem h hx)) ?_
    · obtain ⟨herrands', hview', hcounts'⟩ := hrest
      rw [after_snoc] at herrands' hview' hcounts'
      exact ⟨herrands'.trans herrands, hview'.trans hview, fun token => (hcounts' token).trans (hcounts token)⟩
    · intro earlier x rest document hsplit
      have hlater := hnone (h :: earlier) x rest document (by rw [hsplit, List.cons_append])
      rw [List.append_cons] at hlater
      exact hlater

/-- **Runs begin when they should**, in every possible history. -/
theorem debounced (possible : (opening profile root delay).Possible past) :
    Debounced (opening profile root delay) past := by
  refine ⟨?_, ?_, ?_, ?_⟩
  · rintro before h later document rfl hlaunch
    have alive := alive_of_launches hlaunch
    have ht := timed alive
    obtain ⟨seq, rfl, harmed⟩ := (launches_iff alive).mp hlaunch
    have hseq := ht.armed seq harmed
    subst hseq
    refine ⟨rfl, ?_⟩
    obtain ⟨_, hdocument⟩ := ht.timers _ document (possible_append.mp possible).2.1
    rw [List.getLast?_eq_getElem?]
    exact hdocument
  · rintro before seq d middle d' later rfl hfirst hagain
    have alive := alive_of_launches hagain
    have ht := timed alive
    obtain ⟨seq', hexpiry, harmed⟩ := (launches_iff alive).mp hagain
    cases hexpiry
    have hfired : Fired (opening profile root delay) (before ++ .expiry seq d :: middle) seq :=
      ⟨before, d, middle, rfl, hfirst⟩
    have hseq := ht.armed seq harmed
    rw [ht.unarmed.mpr (.inr (hseq ▸ hfired))] at harmed
    cases harmed
  · rintro before document later rfl alive hnot
    have ht := timed alive
    obtain ⟨hpos, _⟩ := ht.timers _ document (possible_append.mp possible).2.1
    refine (launches_iff alive).mpr ⟨_, rfl, ?_⟩
    cases harmed : ((opening profile root delay).after before).checker.runs.armed with
    | some seq => rw [ht.armed seq harmed]
    | none =>
      rcases ht.unarmed.mp harmed with hnone | hfired
      · rw [hnone] at hpos
        cases hpos
      · exact absurd hfired hnot
  · rintro before middle later rfl htimely hnone
    exact undisturbed (possible_append.mp possible).1 htimely hnone

end Every

end Bench

end SyntaxWatch
