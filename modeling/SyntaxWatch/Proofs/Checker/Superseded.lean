import SyntaxWatch.Proofs.Checker.Reaction

/-!
# What comes too late

A timer that was called off, a process of an older run, a lookup that an older run asked for: all of
them are still heard when they come, and none may do anything. `Input.isStale` says which inputs come
too late for a checker, and `Checker.relevant` strikes them out of a history, each one judged by the
checker at the moment at which it comes.

The history and what is left of it are two runs of the same checker. They end in the same state, and
what is asked for and told in the second is what is asked for and told in the first, but for the
notices of the inputs that were struck out.

Nothing is assumed about the inputs here. They need not be such as can come from the errands of the
checker, so a token may be one that was never given out.
-/

set_option autoImplicit false

namespace SyntaxWatch

/-! ## 1. Inputs that come too late -/

namespace Input

/-- Whether an input is about an arming or a run that is not the latest. -/
def isStale (s : RunState) : Input → Bool
  | trigger _ => false
  | expired seq _ => s.armed != some seq
  | finished token _ _ | failed token _ | aborted token | placed token _ _ => token != s.token

/-- What a checker of this name has to say to an input that comes too late. -/
def notice (name : String) : Input → List Effect
  | finished token _ _ => [.emit (.discarded token)]
  | failed token failure =>
    [.warn ("Checker " ++ name ++ " received error: " ++ failure.message), .emit (.failed token failure)]
  | aborted token => [.emit (.failed token .aborted)]
  | trigger _ | expired _ _ | placed _ _ _ => []

end Input

/-- One input of a history, as it was met. -/
structure Turn where
  input : Input
  stale : Bool
  effects : List Effect
  deriving DecidableEq, Repr

/-- Whether an effect does anything: a timer, a process, a lookup, or the report of a start, of a
document that is written or of a run that is settled. -/
def Effect.isWork : Effect → Bool
  | startTimer _ _ | launch _ _ | lookUp _ _ _ => true
  | emit (.started _ _) | emit (.published _ _) | emit (.settled _) => true
  | emit (.discarded _) | emit (.failed _ _) | warn _ => false

namespace Checker

/-- A history, turn by turn. -/
def turns (c : Checker) : List Input → List Turn
  | [] => []
  | input :: others => ⟨input, input.isStale c.runs, (c.step input).2⟩ :: (c.step input).1.turns others

/-- What is left of a history when all that came too late is struck out. -/
def relevant (c : Checker) (inputs : List Input) : List Input :=
  ((c.turns inputs).filter (!·.stale)).map Turn.input

end Checker

/-! ## 2. Only the latest run is running -/

namespace RunState

/-- The checker has not ended, and no other run than the latest is running. -/
structure Coherent (s : RunState) : Prop where
  alive : s.disposed = false
  running : ∀ token, s.running = some token → token = s.token

theorem fresh_coherent : fresh.Coherent := ⟨rfl, nofun⟩

variable {s t : RunState}

theorem Coherent.of_running (hs : s.Coherent) (htoken : t.token = s.token)
    (hdisposed : t.disposed = s.disposed) (hrunning : t.running = s.running ∨ t.running = none) :
    t.Coherent := by
  refine ⟨hdisposed.trans hs.alive, ?_⟩
  intro token htoken'
  rcases hrunning with hsame | hnone
  · rw [htoken]
    exact hs.running token (hsame ▸ htoken')
  · rw [hnone] at htoken'
    cases htoken'

theorem settleIfNoneLeft_running (s : RunState) :
    s.settleIfNoneLeft.1.running = s.running ∨ s.settleIfNoneLeft.1.running = none := by
  unfold settleIfNoneLeft
  split
  · exact .inr rfl
  · exact .inl rfl

theorem Coherent.fileWritten (hs : s.Coherent) (token : Nat) : (s.fileWritten token).1.Coherent := by
  refine hs.of_running (fileWritten_token s token) (fileWritten_disposed s token) ?_
  unfold RunState.fileWritten
  split
  · exact settleIfNoneLeft_running _
  · exact .inl rfl

theorem Coherent.awaitFiles (hs : s.Coherent) (token files : Nat) :
    (s.awaitFiles token files).1.Coherent := by
  refine hs.of_running (awaitFiles_token s token files) (awaitFiles_disposed s token files) ?_
  unfold RunState.awaitFiles
  split
  · exact settleIfNoneLeft_running _
  · exact .inl rfl

theorem Coherent.giveUp (hs : s.Coherent) (token : Nat) : (s.giveUp token).Coherent := by
  refine hs.of_running (giveUp_token s token) (giveUp_disposed s token) ?_
  unfold RunState.giveUp
  split
  · exact .inr rfl
  · exact .inl rfl

theorem Coherent.arm (hs : s.Coherent) : s.arm.1.Coherent := by
  unfold RunState.arm
  split
  · exact hs
  · exact ⟨hs.alive, hs.running⟩

theorem Coherent.fire (hs : s.Coherent) (seq : Nat) : (s.fire seq).1.Coherent := by
  unfold RunState.fire
  split
  · exact hs
  · refine ⟨hs.alive, ?_⟩
    intro token htoken
    exact (Option.some.inj htoken).symm

/-- The failure of an older run does not touch the one that is running. -/
theorem Coherent.giveUp_of_ne (hs : s.Coherent) {token : Nat} (hstale : token ≠ s.token) :
    s.giveUp token = s :=
  RunState.giveUp_of_ne fun hrunning => hstale (hs.running token hrunning)

end RunState

namespace Checker

variable {c : Checker}

theorem sendGroup_coherent (hc : c.runs.Coherent) (token : Nat) (trigger : Uri)
    (group : String × List Finding) : (c.sendGroup token trigger group).1.runs.Coherent := by
  unfold sendGroup
  split
  · exact hc
  · exact hc.fileWritten token

theorem sendGroups_coherent (hc : c.runs.Coherent) (token : Nat) (trigger : Uri)
    (groups : List (String × List Finding)) : (c.sendGroups token trigger groups).1.runs.Coherent := by
  induction groups generalizing c with
  | nil => exact hc
  | cons group others ih => exact ih (sendGroup_coherent hc token trigger group)

theorem armFor_coherent (hc : c.runs.Coherent) (document : DocumentRef) :
    (c.armFor document).1.runs.Coherent := by
  have harm := hc.arm
  unfold armFor
  split
  · rename_i s seq heq
    rw [heq] at harm
    exact harm
  · exact hc

theorem beginRun_coherent (hc : c.runs.Coherent) (seq : Nat) (document : DocumentRef) :
    (c.beginRun seq document).1.runs.Coherent := by
  have hfire := hc.fire seq
  unfold beginRun
  split
  · rename_i s token heq
    rw [heq] at hfire
    exact hfire
  · exact hc

theorem takeOutput_coherent (hc : c.runs.Coherent) (token : Nat) (document : DocumentRef)
    (output : Findings) : (c.takeOutput token document output).1.runs.Coherent := by
  have hawait := hc.awaitFiles token output.fileCount
  unfold takeOutput
  split
  · split
    · rename_i s heq
      rw [heq] at hawait
      exact hawait
    · rename_i s heq
      rw [heq] at hawait
      exact sendGroups_coherent (c := { c with runs := s }) hawait token document.uri output.groups
  · exact hc

theorem write_coherent (hc : c.runs.Coherent) (token : Nat) (uri : Uri) (diagnostics : List Diagnostic) :
    (c.write token uri diagnostics).1.runs.Coherent := by
  unfold write
  split
  · exact hc.fileWritten token
  · exact hc

theorem react_coherent (hc : c.runs.Coherent) (input : Input) : (c.react input).1.runs.Coherent := by
  cases input with
  | trigger document => exact armFor_coherent hc document
  | expired seq document => exact beginRun_coherent hc seq document
  | finished token document output => exact takeOutput_coherent hc token document output
  | failed token failure => exact hc.giveUp token
  | aborted token => exact hc.giveUp token
  | placed token uri diagnostics => exact write_coherent hc token uri diagnostics

theorem step_of_coherent (hc : c.runs.Coherent) (input : Input) : c.step input = c.react input := by
  unfold step isDisposed
  rw [hc.alive]
  rfl

theorem step_coherent (hc : c.runs.Coherent) (input : Input) : (c.step input).1.runs.Coherent := by
  rw [step_of_coherent hc]
  exact react_coherent hc input

theorem step_name (hc : c.runs.Coherent) (input : Input) : (c.step input).1.name = c.name := by
  rw [step_of_coherent hc]
  exact (react_later input).name

theorem run_cons (c : Checker) (input : Input) (others : List Input) :
    c.run (input :: others)
      = (((c.step input).1.run others).1, (c.step input).2 ++ ((c.step input).1.run others).2) := rfl

theorem run_coherent (hc : c.runs.Coherent) (inputs : List Input) : (c.run inputs).1.runs.Coherent := by
  induction inputs generalizing c with
  | nil => exact hc
  | cons input others ih => exact ih (step_coherent hc input)

/-! ## 3. One turn -/

/-- **A stale input does nothing**, whatever it brings, and at most says that it came. -/
theorem step_of_isStale (hc : c.runs.Coherent) {input : Input} (hstale : input.isStale c.runs = true) :
    c.step input = (c, input.notice c.name) := by
  rw [step_of_coherent hc]
  cases input with
  | trigger document => cases hstale
  | expired seq document =>
    have hlate : c.runs.armed ≠ some seq := by simpa [Input.isStale] using hstale
    simp [react, beginRun, RunState.fire, hlate, Input.notice]
  | finished token document output =>
    have hne : token ≠ c.runs.token := by simpa [Input.isStale] using hstale
    have hcounts : ¬ c.runs.counts token = true := fun h => hne (RunState.counts_iff.mp h).2
    simp [react, takeOutput, hcounts, Input.notice]
  | failed token failure =>
    have hne : token ≠ c.runs.token := by simpa [Input.isStale] using hstale
    simp only [react, takeFailure, hc.giveUp_of_ne hne]
    rfl
  | aborted token =>
    have hne : token ≠ c.runs.token := by simpa [Input.isStale] using hstale
    simp only [react, takeAbort, hc.giveUp_of_ne hne]
    rfl
  | placed token uri diagnostics =>
    have hne : token ≠ c.runs.token := by simpa [Input.isStale] using hstale
    have hcounts : ¬ c.runs.counts token = true := fun h => hne (RunState.counts_iff.mp h).2
    simp [react, write, hcounts, Input.notice]

theorem notice_isWork (name : String) (input : Input) :
    ∀ x ∈ input.notice name, x.isWork = false := by
  cases input <;> simp [Input.notice, Effect.isWork]

theorem turns_cons (c : Checker) (input : Input) (others : List Input) :
    c.turns (input :: others)
      = ⟨input, input.isStale c.runs, (c.step input).2⟩ :: (c.step input).1.turns others := rfl

theorem relevant_cons_of_isStale (hc : c.runs.Coherent) {input : Input}
    (hstale : input.isStale c.runs = true) (others : List Input) :
    c.relevant (input :: others) = c.relevant others := by
  unfold relevant
  rw [turns_cons, step_of_isStale hc hstale]
  simp [hstale]

theorem relevant_cons_of_not_isStale {input : Input} (hfresh : input.isStale c.runs = false)
    (others : List Input) :
    c.relevant (input :: others) = input :: (c.step input).1.relevant others := by
  unfold relevant
  rw [turns_cons]
  simp [hfresh]

/-! ## 4. Two runs -/

theorem run_relevant (hc : c.runs.Coherent) (inputs : List Input) :
    (c.run (c.relevant inputs)).1 = (c.run inputs).1 := by
  induction inputs generalizing c with
  | nil => rfl
  | cons input others ih =>
    cases hstale : input.isStale c.runs with
    | true =>
      rw [relevant_cons_of_isStale hc hstale, ih hc, run_cons, step_of_isStale hc hstale]
    | false =>
      rw [relevant_cons_of_not_isStale hstale, run_cons, run_cons]
      exact ih (step_coherent hc input)

theorem relevant_relevant (hc : c.runs.Coherent) (inputs : List Input) :
    c.relevant (c.relevant inputs) = c.relevant inputs := by
  induction inputs generalizing c with
  | nil => rfl
  | cons input others ih =>
    cases hstale : input.isStale c.runs with
    | true => rw [relevant_cons_of_isStale hc hstale, ih hc]
    | false =>
      rw [relevant_cons_of_not_isStale hstale, relevant_cons_of_not_isStale hstale,
        ih (step_coherent hc input)]

theorem run_effects (c : Checker) (inputs : List Input) :
    (c.run inputs).2 = (c.turns inputs).flatMap Turn.effects := by
  induction inputs generalizing c with
  | nil => rfl
  | cons input others ih =>
    rw [run_cons, ih]
    rfl

theorem run_relevant_effects (hc : c.runs.Coherent) (inputs : List Input) :
    (c.run (c.relevant inputs)).2 = ((c.turns inputs).filter (!·.stale)).flatMap Turn.effects := by
  induction inputs generalizing c with
  | nil => rfl
  | cons input others ih =>
    cases hstale : input.isStale c.runs with
    | true =>
      rw [relevant_cons_of_isStale hc hstale, ih hc, turns_cons, step_of_isStale hc hstale]
      simp [hstale]
    | false =>
      rw [relevant_cons_of_not_isStale hstale, run_cons, ih (step_coherent hc input), turns_cons]
      simp [hstale]

theorem effects_of_stale (hc : c.runs.Coherent) {inputs : List Input} :
    ∀ turn ∈ c.turns inputs, turn.stale = true → turn.effects = turn.input.notice c.name := by
  induction inputs generalizing c with
  | nil => exact nofun
  | cons input others ih =>
    intro turn hturn hstale
    rcases List.mem_cons.mp hturn with rfl | hlater
    · exact congrArg Prod.snd (step_of_isStale hc hstale)
    · rw [← step_name hc input]
      exact ih (step_coherent hc input) turn hlater hstale

theorem turns_work {turns : List Turn}
    (hstale : ∀ turn ∈ turns, turn.stale = true → ∀ x ∈ turn.effects, x.isWork = false) :
    ((turns.filter (!·.stale)).flatMap Turn.effects).filter Effect.isWork
      = (turns.flatMap Turn.effects).filter Effect.isWork := by
  induction turns with
  | nil => rfl
  | cons turn turns ih =>
    have hrest := ih fun t ht => hstale t (List.mem_cons_of_mem turn ht)
    cases hturn : turn.stale with
    | true =>
      have hnone : turn.effects.filter Effect.isWork = [] := by
        rw [List.filter_eq_nil_iff]
        intro x hx
        simp [hstale turn List.mem_cons_self hturn x hx]
      simp [hturn, hrest, hnone]
    | false => simp [hturn, hrest]

/-- A history beside what is left of it, from the same checker on. -/
structure Inert (c : Checker) (inputs : List Input) : Prop where
  /-- Counters and collection are the same in the end. -/
  state : (c.run (c.relevant inputs)).1 = (c.run inputs).1
  /-- All that is asked for and told is so in one of the turns, … -/
  whole : (c.run inputs).2 = (c.turns inputs).flatMap Turn.effects
  /-- … and those that were not struck out do and say the same. -/
  kept : (c.run (c.relevant inputs)).2 = ((c.turns inputs).filter (!·.stale)).flatMap Turn.effects
  /-- Those that were say what they are, and no more. -/
  notices : ∀ turn ∈ c.turns inputs, turn.stale = true → turn.effects = turn.input.notice c.name
  /-- So both do the same work in the same order. -/
  work : (c.run (c.relevant inputs)).2.filter Effect.isWork = (c.run inputs).2.filter Effect.isWork
  /-- Nothing is stale in what is left. -/
  rest : c.relevant (c.relevant inputs) = c.relevant inputs

theorem inert_of_coherent (hc : c.runs.Coherent) (inputs : List Input) : c.Inert inputs where
  state := run_relevant hc inputs
  whole := run_effects c inputs
  kept := run_relevant_effects hc inputs
  notices := effects_of_stale hc
  work := by
    rw [run_effects c inputs, run_relevant_effects hc inputs]
    refine turns_work ?_
    intro turn hturn hstale
    rw [effects_of_stale hc turn hturn hstale]
    exact notice_isWork c.name turn.input
  rest := relevant_relevant hc inputs

/-- **Superseded work is inert**, at any time in the life of a checker. -/
theorem superseded_is_inert (profile : CheckerProfile) (root : Path) (delay : Nat)
    (past inputs : List Input) : ((start profile root delay).run past).1.Inert inputs :=
  inert_of_coherent (run_coherent RunState.fresh_coherent past) inputs

/-- An expiry of a timer that was called off, the failure of a run that another one has replaced, and
an answer to it. -/
example : Bench.sample.checker.relevant
      [.trigger Bench.sampleDocument, .trigger Bench.sampleDocument, .expired 1 Bench.sampleDocument,
        .expired 2 Bench.sampleDocument, .trigger Bench.sampleDocument, .expired 3 Bench.sampleDocument,
        .failed 1 .aborted, .placed 1 Bench.sampleDocument.uri [], .aborted 2]
    = [.trigger Bench.sampleDocument, .trigger Bench.sampleDocument, .expired 2 Bench.sampleDocument,
        .trigger Bench.sampleDocument, .expired 3 Bench.sampleDocument, .aborted 2] := by decide

end Checker

end SyntaxWatch
