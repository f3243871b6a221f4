import SyntaxWatch.Proofs.Checker.CurrentRun
import SyntaxWatch.Proofs.Checker.Writing

/-!
# The phases of the current run

The current run of a bench is in one of three phases. It is *waiting* while its process goes on;
nothing has been written for it. It is *placing* from the moment its output is taken in: its parcels
are out or answered, and the collection holds what the answers brought, no more. It is *spent* when
its process came to nothing, and so is the state before the first run; then the collection is empty
and nothing is out.

A happening is either *aside*, and then the current run is left as it was (`Orderly.meet_aside`), or
it belongs to the current run and moves it from one phase to the next. What keeps the two apart is
that tokens only grow. A run begins with a token that no errand has, so whatever is still out for
older runs is recognised by its token when it comes back.
-/

set_option autoImplicit false

namespace SyntaxWatch

/-! ## 1. The phases -/

namespace CurrentRun

variable (source : String)

/-- The process of the run goes on, for this document. -/
structure Waiting (document : DocumentRef) (r : CurrentRun) : Prop where
  running : r.running = some r.token
  collection : r.collection = .new source
  processes : r.processes = [document]
  parcels : r.parcels = []
  asked : r.asked = []
  told : r.told = [.started r.token document.uri]

/-- There is no run, or it came to nothing. -/
structure Spent (r : CurrentRun) : Prop where
  collection : r.collection = .new source
  processes : r.processes = []
  parcels : r.parcels = []

/-- The output of the run has been taken in. It sent these parcels, and these answers have come. -/
structure Placing (document : DocumentRef) (sent : List Parcel) (answers : List Answer)
    (r : CurrentRun) : Prop where
  running : r.running = if r.parcels = [] then none else some r.token
  unwritten : r.unwritten = r.parcels.length
  collection : r.collection = Answer.written source answers
  processes : r.processes = []
  parcels : (answers.map Answer.parcel ++ r.parcels).Perm sent
  asked : r.asked = sent
  told : r.told = .started r.token document.uri :: answers.map Answer.published
    ++ if r.parcels = [] then [.settled r.token] else []

section Placing

variable {source : String} {document : DocumentRef} {sent : List Parcel} {answers : List Answer}
  {r : CurrentRun} {parcel : Parcel}

theorem Placing.running_of_mem (hp : r.Placing source document sent answers) (hmem : parcel ∈ r.parcels) :
    r.running = some r.token := by
  rw [hp.running, if_neg (List.ne_nil_of_mem hmem)]

theorem Placing.unwritten_of_mem (hp : r.Placing source document sent answers)
    (hmem : parcel ∈ r.parcels) : r.unwritten = (r.parcels.erase parcel).length + 1 := by
  have hpos := List.length_pos_of_mem hmem
  rw [hp.unwritten, List.length_erase_of_mem hmem]
  omega

end Placing

end CurrentRun

/-! ## 2. Tokens in order -/

/-- Whether a happening has nothing to do with the current run: it only arms the timer, or belongs
to a timer or a run that has been superseded. -/
def Happening.IsAside (s : RunState) : Happening → Prop
  | .trigger _ => True
  | .expiry seq _ => s.armed ≠ some seq
  | .output token _ _ | .failure token _ _ | .death token _ | .answer token _ => token ≠ s.token
  | .disposal => False

namespace Bench

/-- The tokens on the bench of a checker that has not ended are in order. -/
structure Orderly (b : Bench) : Prop where
  alive : b.checker.runs.disposed = false
  running : ∀ token, b.checker.runs.running = some token → token = b.token
  errands : ∀ e ∈ b.errands, e.token ≤ b.token
  effects : ∀ x ∈ b.effects, ∀ token, x.token? = some token → token ≤ b.token
  earlier : ∀ e ∈ b.currentRun.earlier, ∀ token, e.token? = some token → token < b.token

variable {b : Bench}

theorem token?_of_ofEffect? {x : Effect} {e : Errand} (h : Errand.ofEffect? x = some e) :
    x.token? = some e.token := by
  cases x with
  | launch t d => cases h; rfl
  | lookUp t target findings => cases h; rfl
  | _ => cases h

theorem mem_of_mem_without {errands : List Errand} {h : Happening} {e : Errand}
    (he : e ∈ without errands h) : e ∈ errands := by
  unfold without at he
  split at he
  · exact List.mem_of_mem_erase he
  · exact he

theorem Orderly.sent (ho : b.Orderly) : ∀ e ∈ b.sent, e.token ≤ b.token := by
  intro e he
  obtain ⟨x, hx, hxe⟩ := List.mem_filterMap.mp he
  exact ho.effects x hx e.token (token?_of_ofEffect? hxe)

theorem Orderly.events (ho : b.Orderly) :
    ∀ e ∈ b.events, ∀ token, e.token? = some token → token ≤ b.token := by
  intro e he token htoken
  exact ho.effects (.emit e) (mem_eventsOf.mp he) token htoken

theorem opening_orderly (profile : CheckerProfile) (root : Path) (delay : Nat) :
    (opening profile root delay).Orderly where
  alive := rfl
  running := by intro token h; cases h
  errands := by intro e he; cases he
  effects := by intro x hx; cases hx
  earlier := by intro e he; cases he

/-- A happening that starts no run leaves the tokens in order, if its effects are. -/
theorem Orderly.meet (ho : b.Orderly) {h : Happening} {c : Checker} {new : List Effect}
    (hmeet : b.checker.meet h = (c, new)) (alive : c.runs.disposed = false)
    (htoken : c.runs.token = b.token)
    (hrunning : ∀ token, c.runs.running = some token → token = b.token)
    (hnew : ∀ x ∈ new, ∀ token, x.token? = some token → token ≤ b.token)
    (hstart : ∀ e ∈ Checker.eventsOf new, e.isStart = false) : (b.meet h).Orderly := by
  have htoken' : (b.meet h).token = b.token := by
    unfold token at *
    rw [meet_checker, hmeet]
    exact htoken
  refine ⟨?_, ?_, ?_, ?_, ?_⟩
  · rw [meet_checker, hmeet]
    exact alive
  · rw [htoken', meet_checker, hmeet]
    exact hrunning
  · intro e he
    rw [htoken']
    rw [meet_errands, hmeet] at he
    rcases List.mem_append.mp he with he | he
    · exact ho.errands e (mem_of_mem_without he)
    · obtain ⟨x, hx, hxe⟩ := List.mem_filterMap.mp he
      exact hnew x hx e.token (token?_of_ofEffect? hxe)
  · intro x hx
    rw [htoken']
    rw [meet_effects, hmeet] at hx
    rcases List.mem_append.mp hx with hx | hx
    · exact ho.effects x hx
    · exact hnew x hx
  · rw [currentRun_meet hmeet htoken hstart, htoken']
    exact ho.earlier

/-- A new run has a token that nothing older has. -/
theorem Orderly.meet_expiry (ho : b.Orderly) {seq : Nat} (document : DocumentRef)
    (harmed : b.checker.runs.armed = some seq) : (b.meet (.expiry seq document)).Orderly := by
  have hmeet := Checker.meet_expiry ho.alive document harmed
  have htoken : (b.meet (.expiry seq document)).token = b.token + 1 := by
    unfold token
    rw [meet_checker, hmeet]
  refine ⟨?_, ?_, ?_, ?_, ?_⟩
  · rw [meet_checker, hmeet]
    exact ho.alive
  · intro t ht
    rw [htoken]
    rw [meet_checker, hmeet] at ht
    exact (Option.some.inj ht).symm
  · intro e he
    rw [htoken]
    rw [meet_errands, hmeet] at he
    rcases List.mem_append.mp he with he | he
    · exact Nat.le_succ_of_le (ho.errands e (mem_of_mem_without he))
    · rw [List.mem_singleton.mp he]
      exact Nat.le_refl _
  · intro x hx t ht
    rw [htoken]
    rw [meet_effects, hmeet] at hx
    rcases List.mem_append.mp hx with hx | hx
    · exact Nat.le_succ_of_le (ho.effects x hx t ht)
    · simp only [List.mem_cons, List.not_mem_nil, or_false] at hx
      rcases hx with rfl | rfl <;> exact Nat.le_of_eq (Option.some.inj ht).symm
  · rw [currentRun_expiry ho.alive harmed ho.errands ho.sent, htoken]
    intro e he t ht
    exact Nat.lt_succ_of_le (ho.events e he t ht)

/-! ## 3. Happenings aside -/

/-- A happening leaves the tokens in order and the current run as it was. -/
def Unmoved (b : Bench) (h : Happening) : Prop := (b.meet h).Orderly ∧ (b.meet h).currentRun = b.currentRun

theorem Orderly.meet_same (ho : b.Orderly) {h : Happening} {c : Checker} {new : List Effect}
    (hmeet : b.checker.meet h = (c, new))
    (hruns : c.runs = { b.checker.runs with armings := c.runs.armings, armed := c.runs.armed })
    (hcollection : c.collection = b.checker.collection)
    (herrand : ∀ e, h.errand? = some e → e.token ≠ b.token)
    (haside : ∀ x ∈ new, x.isAside b.token = true)
    (hnew : ∀ x ∈ new, ∀ token, x.token? = some token → token ≤ b.token) : b.Unmoved h := by
  have htoken : c.runs.token = b.token := by rw [hruns]; rfl
  have hrunning : c.runs.running = b.checker.runs.running := by rw [hruns]
  have hunwritten : c.runs.unwritten = b.checker.runs.unwritten := by rw [hruns]
  have halive : c.runs.disposed = false := by rw [hruns]; exact ho.alive
  constructor
  · exact ho.meet hmeet halive htoken (hrunning ▸ ho.running) hnew
      fun e he => (events_of_aside haside he).1
  · exact currentRun_of_aside hmeet htoken hrunning hunwritten hcollection herrand haside

/-- A trigger only sets the timer. -/
theorem Orderly.meet_trigger (ho : b.Orderly) (document : DocumentRef) : b.Unmoved (.trigger document) := by
  refine ho.meet_same (Checker.meet_trigger ho.alive document) rfl rfl nofun ?_ ?_
  · intro x hx
    rw [List.mem_singleton.mp hx]
    rfl
  · intro x hx token htoken
    rw [List.mem_singleton.mp hx] at htoken
    cases htoken

/-- The expiry of a timer that was set again does nothing. -/
theorem Orderly.meet_late_expiry (ho : b.Orderly) {seq : Nat} (document : DocumentRef)
    (hlate : b.checker.runs.armed ≠ some seq) : b.Unmoved (.expiry seq document) :=
  ho.meet_same (Checker.meet_expiry_of_ne ho.alive document hlate) rfl rfl nofun nofun nofun

section Late

variable {token : Nat} {document : DocumentRef}

/-- What comes back for an older run leaves the checker alone, and at most its ending is told. -/
theorem Orderly.meet_late (ho : b.Orderly) {h : Happening} {new : List Effect}
    (hmeet : b.checker.meet h = (b.checker, new)) (hlate : token ≠ b.token) (hold : token ≤ b.token)
    (herrand : ∀ e, h.errand? = some e → e.token = token)
    (hnew : ∀ x ∈ new, (∃ message, x = .warn message) ∨ x = .emit (.discarded token)
      ∨ ∃ cause, x = .emit (.failed token cause)) : b.Unmoved h := by
  refine ho.meet_same hmeet rfl rfl ?_ ?_ ?_
  · intro e he
    rw [herrand e he]
    exact hlate
  · intro x hx
    rcases hnew x hx with ⟨message, rfl⟩ | rfl | ⟨cause, rfl⟩
    · rfl
    · simpa [Effect.isAside] using hlate
    · simpa [Effect.isAside] using hlate
  · intro x hx t ht
    rcases hnew x hx with ⟨message, rfl⟩ | rfl | ⟨cause, rfl⟩
    · cases ht
    · cases ht
      exact hold
    · cases ht
      exact hold

theorem Orderly.meet_late_output (ho : b.Orderly) (hcan : .process token document ∈ b.errands)
    (hlate : token ≠ b.token) (printed : List Finding) : b.Unmoved (.output token document printed) := by
  refine ho.meet_late (Checker.meet_output_of_ne ho.alive document printed hlate) hlate (ho.errands _ hcan) ?_ ?_
  · intro e he
    cases he
    rfl
  · intro x hx
    exact .inr (.inl (List.mem_singleton.mp hx))

/-- Only the current run can be running, so none is given up for an older one. -/
theorem Orderly.giveUp_late (ho : b.Orderly) (hlate : token ≠ b.token) :
    b.checker.runs.giveUp token = b.checker.runs :=
  RunState.giveUp_of_ne fun hrunning => hlate (ho.running token hrunning)

theorem Orderly.meet_late_failure (ho : b.Orderly) (hcan : .process token document ∈ b.errands)
    (hlate : token ≠ b.token) (cause : RunFailure) : b.Unmoved (.failure token document cause) := by
  have hmeet := Checker.meet_failure ho.alive token document cause
  rw [ho.giveUp_late hlate] at hmeet
  refine ho.meet_late hmeet hlate (ho.errands _ hcan) ?_ ?_
  · intro e he
    cases he
    rfl
  · intro x hx
    rcases List.mem_cons.mp hx with hwarn | hfailed
    · exact .inl ⟨_, hwarn⟩
    · exact .inr (.inr ⟨cause, List.mem_singleton.mp hfailed⟩)

theorem Orderly.meet_late_death (ho : b.Orderly) (hcan : .process token document ∈ b.errands)
    (hlate : token ≠ b.token) : b.Unmoved (.death token document) := by
  have hmeet := Checker.meet_death ho.alive token document
  rw [ho.giveUp_late hlate] at hmeet
  refine ho.meet_late hmeet hlate (ho.errands _ hcan) ?_ ?_
  · intro e he
    cases he
    rfl
  · intro x hx
    exact .inr (.inr ⟨.aborted, List.mem_singleton.mp hx⟩)

theorem Orderly.meet_late_answer (ho : b.Orderly) {a : Answer} (hcan : .lookUp token a.parcel ∈ b.errands)
    (hlate : token ≠ b.token) : b.Unmoved (.answer token a) := by
  refine ho.meet_late (Checker.meet_answer_of_ne ho.alive a hlate) hlate (ho.errands _ hcan) ?_ nofun
  intro e he
  cases he
  rfl

end Late

/-- **A happening aside changes nothing of the current run.** -/
theorem Orderly.meet_aside (ho : b.Orderly) {h : Happening} (hcan : b.CanMeet h)
    (haside : h.IsAside b.checker.runs) : (b.meet h).Orderly ∧ (b.meet h).currentRun = b.currentRun := by
  cases h with
  | trigger document => exact ho.meet_trigger document
  | expiry seq document => exact ho.meet_late_expiry document haside
  | output token document printed => exact ho.meet_late_output hcan haside printed
  | failure token document cause => exact ho.meet_late_failure hcan haside cause
  | death token document => exact ho.meet_late_death hcan haside
  | answer token a => exact ho.meet_late_answer hcan haside
  | disposal => exact absurd haside (by simp [Happening.IsAside])

/-! ## 4. Happenings of the current run -/

section Phases

variable {document : DocumentRef}

theorem mem_processes (hcan : .process b.token document ∈ b.errands) :
    document ∈ b.currentRun.processes :=
  List.mem_filterMap.mpr ⟨_, hcan, by simp [Errand.process?]⟩

theorem mem_parcels {token : Nat} {parcel : Parcel} (hcan : .lookUp token parcel ∈ b.errands)
    (htoken : token = b.token) : parcel ∈ b.currentRun.parcels :=
  List.mem_filterMap.mpr ⟨_, hcan, by simp [Errand.parcel?, htoken]⟩

theorem waiting_of_expiry (ho : b.Orderly) {seq : Nat} (harmed : b.checker.runs.armed = some seq)
    (hopen : b.currentRun.collection.IsOpen b.checker.name) :
    (b.meet (.expiry seq document)).currentRun.Waiting b.checker.name document := by
  rw [currentRun_expiry ho.alive harmed ho.errands ho.sent]
  exact ⟨rfl, hopen.clear, rfl, rfl, rfl, rfl⟩

theorem placing_of_output (ho : b.Orderly) (hw : b.currentRun.Waiting b.checker.name document)
    (printed : List Finding) :
    (b.meet (.output b.token document printed)).currentRun.Placing b.checker.name document
      (Parcel.ofPrinted b.checker.root document.uri printed) [] := by
  rw [currentRun_output ho.alive hw.running rfl]
  refine ⟨?_, ?_, hw.collection, ?_, ?_, ?_, ?_⟩
  · simp [hw.parcels]
  · simp [hw.parcels]
  · simp [hw.processes]
  · simp [hw.parcels]
  · simp [hw.asked]
  · simp [hw.told, hw.parcels]

theorem token_of_output (ho : b.Orderly) (hw : b.currentRun.Waiting b.checker.name document)
    (printed : List Finding) : (b.meet (.output b.token document printed)).token = b.token := by
  rw [← currentRun_token, currentRun_output ho.alive hw.running rfl, currentRun_token]

theorem spent_of_failure (ho : b.Orderly) (hw : b.currentRun.Waiting b.checker.name document)
    (cause : RunFailure) :
    (b.meet (.failure b.token document cause)).currentRun.Spent b.checker.name := by
  rw [currentRun_failure ho.alive hw.running]
  exact ⟨hw.collection, by simp [hw.processes], hw.parcels⟩

theorem spent_of_death (ho : b.Orderly) (hw : b.currentRun.Waiting b.checker.name document) :
    (b.meet (.death b.token document)).currentRun.Spent b.checker.name := by
  rw [currentRun_death ho.alive hw.running]
  exact spent_of_failure ho hw .aborted

theorem placing_of_answer (ho : b.Orderly) {sent : List Parcel} {answers : List Answer}
    (hp : b.currentRun.Placing b.checker.name document sent answers) {a : Answer}
    (hcan : .lookUp b.token a.parcel ∈ b.errands) :
    (b.meet (.answer b.token a)).currentRun.Placing b.checker.name document sent (answers ++ [a]) := by
  have hmem : a.parcel ∈ b.currentRun.parcels := mem_parcels hcan rfl
  rw [currentRun_answer ho.alive (hp.running_of_mem hmem) a (hp.unwritten_of_mem hmem)]
  refine ⟨?_, rfl, ?_, hp.processes, ?_, hp.asked, ?_⟩
  · simp
  · rw [Answer.written_snoc, ← hp.collection]
    rfl
  · -- the parcel moves from those that are out to those that are answered
    have hmove : (answers.map Answer.parcel ++ a.parcel :: b.currentRun.parcels.erase a.parcel).Perm
        sent :=
      ((List.perm_cons_erase hmem).symm.append_left _).trans hp.parcels
    simpa using hmove
  · have htold := hp.told
    rw [if_neg (List.ne_nil_of_mem hmem), List.append_nil] at htold
    simp [htold, Answer.published, Answer.length_diagnostics]

theorem token_of_answer (ho : b.Orderly) {sent : List Parcel} {answers : List Answer}
    (hp : b.currentRun.Placing b.checker.name document sent answers) {a : Answer}
    (hcan : .lookUp b.token a.parcel ∈ b.errands) : (b.meet (.answer b.token a)).token = b.token :=
  congrArg CurrentRun.token (currentRun_answer ho.alive (hp.running_of_mem (mem_parcels hcan rfl)) a
    (hp.unwritten_of_mem (mem_parcels hcan rfl)))

/-! ### The tokens stay in order -/

theorem token?_of_mem_sending {current toCome : Nat} {parcels : List Parcel} {x : Effect}
    (hx : x ∈ Checker.sending current toCome parcels) : x.token? = some current := by
  rcases List.mem_append.mp hx with hx | hx
  · obtain ⟨p, _, rfl⟩ := List.mem_map.mp hx
    rfl
  · rw [mem_endingIf hx]
    rfl

theorem token_of_running_withLeft {s : RunState} {current n token : Nat}
    (h : (s.withLeft current n).running = some token) : token = current := by
  unfold RunState.withLeft at h
  by_cases hn : n = 0
  · simp [hn] at h
  · simpa [hn] using h.symm

theorem Orderly.meet_output (ho : b.Orderly) (hw : b.currentRun.Waiting b.checker.name document)
    (printed : List Finding) : (b.meet (.output b.token document printed)).Orderly := by
  refine ho.meet (Checker.meet_output ho.alive hw.running document printed) ho.alive rfl ?_ ?_
    isStart_of_mem_sending
  · intro token h
    exact token_of_running_withLeft h
  · intro x hx token htoken
    rw [token?_of_mem_sending hx] at htoken
    exact Nat.le_of_eq (Option.some.inj htoken).symm

theorem Orderly.meet_answer (ho : b.Orderly) {sent : List Parcel} {answers : List Answer}
    (hp : b.currentRun.Placing b.checker.name document sent answers) {a : Answer}
    (hcan : .lookUp b.token a.parcel ∈ b.errands) : (b.meet (.answer b.token a)).Orderly := by
  have hmem : a.parcel ∈ b.currentRun.parcels := mem_parcels hcan rfl
  have hmeet := Checker.meet_answer ho.alive (hp.running_of_mem hmem) a (hp.unwritten_of_mem hmem)
  refine ho.meet hmeet ho.alive rfl ?_ ?_ isStart_of_mem_written
  · intro token h
    exact token_of_running_withLeft h
  · intro x hx token htoken
    rcases List.mem_cons.mp hx with rfl | hx
    · cases htoken
    · cases mem_endingIf hx
      exact Nat.le_of_eq (Option.some.inj htoken).symm

theorem not_running_giveUp (hrunning : b.checker.runs.running = some b.token) {token : Nat} :
    (b.checker.runs.giveUp b.token).running ≠ some token := by
  rw [giveUp_current hrunning]
  exact nofun

/-- A current run that is given up is told to have failed, and the user may be warned before. -/
theorem Orderly.meet_giveUp (ho : b.Orderly) (hrunning : b.checker.runs.running = some b.token)
    {h : Happening} (warnings : List String) (cause : RunFailure)
    (hmeet : b.checker.meet h = ({ b.checker with runs := b.checker.runs.giveUp b.token },
      warnings.map Effect.warn ++ [.emit (.failed b.token cause)])) : (b.meet h).Orderly := by
  have alive : (b.checker.runs.giveUp b.token).disposed = false :=
    (RunState.giveUp_disposed _ _).trans ho.alive
  have hcases : ∀ x ∈ warnings.map Effect.warn ++ [.emit (.failed b.token cause)],
      (∃ message, x = .warn message) ∨ x = .emit (.failed b.token cause) := by
    intro x hx
    rcases List.mem_append.mp hx with hx | hx
    · obtain ⟨message, _, rfl⟩ := List.mem_map.mp hx
      exact .inl ⟨message, rfl⟩
    · exact .inr (List.mem_singleton.mp hx)
  refine ho.meet hmeet alive (RunState.giveUp_token _ _) ?_ ?_ ?_
  · intro token h
    exact absurd h (not_running_giveUp hrunning)
  · intro x hx token htoken
    rcases hcases x hx with ⟨message, rfl⟩ | rfl
    · cases htoken
    · exact Nat.le_of_eq (Option.some.inj htoken).symm
  · intro e he
    rcases hcases _ (mem_eventsOf.mp he) with ⟨message, hwarn⟩ | hfailed
    · cases hwarn
    · cases hfailed
      rfl

theorem Orderly.meet_failure (ho : b.Orderly) (hrunning : b.checker.runs.running = some b.token)
    (cause : RunFailure) : (b.meet (.failure b.token document cause)).Orderly :=
  ho.meet_giveUp hrunning ["Checker " ++ b.checker.name ++ " received error: " ++ cause.message] cause
    (Checker.meet_failure ho.alive b.token document cause)

theorem Orderly.meet_death (ho : b.Orderly) (hrunning : b.checker.runs.running = some b.token) :
    (b.meet (.death b.token document)).Orderly :=
  ho.meet_giveUp hrunning [] .aborted (Checker.meet_death ho.alive b.token document)

end Phases

end Bench

end SyntaxWatch
