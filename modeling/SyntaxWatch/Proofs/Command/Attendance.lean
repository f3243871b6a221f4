import SyntaxWatch.Proofs.Checker.Spellings
import SyntaxWatch.Proofs.Command.Pending

/-!
# Waiting for endings

A pass announces one file, counts the runs that this starts, and takes notices off the queue until it
has heard as many endings. `Attendance` is this waiting, with the checkers at work beside it: whatever is
under way comes back in any order, and any of it may come back between two notices.

The queue has room for a fixed number of notices and loses what comes when it is full, endings as well
as others. The accounts that hold whatever happens (`Exact`) are therefore about three places where an
ending can be: still to be told, in the queue, or lost. When all runs have ended and the queue has been
emptied, the count is that of the lost endings, so the wait returns just when there are none. It does
return after every file for which no more is told than the queue has room for, and it may wait for ever
after one for which more is told (`overfull_hangs`).

Once the wait returns, nothing is left behind that could reach the wait for the next file.
-/

set_option autoImplicit false

namespace SyntaxWatch

/-! ## 1. The system -/

/-- The engine of a pass, what is under way for its checkers, and the counts of the one who waits. -/
structure Attendance where
  engine : Engine
  jobs : List (Nat × Job)
  pending : Pending
  /-- What has been told since the file was announced. -/
  told : List Notice
  /-- What of this has been lost at the full queue. -/
  lost : List Notice

namespace Attendance

def opening (root : Path) (feedCapacity : Nat) (settings : Settings) : Attendance :=
  ⟨(Engine.idle root feedCapacity).start none settings, [], [], [], []⟩

inductive Move where
  /-- The next file is announced. -/
  | announce (document : DocumentRef)
  /-- Something comes back to the checker with a number. -/
  | hear (i : Nat) (r : Return)
  /-- The one who waits takes a notice off the queue. -/
  | receive
  deriving DecidableEq, Repr

def announce (v : Attendance) (document : DocumentRef) : Attendance :=
  { v with
    jobs := v.jobs ++ (v.engine.covering document.language).map fun i => (i, .call document)
    pending := .ofCheckers v.engine.present document.language
    told := []
    lost := [] }

def hear (v : Attendance) (i : Nat) (r : Return) : Attendance :=
  match v.engine.checkers[i]? with
  | none => v
  | some c =>
    let (next, effects) := c.step (r.input c.name)
    { v with
      engine := (v.engine.deliver i (r.input c.name)).1
      jobs := jobsAfter v.jobs i r effects
      told := v.told ++ next.telling effects
      lost := v.lost ++ v.engine.events.refused (next.telling effects) }

def receive (v : Attendance) : Attendance :=
  let (notices, events) := v.engine.events.take 1
  { v with engine := { v.engine with events := events }, pending := notices.foldl Pending.observe v.pending }

def make (v : Attendance) : Move → Attendance
  | .announce document => v.announce document
  | .hear i r => v.hear i r
  | .receive => v.receive

/-- Whether a move can be made now. The next file is announced when the wait for the one before has
returned, and until then every notice is taken that there is. -/
def CanMake (v : Attendance) : Move → Prop
  | .announce _ => v.pending = []
  | .hear i r => (i, r.job) ∈ v.jobs
  | .receive => v.pending ≠ [] ∧ v.engine.events.waiting ≠ []

instance decidableCanMake (v : Attendance) : (move : Move) → Decidable (v.CanMake move)
  | .announce _ => inferInstanceAs (Decidable (v.pending = []))
  | .hear _ _ => inferInstanceAs (Decidable (_ ∈ v.jobs))
  | .receive => inferInstanceAs (Decidable (_ ∧ _))

def after (v : Attendance) (moves : List Move) : Attendance := moves.foldl make v

def Possible (v : Attendance) : List Move → Prop
  | [] => True
  | move :: later => v.CanMake move ∧ (v.make move).Possible later

instance decidablePossible : (v : Attendance) → (moves : List Move) → Decidable (v.Possible moves)
  | _, [] => isTrue trivial
  | v, move :: later =>
    have := decidablePossible (v.make move) later
    inferInstanceAs (Decidable (_ ∧ _))

def waiting (v : Attendance) : List Notice := v.engine.events.waiting

def busy (v : Attendance) (name : String) : Nat := busyNamed v.engine.checkers v.jobs name

/-- Every run that was called for has ended: no call is on its way, no timer is armed and no run goes
on. -/
def Over (v : Attendance) : Prop :=
  (∀ x ∈ v.jobs, ∀ document, x.2 ≠ .call document)
    ∧ ∀ c ∈ v.engine.checkers, c.runs.armed = none ∧ c.runs.running = none

/-! ## 2. The accounts -/

/-- The accounts of a wait. -/
structure Kept (v : Attendance) : Prop where
  roll : v.engine.enrolled = List.range v.engine.checkers.length
  capacity : v.engine.events.capacity = Engine.eventCapacity
  service : ∃ base who document, Service base who document v.engine.checkers v.jobs
  sound : v.pending.Sound
  counted : ∀ name, v.pending.count name
    = v.busy name + Notice.endings name v.waiting + Notice.endings name v.lost
  /-- Whatever waits in the queue is followed by an ending under its name, unless that one is lost or
  still to be told. -/
  followed : ∀ front n rest, v.waiting = front ++ n :: rest →
    0 < v.busy n.checker + Notice.endings n.checker (n :: rest) + Notice.endings n.checker v.lost
  told : v.waiting.length ≤ v.told.length
  lossless : v.told.length ≤ Engine.eventCapacity → v.lost = []

theorem endings_cons (name : String) (n : Notice) (others : List Notice) :
    Notice.endings name (n :: others) = Notice.endings name [n] + Notice.endings name others :=
  Notice.endings_append name [n] others

theorem Kept.jobs_eq_nil {v : Attendance} (hv : v.Kept) (hnobody : ∀ name, v.busy name = 0) : v.jobs = [] := by
  obtain ⟨_, _, _, hs⟩ := hv.service
  exact hs.jobs_eq_nil hnobody

/-- **When the wait returns, nothing is left behind**: nothing is under way, and nothing is in the
queue. -/
theorem Kept.clean {v : Attendance} (hv : v.Kept) (hreturned : v.pending = []) :
    v.jobs = [] ∧ v.waiting = [] := by
  have hzero := hv.sound.eq_nil_iff.mp hreturned
  refine ⟨hv.jobs_eq_nil fun name => ?_, ?_⟩
  · have hcounted := hv.counted name
    rw [hzero] at hcounted
    omega
  · cases hwaiting : v.waiting with
    | nil => rfl
    | cons n rest =>
      have hfollowed := hv.followed [] n rest hwaiting
      have hcounted := hv.counted n.checker
      rw [hzero, hwaiting] at hcounted
      omega

/-! ## 3. One move -/

theorem opening_kept (root : Path) (feedCapacity : Nat) (settings : Settings) :
    (opening root feedCapacity settings).Kept := by
  have hfresh := Engine.start_fresh root feedCapacity settings
  have hwaiting : (opening root feedCapacity settings).waiting = [] := by
    unfold waiting opening
    rw [hfresh.events]
    rfl
  have hservice : ∀ document, Service (opening root feedCapacity settings).engine.checkers [] document
      (opening root feedCapacity settings).engine.checkers [] :=
    fun _ => Service.announced hfresh.rested List.nodup_nil nofun
  refine ⟨hfresh.roll, ?_, ⟨_, [], default, hservice default⟩, Pending.sound_nil, ?_, ?_, ?_, fun _ => rfl⟩
  · unfold opening
    rw [hfresh.events]
    rfl
  · intro name
    rw [hwaiting]
    show 0 = busyNamed _ [] name + 0 + 0
    rw [busyNamed_nil]
  · intro front n rest h
    rw [hwaiting] at h
    cases front <;> cases h
  · rw [hwaiting]
    exact Nat.zero_le _

theorem Kept.announce {v : Attendance} (hv : v.Kept) (hreturned : v.pending = []) (document : DocumentRef) :
    (v.announce document).Kept := by
  obtain ⟨hjobs, hwaiting⟩ := hv.clean hreturned
  obtain ⟨base, who, before, hs⟩ := hv.service
  rw [hjobs] at hs
  have hcalls : (v.announce document).jobs
      = (v.engine.covering document.language).map fun i => (i, .call document) := by
    show v.jobs ++ _ = _
    rw [hjobs, List.nil_append]
  have hnone : (v.announce document).waiting = [] := hwaiting
  refine ⟨hv.roll, hv.capacity, ⟨v.engine.checkers, v.engine.covering document.language, document, ?_⟩,
    Pending.ofCheckers_sound _ _, ?_, ?_, ?_, fun _ => rfl⟩
  · rw [hcalls]
    exact Service.announced hs.ended.1 (Engine.covering_nodup hv.roll _) (Engine.lt_of_covering hv.roll)
  · intro name
    unfold busy
    rw [hcalls, hnone]
    exact (Pending.count_ofCheckers _ _ name).trans (Engine.busyNamed_called hv.roll document name).symm
  · intro front n rest h
    rw [hnone] at h
    cases front <;> cases h
  · rw [hnone]
    exact Nat.zero_le _

theorem Kept.receive {v : Attendance} (hv : v.Kept) (hsome : v.waiting ≠ []) : v.receive.Kept := by
  obtain ⟨n, rest, hwaiting⟩ := List.exists_cons_of_ne_nil hsome
  have hleft : v.receive.waiting = rest := by
    show v.waiting.drop 1 = rest
    rw [hwaiting]
    rfl
  have hpending : v.receive.pending = v.pending.observe n := by
    show (v.waiting.take 1).foldl Pending.observe v.pending = _
    rw [hwaiting]
    rfl
  obtain ⟨hsound, hcount⟩ := hv.sound.observe n
  refine ⟨hv.roll, hv.capacity, hv.service, hpending ▸ hsound, ?_, ?_, ?_, hv.lossless⟩
  · intro name
    have hcounted := hv.counted name
    rw [hwaiting, endings_cons] at hcounted
    rw [hpending, hcount, hleft, hcounted]
    show _ = v.busy name + _ + Notice.endings name v.lost
    omega
  · intro front m later h
    rw [hleft] at h
    exact hv.followed (n :: front) m later (by rw [hwaiting, h]; rfl)
  · have hlength := hv.told
    rw [hwaiting, List.length_cons] at hlength
    rw [hleft]
    exact Nat.le_of_succ_le hlength

/-- What waits after something has been told, from before or since, is followed as it should be. -/
theorem Kept.followed_tell {v w : Attendance} (hv : v.Kept) {taken refused : List Notice}
    (hbusy : ∀ name, w.busy name + Notice.endings name (taken ++ refused) = v.busy name)
    (hfollowed : ∀ front n rest, taken ++ refused = front ++ n :: rest →
      0 < w.busy n.checker + Notice.endings n.checker (n :: rest))
    {front rest : List Notice} {n : Notice} (hwaiting : v.waiting ++ taken = front ++ n :: rest) :
    0 < w.busy n.checker + Notice.endings n.checker (n :: rest)
      + Notice.endings n.checker (v.lost ++ refused) := by
  rw [Notice.endings_append]
  rcases List.append_eq_append_iff.mp hwaiting with ⟨newer, rfl, hnewer⟩ | ⟨older, holder, hrest⟩
  · -- it has just been told
    have hfrom := hfollowed newer n (rest ++ refused) (by rw [hnewer]; simp)
    rw [← List.cons_append, Notice.endings_append] at hfrom
    omega
  · cases older with
    | nil =>
      have hfrom := hfollowed [] n (rest ++ refused) (by rw [← List.nil_append taken, ← hrest]; simp)
      rw [← List.cons_append, Notice.endings_append] at hfrom
      omega
    | cons m older =>
      obtain ⟨rfl, hlater⟩ := List.cons.inj hrest
      have hbefore := hv.followed front n older holder
      have hmoved := hbusy n.checker
      rw [Notice.endings_append] at hmoved
      rw [hlater, List.append_eq, ← List.cons_append, Notice.endings_append]
      omega

/-- **The accounts after something has been told.** What is told goes to the queue as far as there is room
and is lost from there on, and as many checkers get done as endings are told. -/
theorem Kept.tell {v w : Attendance} (hv : v.Kept) {told : List Notice}
    (roll : w.engine.enrolled = List.range w.engine.checkers.length)
    (service : ∃ base who document, Service base who document w.engine.checkers w.jobs)
    (hevents : w.engine.events = v.engine.events.offerAll told) (hpending : w.pending = v.pending)
    (htold : w.told = v.told ++ told) (hlost : w.lost = v.lost ++ v.engine.events.refused told)
    (hbusy : ∀ name, w.busy name + Notice.endings name told = v.busy name)
    (hfollowed : ∀ front n rest, told = front ++ n :: rest →
      0 < w.busy n.checker + Notice.endings n.checker (n :: rest)) : w.Kept := by
  obtain ⟨taken, hsplit, hoffered, hroom⟩ := v.engine.events.offerAll_split told
  have htaken : w.waiting = v.waiting ++ taken := (congrArg EventQueue.waiting hevents).trans hoffered
  rw [hv.capacity] at hroom
  change v.waiting.length + told.length ≤ Engine.eventCapacity → _ at hroom
  have hlength := hv.told
  generalize v.engine.events.refused told = refused at hsplit hlost hroom
  subst hsplit
  refine ⟨roll, ?_, service, hpending ▸ hv.sound, fun name => ?_, fun front n rest hwaiting => ?_, ?_,
    fun hfits => ?_⟩
  · rw [hevents, EventQueue.offerAll_eq]
    exact hv.capacity
  · have hname := hbusy name
    rw [hpending, hv.counted name, htaken, hlost, ← hname]
    simp only [Notice.endings_append]
    omega
  · rw [hlost]
    exact hv.followed_tell hbusy hfollowed (htaken.symm.trans hwaiting)
  · rw [htaken, htold, List.length_append, List.length_append, List.length_append]
    omega
  · rw [htold, List.length_append] at hfits
    rw [hlost, hv.lossless (by omega), hroom (by omega)]
    rfl

theorem hear_of_some {v : Attendance} {i : Nat} {c : Checker} (hc : v.engine.checkers[i]? = some c)
    (r : Return) :
    v.hear i r
      = ⟨(v.engine.deliver i (r.input c.name)).1, jobsAfter v.jobs i r (c.step (r.input c.name)).2, v.pending,
          v.told ++ (c.step (r.input c.name)).1.telling (c.step (r.input c.name)).2,
          v.lost ++ v.engine.events.refused ((c.step (r.input c.name)).1.telling (c.step (r.input c.name)).2)⟩ := by
  unfold hear
  rw [hc]

theorem Kept.hear {v : Attendance} (hv : v.Kept) {i : Nat} {r : Return} (hr : (i, r.job) ∈ v.jobs) :
    (v.hear i r).Kept := by
  obtain ⟨base, who, document, hs⟩ := hv.service
  obtain ⟨_, c, _, hc, _, _, _⟩ := hs.of_mem hr
  have hcheckers := Engine.deliver_checkers_set hc (r.input c.name)
  rw [hear_of_some hc]
  refine hv.tell ?_ ⟨base, who, document, ?_⟩ (Engine.deliver_events hc _) rfl rfl rfl ?_ ?_
  · show (v.engine.deliver i (r.input c.name)).1.enrolled = _
    rw [(Engine.deliver_office _ _ _).enrolled, hv.roll, hcheckers, List.length_set]
  · rw [hcheckers]
    exact (hs.step hr hc).1
  · intro name
    unfold busy
    rw [hcheckers]
    exact hs.busy_step hr hc name
  · intro front n rest htold
    unfold busy
    rw [hcheckers]
    exact hs.followed_step hr hc htold

/-- **The accounts are kept**, whatever comes back in whatever order. -/
theorem Kept.after {v : Attendance} (hv : v.Kept) {moves : List Move} (possible : v.Possible moves) :
    (v.after moves).Kept := by
  induction moves generalizing v with
  | nil => exact hv
  | cons move moves ih =>
    obtain ⟨hcan, hrest⟩ := possible
    refine ih ?_ hrest
    cases move with
    | announce document => exact hv.announce hcan document
    | hear i r => exact hv.hear hcan
    | receive => exact hv.receive hcan.2

/-! ## 4. What the one who waits can rely on -/

/-- When all runs have ended, nothing is under way. -/
theorem Kept.jobs_of_over {v : Attendance} (hv : v.Kept) (hover : v.Over) : v.jobs = [] := by
  obtain ⟨_, _, _, hs⟩ := hv.service
  rw [List.eq_nil_iff_forall_not_mem]
  rintro ⟨i, job⟩ hmem
  obtain ⟨b, c, _, hc, _, _, hh⟩ := hs.of_mem hmem
  obtain ⟨hnoCall, hidle⟩ := hover
  obtain ⟨harmed, hrunning⟩ := hidle c (List.mem_of_getElem? hc)
  generalize hjobs : jobsOf v.jobs i = jobs at hh
  have hjob : job ∈ jobs := hjobs ▸ mem_jobsOf.mpr hmem
  cases hh with
  | call => exact hnoCall _ hmem _ (List.mem_singleton.mp hjob)
  | timer => cases harmed
  | process => cases hrunning
  | lookUps found answers parcels left out answered => cases hrunning
  | ended brought => cases hjob

/-- What holds while somebody waits for the runs of a file to end. -/
structure Exact (v : Attendance) : Prop where
  /-- Under every name, the count is that of the runs still to end, of the endings in the queue, and of
  those that have been lost. -/
  counted : ∀ name, v.pending.count name
    = v.busy name + Notice.endings name v.waiting + Notice.endings name v.lost
  /-- When all runs have ended and the queue has been emptied, the wait returns just when no ending has
  been lost. -/
  returns : v.Over → v.waiting = [] → (v.pending = [] ↔ ∀ n ∈ v.lost, n.event.isTerminal = false)
  /-- Nothing is lost as long as no more has been told of the file than the queue has room for. -/
  lossless : v.told.length ≤ Engine.eventCapacity → v.lost = []
  /-- When the wait returns, nothing is left behind: nothing is under way, and nothing is in the
  queue. -/
  clean : v.pending = [] → v.jobs = [] ∧ v.waiting = []

/-- **Waiting is exact but for what the queue loses.** This holds for any checkers, any number of files
and any outputs, and for every order in which runs go on and notices are taken. -/
theorem attendance_exact {root : Path} {feedCapacity : Nat} {settings : Settings} {moves : List Move}
    (possible : (opening root feedCapacity settings).Possible moves) :
    ((opening root feedCapacity settings).after moves).Exact := by
  have hv := (opening_kept root feedCapacity settings).after possible
  refine ⟨hv.counted, ?_, hv.lossless, hv.clean⟩
  intro hover hdrained
  have hbusy : ∀ name, ((opening root feedCapacity settings).after moves).busy name = 0 := by
    intro name
    unfold busy
    rw [hv.jobs_of_over hover, busyNamed_nil]
  rw [hv.sound.eq_nil_iff]
  have hcount : ∀ name, ((opening root feedCapacity settings).after moves).pending.count name
      = Notice.endings name ((opening root feedCapacity settings).after moves).lost := by
    intro name
    rw [hv.counted, hbusy, hdrained]
    exact Nat.zero_add _
  simp only [hcount]
  constructor
  · intro hzero n hn
    have hnone := List.countP_eq_zero.mp (hzero n.checker) n hn
    simpa using hnone
  · intro hnone name
    refine List.countP_eq_zero.mpr fun n hn => ?_
    simp [hnone n hn]

/-! ### Two checkers of one name, and two files -/

def twoCheckers : Settings := ⟨500, [⟨"check", "Check", [], ["c"]⟩, ⟨"check", "Check", ["-Wall"], ["c"]⟩]⟩

/-- The first checker fails while the other one has not been heard of, and the second file is announced
when both have ended. -/
def bothRun : List Move :=
  [.announce Bench.sampleDocument, .hear 1 (.call Bench.sampleDocument), .hear 0 (.call Bench.sampleDocument),
    .hear 0 (.expiry 1 Bench.sampleDocument), .hear 0 (.failure 1 Bench.sampleDocument (.notFound "check")),
    .receive, .receive, .hear 1 (.expiry 1 Bench.sampleDocument),
    .hear 1 (.output 1 Bench.sampleDocument (.ofList [Bench.sampleFinding "<stdin>"])), .receive,
    .hear 1 (.answer 1 ⟨Bench.sampleParcel, none⟩), .receive, .receive, .announce Bench.sampleDocument,
    .hear 0 (.call Bench.sampleDocument)]

theorem attendance_exact_two :
    (opening (.ofText "/w") 16 twoCheckers).Possible bothRun
      ∧ ((opening (.ofText "/w") 16 twoCheckers).after bothRun).Exact :=
  ⟨by decide, attendance_exact (by decide)⟩

/-! ## 5. A run that tells more than the queue has room for -/

/-! ### Waiting for what is lost -/

theorem Kept.over_of_jobs {v : Attendance} (hv : v.Kept) (hnone : v.jobs = []) : v.Over := by
  obtain ⟨_, _, _, hs⟩ := hv.service
  rw [hnone] at hs
  refine ⟨?_, fun c hc => ⟨(hs.ended.1 c hc).armed, (hs.ended.1 c hc).running⟩⟩
  rw [hnone]
  exact nofun

theorem after_append (v : Attendance) (moves later : List Move) :
    v.after (moves ++ later) = (v.after moves).after later := by
  unfold after
  exact List.foldl_append

theorem possible_append {v : Attendance} {moves later : List Move} :
    v.Possible (moves ++ later) ↔ v.Possible moves ∧ (v.after moves).Possible later := by
  induction moves generalizing v with
  | nil => exact ⟨fun h => ⟨trivial, h⟩, fun h => h.2⟩
  | cons move moves ih =>
    rw [List.cons_append]
    exact (and_congr_right fun _ => ih).trans and_assoc.symm

/-- The one who waits for a lost ending waits on when the queue has been emptied. -/
theorem Kept.drain {v : Attendance} (hv : v.Kept) (hover : v.jobs = [])
    (hlost : ∃ n ∈ v.lost, n.event.isTerminal = true) :
    ∃ moves, v.Possible moves ∧ (v.after moves).Over ∧ (v.after moves).waiting = []
      ∧ (v.after moves).pending ≠ [] := by
  obtain ⟨n, hn, hending⟩ := hlost
  have hpending : v.pending ≠ [] := by
    intro hnone
    have hzero := hv.sound.eq_nil_iff.mp hnone n.checker
    have hpos : 0 < Notice.endings n.checker v.lost := List.countP_pos_iff.mpr ⟨n, hn, by simp [hending]⟩
    rw [hv.counted] at hzero
    omega
  generalize hlength : v.waiting.length = k
  induction k generalizing v with
  | zero => exact ⟨[], trivial, hv.over_of_jobs hover, List.length_eq_zero_iff.mp hlength, hpending⟩
  | succ k ih =>
    have hsome : v.waiting ≠ [] := List.ne_nil_of_length_eq_add_one hlength
    have hleft : v.receive.waiting.length = k := by
      show (v.waiting.drop 1).length = k
      rw [List.length_drop, hlength, Nat.add_sub_cancel]
    have hkept := hv.receive hsome
    have hstill : v.receive.pending ≠ [] := by
      intro hnone
      have hzero := hkept.sound.eq_nil_iff.mp hnone n.checker
      have hpos : 0 < Notice.endings n.checker v.receive.lost :=
        List.countP_pos_iff.mpr ⟨n, hn, by simp [hending]⟩
      rw [hkept.counted] at hzero
      omega
    obtain ⟨moves, possible, hend⟩ := ih hkept hover hn hstill hleft
    exact ⟨.receive :: moves, ⟨⟨hpending, hsome⟩, possible⟩, hend⟩

/-! ### One run, and nothing is taken -/

/-- Nothing has been taken off the queue since the announcement. -/
structure Untaken (v : Attendance) : Prop where
  waiting : v.waiting = v.told.take Engine.eventCapacity
  lost : v.lost = v.told.drop Engine.eventCapacity
  capacity : v.engine.events.capacity = Engine.eventCapacity

/-- One checker has all that is under way. -/
structure Alone (v : Attendance) (i : Nat) (c : Checker) (jobs : List Job) : Prop where
  checker : v.engine.checkers[i]? = some c
  jobs : v.jobs = jobs.map (Prod.mk i)
  untaken : v.Untaken

theorem Untaken.tell {v w : Attendance} (hv : v.Untaken) {told : List Notice}
    (hevents : w.engine.events = v.engine.events.offerAll told)
    (htold : w.told = v.told ++ told) (hlost : w.lost = v.lost ++ v.engine.events.refused told) : w.Untaken := by
  have hroom : v.engine.events.capacity - v.engine.events.waiting.length
      = Engine.eventCapacity - v.told.length := by
    have hlength : v.waiting.length = _ := congrArg List.length hv.waiting
    unfold Attendance.waiting at hlength
    rw [hv.capacity, hlength, List.length_take]
    omega
  refine ⟨?_, ?_, ?_⟩
  · unfold Attendance.waiting
    rw [hevents, EventQueue.offerAll_eq, htold, List.take_append, hroom, ← hv.waiting]
    rfl
  · unfold EventQueue.refused at hlost
    rw [hlost, htold, List.drop_append, hroom, ← hv.lost]
  · rw [hevents, EventQueue.offerAll_eq]
    exact hv.capacity

/-- What is told last is lost when more has been told than there is room for. -/
theorem Untaken.lost_last {v : Attendance} (hv : v.Untaken) (hmany : Engine.eventCapacity < v.told.length)
    {n : Notice} (hn : n ∈ v.told.getLast?) : n ∈ v.lost := by
  rw [hv.lost]
  refine List.mem_of_getLast? ?_
  rw [List.getLast?_drop, if_neg (Nat.not_le.mpr hmany)]
  exact hn

theorem Alone.hear {v : Attendance} {i : Nat} {c : Checker} {jobs : List Job} (hv : v.Alone i c jobs)
    {r : Return} {next : Checker} {effects : List Effect} (hstep : c.step (r.input c.name) = (next, effects)) :
    (v.hear i r).Alone i next (jobs.erase r.job ++ effects.filterMap Job.ofEffect?)
      ∧ (v.hear i r).told = v.told ++ next.telling effects := by
  have hinj : Function.Injective (Prod.mk i : Job → Nat × Job) := fun _ _ h => (Prod.mk.inj h).2
  have hcheckers := Engine.deliver_checkers_set hv.checker (r.input c.name)
  have hevents := Engine.deliver_events hv.checker (r.input c.name)
  rw [hear_of_some hv.checker]
  rw [hstep] at hcheckers hevents ⊢
  refine ⟨⟨?_, ?_, hv.untaken.tell hevents rfl rfl⟩, rfl⟩
  · show (v.engine.deliver i (r.input c.name)).1.checkers[i]? = _
    rw [hcheckers]
    exact List.getElem?_set_self (List.getElem?_eq_some_iff.mp hv.checker).1
  · show jobsAfter v.jobs i r effects = _
    unfold jobsAfter
    rw [hv.jobs, List.map_append, List.map_erase hinj]

theorem Alone.can {v : Attendance} {i : Nat} {c : Checker} {jobs : List Job} (hv : v.Alone i c jobs)
    {r : Return} (hr : r.job ∈ jobs) : v.CanMake (.hear i r) := by
  show (i, r.job) ∈ v.jobs
  rw [hv.jobs]
  exact List.mem_map_of_mem hr

/-- What is under way alone is followed by what it leads to. -/
theorem Alone.hear_only {v : Attendance} {i : Nat} {c : Checker} {r : Return} (hv : v.Alone i c [r.job])
    {next : Checker} {effects : List Effect} (hstep : c.step (r.input c.name) = (next, effects)) :
    v.CanMake (.hear i r) ∧ (v.hear i r).Alone i next (effects.filterMap Job.ofEffect?)
      ∧ (v.hear i r).told = v.told ++ next.telling effects := by
  obtain ⟨hnext, htold⟩ := hv.hear hstep
  rw [List.erase_cons_head] at hnext
  exact ⟨hv.can List.mem_cons_self, hnext, htold⟩

/-- Every answer is told, and the last one with the ending. -/
theorem Alone.answers {b : Checker} (hb : b.AtRest) {i : Nat} {collection : Collection} {parcels : List Parcel}
    (hsome : parcels ≠ []) {v : Attendance}
    (hv : v.Alone i (b.inRun true parcels.length collection) (parcels.map (.lookUp b.nextToken))) :
    ∃ moves, v.Possible moves ∧ (∃ next, (v.after moves).Alone i next [])
      ∧ v.told.length + parcels.length < (v.after moves).told.length
      ∧ ∃ n ∈ (v.after moves).told.getLast?, n.event.isTerminal = true := by
  induction parcels generalizing collection v with
  | nil => exact absurd rfl hsome
  | cons p parcels ih =>
    have hstep := Checker.step_answer hb ⟨p, none⟩ parcels.length collection
    obtain ⟨hnext, htold⟩ := hv.hear (r := .answer b.nextToken ⟨p, none⟩) hstep
    have hcan : v.CanMake (.hear i (.answer b.nextToken ⟨p, none⟩)) := hv.can List.mem_cons_self
    rw [List.map_cons, show (Return.answer b.nextToken ⟨p, none⟩).job = .lookUp b.nextToken p from rfl,
      List.erase_cons_head] at hnext
    by_cases hlast : parcels = []
    · subst hlast
      refine ⟨[_], ⟨hcan, trivial⟩, ⟨_, hnext⟩, ?_, ?_⟩
      · show _ < (v.hear i _).told.length
        rw [htold]
        simp [Checker.telling, Checker.eventsOf, Checker.endingIf]
      · show ∃ n ∈ (v.hear i _).told.getLast?, _
        rw [htold]
        simp [Checker.telling, Checker.eventsOf, Checker.endingIf, Event.isTerminal]
    · have hne : parcels.length ≠ 0 := fun h => hlast (List.length_eq_zero_iff.mp h)
      rw [decide_eq_true hne, decide_eq_false hne] at hnext htold
      have hlength : (v.hear i (.answer b.nextToken ⟨p, none⟩)).told.length = v.told.length + 1 := by
        rw [htold]
        simp [Checker.telling, Checker.eventsOf, Checker.endingIf]
      rw [show (Effect.emit (.published _ _) :: Checker.endingIf false b.nextToken).filterMap Job.ofEffect? = []
        from rfl, List.append_nil] at hnext
      obtain ⟨moves, possible, hend, htotal, hending⟩ := ih hlast hnext
      refine ⟨.hear i (.answer b.nextToken ⟨p, none⟩) :: moves, ⟨hcan, possible⟩, hend, ?_, hending⟩
      rw [List.length_cons]
      show _ < ((v.hear i _).after moves).told.length
      omega

/-- **A run that tells more than the queue has room for may keep the wait from returning.** Its starting,
its files and its ending are more than fit in, and the ending comes last. -/
theorem overfull_hangs {v : Attendance} (hv : v.Kept) (hreturned : v.pending = []) {i : Nat} {b : Checker}
    (hc : v.engine.checkers[i]? = some b) (document : DocumentRef)
    (honly : v.engine.covering document.language = [i]) (found : Findings)
    (hmany : Engine.eventCapacity ≤ (Parcel.ofGroups b.root document.uri found.groups).length + 1) :
    ∃ moves, v.Possible moves ∧ (v.after moves).Over ∧ (v.after moves).waiting = []
      ∧ (v.after moves).pending ≠ [] := by
  obtain ⟨hjobs, hwaiting⟩ := hv.clean hreturned
  obtain ⟨base, who, before, hs⟩ := hv.service
  rw [hjobs] at hs
  have hb : b.AtRest := hs.ended.1 b (List.mem_of_getElem? hc)
  have hcalled : (v.announce document).Alone i b [.call document] := by
    refine ⟨hc, ?_, hwaiting, rfl, hv.capacity⟩
    show v.jobs ++ (v.engine.covering document.language).map _ = _
    rw [hjobs, honly]
    rfl
  obtain ⟨hcanCall, hcall, hcallTold⟩ := hcalled.hear_only (r := .call document) (Checker.step_call hb)
  obtain ⟨hcanExpiry, hexpiry, hexpiryTold⟩ :=
    hcall.hear_only (r := .expiry (b.runs.armings + 1) document) (Checker.step_expiry hb)
  obtain ⟨hcanOutput, houtput, houtputTold⟩ :=
    hexpiry.hear_only (r := .output b.nextToken document found) (Checker.step_output hb found)
  generalize Parcel.ofGroups b.root document.uri found.groups = parcels at hmany houtput houtputTold
  have hlength : parcels.length ≠ 0 := by
    have hcapacity : Engine.eventCapacity = 256 := rfl
    omega
  have hsome : parcels ≠ [] := fun h => hlength (List.length_eq_zero_iff.mpr h)
  rw [decide_eq_true hlength, Checker.jobs_sending] at houtput
  obtain ⟨moves, possible, ⟨next, halone⟩, htotal, n, hn, hending⟩ := houtput.answers hb hsome
  have hstarted : 1 ≤ (((v.announce document).hear i (.call document)).hear i
      (.expiry (b.runs.armings + 1) document)).told.length := by
    rw [hexpiryTold, List.length_append]
    exact Nat.le_add_left _ _
  rw [houtputTold, List.length_append] at htotal
  have hall : v.Possible (.announce document :: .hear i (.call document)
      :: .hear i (.expiry (b.runs.armings + 1) document) :: .hear i (.output b.nextToken document found) :: moves) :=
    ⟨hreturned, hcanCall, hcanExpiry, hcanOutput, possible⟩
  have hkept := hv.after hall
  have hlost := halone.untaken.lost_last (by omega) hn
  obtain ⟨later, hlater, hend⟩ := hkept.drain halone.jobs ⟨n, hlost, hending⟩
  exact ⟨_, possible_append.mpr ⟨hall, hlater⟩, after_append v _ later ▸ hend⟩

/-! ### Two hundred and fifty-five files -/

/-- A marker for the buffer, of any length. -/
def marker (n : Nat) : String := String.ofList ('<' :: (List.replicate n 'a' ++ ['>']))

theorem isMarker_marker (n : Nat) : Target.isMarker (marker n) = true := by
  unfold Target.isMarker marker
  rw [String.toList_ofList]
  simp

theorem marker_injective : Function.Injective marker := by
  intro m n h
  have hlength := congrArg (fun s : String => s.toList.length) h
  simpa [marker] using hlength

/-- One finding for each of so many markers. -/
def markers (n : Nat) : List Finding := (List.range n).map fun i => Bench.sampleFinding (marker i)

theorem length_markers (root : Path) (trigger : Uri) (n : Nat) :
    (Parcel.ofGroups root trigger (Findings.ofList (markers n)).groups).length = n := by
  have hpaths : (markers n).map Finding.path = (List.range n).map marker := by
    unfold markers
    rw [List.map_map]
    rfl
  have hnodup : ((markers n).map Finding.path).Nodup := by
    rw [hpaths]
    exact List.nodup_range.map marker_injective
  have hleads : ∀ path ∈ (List.range n).map marker, (Target.uri? root trigger path).isSome = true := by
    intro path hpath
    obtain ⟨i, _, rfl⟩ := List.mem_map.mp hpath
    unfold Target.uri? Target.resolve
    rw [if_pos (isMarker_marker i)]
    rfl
  have huris := congrArg List.length (Parcel.uris_ofPrinted root trigger (markers n))
  rw [List.length_map, Findings.pathsOf_of_nodup hnodup, hpaths, List.length_filterMap_eq_countP,
    List.countP_eq_length.mpr hleads, List.length_map, List.length_range] at huris
  exact huris

def oneChecker : Settings := ⟨500, [⟨"check", "Check", [], ["c"]⟩]⟩

/-- A run on so many files may keep the wait from returning. -/
theorem markers_hang {n : Nat} (hmany : Engine.eventCapacity ≤ n + 1) :
    ∃ moves, (opening (.ofText "/w") 16 oneChecker).Possible moves
      ∧ ((opening (.ofText "/w") 16 oneChecker).after moves).Over
      ∧ ((opening (.ofText "/w") 16 oneChecker).after moves).waiting = []
      ∧ ((opening (.ofText "/w") 16 oneChecker).after moves).pending ≠ [] := by
  have hcalled : (opening (.ofText "/w") 16 oneChecker).engine.covering "c" = [0] := by decide
  have hthere : ∃ b, (opening (.ofText "/w") 16 oneChecker).engine.checkers[0]? = some b := ⟨_, rfl⟩
  obtain ⟨b, hb⟩ := hthere
  refine overfull_hangs (opening_kept _ _ _) rfl hb Bench.sampleDocument hcalled (.ofList (markers n)) ?_
  rw [length_markers]
  exact hmany

/-- It is not so that the wait returns whenever all runs have ended and the queue has been emptied. -/
theorem wait_may_hang :
    ¬ ∀ (root : Path) (feedCapacity : Nat) (settings : Settings) (moves : List Move),
      (opening root feedCapacity settings).Possible moves →
      ((opening root feedCapacity settings).after moves).Over →
      ((opening root feedCapacity settings).after moves).waiting = [] →
      ((opening root feedCapacity settings).after moves).pending = [] := by
  intro hall
  obtain ⟨moves, possible, hover, hdrained, hwaits⟩ := markers_hang (Nat.le_refl 256)
  exact hwaits (hall _ _ _ moves possible hover hdrained)

end Attendance

end SyntaxWatch
