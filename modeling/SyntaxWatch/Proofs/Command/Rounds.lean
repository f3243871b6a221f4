import SyntaxWatch.Command.Pass
import SyntaxWatch.Proofs.Command.Pending
import SyntaxWatch.Proofs.Engine.Clock

/-!
# A desk that waits

While a pass waits for the runs of one file, everything that is under way is in one of three places:
the timers of the engine, the processes, and the agenda, which is what has come back and not been
heard yet. `Waiting` says that all of it together belongs to checkers that handle the file, and that
as many of them are busy, under each name, as are still counted.

Nothing that the desk does breaks this. It hears the events of an input before the next one is
delivered, and one input never brings more than two, so nothing is ever lost at the queue. Once the
count is down to nothing, nothing is under way either (`Waiting.nothing_left`).

The desk lets things go on for a fixed number of rounds at each moment. That these are enough is not
taken for granted here: what comes back leads to something less deep (`Job.depth`), so after as many
rounds as there are depths the agenda is empty.
-/

set_option autoImplicit false

namespace SyntaxWatch

/-! ## 1. How deep something is -/

/-- How many more things can come of it, one after the other. -/
def Job.depth : Job → Nat
  | lookUp _ _ => 1
  | process _ _ => 2
  | timer _ _ => 3
  | call _ => 4

theorem Job.depth_pos (job : Job) : 0 < job.depth := by
  cases job <;> exact Nat.succ_pos _

namespace Checker

variable {c : Checker} {job : Job}

theorem depth_of_sendGroup {token : Nat} {trigger : Uri} {group : String × List Finding}
    (hjob : job ∈ (c.sendGroup token trigger group).2.filterMap Job.ofEffect?) : job.depth = 1 := by
  unfold sendGroup at hjob
  split at hjob
  · cases List.mem_singleton.mp hjob
    rfl
  · rw [jobs_endingIf] at hjob
    cases hjob

theorem depth_of_sendGroups {token : Nat} {trigger : Uri} (groups : List (String × List Finding))
    (hjob : job ∈ (c.sendGroups token trigger groups).2.filterMap Job.ofEffect?) : job.depth = 1 := by
  induction groups generalizing c with
  | nil => cases hjob
  | cons group groups ih =>
    unfold sendGroups at hjob
    rw [List.filterMap_append] at hjob
    exact (List.mem_append.mp hjob).elim depth_of_sendGroup ih

theorem depth_of_takeOutput {token : Nat} {document : DocumentRef} {found : Findings}
    (hjob : job ∈ (c.takeOutput token document found).2.filterMap Job.ofEffect?) : job.depth = 1 := by
  unfold takeOutput at hjob
  split at hjob
  · split at hjob
    · cases hjob
    · exact depth_of_sendGroups _ hjob
  · cases hjob

/-- **What comes back leads to something less deep.** -/
theorem depth_of_step {r : Return} {source : String}
    (hjob : job ∈ (c.step (r.input source)).2.filterMap Job.ofEffect?) : job.depth < r.job.depth := by
  unfold step at hjob
  split at hjob
  · cases hjob
  cases r with
  | call document =>
    unfold react armFor Return.input at hjob
    dsimp only at hjob
    split at hjob
    · cases List.mem_singleton.mp hjob
      exact Nat.lt_succ_self 3
    · cases hjob
  | expiry seq document =>
    unfold react beginRun Return.input at hjob
    dsimp only at hjob
    split at hjob
    · cases List.mem_singleton.mp hjob
      exact Nat.lt_succ_self 2
    · cases hjob
  | output token document found =>
    rw [depth_of_takeOutput hjob]
    exact Nat.lt_succ_self 1
  | failure token document cause => cases hjob
  | death token document => cases hjob
  | answer token a =>
    unfold react write Return.input at hjob
    dsimp only at hjob
    split at hjob
    · rw [List.filterMap_cons_none rfl, jobs_endingIf] at hjob
      cases hjob
    · cases hjob

end Checker

/-! ## 2. Where things are -/

def Timer.job (t : Timer) : Nat × Job := (t.checker, .timer t.seq t.document)

def Process.job (p : Process) : Nat × Job := (p.checker, .process p.token p.document)

/-- What comes of a timer, … -/
def Timer.expiry (t : Timer) : Nat × Return := (t.checker, .expiry t.seq t.document)

/-- … and of a process. -/
def Process.ending (p : Process) : Nat × Return := (p.checker, .output p.token p.document p.output)

/-- Where something on the agenda comes from. -/
def Return.origin (x : Nat × Return) : Nat × Job := (x.1, x.2.job)

namespace Desk

/-- All that is under way. -/
def underWay (d : Desk) (agenda : List (Nat × Return)) : List (Nat × Job) :=
  d.engine.timers.map Timer.job ++ d.processes.map Process.job ++ agenda.map Return.origin

/-- The name of the checker with a number. -/
def named (base : List Checker) (i : Nat) : String := (base[i]?.map Checker.name).getD ""

/-- What is delivered for something on the agenda. -/
def heard (base : List Checker) (x : Nat × Return) : Nat × Input := (x.1, x.2.input (named base x.1))

/-- A document has been announced to the checkers in `who`, which stood as in `base`, and the desk waits
for all of them. -/
structure Waiting (base : List Checker) (who : List Nat) (document : DocumentRef) (w : Workspace) (d : Desk)
    (agenda : List (Nat × Return)) : Prop where
  service : Service base who document d.engine.checkers (d.underWay agenda)
  sound : d.pending.Sound
  counted : ∀ name, d.pending.count name = busyNamed d.engine.checkers (d.underWay agenda) name
  events : d.engine.events = .empty Engine.eventCapacity
  roll : d.engine.enrolled = List.range base.length
  feed : 0 < d.engine.feedCapacity
  workspace : d.workspace = w

/-- What is due at this moment is no deeper than so much. -/
structure Calm (d : Desk) (depth : Nat) : Prop where
  timers : ∀ t ∈ d.engine.timers, t.due ≤ d.engine.now → 3 ≤ depth
  processes : ∀ p ∈ d.processes, p.due ≤ d.engine.now → 2 ≤ depth

section Waiting

variable {base : List Checker} {who : List Nat} {document : DocumentRef} {w : Workspace} {d : Desk}
  {agenda : List (Nat × Return)}

/-- **When nothing is counted any more, nothing is under way.** -/
theorem Waiting.nothing_left (hd : Waiting base who document w d agenda) (hnone : d.pending = []) :
    d.underWay agenda = [] := by
  refine hd.service.jobs_eq_nil fun name => ?_
  rw [← hd.counted, hnone]
  rfl

/-- It makes no difference where something is. -/
theorem Waiting.moved {e : Desk} {others : List (Nat × Return)} (hd : Waiting base who document w d agenda)
    (hperm : (d.underWay agenda).Perm (e.underWay others)) (hcheckers : e.engine.checkers = d.engine.checkers)
    (hpending : e.pending = d.pending) (hevents : e.engine.events = d.engine.events)
    (hroll : e.engine.enrolled = d.engine.enrolled) (hfeed : e.engine.feedCapacity = d.engine.feedCapacity)
    (hworkspace : e.workspace = d.workspace) : Waiting base who document w e others := by
  refine ⟨?_, hpending ▸ hd.sound, fun name => ?_, hevents.trans hd.events, hroll.trans hd.roll, hfeed ▸ hd.feed,
    hworkspace.trans hd.workspace⟩
  · rw [hcheckers]
    exact hd.service.perm hperm
  · rw [hcheckers, hpending, hd.counted]
    exact busyNamed_perm _ hperm name

end Waiting

end Desk

/-! ## 3. One input -/

/-- What an effect makes the engine ask for. -/
def Request.ofEffect? (i : Nat) : Effect → Option Request
  | .launch token document => some (launch i token document)
  | .lookUp token target findings => some (lookUp i token target findings)
  | .warn message => some (warn message)
  | .startTimer _ _ | .emit _ => none

/-- Effects without a timer change nothing of an engine but its queue. -/
theorem Engine.carryOutAll_quiet (e : Engine) (i : Nat) (c : Checker) {effects : List Effect}
    (hquiet : ∀ x ∈ effects, ∀ seq document, x ≠ .startTimer seq document) :
    e.carryOutAll i c effects
      = ({ e with events := e.events.offerAll (c.telling effects) }, effects.filterMap (Request.ofEffect? i)) := by
  induction effects generalizing e with
  | nil => rfl
  | cons effect effects ih =>
    obtain ⟨hfirst, hrest⟩ := List.forall_mem_cons.mp hquiet
    have hsplit : e.carryOutAll i c (effect :: effects)
        = (((e.carryOut i c effect).1.carryOutAll i c effects).1,
            (e.carryOut i c effect).2 ++ ((e.carryOut i c effect).1.carryOutAll i c effects).2) := rfl
    rw [hsplit, ih _ hrest]
    cases effect with
    | startTimer seq document => exact absurd rfl (hfirst seq document)
    | _ => rfl

theorem Engine.deliver_quiet {e : Engine} {i : Nat} {c : Checker} (hc : e.checkers[i]? = some c) {input : Input}
    (hquiet : ∀ x ∈ (c.step input).2, ∀ seq document, x ≠ .startTimer seq document) :
    e.deliver i input
      = ({ e with
            checkers := e.checkers.set i (c.step input).1
            events := e.events.offerAll ((c.step input).1.telling (c.step input).2) },
          (c.step input).2.filterMap (Request.ofEffect? i)) := by
  rw [deliver_of_some hc, carryOutAll_quiet _ _ _ hquiet]

namespace Desk

variable {base : List Checker} {d : Desk} {i : Nat} {c : Checker}

/-- What has been served: some lines have been printed, and what an effect gets under way is a process now,
or on the agenda. -/
structure Served (base : List Checker) (d : Desk) (jobs : List (Nat × Job)) (result : Desk × List (Nat × Input))
    (started : List Process) (new : List (Nat × Return)) : Prop where
  desk : ∃ lines, result.1 = { d with processes := d.processes ++ started, printed := d.printed ++ lines }
  inputs : result.2 = new.map (heard base)
  jobs : (started.map Process.job ++ new.map Return.origin).Perm jobs

/-- Whatever a checker asks for, apart from a timer, is served. -/
theorem serve_effect (hc : d.engine.checkers[i]? = some c) (hname : c.name = named base i) {effect : Effect}
    (hquiet : ∀ seq document, effect ≠ .startTimer seq document) :
    ∃ started new, Served base d ((Job.ofEffect? effect).toList.map (Prod.mk i))
      (d.serveAll (Request.ofEffect? i effect).toList) started new := by
  cases effect with
  | startTimer seq document => exact absurd rfl (hquiet seq document)
  | emit event => exact ⟨[], [], ⟨[], by simp [Request.ofEffect?, serveAll]⟩, rfl, .nil⟩
  | warn message => exact ⟨[], [], ⟨_, by simp [Request.ofEffect?, serveAll, serve, print]; rfl⟩, rfl, .nil⟩
  | launch token document =>
    have hserve : d.serveAll (Request.ofEffect? i (.launch token document)).toList
        = ((d.launch i token document).1, (d.launch i token document).2 ++ []) := rfl
    rw [hserve, List.append_nil]
    unfold launch
    rw [hc]
    dsimp only
    cases d.runs d.files d.engine.root ⟨i, token, c.profile, d.workspace.documents.textOf document⟩ with
    | failure failure => exact ⟨[], [(i, .failure token document failure)], ⟨[], by simp⟩, rfl, .rfl⟩
    | abort => exact ⟨[], [(i, .death token document)], ⟨[], by simp⟩, rfl, .rfl⟩
    | output after found => exact ⟨[_], [], ⟨[], by simp; rfl⟩, rfl, .rfl⟩
  | lookUp token target findings =>
    have hserve : d.serveAll (Request.ofEffect? i (.lookUp token target findings)).toList
        = ((d.lookUp i token target findings).1, (d.lookUp i token target findings).2 ++ []) := rfl
    rw [hserve, List.append_nil]
    unfold lookUp
    rw [hc]
    refine ⟨[], [(i, .answer token ⟨⟨target, findings⟩, (d.workspace.lookUp d.files target.uri).toOption⟩)],
      ⟨[], by simp⟩, ?_, .rfl⟩
    show [_] = [_]
    rw [heard, ← hname]
    rfl

theorem filterMap_cons_toList {α β : Type} (f : α → Option β) (a : α) (l : List α) :
    (a :: l).filterMap f = (f a).toList ++ l.filterMap f := by
  cases hf : f a with
  | none => exact List.filterMap_cons_none hf
  | some b => exact List.filterMap_cons_some hf

theorem serveAll_append (d : Desk) (requests others : List Request) :
    d.serveAll (requests ++ others)
      = (((d.serveAll requests).1.serveAll others).1,
          (d.serveAll requests).2 ++ ((d.serveAll requests).1.serveAll others).2) := by
  induction requests generalizing d with
  | nil => rfl
  | cons r requests ih =>
    have hrest := ih (d.serve r).1
    show (((d.serve r).1.serveAll (requests ++ others)).1,
      (d.serve r).2 ++ ((d.serve r).1.serveAll (requests ++ others)).2) = _
    rw [hrest, ← List.append_assoc]
    rfl

theorem Served.append {jobs others : List (Nat × Job)} {result : Desk × List (Nat × Input)} {started : List Process}
    {new : List (Nat × Return)} (hfirst : Served base d jobs result started new)
    {next : Desk × List (Nat × Input)} {more : List Process} {newer : List (Nat × Return)}
    (hnext : Served base result.1 others next more newer) :
    Served base d (jobs ++ others) (next.1, result.2 ++ next.2) (started ++ more) (new ++ newer) := by
  obtain ⟨lines, hdesk⟩ := hfirst.desk
  obtain ⟨lines', hdesk'⟩ := hnext.desk
  refine ⟨⟨lines ++ lines', ?_⟩, ?_, ?_⟩
  · rw [hdesk', hdesk]
    simp [List.append_assoc]
  · rw [hfirst.inputs, hnext.inputs, List.map_append]
  · rw [List.map_append, List.map_append]
    refine .trans ?_ (hfirst.jobs.append hnext.jobs)
    rw [List.append_assoc, List.append_assoc]
    refine .append_left _ ?_
    rw [← List.append_assoc, ← List.append_assoc]
    exact List.perm_append_comm.append_right _

/-- Whatever a checker asks for at once, timers apart, is served. -/
theorem serveAll_effects (hc : d.engine.checkers[i]? = some c) (hname : c.name = named base i)
    {effects : List Effect} (hquiet : ∀ x ∈ effects, ∀ seq document, x ≠ .startTimer seq document) :
    ∃ started new, Served base d ((effects.filterMap Job.ofEffect?).map (Prod.mk i))
      (d.serveAll (effects.filterMap (Request.ofEffect? i))) started new := by
  induction effects generalizing d with
  | nil => exact ⟨[], [], ⟨[], by simp [serveAll]⟩, rfl, .nil⟩
  | cons effect effects ih =>
    obtain ⟨hfirst, hrest⟩ := List.forall_mem_cons.mp hquiet
    obtain ⟨started, new, hserved⟩ := serve_effect hc hname hfirst
    obtain ⟨lines, hdesk⟩ := hserved.desk
    obtain ⟨more, newer, hlater⟩ := ih (d := (d.serveAll (Request.ofEffect? i effect).toList).1)
      (by rw [hdesk]; exact hc) hrest
    rw [filterMap_cons_toList, filterMap_cons_toList, serveAll_append, List.map_append]
    exact ⟨_, _, hserved.append hlater⟩

/-- One input: it is delivered, what the checker asks for is served, and its events are heard. -/
def turn (hear : Desk → Notice → Desk) (d : Desk) (x : Nat × Input) : Desk × List (Nat × Input) :=
  let (engine, requests) := d.engine.deliver x.1 x.2
  let (d, inputs) := { d with engine := engine }.serveAll requests
  (hearAll hear d, inputs)

theorem round_cons (hear : Desk → Notice → Desk) (d : Desk) (x : Nat × Input) (others : List (Nat × Input)) :
    round hear d (x :: others)
      = ((round hear (d.turn hear x).1 others).1, (d.turn hear x).2 ++ (round hear (d.turn hear x).1 others).2) :=
  rfl

theorem foldl_count (notices : List Notice) (d : Desk) :
    notices.foldl count d = { d with pending := notices.foldl Pending.observe d.pending } := by
  induction notices generalizing d with
  | nil => rfl
  | cons n notices ih => exact ih (d.count n)

/-- A few notices in a queue that was empty are all heard, and it is empty again. -/
theorem hearAll_few {notices : List Notice} (hfew : notices.length ≤ Engine.eventCapacity)
    (hevents : d.engine.events = (EventQueue.empty Engine.eventCapacity).offerAll notices) :
    hearAll count d
      = { d with
          engine := { d.engine with events := .empty Engine.eventCapacity }
          pending := notices.foldl Pending.observe d.pending } := by
  have hwaiting : d.engine.events = ⟨Engine.eventCapacity, notices⟩ := by
    rw [hevents, EventQueue.offerAll_eq]
    show EventQueue.mk _ ([] ++ notices.take (Engine.eventCapacity - 0)) = _
    rw [List.nil_append, Nat.sub_zero, List.take_of_length_le hfew]
    rfl
  unfold hearAll
  rw [hwaiting]
  show List.foldl count _ (notices.take notices.length) = _
  rw [List.take_length, foldl_count]
  simp [EventQueue.empty]

/-- **What one input comes to**, when it starts no timer and tells little. -/
theorem turn_eq (hc : d.engine.checkers[i]? = some c) (hname : c.name = named base i)
    (hevents : d.engine.events = .empty Engine.eventCapacity) {input : Input}
    (hquiet : ∀ x ∈ (c.step input).2, ∀ seq document, x ≠ .startTimer seq document)
    (hsame : (c.step input).1.name = c.name) (hshort : (Checker.eventsOf (c.step input).2).length ≤ 2) :
    ∃ (lines : List Printed) (started : List Process) (new : List (Nat × Return)),
      d.turn count (i, input)
        = ({ d with
              engine := { d.engine with checkers := d.engine.checkers.set i (c.step input).1 }
              pending := ((c.step input).1.telling (c.step input).2).foldl Pending.observe d.pending
              processes := d.processes ++ started
              printed := d.printed ++ lines },
            new.map (heard base))
        ∧ (started.map Process.job ++ new.map Return.origin).Perm
            (((c.step input).2.filterMap Job.ofEffect?).map (Prod.mk i)) := by
  have hthere : (d.engine.checkers.set i (c.step input).1)[i]? = some (c.step input).1 :=
    List.getElem?_set_self (List.getElem?_eq_some_iff.mp hc).1
  have hafter : (d.engine.deliver i input).1.checkers[i]? = some (c.step input).1 := by
    rw [Engine.deliver_quiet hc hquiet]
    exact hthere
  obtain ⟨started, new, hserved⟩ :=
    serveAll_effects (d := { d with engine := (d.engine.deliver i input).1 }) hafter (hsame.trans hname) hquiet
  obtain ⟨lines, hdesk⟩ := hserved.desk
  refine ⟨lines, started, new, ?_, hserved.jobs⟩
  have hturn : d.turn count (i, input)
      = (hearAll count ({ d with engine := (d.engine.deliver i input).1 }.serveAll (d.engine.deliver i input).2).1,
          ({ d with engine := (d.engine.deliver i input).1 }.serveAll (d.engine.deliver i input).2).2) := rfl
  have hrequests : (d.engine.deliver i input).2 = (c.step input).2.filterMap (Request.ofEffect? i) := by
    rw [Engine.deliver_quiet hc hquiet]
  rw [hturn, hrequests, hserved.inputs, hdesk, Engine.deliver_quiet hc hquiet]
  refine congrArg (Prod.mk · _) ?_
  have hfew : ((c.step input).1.telling (c.step input).2).length ≤ Engine.eventCapacity := by
    unfold Checker.telling
    rw [List.length_map]
    exact Nat.le_trans hshort (by decide)
  rw [hearAll_few hfew]
  · rw [← hevents]
  · rw [← hevents]

section Waiting

variable {who : List Nat} {document : DocumentRef} {w : Workspace} {agenda later : List (Nat × Return)} {depth : Nat}

theorem Waiting.name (hd : Waiting base who document w d agenda) (hc : d.engine.checkers[i]? = some c) :
    c.name = named base i := by
  have hsame := hd.service.names i
  rw [hc] at hsame
  unfold named
  rw [← hsame]
  rfl

theorem mem_underWay (d : Desk) (x : Nat × Return) (agenda : List (Nat × Return)) :
    (x.1, x.2.job) ∈ d.underWay (x :: agenda) :=
  List.mem_append_right _ (List.mem_cons_self : Return.origin x ∈ (x :: agenda).map Return.origin)

theorem erase_underWay (d : Desk) (x : Nat × Return) (agenda : List (Nat × Return)) :
    ((d.underWay (x :: agenda)).erase (x.1, x.2.job)).Perm (d.underWay agenda) := by
  have hfirst : (d.underWay (x :: agenda)).Perm (Return.origin x :: d.underWay agenda) := List.perm_middle
  exact (hfirst.erase _).trans (.of_eq (List.erase_cons_head _ _))

/-- The jobs after one input has come to its checker. -/
theorem underWay_turn (d : Desk) (x : Nat × Return) (agenda : List (Nat × Return)) {started : List Process}
    {new : List (Nat × Return)} {effects : List Effect}
    (hjobs : (started.map Process.job ++ new.map Return.origin).Perm
      ((effects.filterMap Job.ofEffect?).map (Prod.mk x.1))) :
    (jobsAfter (d.underWay (x :: agenda)) x.1 x.2 effects).Perm
      (d.engine.timers.map Timer.job ++ (d.processes ++ started).map Process.job
        ++ (agenda ++ new).map Return.origin) := by
  refine ((erase_underWay d x agenda).append hjobs.symm).trans ?_
  unfold underWay
  rw [List.map_append, List.map_append, List.append_assoc, List.append_assoc, List.append_assoc, List.append_assoc]
  refine .append_left _ (.append_left _ ?_)
  rw [← List.append_assoc, ← List.append_assoc]
  exact List.perm_append_comm.append_right _

/-- **One input keeps the desk waiting**, and what it brings about is less deep than it was. -/
theorem Waiting.turn {x : Nat × Return} (hd : Waiting base who document w d (x :: agenda))
    (hshallow : depth ≤ 2) (hdepth : x.2.job.depth ≤ depth + 1) (hcalm : d.Calm depth) :
    ∃ new, (d.turn count (heard base x)).2 = new.map (heard base)
      ∧ Waiting base who document w (d.turn count (heard base x)).1 (agenda ++ new)
      ∧ (d.turn count (heard base x)).1.Calm depth ∧ ∀ y ∈ new, y.2.job.depth ≤ depth := by
  have hmem := mem_underWay d x agenda
  obtain ⟨_, c, _, hc, _, _, _⟩ := hd.service.of_mem hmem
  have hname := hd.name hc
  obtain ⟨hnext, hreport⟩ := hd.service.step hmem hc
  have hbusy := hd.service.busy_step hmem hc
  have hsame := hd.service.step_name hmem hc
  have hless : ∀ job ∈ (c.step (x.2.input c.name)).2.filterMap Job.ofEffect?, job.depth ≤ depth :=
    fun _ hjob => Nat.le_of_lt_succ (Nat.lt_of_lt_of_le (Checker.depth_of_step hjob) hdepth)
  have hquiet : ∀ y ∈ (c.step (x.2.input c.name)).2, ∀ seq document, y ≠ .startTimer seq document := by
    rintro y hy seq document rfl
    have hdeep : 3 ≤ depth := hless (.timer seq document) (List.mem_filterMap.mpr ⟨_, hy, rfl⟩)
    exact absurd (Nat.le_trans hdeep hshallow) (Nat.not_succ_le_self 2)
  obtain ⟨lines, started, new, hturn, hjobs⟩ := turn_eq hc hname hd.events hquiet hsame hreport.short
  obtain ⟨hsound, hcount⟩ := hd.sound.hearAll ((c.step (x.2.input c.name)).1.telling (c.step (x.2.input c.name)).2)
  have hperm := underWay_turn d x agenda hjobs
  have hnew : ∀ job ∈ started.map Process.job ++ new.map Return.origin, job.2.depth ≤ depth := by
    intro job hjob
    obtain ⟨y, hy, rfl⟩ := List.mem_map.mp (hjobs.subset hjob)
    exact hless y hy
  have hheard : heard base x = (x.1, x.2.input c.name) := by
    rw [hname]
    rfl
  rw [hheard, hturn]
  refine ⟨new, rfl, ⟨hnext.perm hperm, hsound, ?_, hd.events, hd.roll, hd.feed, hd.workspace⟩,
    ⟨hcalm.timers, ?_⟩, ?_⟩
  · intro name
    show Pending.count (List.foldl _ _ _) name = _
    rw [hcount, hd.counted, ← hbusy, Nat.add_sub_cancel]
    exact busyNamed_perm _ hperm name
  · intro p hp hdue
    rcases List.mem_append.mp hp with hp | hp
    · exact hcalm.processes p hp hdue
    · exact hnew (Process.job p) (List.mem_append_left _ (List.mem_map_of_mem hp))
  · intro y hy
    exact hnew (Return.origin y) (List.mem_append_right _ (List.mem_map_of_mem hy))

/-! ## 4. Rounds -/

/-- **A round keeps the desk waiting**, with what has been brought about on the agenda. -/
theorem Waiting.round (hd : Waiting base who document w d (agenda ++ later)) (hshallow : depth ≤ 2)
    (hdepth : ∀ x ∈ agenda, x.2.job.depth ≤ depth + 1) (hcalm : d.Calm depth) :
    ∃ new, (d.round count (agenda.map (heard base))).2 = new.map (heard base)
      ∧ Waiting base who document w (d.round count (agenda.map (heard base))).1 (later ++ new)
      ∧ (d.round count (agenda.map (heard base))).1.Calm depth ∧ ∀ y ∈ new, y.2.job.depth ≤ depth := by
  induction agenda generalizing d later with
  | nil =>
    rw [List.nil_append] at hd
    refine ⟨[], rfl, ?_, hcalm, nofun⟩
    rw [List.append_nil]
    exact hd
  | cons x agenda ih =>
    obtain ⟨hx, hothers⟩ := List.forall_mem_cons.mp hdepth
    rw [List.cons_append] at hd
    obtain ⟨new, hinputs, hturn, hcalm', hnew⟩ := hd.turn hshallow hx hcalm
    rw [List.append_assoc] at hturn
    obtain ⟨newer, hinputs', hround, hcalm'', hnewer⟩ := ih hturn hothers hcalm'
    rw [List.map_cons, round_cons]
    refine ⟨new ++ newer, ?_, ?_, hcalm'', ?_⟩
    · rw [hinputs, hinputs', List.map_append]
    · rw [← List.append_assoc]
      exact hround
    · intro y hy
      exact (List.mem_append.mp hy).elim (hnew y) (hnewer y)

/-- What is due, and what is not, is all that there is. -/
theorem due_perm {α : Type} (due : α → Nat) (now : Nat) (all : List α) :
    (all.filter (fun x => now < due x) ++ all.filter fun x => due x ≤ now).Perm all := by
  have hnot : ∀ x, decide (due x ≤ now) = !decide (now < due x) := by
    intro x
    rw [← decide_not]
    exact decide_eq_decide.mpr Nat.not_lt.symm
  simp only [hnot]
  exact List.filter_append_perm _ _

/-- The timers that have run out, in their order, and the processes that have ended. -/
def dueNow (d : Desk) : List (Nat × Return) :=
  ((d.engine.timers.filter fun t => t.due ≤ d.engine.now).mergeSort fun t u => decide (t.due ≤ u.due)).map
      Timer.expiry
    ++ (d.processes.filter fun p => p.due ≤ d.engine.now).map Process.ending

theorem underWay_takeDue (d : Desk) (agenda : List (Nat × Return)) :
    (d.underWay agenda).Perm (d.takeDue.1.underWay (agenda ++ d.dueNow)) := by
  have hsort := List.mergeSort_perm (d.engine.timers.filter fun t => t.due ≤ d.engine.now)
    fun t u => decide (t.due ≤ u.due)
  have hexpiries : (d.dueNow.map Return.origin).Perm
      ((d.engine.timers.filter fun t => t.due ≤ d.engine.now).map Timer.job
        ++ (d.processes.filter fun p => p.due ≤ d.engine.now).map Process.job) := by
    unfold dueNow
    rw [List.map_append, List.map_map, List.map_map]
    exact (hsort.map Timer.job).append_right _
  have htimers := (due_perm Timer.due d.engine.now d.engine.timers).map Timer.job
  have hprocesses := (due_perm Process.due d.engine.now d.processes).map Process.job
  have hunderWay : d.takeDue.1.underWay (agenda ++ d.dueNow)
      = (d.engine.timers.filter fun t => d.engine.now < t.due).map Timer.job
        ++ (d.processes.filter fun p => d.engine.now < p.due).map Process.job
        ++ (agenda.map Return.origin ++ d.dueNow.map Return.origin) := by
    rw [← List.map_append]
    rfl
  rw [hunderWay]
  unfold underWay
  rw [List.map_append] at htimers hprocesses
  rw [List.perm_iff_count] at *
  intro job
  have hexpiry := hexpiries job
  have htimer := htimers job
  have hprocess := hprocesses job
  simp only [List.count_append] at *
  omega

/-- Taking what is due puts it on the agenda, and leaves nothing that is due. -/
theorem Waiting.takeDue (hd : Waiting base who document w d agenda) :
    d.takeDue.2 = d.dueNow.map (heard base) ∧ Waiting base who document w d.takeDue.1 (agenda ++ d.dueNow) := by
  refine ⟨?_, hd.moved (underWay_takeDue d agenda) rfl rfl rfl rfl rfl rfl⟩
  unfold dueNow
  rw [List.map_append, List.map_map, List.map_map]
  rfl

theorem calm_takeDue (d : Desk) (depth : Nat) : d.takeDue.1.Calm depth := by
  refine ⟨fun t ht hdue => ?_, fun p hp hdue => ?_⟩
  · have hnot : d.engine.now < t.due := by simpa using (List.mem_filter.mp ht).2
    exact absurd hdue (Nat.not_le.mpr hnot)
  · have hnot : d.engine.now < p.due := by simpa using (List.mem_filter.mp hp).2
    exact absurd hdue (Nat.not_le.mpr hnot)

theorem Calm.dueNow (hcalm : d.Calm depth) : ∀ x ∈ d.dueNow, x.2.job.depth ≤ depth := by
  intro x hx
  rcases List.mem_append.mp hx with hx | hx
  · obtain ⟨t, ht, rfl⟩ := List.mem_map.mp hx
    obtain ⟨hin, hdue⟩ := List.mem_filter.mp ((List.mergeSort_perm _ _).subset ht)
    exact hcalm.timers t hin (by simpa using hdue)
  · obtain ⟨p, hp, rfl⟩ := List.mem_map.mp hx
    obtain ⟨hin, hdue⟩ := List.mem_filter.mp hp
    exact hcalm.processes p hin (by simpa using hdue)

/-- **As many rounds as there are depths are enough**: nothing is left on the agenda then. -/
theorem Waiting.settleFor {n : Nat} (hd : Waiting base who document w d agenda) (hcalm : d.Calm depth)
    (hagenda : ∀ x ∈ agenda, x.2.job.depth ≤ depth) (hdeepest : depth ≤ 3) (henough : depth ≤ n) :
    Waiting base who document w (d.settleFor count n (agenda.map (heard base))) [] := by
  induction n generalizing d agenda depth with
  | zero =>
    cases agenda with
    | nil => exact hd
    | cons x agenda =>
      have hx := hagenda x List.mem_cons_self
      exact absurd (Nat.le_trans hx henough) (Nat.not_le.mpr x.2.job.depth_pos)
  | succ n ih =>
    obtain ⟨hinputs, htaken⟩ := hd.takeDue
    have hround : ∀ x ∈ agenda ++ d.dueNow, x.2.job.depth ≤ depth - 1 + 1 := by
      intro x hx
      have hdepth : x.2.job.depth ≤ depth := (List.mem_append.mp hx).elim (hagenda x) (hcalm.dueNow x)
      omega
    rw [← List.append_nil (agenda ++ d.dueNow)] at htaken
    obtain ⟨new, hnext, hwaiting, hcalm', hnew⟩ := htaken.round (by omega) hround (calm_takeDue d _)
    have hrest := ih hwaiting hcalm' hnew (by omega) (by omega)
    have hsettle : d.settleFor count (n + 1) (agenda.map (heard base))
        = Desk.settleFor count n (d.takeDue.1.round count (agenda.map (heard base) ++ d.takeDue.2)).1
            (d.takeDue.1.round count (agenda.map (heard base) ++ d.takeDue.2)).2 := rfl
    rw [hsettle, hinputs, ← List.map_append, hnext]
    exact hrest

theorem Waiting.settle (hd : Waiting base who document w d []) :
    Waiting base who document w (d.settle count) [] :=
  hd.settleFor ⟨fun _ _ _ => Nat.le_refl 3, fun _ _ _ => Nat.le_succ 2⟩ nofun (Nat.le_refl 3) (Nat.le_succ 3)

/-! ## 5. Until nothing is counted any more -/

theorem Waiting.goTo (hd : Waiting base who document w d []) (t : Nat) :
    Waiting base who document w (d.goTo count t) [] :=
  Waiting.settle (hd.moved .rfl rfl rfl rfl rfl rfl rfl)

/-- **A wait that returns has left nothing counted**, whatever the user has done meanwhile. -/
theorem Waiting.awaitRuns {n : Nat} (hd : Waiting base who document w d []) (hsettled : (awaitRuns n d).2 = .settled) :
    Waiting base who document w (Desk.awaitRuns n d).1 [] ∧ (Desk.awaitRuns n d).1.pending = [] := by
  fun_induction Desk.awaitRuns n d with
  | case1 => cases hsettled
  | case2 n d hnone => exact ⟨hd, hnone⟩
  | case3 => cases hsettled
  | case4 n d _ t _ _ ih => exact ih (hd.goTo t) hsettled
  | case5 => cases hsettled
  | case6 n d _ a others _ changes _ _ ih => exact ih (hd.moved .rfl rfl rfl rfl rfl rfl rfl) hsettled
  | case7 n d _ a others _ _ ih => exact ih (hd.goTo _) hsettled

end Waiting

end Desk

end SyntaxWatch
