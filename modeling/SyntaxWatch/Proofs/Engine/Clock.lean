import Mathlib.Data.List.Forall2
import SyntaxWatch.Proofs.Checker.Timing
import SyntaxWatch.Proofs.Engine.Delivery

/-!
# Checkers on the clock

An engine goes on in beats. Either its clock moves on, and the timers that have run out by then are
heard in their order before anything else is, or something comes to one checker. A run that begins is
recorded with the clock before and after its beat, and with its document.

Which runs begin can be told from the triggers alone (`launches_of_awaits`). Each trigger whose delay goes
by without another one starts a run, in the beat in which the clock passes the end of the delay; no
other trigger does, and nothing else starts a run. The delay is that of the checker, or the longest
time for which a timer runs if that is shorter.

## What is *not* in it

The end of a checker, and a new configuration. Both call timers off.
-/

set_option autoImplicit false

namespace SyntaxWatch

/-! ## 1. Beats -/

inductive Beat where
  /-- The clock moves on, and the timers that have run out are heard. -/
  | pass (ms : Nat)
  /-- Something else comes to the checker with a number. -/
  | hear (i : Nat) (input : Input)
  deriving DecidableEq, Repr

/-- A run that begins. -/
structure Onset where
  /-- The clock before the beat, … -/
  since : Nat
  /-- … and after it. -/
  upTo : Nat
  document : DocumentRef
  deriving DecidableEq, Repr

/-- The document of a request to start a run of the checker with a number. -/
def Request.launch? (i : Nat) : Request → Option DocumentRef
  | launch j _ document => if j = i then some document else none
  | lookUp _ _ _ _ | warn _ => none

/-- The document of the run that an effect starts. -/
def Effect.launch? : Effect → Option DocumentRef
  | launch _ document => some document
  | startTimer _ _ | lookUp _ _ _ | emit _ | warn _ => none

namespace Engine

/-- Gives inputs to checkers, one after the other. -/
def deliverAll (e : Engine) : List (Nat × Input) → Engine × List Request
  | [] => (e, [])
  | (i, input) :: others =>
    let (e, requests) := e.deliver i input
    let (e, more) := e.deliverAll others
    (e, requests ++ more)

def beat (e : Engine) : Beat → Engine × List Request
  | .pass ms =>
    let (e, due) := { e with now := e.now + ms }.takeDue
    e.deliverAll due
  | .hear i input => e.deliver i input

def afterBeats (e : Engine) (beats : List Beat) : Engine := beats.foldl (fun e b => (e.beat b).1) e

/-- The runs of a checker that begin. -/
def launches (i : Nat) (e : Engine) : List Beat → List Onset
  | [] => []
  | b :: later =>
    ((e.beat b).2.filterMap (Request.launch? i)).map (Onset.mk e.now (e.beat b).1.now)
      ++ launches i (e.beat b).1 later

/-- An expiry may come late or come again, but the one that is waited for comes with the clock. -/
def Fair (e : Engine) (i : Nat) : Beat → Prop
  | .hear j (.expired seq _) => j = i → ∀ c ∈ e.checkers[i]?, c.runs.armed ≠ some seq
  | _ => True

instance decidableFair (e : Engine) (i : Nat) : (b : Beat) → Decidable (e.Fair i b)
  | .hear j (.expired seq _) => inferInstanceAs (Decidable (j = i → ∀ c ∈ e.checkers[i]?, c.runs.armed ≠ some seq))
  | .pass _ | .hear _ (.trigger _) | .hear _ (.finished _ _ _) | .hear _ (.failed _ _) | .hear _ (.aborted _)
  | .hear _ (.placed _ _ _) => isTrue trivial

def AllFair (i : Nat) (e : Engine) : List Beat → Prop
  | [] => True
  | b :: later => e.Fair i b ∧ AllFair i (e.beat b).1 later

instance decidableAllFair (i : Nat) : (e : Engine) → (beats : List Beat) → Decidable (AllFair i e beats)
  | _, [] => isTrue trivial
  | e, b :: later =>
    have := decidableAllFair i (e.beat b).1 later
    inferInstanceAs (Decidable (_ ∧ _))

end Engine

/-! ### Triggers with their times -/

namespace Beat

/-- The clock after beats that begin at a time. -/
def clock (now : Nat) : List Beat → Nat
  | [] => now
  | .pass ms :: later => clock (now + ms) later
  | .hear _ _ :: later => clock now later

/-- The triggers of a checker, from a time on. -/
def triggers (i : Nat) (now : Nat) : List Beat → List (Nat × DocumentRef)
  | [] => []
  | .pass ms :: later => triggers i (now + ms) later
  | .hear j (.trigger document) :: later =>
    if j = i then (now, document) :: triggers i now later else triggers i now later
  | .hear _ _ :: later => triggers i now later

/-- The triggers whose delay is over at the end, and was not broken by a later one. -/
def lasting (delay finish : Nat) : List (Nat × DocumentRef) → List (Nat × DocumentRef)
  | [] => []
  | (time, document) :: later =>
    if time + delay ≤ finish ∧ ∀ x ∈ later, time + delay ≤ x.1 then
      (time, document) :: lasting delay finish later
    else lasting delay finish later

end Beat

/-- A run begins for a trigger: it is of the document of the trigger, and begins in the beat in which
the clock passes the end of the delay. -/
structure Onset.Of (delay : Nat) (o : Onset) (trigger : Nat × DocumentRef) : Prop where
  document : o.document = trigger.2
  since : o.since < trigger.1 + delay
  upTo : trigger.1 + delay ≤ o.upTo

/-! ## 2. What an engine does for one checker -/

namespace Engine

def timersOf (e : Engine) (i : Nat) : List Timer := e.timers.filter (·.checker = i)

variable {e : Engine} {i j : Nat} {c : Checker}

theorem carryOut_now (e : Engine) (j : Nat) (c : Checker) (effect : Effect) :
    (e.carryOut j c effect).1.now = e.now := by
  cases effect <;> rfl

theorem carryOutAll_now (e : Engine) (j : Nat) (c : Checker) (effects : List Effect) :
    (e.carryOutAll j c effects).1.now = e.now := by
  induction effects generalizing e with
  | nil => rfl
  | cons effect others ih => exact (ih (e.carryOut j c effect).1).trans (carryOut_now e j c effect)

theorem carryOut_timersOf_of_ne (hne : j ≠ i) (e : Engine) (c : Checker) (effect : Effect) :
    (e.carryOut j c effect).1.timersOf i = e.timersOf i := by
  cases effect with
  | startTimer seq document =>
    unfold carryOut timersOf
    rw [List.filter_append, List.filter_filter]
    have hkept : e.timers.filter (fun t => decide (t.checker = i) && decide (t.checker ≠ j))
        = e.timers.filter (·.checker = i) := by
      refine List.filter_congr ?_
      intro t _
      by_cases ht : t.checker = i
      · have hti : t.checker ≠ j := fun h => hne (h.symm.trans ht)
        simp [ht, Ne.symm hne]
      · simp [ht]
    rw [hkept]
    simp [hne]
  | _ => rfl

theorem carryOutAll_timersOf_of_ne (hne : j ≠ i) (e : Engine) (c : Checker) (effects : List Effect) :
    (e.carryOutAll j c effects).1.timersOf i = e.timersOf i := by
  induction effects generalizing e with
  | nil => rfl
  | cons effect others ih =>
    exact (ih (e.carryOut j c effect).1).trans (carryOut_timersOf_of_ne hne e c effect)

/-- Timers stay as they are if none is started. -/
theorem carryOutAll_timers (e : Engine) (j : Nat) (c : Checker) {effects : List Effect}
    (hnone : ∀ x ∈ effects, ∀ seq document, x ≠ .startTimer seq document) :
    (e.carryOutAll j c effects).1.timers = e.timers := by
  induction effects generalizing e with
  | nil => rfl
  | cons effect others ih =>
    have hfirst : (e.carryOut j c effect).1.timers = e.timers := by
      cases effect with
      | startTimer seq document => exact absurd rfl (hnone _ List.mem_cons_self seq document)
      | _ => rfl
    exact (ih (e.carryOut j c effect).1 fun x hx => hnone x (List.mem_cons_of_mem effect hx)).trans hfirst

theorem carryOutAll_launch? (e : Engine) (c : Checker) (effects : List Effect) :
    (e.carryOutAll i c effects).2.filterMap (Request.launch? i) = effects.filterMap Effect.launch? := by
  induction effects generalizing e with
  | nil => rfl
  | cons effect others ih =>
    have hrest := ih (e.carryOut i c effect).1
    unfold carryOutAll
    rw [List.filterMap_append, hrest]
    cases effect <;> simp [carryOut, List.filterMap_cons, Request.launch?, Effect.launch?]

theorem carryOutAll_launch?_of_ne (hne : j ≠ i) (e : Engine) (c : Checker) (effects : List Effect) :
    (e.carryOutAll j c effects).2.filterMap (Request.launch? i) = [] := by
  induction effects generalizing e with
  | nil => rfl
  | cons effect others ih =>
    have hrest := ih (e.carryOut j c effect).1
    unfold carryOutAll
    rw [List.filterMap_append, hrest]
    cases effect <;> simp [carryOut, List.filterMap_cons, Request.launch?, hne]

/-! ### The other checkers -/

/-- The second engine is the first as far as one checker goes. -/
structure SameFor (i : Nat) (e f : Engine) : Prop where
  checker : f.checkers[i]? = e.checkers[i]?
  timers : f.timersOf i = e.timersOf i
  now : f.now = e.now

theorem SameFor.refl (i : Nat) (e : Engine) : SameFor i e e := ⟨rfl, rfl, rfl⟩

theorem SameFor.trans {f g : Engine} (hef : SameFor i e f) (hfg : SameFor i f g) : SameFor i e g :=
  ⟨hfg.checker.trans hef.checker, hfg.timers.trans hef.timers, hfg.now.trans hef.now⟩

theorem deliver_of_some (hc : e.checkers[i]? = some c) (input : Input) :
    e.deliver i input = { e with checkers := e.checkers.set i (c.step input).1 }.carryOutAll i
      (c.step input).1 (c.step input).2 := by
  unfold deliver
  rw [hc]

theorem deliver_of_ne (hne : j ≠ i) (e : Engine) (input : Input) :
    SameFor i e (e.deliver j input).1 ∧ (e.deliver j input).2.filterMap (Request.launch? i) = [] := by
  have hchecker : (e.deliver j input).1.checkers[i]? = e.checkers[i]? := by
    rw [deliver_checkers, List.getElem?_modify_ne _ _ hne]
  cases hc : e.checkers[j]? with
  | none =>
    unfold deliver
    rw [hc]
    exact ⟨.refl i e, rfl⟩
  | some c =>
    rw [deliver_of_some hc] at hchecker ⊢
    exact ⟨⟨hchecker, carryOutAll_timersOf_of_ne hne _ _ _, carryOutAll_now _ _ _ _⟩,
      carryOutAll_launch?_of_ne hne _ _ _⟩

theorem deliverAll_cons (e : Engine) (input : Nat × Input) (others : List (Nat × Input)) :
    e.deliverAll (input :: others)
      = (((e.deliver input.1 input.2).1.deliverAll others).1,
          (e.deliver input.1 input.2).2 ++ ((e.deliver input.1 input.2).1.deliverAll others).2) := rfl

theorem deliverAll_append (e : Engine) (inputs others : List (Nat × Input)) :
    e.deliverAll (inputs ++ others)
      = (((e.deliverAll inputs).1.deliverAll others).1,
          (e.deliverAll inputs).2 ++ ((e.deliverAll inputs).1.deliverAll others).2) := by
  induction inputs generalizing e with
  | nil => rfl
  | cons input inputs ih =>
    rw [List.cons_append, deliverAll_cons, deliverAll_cons, ih, List.append_assoc]

theorem deliverAll_of_ne (e : Engine) {inputs : List (Nat × Input)} (hne : ∀ x ∈ inputs, x.1 ≠ i) :
    SameFor i e (e.deliverAll inputs).1 ∧ (e.deliverAll inputs).2.filterMap (Request.launch? i) = [] := by
  induction inputs generalizing e with
  | nil => exact ⟨.refl i e, rfl⟩
  | cons input inputs ih =>
    obtain ⟨hfirst, hnone⟩ := deliver_of_ne (hne input List.mem_cons_self) e input.2
    obtain ⟨hrest, hnone'⟩ := ih (e.deliver input.1 input.2).1 fun x hx => hne x (List.mem_cons_of_mem input hx)
    rw [deliverAll_cons]
    refine ⟨hfirst.trans hrest, ?_⟩
    rw [List.filterMap_append, hnone, hnone']
    rfl

/-- One input for a checker among inputs for others is all that it gets to hear. -/
theorem deliverAll_of_one (e : Engine) {input : Input} {inputs : List (Nat × Input)}
    (hone : inputs.filter (·.1 = i) = [(i, input)]) :
    ∃ f, SameFor i e f ∧ SameFor i (f.deliver i input).1 (e.deliverAll inputs).1
      ∧ (e.deliverAll inputs).2.filterMap (Request.launch? i)
        = (f.deliver i input).2.filterMap (Request.launch? i) := by
  obtain ⟨front, back, rfl, hfront, _, hback⟩ := List.filter_eq_cons_iff.mp hone
  have hothers : ∀ x ∈ front, x.1 ≠ i := fun x hx => by simpa using hfront x hx
  have hothers' : ∀ x ∈ back, x.1 ≠ i := fun x hx => by simpa using List.filter_eq_nil_iff.mp hback x hx
  obtain ⟨hbefore, hquiet⟩ := deliverAll_of_ne e hothers
  obtain ⟨hafter, hquiet'⟩ := deliverAll_of_ne ((e.deliverAll front).1.deliver i input).1 hothers'
  rw [deliverAll_append, deliverAll_cons]
  refine ⟨(e.deliverAll front).1, hbefore, hafter, ?_⟩
  rw [List.filterMap_append, List.filterMap_append, hquiet, hquiet', List.nil_append, List.append_nil]

/-! ## 3. One checker that waits -/

/-- The delay after which a checker starts a run. -/
def delayOf (c : Checker) : Nat := Nat.min c.delay timerLimit

/-- The timer of a checker is set for this trigger, or for none. It may have run out already, as long as nobody
has looked. -/
structure Primed (e : Engine) (i : Nat) (c : Checker) (set : Option (Nat × DocumentRef)) : Prop where
  checker : e.checkers[i]? = some c
  alive : c.runs.disposed = false
  armed : c.runs.armed = set.map fun _ => c.runs.armings
  timers : e.timersOf i = set.toList.map fun x => ⟨i, c.runs.armings, x.2, x.1 + delayOf c⟩

/-- A checker waits for the delay of this trigger to be over, or for none. -/
structure Awaits (e : Engine) (i : Nat) (c : Checker) (awaited : Option (Nat × DocumentRef)) : Prop where
  checker : e.checkers[i]? = some c
  alive : c.runs.disposed = false
  armed : c.runs.armed = awaited.map fun _ => c.runs.armings
  timers : e.timersOf i = awaited.toList.map fun x => ⟨i, c.runs.armings, x.2, x.1 + delayOf c⟩
  pending : ∀ x ∈ awaited, e.now < x.1 + delayOf c

theorem Awaits.primed {awaited : Option (Nat × DocumentRef)} (ha : e.Awaits i c awaited) :
    e.Primed i c awaited :=
  ⟨ha.checker, ha.alive, ha.armed, ha.timers⟩

theorem Primed.awaits {awaited : Option (Nat × DocumentRef)} (hp : e.Primed i c awaited)
    (hpending : ∀ x ∈ awaited, e.now < x.1 + delayOf c) : e.Awaits i c awaited :=
  ⟨hp.checker, hp.alive, hp.armed, hp.timers, hpending⟩

section Primed

variable {set : Option (Nat × DocumentRef)}

theorem Primed.same {f : Engine} (hp : e.Primed i c set) (hsame : SameFor i e f) : f.Primed i c set :=
  ⟨hsame.checker.trans hp.checker, hp.alive, hp.armed, hsame.timers.trans hp.timers⟩

theorem deliver_checker (hc : e.checkers[i]? = some c) (input : Input) :
    (e.deliver i input).1.checkers[i]? = some (c.step input).1 := by
  rw [deliver_checkers, List.getElem?_modify_eq, hc]
  rfl

theorem deliver_launch? (hc : e.checkers[i]? = some c) (input : Input) :
    (e.deliver i input).2.filterMap (Request.launch? i) = (c.step input).2.filterMap Effect.launch? := by
  rw [deliver_of_some hc]
  exact carryOutAll_launch? _ _ _

theorem deliver_now (hc : e.checkers[i]? = some c) (input : Input) : (e.deliver i input).1.now = e.now := by
  rw [deliver_of_some hc]
  exact carryOutAll_now _ _ _ _

theorem deliver_timersOf (hc : e.checkers[i]? = some c) {input : Input}
    (hnone : ∀ x ∈ (c.step input).2, ∀ seq document, x ≠ .startTimer seq document) :
    (e.deliver i input).1.timersOf i = e.timersOf i := by
  rw [deliver_of_some hc]
  unfold timersOf
  rw [carryOutAll_timers _ _ _ hnone]

/-- What is not about time changes nothing. -/
theorem Primed.deliver_aside (hp : e.Primed i c set) {input : Input} (haside : input.isTiming c.runs = false) :
    (e.deliver i input).1.Primed i (c.step input).1 set
      ∧ delayOf (c.step input).1 = delayOf c
      ∧ (e.deliver i input).2.filterMap (Request.launch? i) = []
      ∧ (e.deliver i input).1.now = e.now := by
  have hkeeps := Checker.step_keepsTime haside
  have htimers : (e.deliver i input).1.timersOf i = e.timersOf i := by
    refine deliver_timersOf hp.checker ?_
    intro x hx seq document hstart
    have hkept := hkeeps.effects x hx
    rw [hstart] at hkept
    cases hkept
  have hsameDelay : delayOf (c.step input).1 = delayOf c := by
    unfold delayOf
    rw [(Checker.step_worked input).delay]
  refine ⟨⟨deliver_checker hp.checker input, ?_, ?_, ?_⟩, hsameDelay, ?_, deliver_now hp.checker input⟩
  · rw [hkeeps.runs.disposed]
    exact hp.alive
  · rw [hkeeps.runs.armed, hkeeps.runs.armings]
    exact hp.armed
  · rw [htimers, hkeeps.runs.armings, hsameDelay]
    exact hp.timers
  · rw [deliver_launch? hp.checker, List.filterMap_eq_nil_iff]
    intro x hx
    have hkept := hkeeps.effects x hx
    cases x with
    | launch token document => cases hkept
    | _ => rfl

/-- A timer that is started is the only one of its checker. -/
theorem carryOutAll_startTimer (e : Engine) (i : Nat) (c : Checker) (seq : Nat) (document : DocumentRef) :
    (e.carryOutAll i c [.startTimer seq document]).1.timersOf i = [⟨i, seq, document, e.now + delayOf c⟩] := by
  show ((e.timers.filter fun t => decide (t.checker ≠ i))
    ++ [Timer.mk i seq document (e.now + delayOf c)]).filter (fun t => decide (t.checker = i)) = _
  rw [List.filter_append, List.filter_filter]
  have hnone : e.timers.filter (fun t => decide (t.checker = i) && decide (t.checker ≠ i)) = [] := by
    rw [List.filter_eq_nil_iff]
    intro t _
    simp
  rw [hnone]
  simp

/-- A trigger sets the timer, whatever it was set for. -/
theorem Primed.deliver_trigger (hp : e.Primed i c set) (document : DocumentRef) :
    (e.deliver i (.trigger document)).1.Primed i (c.step (.trigger document)).1 (some (e.now, document))
      ∧ delayOf (c.step (.trigger document)).1 = delayOf c
      ∧ (e.deliver i (.trigger document)).2.filterMap (Request.launch? i) = []
      ∧ (e.deliver i (.trigger document)).1.now = e.now := by
  have hstep := Checker.step_trigger hp.alive document
  have hsameDelay : delayOf (c.step (.trigger document)).1 = delayOf c := by rw [hstep]; rfl
  refine ⟨⟨deliver_checker hp.checker _, ?_, ?_, ?_⟩, hsameDelay, ?_, deliver_now hp.checker _⟩
  · rw [hstep]
    exact hp.alive
  · rw [hstep]
    rfl
  · rw [hsameDelay, deliver_of_some hp.checker, hstep]
    exact carryOutAll_startTimer _ _ _ _ _
  · rw [deliver_launch? hp.checker, hstep]
    rfl

end Primed

/-! ## 4. The clock moves -/

/-- The timers of one checker among those that have run out. -/
theorem takeDue_timersOf (e : Engine) (i : Nat) :
    e.takeDue.1.timersOf i = (e.timersOf i).filter (e.now < ·.due)
      ∧ (e.takeDue.2.filter (·.1 = i)).Perm
          (((e.timersOf i).filter (·.due ≤ e.now)).map fun t => (t.checker, .expired t.seq t.document)) := by
  constructor
  · unfold takeDue timersOf
    rw [List.filter_filter, List.filter_filter]
    exact List.filter_congr fun t _ => Bool.and_comm _ _
  · unfold takeDue timersOf
    rw [List.filter_map, List.filter_filter]
    refine List.Perm.map _ ?_
    have hsorted := (List.mergeSort_perm (e.timers.filter (·.due ≤ e.now))
      fun t u => decide (t.due ≤ u.due)).filter (·.checker = i)
    rw [List.filter_filter] at hsorted
    refine hsorted.trans (.of_eq ?_)
    exact List.filter_congr fun t _ => Bool.and_comm _ _

/-- The engine whose clock has moved on, with the timers that have run out taken off. -/
def rung (e : Engine) (ms : Nat) : Engine × List (Nat × Input) := { e with now := e.now + ms }.takeDue

theorem beat_pass (e : Engine) (ms : Nat) : e.beat (.pass ms) = (e.rung ms).1.deliverAll (e.rung ms).2 := rfl

theorem rung_now (e : Engine) (ms : Nat) : (e.rung ms).1.now = e.now + ms := rfl

theorem rung_timersOf (e : Engine) (ms i : Nat) :
    (e.rung ms).1.timersOf i = (e.timersOf i).filter (e.now + ms < ·.due)
      ∧ ((e.rung ms).2.filter (·.1 = i)).Perm
          (((e.timersOf i).filter (·.due ≤ e.now + ms)).map
            fun t => (t.checker, .expired t.seq t.document)) :=
  takeDue_timersOf { e with now := e.now + ms } i

section Primed

variable {set : Option (Nat × DocumentRef)}

/-- As long as the delay is not over nothing happens. -/
theorem Primed.pass_early (hp : e.Primed i c set) {ms : Nat}
    (hearly : ∀ x ∈ set, e.now + ms < x.1 + delayOf c) :
    (e.beat (.pass ms)).1.Primed i c set
      ∧ (e.beat (.pass ms)).2.filterMap (Request.launch? i) = []
      ∧ (e.beat (.pass ms)).1.now = e.now + ms := by
  obtain ⟨htimers, hdue⟩ := e.rung_timersOf ms i
  have hkept : ∀ t ∈ e.timersOf i, e.now + ms < t.due := by
    intro t ht
    rw [hp.timers] at ht
    obtain ⟨x, hx, rfl⟩ := List.mem_map.mp ht
    exact hearly x (Option.mem_toList.mp hx)
  have hnone : ∀ x ∈ (e.rung ms).2, x.1 ≠ i := by
    have hempty : (e.timersOf i).filter (·.due ≤ e.now + ms) = [] := by
      rw [List.filter_eq_nil_iff]
      intro t ht
      have hlater := hkept t ht
      simpa using hlater
    rw [hempty] at hdue
    intro x hx
    simpa using List.filter_eq_nil_iff.mp hdue.eq_nil x hx
  have hrung : (e.rung ms).1.Primed i c set := by
    refine ⟨hp.checker, hp.alive, hp.armed, ?_⟩
    refine htimers.trans ((List.filter_eq_self.mpr ?_).trans hp.timers)
    intro t ht
    exact decide_eq_true (hkept t ht)
  obtain ⟨hsame, hlaunch⟩ := deliverAll_of_ne (e.rung ms).1 hnone
  rw [beat_pass]
  exact ⟨hrung.same hsame, hlaunch, hsame.now⟩

/-- When the expiry that is waited for is heard, the run begins and the timer is set no more. -/
theorem primed_of_expired (hc : e.checkers[i]? = some c) (alive : c.runs.disposed = false) {seq : Nat}
    (harmed : c.runs.armed = some seq) (htimers : e.timersOf i = []) (document : DocumentRef) :
    (e.deliver i (.expired seq document)).1.Primed i (c.step (.expired seq document)).1 none
      ∧ delayOf (c.step (.expired seq document)).1 = delayOf c
      ∧ (e.deliver i (.expired seq document)).2.filterMap (Request.launch? i) = [document]
      ∧ (e.deliver i (.expired seq document)).1.now = e.now := by
  have hstep := Checker.step_expired alive document harmed
  refine ⟨⟨deliver_checker hc _, ?_, ?_, ?_⟩, ?_, ?_, deliver_now hc _⟩
  · rw [hstep]
    exact alive
  · rw [hstep]
    rfl
  · refine (deliver_timersOf hc ?_).trans htimers
    intro x hx seq' document' hstart
    rw [hstep, hstart] at hx
    simp at hx
  · rw [hstep]
    rfl
  · rw [deliver_launch? hc, hstep]
    rfl

/-- When the delay is over the run begins. -/
theorem Primed.pass_due {trigger : Nat × DocumentRef} (hp : e.Primed i c (some trigger)) {ms : Nat}
    (hdue : trigger.1 + delayOf c ≤ e.now + ms) :
    (e.beat (.pass ms)).1.Primed i (c.step (.expired c.runs.armings trigger.2)).1 none
      ∧ delayOf (c.step (.expired c.runs.armings trigger.2)).1 = delayOf c
      ∧ (e.beat (.pass ms)).2.filterMap (Request.launch? i) = [trigger.2]
      ∧ (e.beat (.pass ms)).1.now = e.now + ms := by
  obtain ⟨htimers, hperm⟩ := e.rung_timersOf ms i
  rw [hp.timers] at htimers hperm
  have hleft : (e.rung ms).1.timersOf i = [] := by
    refine htimers.trans ?_
    simp [hdue]
  have hring : (e.rung ms).2.filter (·.1 = i) = [(i, .expired c.runs.armings trigger.2)] := by
    have hone := hperm.trans (.of_eq (show _ = [(i, Input.expired c.runs.armings trigger.2)] by simp [hdue]))
    exact List.perm_singleton.mp hone
  obtain ⟨f, hbefore, hafter, hheard⟩ := deliverAll_of_one (e.rung ms).1 hring
  obtain ⟨hprimed, hsameDelay, hlaunch, hnow⟩ := primed_of_expired (hbefore.checker.trans hp.checker)
    hp.alive hp.armed (hbefore.timers.trans hleft) trigger.2
  rw [beat_pass]
  exact ⟨hprimed.same hafter, hsameDelay, hheard.trans hlaunch,
    hafter.now.trans (hnow.trans hbefore.now)⟩

end Primed

/-! ## 5. The clock and the triggers -/

theorem deliver_clock (e : Engine) (i : Nat) (input : Input) : (e.deliver i input).1.now = e.now := by
  cases hc : e.checkers[i]? with
  | none =>
    unfold deliver
    rw [hc]
  | some c => exact deliver_now hc input

theorem deliverAll_clock (e : Engine) (inputs : List (Nat × Input)) : (e.deliverAll inputs).1.now = e.now := by
  induction inputs generalizing e with
  | nil => rfl
  | cons input inputs ih => exact (ih (e.deliver input.1 input.2).1).trans (deliver_clock e input.1 input.2)

theorem beat_clock (e : Engine) (b : Beat) (later : List Beat) :
    Beat.clock e.now (b :: later) = Beat.clock (e.beat b).1.now later := by
  cases b with
  | pass ms =>
    rw [beat_pass, deliverAll_clock, rung_now]
    rfl
  | hear j input =>
    rw [show (e.beat (.hear j input)).1.now = e.now from deliver_clock e j input]
    rfl

end Engine

namespace Beat

theorem le_clock (now : Nat) (beats : List Beat) : now ≤ clock now beats := by
  induction beats generalizing now with
  | nil => exact Nat.le_refl _
  | cons b later ih =>
    cases b with
    | pass ms => exact Nat.le_trans (Nat.le_add_right _ _) (ih (now + ms))
    | hear j input => exact ih now

theorem le_of_mem_triggers {i now : Nat} {beats : List Beat} :
    ∀ x ∈ triggers i now beats, now ≤ x.1 := by
  induction beats generalizing now with
  | nil => exact nofun
  | cons b later ih =>
    intro x hx
    cases b with
    | pass ms => exact Nat.le_trans (Nat.le_add_right _ _) (ih x hx)
    | hear j input =>
      cases input with
      | trigger document =>
        unfold triggers at hx
        split at hx
        · rcases List.mem_cons.mp hx with rfl | hx
          · exact Nat.le_refl _
          · exact ih x hx
        · exact ih x hx
      | _ => exact ih x hx

theorem triggers_hear_of_ne {i j now : Nat} (hne : j ≠ i) (input : Input) (later : List Beat) :
    triggers i now (.hear j input :: later) = triggers i now later := by
  cases input with
  | trigger document => exact if_neg hne
  | _ => rfl

theorem triggers_hear_of_aside {i j now : Nat} {s : RunState} {input : Input}
    (haside : input.isTiming s = false) (later : List Beat) :
    triggers i now (.hear j input :: later) = triggers i now later := by
  cases input with
  | trigger document => cases haside
  | _ => rfl

theorem triggers_hear_trigger (i now : Nat) (document : DocumentRef) (later : List Beat) :
    triggers i now (.hear i (.trigger document) :: later) = (now, document) :: triggers i now later :=
  if_pos rfl

variable {delay finish : Nat} {trigger : Nat × DocumentRef} {later : List (Nat × DocumentRef)}

theorem lasting_cons_of_lasts (hover : trigger.1 + delay ≤ finish)
    (halone : ∀ x ∈ later, trigger.1 + delay ≤ x.1) :
    lasting delay finish (trigger :: later) = trigger :: lasting delay finish later :=
  if_pos ⟨hover, halone⟩

theorem lasting_cons_of_broken {x : Nat × DocumentRef} (hx : x ∈ later) (hbroken : x.1 < trigger.1 + delay) :
    lasting delay finish (trigger :: later) = lasting delay finish later :=
  if_neg fun hlasts => Nat.not_lt.mpr (hlasts.2 x hx) hbroken

theorem lasting_cons_of_open (hopen : finish < trigger.1 + delay) :
    lasting delay finish (trigger :: later) = lasting delay finish later :=
  if_neg fun hlasts => Nat.not_lt.mpr hlasts.1 hopen

end Beat

namespace Engine

variable {e : Engine} {i : Nat} {c : Checker} {delay : Nat}

/-! ## 6. Every course of beats -/

/-- An input that is not the trigger of a checker, nor the expiry that it waits for, is aside. -/
theorem isTiming_of_fair (hc : e.checkers[i]? = some c) {input : Input} (hfair : e.Fair i (.hear i input)) :
    (∃ document, input = .trigger document) ∨ input.isTiming c.runs = false := by
  cases input with
  | trigger document => exact .inl ⟨document, rfl⟩
  | expired seq document => exact .inr (beq_eq_false_iff_ne.mpr (hfair rfl c hc))
  | _ => exact .inr rfl

theorem launches_cons (i : Nat) (e : Engine) (b : Beat) (later : List Beat) :
    launches i e (b :: later)
      = ((e.beat b).2.filterMap (Request.launch? i)).map (Onset.mk e.now (e.beat b).1.now)
        ++ launches i (e.beat b).1 later := rfl

theorem launches_cons_of_quiet {b : Beat} {later : List Beat}
    (hquiet : (e.beat b).2.filterMap (Request.launch? i) = []) :
    launches i e (b :: later) = launches i (e.beat b).1 later := by
  rw [launches_cons, hquiet]
  rfl

/-- A trigger that was waited for is broken by the next one. -/
theorem lasting_of_trigger {awaited : Option (Nat × DocumentRef)} (ha : e.Awaits i c awaited)
    (document : DocumentRef) (finish : Nat) (later : List (Nat × DocumentRef)) :
    Beat.lasting (delayOf c) finish (awaited.toList ++ (e.now, document) :: later)
      = Beat.lasting (delayOf c) finish ((e.now, document) :: later) := by
  cases awaited with
  | none => rfl
  | some trigger => exact Beat.lasting_cons_of_broken List.mem_cons_self (ha.pending trigger rfl)

/-- The runs of a checker that begin are those of the triggers that last, one of which may be awaited already. -/
def Punctual (delay i : Nat) (e : Engine) (awaited : Option (Nat × DocumentRef)) (beats : List Beat) : Prop :=
  List.Forall₂ (Onset.Of delay) (launches i e beats)
    (Beat.lasting delay (Beat.clock e.now beats) (awaited.toList ++ Beat.triggers i e.now beats))

/-- A beat in which no run begins leaves the runs punctual, if the triggers that last are the same without it. -/
theorem Punctual.cons_of_quiet {b : Beat} {later : List Beat} {awaited next : Option (Nat × DocumentRef)}
    (hrest : Punctual delay i (e.beat b).1 next later) (hquiet : (e.beat b).2.filterMap (Request.launch? i) = [])
    (hlasting : Beat.lasting delay (Beat.clock e.now (b :: later))
        (awaited.toList ++ Beat.triggers i e.now (b :: later))
      = Beat.lasting delay (Beat.clock (e.beat b).1.now later)
          (next.toList ++ Beat.triggers i (e.beat b).1.now later)) : Punctual delay i e awaited (b :: later) := by
  unfold Punctual
  rw [launches_cons_of_quiet hquiet, hlasting]
  exact hrest

/-- After a beat the checker waits again, for something or for nothing, and if its runs are punctual from there
they have been so from here. -/
def Leads (delay i : Nat) (e : Engine) (awaited : Option (Nat × DocumentRef)) (b : Beat) : Prop :=
  ∃ c next, (e.beat b).1.Awaits i c next ∧ delayOf c = delay
    ∧ ∀ later, Punctual delay i (e.beat b).1 next later → Punctual delay i e awaited (b :: later)

section Leads

variable {awaited : Option (Nat × DocumentRef)}

/-- Where no beat is left, the delay that is awaited does not end. -/
theorem Awaits.punctual_nil (ha : e.Awaits i c awaited) (hdelay : delayOf c = delay) :
    Punctual delay i e awaited [] := by
  cases awaited with
  | none => exact .nil
  | some trigger =>
    have hopen : e.now < trigger.1 + delayOf c := ha.pending trigger rfl
    rw [hdelay] at hopen
    have hnone : Beat.lasting delay e.now [trigger] = [] := Beat.lasting_cons_of_open hopen
    show List.Forall₂ (Onset.Of delay) [] (Beat.lasting delay e.now [trigger])
    rw [hnone]
    exact .nil

/-- The clock does not reach the end of the delay. -/
theorem Awaits.pass_early (ha : e.Awaits i c awaited) (hdelay : delayOf c = delay) {ms : Nat}
    (hearly : ∀ x ∈ awaited, e.now + ms < x.1 + delayOf c) : Leads delay i e awaited (.pass ms) := by
  obtain ⟨hnext, hquiet, hnow⟩ := ha.primed.pass_early hearly
  refine ⟨c, awaited, hnext.awaits (hnow ▸ hearly), hdelay, fun later hrest => hrest.cons_of_quiet hquiet ?_⟩
  rw [hnow]
  rfl

/-- The clock passes the end of the delay: the trigger has lasted, and its run begins. -/
theorem Awaits.pass_due {trigger : Nat × DocumentRef} (ha : e.Awaits i c (some trigger))
    (hdelay : delayOf c = delay) {ms : Nat} (hdue : trigger.1 + delayOf c ≤ e.now + ms) :
    Leads delay i e (some trigger) (.pass ms) := by
  obtain ⟨hnext, hsame, hlaunch, hnow⟩ := ha.primed.pass_due hdue
  refine ⟨_, none, hnext.awaits nofun, hsame.trans hdelay, fun later hrest => ?_⟩
  have hsince := ha.pending trigger rfl
  rw [hdelay] at hdue hsince
  have hlasts : Beat.lasting delay (Beat.clock e.now (.pass ms :: later))
        ((some trigger).toList ++ Beat.triggers i e.now (.pass ms :: later))
      = trigger :: Beat.lasting delay (Beat.clock (e.now + ms) later) (Beat.triggers i (e.now + ms) later) :=
    Beat.lasting_cons_of_lasts (Nat.le_trans hdue (Beat.le_clock _ later))
      fun x hx => Nat.le_trans hdue (Beat.le_of_mem_triggers x hx)
  unfold Punctual at hrest ⊢
  rw [hnow] at hrest
  rw [launches_cons, hlasts, hlaunch, hnow]
  exact .cons ⟨rfl, hsince, hdue⟩ hrest

/-- A new trigger is awaited in the stead of the one before, whose delay it breaks. -/
theorem Awaits.hear_trigger (ha : e.Awaits i c awaited) (hdelay : delayOf c = delay) (hpos : 0 < delay)
    (document : DocumentRef) : Leads delay i e awaited (.hear i (.trigger document)) := by
  obtain ⟨hnext, hsame, hquiet, hnow⟩ := ha.primed.deliver_trigger document
  have hpending : ∀ x ∈ some (e.now, document),
      (e.deliver i (.trigger document)).1.now < x.1 + delayOf (c.step (.trigger document)).1 := by
    intro x hx
    cases hx
    rw [hnow, hsame, hdelay]
    exact Nat.lt_add_of_pos_right hpos
  have hbroken := lasting_of_trigger ha document
  rw [hdelay] at hbroken
  refine ⟨_, _, hnext.awaits hpending, hsame.trans hdelay, fun later hrest => hrest.cons_of_quiet hquiet ?_⟩
  have hnow' : (e.beat (.hear i (.trigger document))).1.now = e.now := hnow
  rw [Beat.triggers_hear_trigger, hbroken, hnow']
  rfl

/-- What is not about time leaves the delay as it is. -/
theorem Awaits.hear_aside (ha : e.Awaits i c awaited) (hdelay : delayOf c = delay) {input : Input}
    (haside : input.isTiming c.runs = false) : Leads delay i e awaited (.hear i input) := by
  obtain ⟨hnext, hsame, hquiet, hnow⟩ := ha.primed.deliver_aside haside
  have hpending : ∀ x ∈ awaited, (e.deliver i input).1.now < x.1 + delayOf (c.step input).1 := by
    rw [hnow, hsame]
    exact ha.pending
  refine ⟨_, awaited, hnext.awaits hpending, hsame.trans hdelay, fun later hrest => hrest.cons_of_quiet hquiet ?_⟩
  have hnow' : (e.beat (.hear i input)).1.now = e.now := hnow
  rw [Beat.triggers_hear_of_aside haside, hnow']
  rfl

/-- So does whatever comes to another checker. -/
theorem Awaits.hear_other (ha : e.Awaits i c awaited) (hdelay : delayOf c = delay) {j : Nat} (hj : j ≠ i)
    (input : Input) : Leads delay i e awaited (.hear j input) := by
  obtain ⟨hsame, hquiet⟩ := deliver_of_ne hj e input
  refine ⟨c, awaited, (ha.primed.same hsame).awaits (hsame.now ▸ ha.pending), hdelay,
    fun later hrest => hrest.cons_of_quiet hquiet ?_⟩
  have hnow : (e.beat (.hear j input)).1.now = e.now := hsame.now
  rw [Beat.triggers_hear_of_ne hj, hnow]
  rfl

/-- **Every beat leads from waiting to waiting**, if expiries come when they should. -/
theorem Awaits.leads (ha : e.Awaits i c awaited) (hdelay : delayOf c = delay) (hpos : 0 < delay) {b : Beat}
    (hfair : e.Fair i b) : Leads delay i e awaited b := by
  cases b with
  | pass ms =>
    by_cases hearly : ∀ x ∈ awaited, e.now + ms < x.1 + delayOf c
    · exact ha.pass_early hdelay hearly
    · cases awaited with
      | none => exact absurd nofun hearly
      | some trigger =>
        refine ha.pass_due hdelay (Nat.not_lt.mp fun hlt => hearly ?_)
        intro x hx
        cases hx
        exact hlt
  | hear j input =>
    by_cases hj : j = i
    · subst hj
      rcases isTiming_of_fair ha.checker hfair with ⟨document, rfl⟩ | haside
      · exact ha.hear_trigger hdelay hpos document
      · exact ha.hear_aside hdelay haside
    · exact ha.hear_other hdelay hj input

end Leads

/-- **The runs of a checker that begin are those of the triggers that last**, from any state in which
it waits for a delay or for none. The induction is on the beats; what is waited for is the one thing
that is left of those before. -/
theorem launches_of_awaits (hpos : 0 < delay) {awaited : Option (Nat × DocumentRef)} {beats : List Beat}
    (ha : e.Awaits i c awaited) (hdelay : delayOf c = delay) (hfair : AllFair i e beats) :
    List.Forall₂ (Onset.Of delay) (launches i e beats)
      (Beat.lasting delay (Beat.clock e.now beats) (awaited.toList ++ Beat.triggers i e.now beats)) := by
  induction beats generalizing e c awaited with
  | nil => exact ha.punctual_nil hdelay
  | cons b later ih =>
    obtain ⟨_, _, hnext, hsame, hlead⟩ := ha.leads hdelay hpos hfair.1
    exact hlead later (ih hnext hsame hfair.2)

end Engine

end SyntaxWatch
