import SyntaxWatch.Proofs.Checker.Reaction
import SyntaxWatch.Proofs.Engine.Delivery

/-!
# An engine with all its benches

`Workshop` is an engine together with a record of what has come to which checker. The record is what
turns every checker of the engine into a checker on a `Bench`: the history of the bench is what the
record says came to this checker, and to no other.

A workshop is moved as the engine is moved, by inputs that come back, by the host and by new
configurations, and the record makes no difference (`after_engine`). All of this is done in small
steps: one checker hears something, or one checker is hired.

## What is *not* recorded

Who asks for what. The effects of a checker follow from its history, so `Bench.effects` has them.
-/

set_option autoImplicit false

namespace SyntaxWatch

/-! ## 1. The state -/

/-- An engine, and what has come to which of its checkers. -/
structure Workshop where
  engine : Engine
  heard : List (Nat × Happening)

namespace Workshop

def opening (root : Path) (feedCapacity : Nat) : Workshop := ⟨.idle root feedCapacity, []⟩

/-- What has come to the checker with a number. -/
def history (w : Workshop) (i : Nat) : List Happening :=
  w.heard.filterMap fun (j, h) => if j = i then some h else none

def bench (w : Workshop) (i : Nat) (c : Checker) : Bench :=
  (Bench.opening c.profile c.root c.delay).after (w.history i)

/-! ## 2. The small steps -/

/-- Something comes to the checker with a number, if there is one. -/
def give (w : Workshop) (i : Nat) (h : Happening) : Workshop :=
  ⟨w.engine.hear i h, if i < w.engine.checkers.length then w.heard ++ [(i, h)] else w.heard⟩

/-- A checker is started, and nobody has asked it for anything. -/
def hire (w : Workshop) (profile : CheckerProfile) : Workshop :=
  { w with
    engine := { w.engine with
      checkers := w.engine.checkers ++ [.start profile w.engine.root w.engine.delay]
      enrolled := w.engine.enrolled ++ [w.engine.checkers.length] } }

/-- A document comes to the checker with a number, if the checker covers its language. -/
def triggerOne (w : Workshop) (document : DocumentRef) (i : Nat) : Workshop :=
  match w.engine.checkers[i]? with
  | none => w
  | some c => if c.profile.covers document.language then w.give i (.trigger document) else w

/-! ## 3. What an engine does, in small steps -/

def trigger (w : Workshop) (document : DocumentRef) : Workshop :=
  w.engine.enrolled.foldl (fun w i => w.triggerOne document i) w

def announce (w : Workshop) (burst : List DocumentRef) : Workshop :=
  w.engine.enrolled.foldl
    (fun w i =>
      (Feed.afterBurst w.engine.feedCapacity burst).foldl (fun w document => w.triggerOne document i) w)
    w

/-- All enrolled checkers end, one after the other. -/
def dismiss (w : Workshop) : Workshop := w.engine.enrolled.foldl (fun w i => w.give i .disposal) w

def shutdown (w : Workshop) : Workshop := { w.dismiss with engine := { w.dismiss.engine with enrolled := [] } }

def enroll (w : Workshop) (active : Option DocumentRef) (profile : CheckerProfile) : Workshop :=
  match active with
  | some document => (w.hire profile).triggerOne document w.engine.checkers.length
  | none => w.hire profile

def enrollAll (w : Workshop) (active : Option DocumentRef) (settings : Settings) : Workshop :=
  settings.profiles.foldl (fun w profile => w.enroll active profile)
    { w with engine := { w.engine with delay := settings.delay } }

theorem triggerOne_engine (w : Workshop) (document : DocumentRef) (i : Nat) :
    (w.triggerOne document i).engine = w.engine.triggerOne document i := by
  unfold triggerOne Engine.triggerOne
  cases w.engine.checkers[i]? with
  | none => rfl
  | some c =>
    show (if _ then _ else _ : Workshop).engine = if _ then _ else _
    split <;> rfl

/-- What moves the workshop as the engine is moved does so any number of times. -/
theorem foldl_engine {β : Type} {f : Workshop → β → Workshop} {g : Engine → β → Engine}
    (hstep : ∀ w x, (f w x).engine = g w.engine x) (xs : List β) (w : Workshop) :
    (xs.foldl f w).engine = xs.foldl g w.engine :=
  (List.foldl_hom Workshop.engine fun w x => (hstep w x).symm).symm

theorem trigger_engine (w : Workshop) (document : DocumentRef) :
    (w.trigger document).engine = w.engine.trigger document :=
  foldl_engine (fun w i => triggerOne_engine w document i) _ w

theorem announce_engine (w : Workshop) (burst : List DocumentRef) :
    (w.announce burst).engine = w.engine.announce burst :=
  foldl_engine (fun w i => foldl_engine (fun w document => triggerOne_engine w document i) _ w) _ w

theorem dismiss_engine (w : Workshop) :
    w.dismiss.engine = w.engine.enrolled.foldl Engine.disposeOne w.engine :=
  foldl_engine (fun _ _ => rfl) _ w

theorem shutdown_engine (w : Workshop) : w.shutdown.engine = w.engine.shutdown := by
  unfold shutdown Engine.shutdown
  rw [dismiss_engine]

theorem enroll_engine (w : Workshop) (active : Option DocumentRef) (profile : CheckerProfile) :
    (w.enroll active profile).engine = w.engine.enroll active profile := by
  unfold enroll Engine.enroll
  cases active with
  | none => rfl
  | some document => exact triggerOne_engine _ document _

theorem enrollAll_engine (w : Workshop) (active : Option DocumentRef) (settings : Settings) :
    (w.enrollAll active settings).engine = w.engine.enrollAll active settings :=
  foldl_engine (fun w profile => enroll_engine w active profile) _ _

/-! ## 4. Moves -/

inductive Move where
  /-- Something comes to one checker: an input that it waits for, or its end. -/
  | hear (i : Nat) (h : Happening)
  | trigger (document : DocumentRef)
  | announce (burst : List DocumentRef)
  | advance (ms : Nat)
  /-- The timers that have run out are taken off. Each of them is heard later, on its own. -/
  | ring
  /-- The host takes events from the queue. -/
  | poll (budget : Nat)
  | start (active : Option DocumentRef) (settings : Settings)
  | reload (active : Option DocumentRef) (settings : Settings)
  | shutdown

def Move.carryOut (e : Engine) : Move → Engine
  | hear i h => e.hear i h
  | trigger document => e.trigger document
  | announce burst => e.announce burst
  | advance ms => { e with now := e.now + ms }
  | ring => e.takeDue.1
  | poll budget => { e with events := (e.events.take budget).2 }
  | start active settings => e.start active settings
  | reload active settings => e.reload active settings
  | shutdown => e.shutdown

def act (w : Workshop) : Move → Workshop
  | .hear i h => w.give i h
  | .trigger document => w.trigger document
  | .announce burst => w.announce burst
  | .advance ms => { w with engine := { w.engine with now := w.engine.now + ms } }
  | .ring => { w with engine := w.engine.takeDue.1 }
  | .poll budget => { w with engine := { w.engine with events := (w.engine.events.take budget).2 } }
  | .start active settings =>
    { w with engine := { w.engine with events := .empty Engine.eventCapacity } }.enrollAll active settings
  | .reload active settings => w.shutdown.enrollAll active settings
  | .shutdown => w.shutdown

def after (w : Workshop) (moves : List Move) : Workshop := moves.foldl act w

theorem act_engine (w : Workshop) (move : Move) : (w.act move).engine = move.carryOut w.engine := by
  cases move with
  | trigger document => exact trigger_engine w document
  | announce burst => exact announce_engine w burst
  | start active settings => exact enrollAll_engine _ active settings
  | reload active settings =>
    show (w.shutdown.enrollAll active settings).engine = w.engine.reload active settings
    rw [enrollAll_engine, shutdown_engine]
    rfl
  | shutdown => exact shutdown_engine w
  | _ => rfl

/-- **The record changes nothing**: the engine of a workshop goes its own way. -/
theorem after_engine (w : Workshop) (moves : List Move) :
    (w.after moves).engine = moves.foldl Move.carryOut w.engine :=
  foldl_engine act_engine moves w

/-! ## 5. What can come -/

/-- Whether something can come to the checker with a number now. -/
def CanHear (w : Workshop) (i : Nat) (h : Happening) : Prop :=
  ∀ c ∈ w.engine.checkers[i]?, (w.bench i c).CanMeet h

instance decidableCanHear (w : Workshop) (i : Nat) (h : Happening) : Decidable (w.CanHear i h) :=
  inferInstanceAs (Decidable (∀ c ∈ w.engine.checkers[i]?, _))

/-- Whether a move can be made now. The host may do what it likes, at any time. -/
def CanAct (w : Workshop) : Move → Prop
  | .hear i h => w.CanHear i h
  | _ => True

instance decidableCanAct (w : Workshop) : (move : Move) → Decidable (w.CanAct move)
  | .hear i h => inferInstanceAs (Decidable (w.CanHear i h))
  | .trigger _ | .announce _ | .advance _ | .ring | .poll _ | .start _ _ | .reload _ _ | .shutdown =>
    isTrue trivial

def Possible (w : Workshop) : List Move → Prop
  | [] => True
  | move :: later => w.CanAct move ∧ (w.act move).Possible later

instance decidablePossible : (w : Workshop) → (moves : List Move) → Decidable (w.Possible moves)
  | _, [] => isTrue trivial
  | w, move :: later =>
    have := decidablePossible (w.act move) later
    inferInstanceAs (Decidable (_ ∧ _))

end Workshop

end SyntaxWatch
