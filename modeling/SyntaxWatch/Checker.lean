import SyntaxWatch.Collection
import SyntaxWatch.Document
import SyntaxWatch.Event
import SyntaxWatch.Finding.Output
import SyntaxWatch.Diagnostic.Placed
import SyntaxWatch.RunState
import SyntaxWatch.Settings

/-!
# One checker

A checker is a state and a reaction to inputs, one at a time. Timers, processes and document lookups
go on elsewhere; the checker asks for them by an effect and hears of them by an input, which may come
late or after something newer. Whatever an input brings is held against the current token before
anything is written, so the order in which things come back decides nothing but the order of events.

The effects of an input are listed in the order in which they happen. The writes to the collection are
not among them, since the checker's collection is part of its state.
-/

set_option autoImplicit false

namespace SyntaxWatch

/-! ## 1. Inputs and effects -/

inductive Input where
  /-- A document asks to be checked. -/
  | trigger (document : DocumentRef)
  /-- The timer of an arming has run out. -/
  | expired (seq : Nat) (document : DocumentRef)
  /-- The process of a run has ended, with this output. -/
  | finished (token : Nat) (document : DocumentRef) (output : Findings)
  /-- The process of a run could not be started. -/
  | failed (token : Nat) (failure : RunFailure)
  /-- The task of a run died. -/
  | aborted (token : Nat)
  /-- The lookup of one document has ended and its diagnostics are placed. -/
  | placed (token : Nat) (uri : Uri) (diagnostics : List Diagnostic)
  deriving DecidableEq, Repr

inductive Effect where
  /-- Wait for the delay, then send `expired`. A timer started before is called off. -/
  | startTimer (seq : Nat) (document : DocumentRef)
  /-- Run the checker on the text that the document has now. -/
  | launch (token : Nat) (document : DocumentRef)
  /-- Look the target up, place the findings in what is found, and send `placed`. -/
  | lookUp (token : Nat) (target : Target) (findings : List Finding)
  | emit (event : Event)
  | warn (message : String)
  deriving DecidableEq, Repr

structure Checker where
  profile : CheckerProfile
  /-- Where its processes run, and where the relative paths they print begin. -/
  root : Path
  /-- How long a timer runs, in milliseconds. -/
  delay : Nat
  runs : RunState
  collection : Collection
  deriving DecidableEq, Repr

namespace Checker

def start (profile : CheckerProfile) (root : Path) (delay : Nat) : Checker :=
  ⟨profile, root, delay, .fresh, .new profile.displayName⟩

def name (c : Checker) : String := c.profile.displayName

/-! ## 2. Reactions -/

def armFor (c : Checker) (document : DocumentRef) : Checker × List Effect :=
  match c.runs.arm with
  | (s, some seq) => ({ c with runs := s }, [.startTimer seq document])
  | (_, none) => (c, [])

/-- Starts a run, for the latest arming only. What an earlier run wrote is cleared at once. -/
def beginRun (c : Checker) (seq : Nat) (document : DocumentRef) : Checker × List Effect :=
  match c.runs.fire seq with
  | (s, some token) =>
    ({ c with runs := s, collection := c.collection.clear },
      [.emit (.started token document.uri), .launch token document])
  | (_, none) => (c, [])

def endingIf (done : Bool) (token : Nat) : List Effect :=
  if done then [.emit (.settled token)] else []

/-- Sends one group of findings on its way; a group whose path leads nowhere is passed over. -/
def sendGroup (c : Checker) (token : Nat) (trigger : Uri) (group : String × List Finding) :
    Checker × List Effect :=
  match Target.resolve c.root trigger group.1 with
  | .ok target => (c, [.lookUp token target group.2])
  | .error _ =>
    -- it counts as written, or the run would never be settled
    let (s, done) := c.runs.fileWritten token
    ({ c with runs := s }, endingIf done token)

def sendGroups (c : Checker) (token : Nat) (trigger : Uri) :
    List (String × List Finding) → Checker × List Effect
  | [] => (c, [])
  | group :: others =>
    let (c, effects) := c.sendGroup token trigger group
    let (c, more) := c.sendGroups token trigger others
    (c, effects ++ more)

/-- Takes in the output of a run, unless a newer run has begun. -/
def takeOutput (c : Checker) (token : Nat) (document : DocumentRef) (output : Findings) :
    Checker × List Effect :=
  if c.runs.counts token then
    -- without a single group there is nothing to wait for
    match c.runs.awaitFiles token output.fileCount with
    | (s, true) => ({ c with runs := s }, [.emit (.settled token)])
    | (s, false) => { c with runs := s }.sendGroups token document.uri output.groups
  else (c, [.emit (.discarded token)])

/-- Gives up a run that could not be started, and says so. -/
def takeFailure (c : Checker) (token : Nat) (failure : RunFailure) : Checker × List Effect :=
  ({ c with runs := c.runs.giveUp token },
    [.warn ("Checker " ++ c.name ++ " received error: " ++ failure.message),
      .emit (.failed token failure)])

/-- Gives up a run whose task died; the user is not told. -/
def takeAbort (c : Checker) (token : Nat) : Checker × List Effect :=
  ({ c with runs := c.runs.giveUp token }, [.emit (.failed token .aborted)])

/-- Writes the diagnostics of one document, unless a newer run has begun. -/
def write (c : Checker) (token : Nat) (uri : Uri) (diagnostics : List Diagnostic) :
    Checker × List Effect :=
  if c.runs.counts token then
    let (s, done) := c.runs.fileWritten token
    ({ c with runs := s, collection := c.collection.set uri diagnostics },
      .emit (.published uri diagnostics.length) :: endingIf done token)
  else (c, [])

def react (c : Checker) : Input → Checker × List Effect
  | .trigger document => c.armFor document
  | .expired seq document => c.beginRun seq document
  | .finished token document output => c.takeOutput token document output
  | .failed token failure => c.takeFailure token failure
  | .aborted token => c.takeAbort token
  | .placed token uri diagnostics => c.write token uri diagnostics

/-! ## 3. The end of a checker -/

/-- Ends a checker: no run counts any more and the collection is let go. -/
def dispose (c : Checker) : Checker :=
  { c with runs := c.runs.dispose, collection := c.collection.dispose }

def isDisposed (c : Checker) : Bool := c.runs.disposed

/-- What an input does to a checker that may have ended. An ended checker hears nothing. -/
def step (c : Checker) (input : Input) : Checker × List Effect :=
  if c.isDisposed then (c, []) else c.react input

/-- A whole history of inputs, and the effects of all of them in order. -/
def run (c : Checker) : List Input → Checker × List Effect
  | [] => (c, [])
  | input :: others =>
    let (c, effects) := c.step input
    let (c, more) := c.run others
    (c, effects ++ more)

def eventsOf (effects : List Effect) : List Event :=
  effects.filterMap fun
    | .emit event => some event
    | _ => none

end Checker

end SyntaxWatch
