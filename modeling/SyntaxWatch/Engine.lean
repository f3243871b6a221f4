import SyntaxWatch.Checker

/-!
# All checkers together

The engine holds every checker that was ever started, on one clock. The *enrolled* ones are those of
the present configuration; a reload ends them all and starts new ones, so nothing of an old run can
reach a new collection. Checkers that have ended stay in the list, where their disposed collections
can be seen, and hear nothing any more.

The engine owns the timers and the queue of events. What it cannot do itself it asks the host for: a
`Request` is a run to start, a document to look up, or a warning to show. The answers come back through
`deliver`.
-/

set_option autoImplicit false

namespace SyntaxWatch

/-! ## 1. Announcements

A host announces that documents were opened or changed. Every checker listens through a feed of its
own, which drops its oldest entries when it is full; a listener that catches up finds the rest. -/

/-- Announcements that a listener has not heard yet. -/
structure Feed where
  capacity : Nat
  waiting : List DocumentRef
  deriving Repr

namespace Feed

def empty (capacity : Nat) : Feed := ⟨capacity, []⟩

/-- Adds an announcement; if there are now too many, the oldest are gone. -/
def push (f : Feed) (document : DocumentRef) : Feed :=
  let all := f.waiting ++ [document]
  { f with waiting := all.drop (all.length - f.capacity) }

/-- What a listener finds that catches up after a burst of announcements. -/
def afterBurst (capacity : Nat) (burst : List DocumentRef) : List DocumentRef :=
  (burst.foldl push (empty capacity)).waiting

end Feed

/-! ## 2. The engine -/

structure Timer where
  checker : Nat
  seq : Nat
  document : DocumentRef
  due : Nat
  deriving DecidableEq, Repr

/-- What the engine asks its host for, on behalf of the checker with a number. -/
inductive Request where
  | launch (checker token : Nat) (document : DocumentRef)
  | lookUp (checker token : Nat) (target : Target) (findings : List Finding)
  | warn (message : String)
  deriving DecidableEq, Repr

structure Engine where
  root : Path
  /-- The delay of the present configuration, in milliseconds. -/
  delay : Nat
  now : Nat
  /-- Every checker that was ever started, in order. -/
  checkers : List Checker
  /-- The numbers of the checkers of the present configuration. -/
  enrolled : List Nat
  timers : List Timer
  events : EventQueue
  /-- How many announcements a listener can be behind. -/
  feedCapacity : Nat
  deriving Repr

namespace Engine

/-- How many events can wait for the host. -/
def eventCapacity : Nat := 256

/-- The longest time for which a timer runs, in milliseconds. -/
def timerLimit : Nat := 68719476734

def idle (root : Path) (feedCapacity : Nat) : Engine :=
  ⟨root, Settings.defaultDelay, 0, [], [], [], .empty eventCapacity, feedCapacity⟩

/-! ## 3. Inputs -/

def carryOut (e : Engine) (i : Nat) (c : Checker) : Effect → Engine × List Request
  | .startTimer seq document =>
    -- a checker has one timer, so the one before is called off
    let due := e.now + Nat.min c.delay timerLimit
    ({ e with timers := (e.timers.filter fun t => t.checker ≠ i) ++ [⟨i, seq, document, due⟩] }, [])
  | .launch token document => (e, [.launch i token document])
  | .lookUp token target findings => (e, [.lookUp i token target findings])
  | .emit event => ({ e with events := e.events.offer ⟨c.name, event⟩ }, [])
  | .warn message => (e, [.warn message])

def carryOutAll (e : Engine) (i : Nat) (c : Checker) : List Effect → Engine × List Request
  | [] => (e, [])
  | effect :: others =>
    let (e, requests) := e.carryOut i c effect
    let (e, more) := e.carryOutAll i c others
    (e, requests ++ more)

/-- Gives an input to the checker with a number. -/
def deliver (e : Engine) (i : Nat) (input : Input) : Engine × List Request :=
  match e.checkers[i]? with
  | none => (e, [])
  | some c =>
    let (c, effects) := c.step input
    { e with checkers := e.checkers.set i c }.carryOutAll i c effects

/-- Asks an enrolled checker to check a document, if it handles the document's language. -/
def triggerOne (e : Engine) (document : DocumentRef) (i : Nat) : Engine :=
  match e.checkers[i]? with
  | none => e
  | some c => if c.profile.covers document.language then (e.deliver i (.trigger document)).1 else e

def trigger (e : Engine) (document : DocumentRef) : Engine :=
  e.enrolled.foldl (fun e i => e.triggerOne document i) e

/-- Announces a burst of documents. Every listener hears what its feed has kept of it. -/
def announce (e : Engine) (burst : List DocumentRef) : Engine :=
  e.enrolled.foldl
    (fun e i => (Feed.afterBurst e.feedCapacity burst).foldl (fun e document => e.triggerOne document i) e)
    e

/-- Takes the timers that have run out as inputs: in the order in which they ran out, or were started if they
ran out at the same moment. -/
def takeDue (e : Engine) : Engine × List (Nat × Input) :=
  let due := (e.timers.filter fun t => t.due ≤ e.now).mergeSort fun t u => decide (t.due ≤ u.due)
  ({ e with timers := e.timers.filter fun t => e.now < t.due },
    due.map fun t => (t.checker, .expired t.seq t.document))

/-! ## 4. Configurations -/

/-- Ends the checker with a number; its timer is called off. -/
def disposeOne (e : Engine) (i : Nat) : Engine :=
  { e with
    checkers := e.checkers.modify i Checker.dispose
    timers := e.timers.filter fun t => t.checker ≠ i }

/-- Ends all enrolled checkers. The delay stays as it was. -/
def shutdown (e : Engine) : Engine :=
  { e.enrolled.foldl disposeOne e with enrolled := [] }

/-- Starts one checker; if there is an active document that it handles, it is asked to check it. -/
def enroll (e : Engine) (active : Option DocumentRef) (profile : CheckerProfile) : Engine :=
  let i := e.checkers.length
  let e := { e with checkers := e.checkers ++ [.start profile e.root e.delay], enrolled := e.enrolled ++ [i] }
  match active with
  | some document => e.triggerOne document i
  | none => e

def enrollAll (e : Engine) (active : Option DocumentRef) (settings : Settings) : Engine :=
  settings.profiles.foldl (fun e profile => e.enroll active profile) { e with delay := settings.delay }

/-- Replaces the present configuration. The old checkers have all ended before a new one starts. -/
def reload (e : Engine) (active : Option DocumentRef) (settings : Settings) : Engine :=
  e.shutdown.enrollAll active settings

/-- The first configuration of an engine, with an empty queue of events. -/
def start (e : Engine) (active : Option DocumentRef) (settings : Settings) : Engine :=
  { e with events := .empty eventCapacity }.enrollAll active settings

/-! ## 5. What can be seen -/

def present (e : Engine) : List Checker := e.enrolled.filterMap fun i => e.checkers[i]?

/-- How many enrolled checkers a document of a language would start. -/
def countFor (e : Engine) (language : String) : Nat :=
  e.present.countP fun c => c.profile.covers language

def collections (e : Engine) : List Collection := e.checkers.map (·.collection)

/-- The collections that have not been disposed, in the order of their creation. -/
def liveCollections (e : Engine) : List Collection := e.collections.filter fun c => !c.disposed

end Engine

end SyntaxWatch
