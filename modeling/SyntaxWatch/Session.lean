import SyntaxWatch.Engine
import SyntaxWatch.Tool

/-!
# An engine in the hands of a script

A session is an engine with a host that lives in memory: documents come from the script, the clock moves
only when the script says so, and the script decides when a run or a lookup may end. After every step
of the script everything that can happen has happened, and the step is reported.

How far things go by themselves is bounded. A trigger can only start a timer, an expiry only a run, the
end of a run only lookups, and the end of a lookup nothing. So a few rounds bring to rest what happens at
once (`rest`), runs that fail among it; then the processes that have nothing to wait for end, each of them
brought to rest before the next (`settle`).
-/

set_option autoImplicit false

namespace SyntaxWatch

/-- A checker as a script configures it: an entry, and what its program does. -/
structure ScriptedChecker where
  entry : CheckerEntry
  program : Program
  deriving Repr

/-- A run whose process has been started. With an empty name there is no gate that it waits for. -/
structure OpenRun where
  gate : String
  checker : Nat
  token : Nat
  document : DocumentRef
  output : Findings
  deriving Repr

/-- A lookup that is being held. What it found was decided when it began. -/
structure WaitingLookup where
  checker : Nat
  token : Nat
  target : Target
  findings : List Finding
  found : Option Nat
  deriving Repr

/-- The engine, its host, and what the present step has shown so far. -/
structure Session where
  engine : Engine
  /-- Whether there are checkers to trigger and events to read; not before the first configuration. -/
  registered : Bool
  /-- The directories in which programs can be started, and the one from which a relative root is taken. -/
  files : FileTree
  directory : Path
  documents : Documents
  /-- The numbers of the documents last made under each URI, and of those that lookups find. -/
  latest : List (Uri × Nat)
  opened : List (Uri × Nat)
  active : Option Nat
  gates : List String
  held : List Uri
  abortNext : Bool
  programs : List Program
  /-- The oldest run comes first. -/
  openRuns : List OpenRun
  waitingLookups : List WaitingLookup
  lookups : List Uri
  warnings : List String
  deriving Repr

inductive ScriptStep where
  | document (uri : Uri) (language text : String) (dirty : Bool)
  | close (uri : Uri)
  | setText (uri : Uri) (text : String)
  | setDirty (uri : Uri) (dirty : Bool)
  | activate (uri : Uri)
  | configure (delay : Nat) (checkers : List ScriptedChecker)
  | announce (uri : Uri) (times : Nat)
  | trigger (uri : Uri) (checker : Option Nat)
  | advance (ms : Nat)
  | release (gate : String)
  | hold (uri : Uri)
  | unhold (uri : Uri)
  | abortNext
  | shutdown
  | drop
  | idle
  deriving Repr

structure StepReport where
  notices : List Notice
  /-- The documents that were looked up, in the order of their URIs. -/
  lookups : List Uri
  warnings : List String
  collections : List Collection

namespace Session

/-- How many announcements a listener can be behind. -/
def feedCapacity : Nat := 16

def new (root : Path) (files : FileTree) (directory : Path) : Session :=
  ⟨.idle root feedCapacity, false, files, directory, [], [], [], none, [], [], false, [], [], [], [], []⟩

/-! ## 1. Documents -/

def lookup (table : List (Uri × Nat)) (uri : Uri) : Option Nat :=
  (table.find? fun e => e.1 = uri).map Prod.snd

def bind (table : List (Uri × Nat)) (uri : Uri) (n : Nat) : List (Uri × Nat) :=
  (table.filter fun e => e.1 ≠ uri) ++ [(uri, n)]

def ref? (s : Session) (uri : Uri) : Option DocumentRef := (lookup s.latest uri).bind s.documents.ref?

def modify (s : Session) (uri : Uri) (f : Document → Document) : Session :=
  match lookup s.latest uri with
  | some n => { s with documents := s.documents.modify n f }
  | none => s

/-! ## 2. Requests -/

/-- Starts a run on the text that its document has now. Gives the input that ends it if it comes to nothing
at once. -/
def launch (s : Session) (checker token : Nat) (document : DocumentRef) :
    Session × List (Nat × Input) :=
  if s.abortNext then ({ s with abortNext := false }, [(checker, .aborted token)])
  else
    match (s.programs[checker]?.getD default).startIn (s.files.refusal s.directory s.engine.root) with
    | .error failure => (s, [(checker, .failed token failure)])
    | .ok tool =>
      let text := s.documents.textOf document
      let gate := if tool = .gated then Tool.gateOf text else ""
      ({ s with openRuns := s.openRuns ++ [⟨gate, checker, token, document, tool.findings text⟩] }, [])

/-- The input that ends a lookup: the diagnostics, placed in what the document is now. -/
def placed (s : Session) (l : WaitingLookup) : Nat × Input :=
  let document := l.found.bind fun n => s.documents[n]?
  let source := (s.engine.checkers[l.checker]?.map Checker.name).getD ""
  (l.checker, .placed l.token l.target.uri (Diagnostic.place l.findings source l.target document))

/-- Begins a lookup, and ends it at once unless its URI is held. -/
def beginLookup (s : Session) (l : WaitingLookup) : Session × List (Nat × Input) :=
  let s := { s with lookups := s.lookups ++ [l.target.uri] }
  if l.target.uri ∈ s.held then ({ s with waitingLookups := s.waitingLookups ++ [l] }, [])
  else (s, [s.placed l])

def serve (s : Session) : Request → Session × List (Nat × Input)
  | .launch checker token document => s.launch checker token document
  | .lookUp checker token target findings =>
    s.beginLookup ⟨checker, token, target, findings, lookup s.opened target.uri⟩
  | .warn message => ({ s with warnings := s.warnings ++ [message] }, [])

def serveAll (s : Session) : List Request → Session × List (Nat × Input)
  | [] => (s, [])
  | r :: others =>
    let (s, inputs) := s.serve r
    let (s, more) := s.serveAll others
    (s, inputs ++ more)

/-! ## 3. Coming to rest -/

/-- Delivers inputs in their order, and gives those that they bring about. -/
def round (s : Session) : List (Nat × Input) → Session × List (Nat × Input)
  | [] => (s, [])
  | (i, input) :: others =>
    let (engine, requests) := s.engine.deliver i input
    let (s, inputs) := { s with engine := engine }.serveAll requests
    let (s, more) := s.round others
    (s, inputs ++ more)

/-- Delivers inputs, and what they bring about, for so many rounds. -/
def roundsFor : Nat → Session → List (Nat × Input) → Session
  | 0, s, _ => s
  | n + 1, s, inputs =>
    let (s, next) := s.round inputs
    roundsFor n s next

/-- Delivers inputs and all that they bring about at once. An expiry brings about a failure at most, the end of
a run lookups, and neither of these anything, so two rounds are enough. -/
def rest (s : Session) (inputs : List (Nat × Input)) : Session := roundsFor 2 s inputs

/-- Whether a run has nothing to wait for. -/
def canEnd (s : Session) (r : OpenRun) : Bool := r.gate == "" || s.gates.contains r.gate

def endRun (s : Session) (r : OpenRun) : Session :=
  s.rest [(r.checker, .finished r.token r.document r.output)]

/-- Lets things go on until nothing more happens by itself: first the timers that have run out and what
follows at once, then the processes that can end, the oldest first. -/
def settle (s : Session) : Session :=
  let (engine, due) := s.engine.takeDue
  let s := { s with engine := engine }.rest due
  let ready := s.openRuns.filter s.canEnd
  ready.foldl endRun { s with openRuns := s.openRuns.filter fun r => !s.canEnd r }

def advance (s : Session) (ms : Nat) : Session :=
  settle { s with engine := { s.engine with now := s.engine.now + ms } }

/-! ## 4. Steps -/

/-- Gives the session a configuration, its first or another. -/
def configure (s : Session) (delay : Nat) (checkers : List ScriptedChecker) : Session :=
  let active := s.active.bind s.documents.ref?
  let settings : Settings := ⟨delay, checkers.map (·.entry)⟩
  let programs := (checkers.filter fun c => Settings.runnable c.entry).map (·.program)
  { s with
    engine := if s.registered then s.engine.reload active settings else s.engine.start active settings
    registered := true
    programs := s.programs ++ programs }

/-- Opens a gate for good; the runs that wait for it go on. -/
def release (s : Session) (gate : String) : Session := settle { s with gates := gate :: s.gates }

/-- Lets the lookups of a URI end, those that wait and those to come. -/
def unhold (s : Session) (uri : Uri) : Session :=
  -- the documents are read now, not when the lookups began
  let ready := s.waitingLookups.filter fun l => l.target.uri = uri
  rest
    { s with
      held := s.held.filter (· ≠ uri)
      waitingLookups := s.waitingLookups.filter fun l => l.target.uri ≠ uri }
    (ready.map s.placed)

/-- Triggers the checkers, or the one in a place of the present configuration. -/
def trigger (s : Session) (document : DocumentRef) (checker : Option Nat) : Session :=
  match checker with
  | none => { s with engine := s.engine.trigger document }
  | some k =>
    match s.engine.enrolled[k]? with
    | some i => { s with engine := s.engine.triggerOne document i }
    | none => s

def act (s : Session) : ScriptStep → Session
  | .document uri language text dirty =>
    let n := s.documents.length
    { s with
      documents := s.documents ++ [⟨uri, language, text, dirty⟩]
      latest := bind s.latest uri n
      opened := bind s.opened uri n }
  | .close uri => { s with opened := s.opened.filter fun e => e.1 ≠ uri }
  | .setText uri text => s.modify uri fun d => { d with text := text }
  | .setDirty uri dirty => s.modify uri fun d => { d with dirty := dirty }
  | .activate uri => { s with active := lookup s.latest uri }
  | .configure delay checkers => settle (s.configure delay checkers)
  | .announce uri times =>
    match s.ref? uri with
    | some document =>
      settle { s with engine := s.engine.announce (List.replicate times document) }
    | none => s
  | .trigger uri checker =>
    match s.ref? uri with
    | some document => settle (s.trigger document checker)
    | none => s
  | .advance ms => s.advance ms
  | .release gate => s.release gate
  | .hold uri => { s with held := uri :: s.held }
  | .unhold uri => s.unhold uri
  | .abortNext => { s with abortNext := true }
  | .shutdown => { s with engine := s.engine.shutdown }
  | .drop => { s with engine := s.engine.shutdown, registered := false }
  | .idle => s

/-- Does a step and reports it. At most `budget` events are taken from the queue; without a budget all
are. -/
def step (s : Session) (action : ScriptStep) (budget : Option Nat) : Session × StepReport :=
  let s := { s with lookups := [], warnings := [] }.act action
  let (notices, events) :=
    if s.registered then s.engine.events.take (budget.getD s.engine.events.waiting.length)
    else ([], s.engine.events)
  ({ s with engine := { s.engine with events := events } },
    ⟨notices, s.lookups.mergeSort Uri.le, s.warnings, s.engine.collections⟩)

def run (s : Session) : List (ScriptStep × Option Nat) → List StepReport
  | [] => []
  | (action, budget) :: others =>
    let (s, report) := s.step action budget
    report :: s.run others

end Session

end SyntaxWatch
