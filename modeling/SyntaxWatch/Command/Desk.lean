import SyntaxWatch.Engine
import SyntaxWatch.Results
import SyntaxWatch.Tool

/-!
# The command at work

A `Desk` is everything the command has in hand while it runs: the files it sees, the documents it has
loaded, the engine, the processes that have been started, and what has been printed. Its host reads
documents from files; what comes of a run is a parameter (`runs`), so that nothing here depends on which
programs there are.

Somebody sits in front of it, too. A `UserAction` is taken when enough has been printed on the error stream,
and is either a change of some files or an interrupt. The command itself never waits for it; it only moves
the clock when there is nothing left to do at the present moment.
-/

set_option autoImplicit false

namespace SyntaxWatch

/-! ## 1. Runs -/

structure Launch where
  checker : Nat
  token : Nat
  profile : CheckerProfile
  text : String
  deriving Repr

inductive RunOutcome where
  /-- After so many milliseconds the process ends, with this output. -/
  | output (after : Nat) (found : Findings)
  | failure (failure : RunFailure)
  | abort
  deriving Repr

def Program.outcome (files : FileTree) (root : Path) (l : Launch) : RunOutcome :=
  match (Program.ofCommand l.profile.command l.profile.arguments).startIn (files.refusal .root root) with
  | .error failure => .failure failure
  | .ok (.sleep ms) => .output ms .empty
  | .ok tool => .output 0 (tool.findings l.text)

structure Process where
  due : Nat
  checker : Nat
  token : Nat
  document : DocumentRef
  output : Findings
  deriving Repr

/-! ## 2. Who waits for what -/

/-- How many runs are still to end, by the name of their checker. Names with none left are taken out. -/
abbrev Pending := List (String × Nat)

namespace Pending

def add (p : Pending) (name : String) : Pending :=
  if p.any fun e => e.1 = name then p.map fun e => if e.1 = name then (name, e.2 + 1) else e
  else p ++ [(name, 1)]

/-- The runs that a document of a language starts. -/
def ofCheckers (checkers : List Checker) (language : String) : Pending :=
  ((checkers.filter fun c => c.profile.covers language).map Checker.name).foldl add []

/-- What is left after an event has been heard. -/
def observe (p : Pending) (n : Notice) : Pending :=
  if n.event.isTerminal then
    (p.map fun e => if e.1 = n.checker then (e.1, e.2 - 1) else e).filter fun e => decide (0 < e.2)
  else p

end Pending

/-! ## 3. The desk -/

/-- A line on one of the two streams of the command. -/
inductive Printed where
  | out (line : String)
  | err (line : String)
  deriving DecidableEq, Repr

namespace Printed

/-- The lines that it makes on the error stream: more than one if it holds line feeds. -/
def errorLines : Printed → List (List Char)
  | out _ => []
  | err line => Text.pieces '\n' line.toList

end Printed

/-- What the user does when so many lines stand on the error stream: writes or removes files, or interrupts
the command. -/
structure UserAction where
  await : Nat
  changes : Option FileTree.Changes
  deriving Repr

structure Desk where
  files : FileTree
  runs : FileTree → Path → Launch → RunOutcome
  workspace : Workspace
  engine : Engine
  processes : List Process
  pending : Pending
  printed : List Printed
  actions : List UserAction

namespace Desk

def print (d : Desk) (lines : List Printed) : Desk := { d with printed := d.printed ++ lines }

def errorLines (d : Desk) : Nat := (d.printed.flatMap Printed.errorLines).length

/-- The lines on the error stream for an error that ends the command. -/
def fatal (message : String) (cause : Option String) : List Printed :=
  .err ("Error: " ++ message) ::
    match cause with
    | some cause => [.err "", .err "Caused by:", .err ("    " ++ cause)]
    | none => []

/-! ## 4. Serving the engine -/

/-- Starts a run on the text that its document has now. -/
def launch (d : Desk) (checker token : Nat) (document : DocumentRef) : Desk × List (Nat × Input) :=
  match d.engine.checkers[checker]? with
  | none => (d, [])
  | some c =>
    match d.runs d.files d.engine.root ⟨checker, token, c.profile, d.workspace.documents.textOf document⟩ with
    | .failure failure => (d, [(checker, .failed token failure)])
    | .abort => (d, [(checker, .aborted token)])
    | .output after found =>
      -- even a process that ends at once ends behind the failures of this moment
      ({ d with processes := d.processes ++ [⟨d.engine.now + after, checker, token, document, found⟩] }, [])

/-- Looks a target up and places findings in it. -/
def lookUp (d : Desk) (checker token : Nat) (target : Target) (findings : List Finding) :
    Desk × List (Nat × Input) :=
  let document := (d.workspace.lookUp d.files target.uri).toOption
  let source := (d.engine.checkers[checker]?.map Checker.name).getD ""
  (d, [(checker, .placed token target.uri (Diagnostic.place findings source target document))])

def serve (d : Desk) : Request → Desk × List (Nat × Input)
  | .launch checker token document => d.launch checker token document
  | .lookUp checker token target findings => d.lookUp checker token target findings
  | .warn message => (d.print [.err ("warning: " ++ message)], [])

def serveAll (d : Desk) : List Request → Desk × List (Nat × Input)
  | [] => (d, [])
  | r :: others =>
    let (d, inputs) := d.serve r
    let (d, more) := d.serveAll others
    (d, inputs ++ more)

/-- Takes all events off the queue and hears them one by one. -/
def hearAll (hear : Desk → Notice → Desk) (d : Desk) : Desk :=
  let (notices, events) := d.engine.events.take d.engine.events.waiting.length
  notices.foldl hear { d with engine := { d.engine with events := events } }

/-- Delivers inputs in their order, hearing the events of each, and gives the inputs that they bring
about. -/
def round (hear : Desk → Notice → Desk) (d : Desk) : List (Nat × Input) → Desk × List (Nat × Input)
  | [] => (d, [])
  | (i, input) :: others =>
    let (engine, requests) := d.engine.deliver i input
    let (d, inputs) := { d with engine := engine }.serveAll requests
    let (d, more) := round hear (hearAll hear d) others
    (d, inputs ++ more)

def takeDue (d : Desk) : Desk × List (Nat × Input) :=
  let (engine, expiries) := d.engine.takeDue
  let ended := d.processes.filter fun p => p.due ≤ d.engine.now
  ({ d with engine := engine, processes := d.processes.filter fun p => d.engine.now < p.due },
    expiries ++ ended.map fun p => (p.checker, .finished p.token p.document p.output))

/-- Lets things go on for so many rounds; a round begins with what is due. -/
def settleFor (hear : Desk → Notice → Desk) : Nat → Desk → List (Nat × Input) → Desk
  | 0, d, _ => d
  | n + 1, d, inputs =>
    let (d, due) := d.takeDue
    let (d, next) := d.round hear (inputs ++ due)
    settleFor hear n d next

/-- Lets things go on until nothing more happens at this moment. An expiry brings about a run, a run
lookups, and a lookup nothing, so four rounds are enough. -/
def settle (hear : Desk → Notice → Desk) (d : Desk) : Desk := settleFor hear 4 d []

/-! ## 5. Time -/

/-- The next moment at which something is due. -/
def nextDue? (d : Desk) : Option Nat :=
  (d.engine.timers.map (·.due) ++ d.processes.map (·.due)).min?

def goTo (hear : Desk → Notice → Desk) (d : Desk) (t : Nat) : Desk :=
  settle hear { d with engine := { d.engine with now := t } }

def change (d : Desk) (changes : FileTree.Changes) : Desk := { d with files := d.files.change changes }

/-- Loads a file and announces it to the checkers. -/
def open? (d : Desk) (p : Path) : Except LoadError Desk :=
  (d.workspace.load d.files p).map fun (workspace, document) =>
    { d with workspace := workspace, engine := d.engine.announce [document] }

end Desk

end SyntaxWatch
