import SyntaxWatch.Command.Desk

/-!
# One pass over the files

Files are checked one after the other. A file is loaded and announced, and the pass waits until every run
that the file started has ended; then it copies out what the collections hold. Two files in hand at the
same time would not do, since a checker runs once for announcements that come close together.
-/

set_option autoImplicit false

namespace SyntaxWatch.Desk

inductive Wait where
  | settled
  | interrupted
  /-- Nothing can happen any more. -/
  | stuck
  deriving DecidableEq, Repr

/-- In a pass an event only counts towards the runs that are waited for. -/
def count (d : Desk) (n : Notice) : Desk := { d with pending := d.pending.observe n }

/-- Waits for the pending runs, moving the clock at most so often. The user acts when it is time to, or when
nothing else can happen. -/
def awaitRuns : Nat → Desk → Desk × Wait
  | 0, d => (d, .stuck)
  | n + 1, d =>
    if d.pending = [] then (d, .settled)
    else
      match d.actions, d.nextDue? with
      | [], none => (d, .stuck)
      | [], some t => awaitRuns n (d.goTo count t)
      | a :: others, due =>
        -- where nothing else can happen the user acts without what was waited for
        if a.await ≤ d.errorLines ∨ due = none then
          match a.changes with
          | none => ({ d with actions := others }, .interrupted)
          | some changes => awaitRuns n ({ d with actions := others }.change changes)
        else awaitRuns n (d.goTo count (due.getD 0))

/-- How often the clock may have to be moved: once for each timer, once for the run that it starts, once for
each process, and once for each action. -/
def waitBound (d : Desk) : Nat :=
  2 * d.engine.timers.length + d.processes.length + d.actions.length + 1

inductive PassEnd where
  | complete
  | interrupted
  | stuck
  | failed (e : LoadError)
  deriving DecidableEq, Repr

/-- Checks one file: none when no checker handles its language. -/
def checkFile (d : Desk) (collected : Results) (p : Path) : Desk × Results × PassEnd :=
  let language := d.workspace.languageOf p
  let pending := Pending.ofCheckers d.engine.present language
  if pending = [] then
    (d.print [.err (p.text ++ ": no checker handles language '" ++ language ++ "'")], collected, .complete)
  else
    match open? { d with pending := pending } p with
    | .error e => (d, collected, .failed e)
    | .ok d =>
      let d := d.settle count
      match awaitRuns d.waitBound d with
      | (d, .settled) => (d, collected.copyFrom d.engine.liveCollections, .complete)
      | (d, .interrupted) => (d, collected, .interrupted)
      | (d, .stuck) => (d, collected, .stuck)

def checkAll (d : Desk) (collected : Results) : List Path → Desk × Results × PassEnd
  | [] => (d, collected, .complete)
  | p :: others =>
    match d.checkFile collected p with
    | (d, collected, .complete) => d.checkAll collected others
    | (d, collected, ended) => (d, collected, ended)

/-- Prints the report, and the counts on the error stream if there is anything to count. -/
def printReport (d : Desk) (collected : Results) : Desk :=
  let lines := (collected.lines d.workspace.root).map Printed.out
  let summary := collected.summary
  d.print (lines ++ if summary = .zero then [] else [.err summary.line])

end SyntaxWatch.Desk
