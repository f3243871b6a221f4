import SyntaxWatch.FileTree
import SyntaxWatch.Uri

/-!
# What a checker reports about its runs

Events tell a host how the runs of a checker go. They pass through a queue of bounded length, which
never makes a checker wait: an event that finds the queue full is lost.
-/

set_option autoImplicit false

namespace SyntaxWatch

/-! ## 1. Failures -/

inductive RunFailure where
  | notFound (command : String)
  /-- The program is there but could not be started where it was to run. -/
  | launch (command : String) (cause : FileError)
  | aborted
  deriving DecidableEq, Repr

namespace RunFailure

def message : RunFailure → String
  | notFound command => command ++ " not found: cannot find binary path"
  | launch command cause => "failed to launch " ++ command ++ ": " ++ cause.message
  | aborted => "run task aborted"

end RunFailure

/-! ## 2. Events -/

inductive Event where
  | started (token : Nat) (uri : Uri)
  /-- The diagnostics of one document have been written. -/
  | published (uri : Uri) (count : Nat)
  /-- Every document of the run has been written. -/
  | settled (token : Nat)
  /-- The run ended after a newer one had begun, and its output was dropped. -/
  | discarded (token : Nat)
  | failed (token : Nat) (failure : RunFailure)
  deriving DecidableEq, Repr

namespace Event

/-- Whether an event ends a run that was waited for. -/
def isTerminal : Event → Bool
  | settled _ => true
  | failed _ _ => true
  | _ => false

end Event

/-- An event with the name of the checker it comes from. -/
structure Notice where
  checker : String
  event : Event
  deriving DecidableEq, Repr

/-! ## 3. The queue -/

structure EventQueue where
  capacity : Nat
  waiting : List Notice
  deriving Repr

namespace EventQueue

def empty (capacity : Nat) : EventQueue := ⟨capacity, []⟩

/-- Puts an event at the end, if there is room. -/
def offer (q : EventQueue) (n : Notice) : EventQueue :=
  if q.waiting.length < q.capacity then { q with waiting := q.waiting ++ [n] } else q

/-- Takes up to so many events off the front. -/
def take (q : EventQueue) (budget : Nat) : List Notice × EventQueue :=
  (q.waiting.take budget, { q with waiting := q.waiting.drop budget })

end EventQueue

end SyntaxWatch
