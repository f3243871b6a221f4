/-!
# When a checker runs, and which run counts

One checker has at most one armed timer and one current run. Every arming gets a new number, and only
the latest may fire; every firing starts a run with a new token, and only the latest run's results
count. Numbers and tokens only grow, so what comes back late is recognised by being old.

```text
idle --arm--> waiting --fire--> running --settle--> idle
                ^  |               |
                +--+ arm again     +--arm--> running and waiting
```

The state machine is pure: whoever holds it owns the timers and the processes.
-/

set_option autoImplicit false

namespace SyntaxWatch

structure RunState where
  /-- The token of the latest run; zero before the first. -/
  token : Nat
  /-- The number of the latest arming; zero before the first. -/
  armings : Nat
  armed : Option Nat
  running : Option Nat
  /-- The files of the current run that are still to be written. -/
  unwritten : Nat
  disposed : Bool
  deriving DecidableEq, Repr, Inhabited

namespace RunState

def fresh : RunState := ⟨0, 0, none, none, 0, false⟩

/-- Arms the timer, whatever was armed before. Refused once disposed. -/
def arm (s : RunState) : RunState × Option Nat :=
  if s.disposed then (s, none)
  else ({ s with armings := s.armings + 1, armed := some (s.armings + 1) }, some (s.armings + 1))

/-- The timer of an arming has run out: a new run starts, unless the arming is not the latest. -/
def fire (s : RunState) (seq : Nat) : RunState × Option Nat :=
  if s.disposed ∨ s.armed ≠ some seq then (s, none)
  else
    ({ s with armed := none, token := s.token + 1, running := some (s.token + 1), unwritten := 0 },
      some (s.token + 1))

def counts (s : RunState) (token : Nat) : Bool := !s.disposed && token == s.token

/-- Ends the current run if no file of it is unwritten, and says whether it did. -/
def settleIfNoneLeft (s : RunState) : RunState × Bool :=
  if s.unwritten = 0 then ({ s with running := none }, true) else (s, false)

/-- The run has finished, with so many files to write; says whether that settles it. -/
def awaitFiles (s : RunState) (token files : Nat) : RunState × Bool :=
  if s.counts token then settleIfNoneLeft { s with unwritten := files } else (s, false)

/-- One file of the run has been written or passed over; says whether it was the last. -/
def fileWritten (s : RunState) (token : Nat) : RunState × Bool :=
  if s.counts token ∧ s.running = some token then
    settleIfNoneLeft { s with unwritten := s.unwritten - 1 }
  else (s, false)

def giveUp (s : RunState) (token : Nat) : RunState :=
  if s.running = some token then { s with running := none, unwritten := 0 } else s

/-- Outdates every run and refuses new ones for ever. -/
def dispose (s : RunState) : RunState :=
  { s with token := s.token + 1, armed := none, running := none, unwritten := 0, disposed := true }

end RunState

end SyntaxWatch
