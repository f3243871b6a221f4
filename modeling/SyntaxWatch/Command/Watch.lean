import SyntaxWatch.Command.Desk
import SyntaxWatch.ConfigFile

/-!
# Watching the files

After a pass the command may go on: twice a second it looks at the stamps of the files and of the
configuration. A file that has changed is announced. A configuration that has changed replaces all checkers,
and every file is announced; one that cannot be read leaves the checkers as they are.

What checkers report meanwhile is printed at once: the diagnostics of a document when they are published,
and the state of a collection when a run is settled.
-/

set_option autoImplicit false

namespace SyntaxWatch

/-- What is being watched, and how it looked last. -/
structure Vigil where
  directory : Path
  configFile : Path
  configStamp : Option Nat
  files : List (Path × Option Nat)
  nextTick : Nat
  /-- For how many ticks nothing has been printed. -/
  quiet : Nat
  deriving Repr

namespace Desk

def tickPeriod : Nat := 500

/-- For how many quiet ticks the user waits for lines that do not come. -/
def patience : Nat := 40

def tell (d : Desk) (n : Notice) : Desk :=
  match n.event with
  | .published uri _ => d.print ((linesFor d.engine.liveCollections d.workspace.root uri).map .out)
  | .settled _ =>
    let status :=
      ((Collection.newest? d.engine.liveCollections n.checker).map fun c => c.snapshot.status).getD ""
    d.print [.err ("[" ++ n.checker ++ "] " ++ if status = "" then "clean" else status)]
  | _ => d

/-- Loads a file again and announces it, or warns that it cannot be read. -/
def reopen (d : Desk) (p : Path) : Desk :=
  match d.open? p with
  | .ok d => d
  | .error e => d.print [.err ("warning: " ++ e.fullMessage)]

/-- Replaces the checkers by those of the configuration file, and announces every file. -/
def reconfigure (d : Desk) (v : Vigil) : Desk :=
  match ConfigFile.read d.files v.directory v.configFile with
  | .error e => d.print [.err ("warning: keeping previous configuration: " ++ e.message)]
  | .ok settings =>
    let d := { d with engine := d.engine.reload none settings }
    let d := d.print
      [.err ("configuration reloaded: " ++ toString d.engine.present.length ++ " checker(s)")]
    v.files.foldl (fun d f => d.reopen f.1) d

/-- Looks at the stamps of the files, and announces those that have changed. -/
def lookAtFiles (d : Desk) : List (Path × Option Nat) → Desk × List (Path × Option Nat)
  | [] => (d, [])
  | (p, stamp) :: others =>
    let now := d.files.stamp? .root p
    let d := if now = stamp then d else d.reopen p
    let (d, rest) := d.lookAtFiles others
    (d, (p, now) :: rest)

def tick (d : Desk) (v : Vigil) : Desk × Vigil :=
  let stamp := d.files.stamp? v.directory v.configFile
  -- the configuration comes first, so that a changed file is announced to the new checkers
  let d := if stamp = v.configStamp then d else d.reconfigure v
  let (d, files) := d.lookAtFiles v.files
  (d.settle tell, { v with configStamp := stamp, files := files, nextTick := v.nextTick + tickPeriod })

def beginVigil (d : Desk) (directory configFile : Path) (files : List Path) : Desk × Vigil :=
  (d.print [.err ("watching " ++ toString files.length ++ " file(s); press Ctrl-C to stop")],
    ⟨directory, configFile, d.files.stamp? directory configFile,
      files.map fun p => (p, d.files.stamp? .root p), d.engine.now, 0⟩)

/-- Goes on to the next moment at which there is something to do. -/
def proceed (d : Desk) (v : Vigil) : Desk × Vigil :=
  let t := Nat.min v.nextTick (d.nextDue?.getD v.nextTick)
  let after := d.goTo tell t
  let (after, v) := if v.nextTick ≤ t then after.tick { v with quiet := v.quiet + 1 } else (after, v)
  (after, if after.printed.length = d.printed.length then v else { v with quiet := 0 })

/-- Watches until the user interrupts, or for at most so many steps. The answer tells whether the user
did. -/
def watch : Nat → Desk → Vigil → Desk × Bool
  | 0, d, _ => (d, false)
  | n + 1, d, v =>
    match d.actions with
    | [] => (d, false)
    | a :: others =>
      if a.await ≤ d.errorLines ∨ patience ≤ v.quiet then
        match a.changes with
        | none => ({ d with actions := others }, true)
        | some changes => watch n ({ d with actions := others }.change changes) { v with quiet := 0 }
      else
        let (d, v) := d.proceed v
        watch n d v

end Desk

end SyntaxWatch
