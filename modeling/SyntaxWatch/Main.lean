import SyntaxWatch.Command

/-!
# The command in a terminal

The command itself is a function of the files it finds (`Command.run`), so all that is left to do here is
to fetch those files, to print what it prints, and to hand over its exit status. Which files it may look at
follows from its arguments and from the texts to be checked, since the programs at hand print no more than
what they are given.

While the command watches, the files are fetched again at every tick. What has changed is what the user
did, so the same command is run once more with that action added to the earlier ones, and the lines that
are new are printed: what it printed before, it prints again.
-/

set_option autoImplicit false

namespace SyntaxWatch.Terminal

/-! ## 1. Files -/

/-- What stands at a path: the bytes of a file, a directory, or nothing that can be read. -/
inductive Sight where
  | nothing
  | directory
  | file (bytes : List UInt8)
  deriving DecidableEq

def look (p : Path) : IO Sight := do
  match ← (IO.FS.readBinFile p.text).toBaseIO with
  | .ok bytes => return .file bytes.toList
  | .error (.inappropriateType ..) => return .directory
  | .error _ => return .nothing

def lookAll (paths : List Path) : IO (List (Path × Sight)) :=
  paths.mapM fun p => do return (p, ← look p)

/-- The tree of everything seen. -/
def tree (seen : List (Path × Sight)) : FileTree :=
  seen.foldl
    (fun t (p, sight) =>
      match sight with
      | .nothing => t
      | .directory => ((t.makeDirectory p).map Prod.fst).getD t
      | .file bytes => t.write p bytes)
    .empty

/-- The changes that lead from what was seen before to what is seen now. -/
def changes (before now : List (Path × Sight)) : FileTree.Changes :=
  (before.zip now).filterMap fun ((p, old), (_, new)) =>
    if old = new then none
    else
      match new with
      | .file bytes => some (p, some bytes)
      | _ => some (p, none)

/-! ## 2. Which files -/

/-- The paths that a command line names: the root, the configuration, and the files to check. -/
def named (directory : Path) (e : Environment) (o : Options) : List Path :=
  Path.absoluteFrom directory (.ofText (o.root.getD "."))
    :: directory.join ((o.config.map Path.ofText).getD e.configFile)
    :: o.files.map fun name => Path.absoluteFrom directory (.ofText name)

/-- The paths that the programs at hand may print when they are given a text. -/
def mentioned (root : Path) (bytes : List UInt8) : List Path :=
  let text := String.ofList (Text.Utf8.decodeLossy bytes)
  [Tool.echo, Tool.upper].flatMap fun tool =>
    (tool.findings text).groups.map fun group => Target.fullPath root group.1

/-- Looks at the paths that a command line names and at those that the files there mention. -/
def survey (directory : Path) (e : Environment) (o : Options) : IO (List (Path × Sight)) := do
  let root := Path.absoluteFrom directory (.ofText (o.root.getD "."))
  let first ← lookAll (named directory e o)
  let more := first.flatMap fun (_, sight) =>
    match sight with
    | .file bytes => mentioned root bytes
    | _ => []
  return first ++ (← lookAll (more.filter fun p => first.all fun seen => seen.1 ≠ p).eraseDups)

/-! ## 3. Lines -/

def printAll (lines : List Printed) : IO Unit := do
  lines.forM fun
    | .out line => IO.println line
    | .err line => IO.eprintln line
  (← IO.getStdout).flush

/-- Makes the log file that the command opened. -/
def keepLog (m : Machine) (ended : Exit) : IO Unit :=
  (Command.logFiles m.directory m.environment).forM fun p => do
    if ended.files.isFile .root p then
      try
        IO.FS.createDirAll p.parent.text
        let _ ← IO.FS.Handle.mk p.text .append
      catch _ => pure ()

/-! ## 4. Watching -/

/-- An interrupt that comes when nothing else happens any more. -/
def lastAction : UserAction := ⟨1000000, none⟩

/-- Goes on watching: prints what the latest action has brought about, and waits for the next. -/
partial def keepWatching (m : Machine) (arguments : List String) (o : Options)
    (seen : List (Path × Sight)) (shown : List Printed) : IO Unit := do
  IO.sleep 500
  let now ← lookAll (seen.map Prod.fst)
  match changes seen now with
  | [] => keepWatching m arguments o seen shown
  | changed =>
    let m := { m with actions := m.actions ++ [⟨(shown.flatMap Printed.errorLines).length, some changed⟩] }
    let ended := Command.run { m with actions := m.actions ++ [lastAction] } arguments
    printAll (ended.printed.drop shown.length)
    keepWatching m arguments o now ended.printed

end SyntaxWatch.Terminal

open SyntaxWatch in
/-- Runs the command on the arguments and the files of this machine. -/
def main (arguments : List String) : IO UInt32 := do
  let directory : Path := .ofText (← IO.currentDir).toString
  -- the home of the account is not asked for, so the root stands for it
  let environment : Environment := ⟨.ofText ((← IO.getEnv "HOME").getD ""), .root, ← IO.getEnv "SYNCHECK_CONFIG"⟩
  let seen ← match CommandLine.parse arguments with
    | .run o => Terminal.survey directory environment o
    | _ => pure []
  let machine : Machine := ⟨Terminal.tree seen, directory, environment, [], Program.outcome⟩
  let ended := Command.run { machine with actions := [Terminal.lastAction] } arguments
  Terminal.keepLog machine ended
  Terminal.printAll ended.printed
  match CommandLine.parse arguments, ended.status with
  | .run o, some 0 =>
    if o.watch then Terminal.keepWatching machine arguments o seen ended.printed
    return 0
  | _, status => return UInt32.ofNat (status.getD 1)
