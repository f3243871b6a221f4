import SyntaxWatch.Command.Pass
import SyntaxWatch.Command.Watch
import SyntaxWatch.CommandLine

/-!
# The command as a whole

From the arguments, the files and the environment to the lines printed and the exit status. The status is
zero when no error was reported, one when one was or when the command failed, two for wrong arguments, and
130 for an interrupt in the middle of a pass, as shells have it.

Before anything else a log file is opened: in the user's own directory, or else below the working
directory. If neither can be opened there is no log.
-/

set_option autoImplicit false

namespace SyntaxWatch

structure Machine where
  files : FileTree
  directory : Path
  environment : Environment
  actions : List UserAction
  runs : FileTree → Path → Launch → RunOutcome

/-- What the command leaves. There is no exit status if it never ends. -/
structure Exit where
  printed : List Printed
  status : Option Nat
  files : FileTree

namespace Command

/-! ## 1. The log -/

/-- The files for the log, in the order in which they are tried. -/
def logFiles (directory : Path) (e : Environment) : List Path :=
  [directory.join e.dataDirectory, directory.join (.ofText ".syncheck")].map fun d =>
    d.join (.ofText "logs/syncheck.log")

/-- Opens a log file, making the directories that lead to it; those that could be made stay even if the
file cannot be opened. -/
def openAt (files : FileTree) (p : Path) : FileTree × Bool :=
  match files.makeDirectory p.parent with
  | none => (files, false)
  | some (made, _) =>
    match made.openForAppend p with
    | some opened => (opened, true)
    | none => (made, false)

/-- Opens the first log file that can be opened. -/
def openLog (files : FileTree) : List Path → FileTree
  | [] => files
  | p :: others =>
    match openAt files p with
    | (files, true) => files
    | (files, false) => openLog files others

/-! ## 2. Starting -/

def settings (m : Machine) (files : FileTree) (o : Options) : Except ConfigError Settings :=
  match o.config with
  | some name => ConfigFile.read files m.directory (.ofText name)
  | none => (ConfigFile.readDefault files m.directory m.environment).map fun s => s.getD .empty

/-- How many announcements a listener can be behind. -/
def feedCapacity : Nat := 64

def desk (m : Machine) (files : FileTree) (o : Options) (s : Settings) : Desk :=
  let root := Path.absoluteFrom m.directory (.ofText (o.root.getD "."))
  let engine := (Engine.idle root feedCapacity).start none s
  let d : Desk := ⟨files, m.runs, .new root o.language, engine, [], [], [], m.actions⟩
  if engine.present = [] then d.print [.err "warning: no checkers configured"] else d

/-! ## 3. From start to end -/

/-- How many steps a vigil may take for each thing that the user does. -/
def vigilSteps : Nat := 1000

/-- What is left to do after a complete pass. -/
def afterPass (m : Machine) (o : Options) (paths : List Path) (d : Desk) (collected : Results) : Exit :=
  let d := d.printReport collected
  if o.watch then
    let configFile := (o.config.map Path.ofText).getD m.environment.configFile
    let (d, v) := d.beginVigil m.directory configFile paths
    let (d, interrupted) := d.watch ((d.actions.length + 1) * vigilSteps) v
    ⟨d.printed, if interrupted then some 0 else none, d.files⟩
  else ⟨d.printed, some (if collected.summary.anyError then 1 else 0), d.files⟩

/-- Runs the command with options that are in order. -/
def runWith (m : Machine) (files : FileTree) (o : Options) : Exit :=
  match settings m files o with
  | .error e => ⟨Desk.fatal e.message (some e.cause), some 1, files⟩
  | .ok s =>
    let paths := o.files.map fun name => Path.absoluteFrom m.directory (.ofText name)
    match (desk m files o s).checkAll .empty paths with
    | (d, collected, .complete) => afterPass m o paths d collected
    | (d, _, .interrupted) => ⟨d.printed, some 130, d.files⟩
    | (d, _, .failed e) => ⟨d.printed ++ Desk.fatal e.message e.cause, some 1, d.files⟩
    | (d, _, .stuck) => ⟨d.printed, none, d.files⟩

def run (m : Machine) (arguments : List String) : Exit :=
  let files := openLog m.files (logFiles m.directory m.environment)
  match CommandLine.parse arguments with
  | .version => ⟨[.out CommandLine.versionLine], some 0, files⟩
  | .help => ⟨CommandLine.helpLines.map .out, some 0, files⟩
  | .usage => ⟨[.err "error: wrong arguments; try '--help'"], some 2, files⟩
  | .run o => runWith m files o

end Command

end SyntaxWatch
