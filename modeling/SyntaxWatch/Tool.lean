import SyntaxWatch.Event
import SyntaxWatch.Finding.Output
import SyntaxWatch.Text.Blank

/-!
# The programs that checkers run

A checker program gets a document on its standard input and writes to its two output streams; its exit
status means nothing, since checkers commonly fail when they find errors. A `Tool` is what such a
program does with the text, as far as a checker can tell: which bytes come out of which stream, and
what it waits for before it ends.
-/

set_option autoImplicit false

namespace SyntaxWatch

/-- What a program does with the text it is given. -/
inductive Tool where
  | echo
  /-- Prints the text on its error stream. -/
  | complain
  /-- Prints the text with the letters of ASCII in upper case. -/
  | upper
  | deaf
  /-- Waits for the gate that the first line names, then prints the rest. -/
  | gated
  /-- Sleeps for so many milliseconds and prints nothing. -/
  | sleep (ms : Nat)
  deriving DecidableEq, Repr

namespace Tool

/-- The gate that a gated program waits for; an empty name is no gate. -/
def gateOf (text : String) : String := String.ofList (text.toList.takeWhile (· ≠ '\n'))

def behindFirstLine (text : String) : String :=
  String.ofList ((text.toList.dropWhile (· ≠ '\n')).drop 1)

def streams (tool : Tool) (text : String) : String × String :=
  match tool with
  | echo => (text, "")
  | complain => ("", text)
  | upper => (String.ofList (text.toList.map Char.toUpper), "")
  | gated => (behindFirstLine text, "")
  | deaf => ("", "")
  | sleep _ => ("", "")

/-- The reads of one stream: its bytes, if there are any, and its end. -/
def readsOf (channel : Channel) (written : String) : List Read :=
  [⟨channel, Text.Utf8.encode written.toList⟩, ⟨channel, []⟩]

def findings (tool : Tool) (text : String) : Findings :=
  let (output, complaint) := tool.streams text
  .ofReads (readsOf .output output ++ readsOf .complaint complaint)

end Tool

/-- A program that is to be started: the command by which it was named, and what it does if there is
such a program. -/
structure Program where
  command : String
  tool : Option Tool
  deriving DecidableEq, Repr, Inhabited

namespace Program

/-- Whether a run of the program can be started in a directory, given what is wrong with the directory.
The program is sought first. -/
def startIn (p : Program) (refusal : Option FileError) : Except RunFailure Tool :=
  match p.tool, refusal with
  | none, _ => .error (.notFound p.command)
  | some _, some cause => .error (.launch p.command cause)
  | some tool, none => .ok tool

/-! ## The programs at hand -/

/-- What a command of a shell script does, if it is one of the few that matter. -/
def ofShellCommand? (command : List Char) : Option Tool :=
  if command = "cat".toList then some .echo
  else if command = "cat >&2".toList then some .complain
  else if command = "tr a-z A-Z".toList then some .upper
  else if "sleep ".toList.isPrefixOf command then
    (Text.asciiDigits? (command.drop 6)).map fun seconds => .sleep (seconds * 1000)
  else none

/-- What a shell script does: what the first of its commands does that matters. -/
def ofScript (script : String) : Tool :=
  let commands := (Text.pieces ';' script.toList).map Text.trimBlanks
  (commands.findSome? ofShellCommand?).getD .deaf

/-- The program that a command names: `cat`, or a shell with a script. There is no other. -/
def ofCommand (command : String) (arguments : List String) : Program :=
  let tool :=
    match command, arguments with
    | "cat", _ => some .echo
    | "sh", "-c" :: script :: _ => some (ofScript script)
    | "sh", _ => some .deaf
    | _, _ => none
  ⟨command, tool⟩

end Program

end SyntaxWatch
