import SyntaxWatch.Text.Blank
import SyntaxWatch.Text.Lowercase

/-!
# Which checkers there are

`Settings` are what a configuration says: one delay, and an entry per checker. A `CheckerProfile` is an
entry made ready: the argument that tells a checker to read its standard input is appended, and the
language ids are lower-cased, sorted, and each kept once. Entries whose command is blank are left out.
-/

set_option autoImplicit false

namespace SyntaxWatch

structure CheckerEntry where
  command : String
  displayName : String
  arguments : List String
  languageIds : List String
  deriving DecidableEq, Repr, Inhabited

/-- The configuration of all checkers: how long to wait after an edit, in milliseconds, and whom to
run. -/
structure Settings where
  delay : Nat
  checkers : List CheckerEntry
  deriving DecidableEq, Repr

namespace Settings

/-- How long to wait where the configuration does not say. -/
def defaultDelay : Nat := 500

def empty : Settings := ⟨defaultDelay, []⟩

instance : Inhabited Settings := ⟨empty⟩

end Settings

/-! ## Ready to run -/

/-- The argument that tells a checker to read the document from its standard input. -/
def stdinArgument : String := "-"

/-- A language id as it is compared. -/
def languageKey (id : String) : String := String.ofList (Text.lower id.toList)

/-- Puts a text into a rising list, unless it is there. -/
def insertOnce (x : String) : List String → List String
  | [] => [x]
  | y :: ys => if x = y then y :: ys else if x < y then x :: y :: ys else y :: insertOnce x ys

/-- The texts of a list in rising order, each once. -/
def sortedOnce (xs : List String) : List String := xs.foldr insertOnce []

structure CheckerProfile where
  command : String
  displayName : String
  arguments : List String
  languageIds : List String
  deriving DecidableEq, Repr, Inhabited

namespace CheckerProfile

def ofEntry (e : CheckerEntry) : CheckerProfile :=
  ⟨e.command, e.displayName, e.arguments ++ [stdinArgument], sortedOnce (e.languageIds.map languageKey)⟩

def covers (c : CheckerProfile) (language : String) : Bool :=
  c.languageIds.contains (languageKey language)

end CheckerProfile

namespace Settings

/-- Whether an entry has a command at all. -/
def runnable (e : CheckerEntry) : Bool := !(Text.trimBlanks e.command.toList).isEmpty

/-- The checkers to run, in the order of their entries. -/
def profiles (s : Settings) : List CheckerProfile :=
  (s.checkers.filter runnable).map CheckerProfile.ofEntry

end Settings

end SyntaxWatch
