import SyntaxWatch.FileTree
import SyntaxWatch.Settings.Gathering
import SyntaxWatch.Toml.Document

/-!
# The configuration file

A configuration is one TOML document whose top table holds the settings, among other things. It is named
explicitly, or by the environment, or else it is the file in the user's own directory; only when it is not
named explicitly may it be missing.
-/

set_option autoImplicit false

namespace SyntaxWatch

inductive ConfigError where
  | unreadable (path : Path) (cause : FileError)
  | malformed (path : Path)
  deriving DecidableEq, Repr

namespace ConfigError

def path : ConfigError → Path
  | unreadable path _ => path
  | malformed path => path

def message : ConfigError → String
  | unreadable path cause => "failed to read config at " ++ path.text ++ ": " ++ cause.message
  | malformed path => "failed to parse config at " ++ path.text

def cause : ConfigError → String
  | unreadable _ cause => cause.message
  | malformed _ => "not a configuration"

end ConfigError

structure Environment where
  home : Path
  /-- The home directory of the user's account, for want of another. -/
  accountHome : Path
  /-- The file that is named by the environment. -/
  named : Option String
  deriving DecidableEq, Repr

namespace Environment

/-- The user's own directory for the program. -/
def dataDirectory (e : Environment) : Path :=
  (if e.home.bytes = [] then e.accountHome else e.home).join (.ofText ".syncheck")

/-- The configuration file that is used unless one is named explicitly. An empty name is no name. -/
def configFile (e : Environment) : Path :=
  match e.named with
  | some name => if name = "" then e.dataDirectory.join (.ofText "config.toml") else .ofText name
  | none => e.dataDirectory.join (.ofText "config.toml")

end Environment

namespace ConfigFile

def settings? (text : String) : Option Settings :=
  (Toml.parse? text.toList).bind Settings.gather?

/-- The settings in a file, whose path may be relative to a working directory. -/
def read (files : FileTree) (directory path : Path) : Except ConfigError Settings :=
  match files.readText directory path with
  | .error cause => .error (.unreadable path cause)
  | .ok text =>
    match settings? text with
    | some s => .ok s
    | none => .error (.malformed path)

/-- The settings that are used unless a file is named explicitly; none when there is no such file. -/
def readDefault (files : FileTree) (directory : Path) (e : Environment) : Except ConfigError (Option Settings) :=
  if files.exists? directory e.configFile then
    (read files directory e.configFile).map some
  else .ok none

end ConfigFile

end SyntaxWatch
