/-!
# The command line

```text
[--config PATH] [--root DIR] [--language ID] [--watch] FILE...
```

Arguments are read from left to right, and the first that is wrong, or that asks for the version or for
help, decides. An option is given once; its value is the next argument, which must not look like an option,
or follows an equals sign. After `--` every argument is a file. A path must not be empty.
-/

set_option autoImplicit false

namespace SyntaxWatch

structure Options where
  config : Option String
  root : Option String
  language : Option String
  watch : Bool
  files : List String
  deriving DecidableEq, Repr

inductive Invocation where
  | run (options : Options)
  | version
  | help
  | usage
  deriving DecidableEq, Repr

namespace CommandLine

/-- The options that take a value. -/
inductive Setting where
  | config
  | root
  | language
  deriving DecidableEq, Repr

namespace Setting

def ofName? : String → Option Setting
  | "config" => some config
  | "root" => some root
  | "language" => some language
  | _ => none

/-- Gives the option its value; none when it has one, or when an empty path is given. -/
def assign? (s : Setting) (o : Options) (value : String) : Option Options :=
  match s with
  | config => if o.config.isSome || value.isEmpty then none else some { o with config := some value }
  | root => if o.root.isSome || value.isEmpty then none else some { o with root := some value }
  | language => if o.language.isSome then none else some { o with language := some value }

end Setting

inductive Argument where
  | file
  /-- From here on all are files. -/
  | onlyFiles
  | version
  | help
  | watch
  /-- An option, with its value if the value is in the same argument. -/
  | setting (s : Setting) (value : Option String)
  | wrong
  deriving DecidableEq, Repr

namespace Argument

/-- What an argument is that begins with two minus signs, these left out. -/
def ofLong (text : List Char) : Argument :=
  let name := String.ofList (text.takeWhile (· ≠ '='))
  match text.dropWhile (· ≠ '=') with
  | '=' :: value =>
    match Setting.ofName? name with
    | some s => setting s (some (String.ofList value))
    | none => wrong
  | _ =>
    match name with
    | "" => onlyFiles
    | "version" => version
    | "help" => help
    | "watch" => watch
    | _ =>
      match Setting.ofName? name with
      | some s => setting s none
      | none => wrong

/-- What an argument is. A lone minus is a file. -/
def ofText (text : String) : Argument :=
  match text.toList with
  | ['-'] => file
  | '-' :: '-' :: rest => ofLong rest
  | '-' :: 'V' :: _ => version
  | '-' :: 'h' :: _ => help
  | '-' :: _ => wrong
  | _ => file

end Argument

/-- Adds files; none when a name is empty. -/
def addFiles (o : Options) (names : List String) : Option Options :=
  if names.any String.isEmpty then none else some { o with files := o.files ++ names }

/-- The end of the arguments: there must be a file. -/
def finish (o : Options) : Invocation := if o.files.isEmpty then .usage else .run o

def read (o : Options) : List String → Invocation
  | [] => finish o
  | argument :: others =>
    match Argument.ofText argument with
    | .file =>
      match addFiles o [argument] with
      | some o => read o others
      | none => .usage
    | .onlyFiles =>
      match addFiles o others with
      | some o => finish o
      | none => .usage
    | .version => .version
    | .help => .help
    | .watch => if o.watch then .usage else read { o with watch := true } others
    | .setting s (some value) =>
      match s.assign? o value with
      | some o => read o others
      | none => .usage
    | .setting s none =>
      match others with
      | [] => .usage
      | value :: rest =>
        if Argument.ofText value = .file then
          match s.assign? o value with
          | some o => read o rest
          | none => .usage
        else .usage
    | .wrong => .usage

def parse (arguments : List String) : Invocation := read ⟨none, none, none, false, []⟩ arguments

def versionLine : String := "syncheck 0.0.0"

def helpLines : List String :=
  ["Run external syntax checkers over files and report their diagnostics",
    "",
    "Usage: syncheck [OPTIONS] <FILE>...",
    "",
    "Arguments:",
    "  <FILE>...  ",
    "",
    "Options:",
    "      --config <PATH>  Configuration file (default: $SYNCHECK_CONFIG or ~/.syncheck/config.toml)",
    "      --root <DIR>     Working directory for checkers and base for relative paths they print",
    "      --language <ID>  Language id for every file (default: the file extension)",
    "      --watch          Keep running and re-check files when they or the configuration change",
    "  -h, --help           Print help",
    "  -V, --version        Print version"]

end CommandLine

end SyntaxWatch
