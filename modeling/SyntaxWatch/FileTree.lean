import SyntaxWatch.Path
import SyntaxWatch.Text.Utf8

/-!
# Files

A tree of directories and files, kept as the list of what stands at each place below the root; a place is
the list of names that lead to it. A path is followed step by step, as an operating system does it: every
step needs a directory to be taken from, so `a.c/..` leads nowhere when `a.c` is a file. A relative path is
taken from a base directory. There are no links.

Every write leaves a stamp on the file that no earlier write left, so that a change can be seen without
reading.
-/

set_option autoImplicit false

namespace SyntaxWatch

/-! ## 1. Errors -/

inductive FileError where
  | notFound
  | notDirectory
  | isDirectory
  | nameTooLong
  /-- A file's name with a NUL byte. -/
  | nulInName
  /-- A NUL byte in something else that is handed to the system. -/
  | nulInData
  | invalidUtf8
  deriving DecidableEq, Repr

namespace FileError

def message : FileError → String
  | notFound => "No such file or directory (os error 2)"
  | notDirectory => "Not a directory (os error 20)"
  | isDirectory => "Is a directory (os error 21)"
  | nameTooLong => "File name too long (os error 36)"
  | nulInName => "file name contained an unexpected NUL byte"
  | nulInData => "nul byte found in provided data"
  | invalidUtf8 => "stream did not contain valid UTF-8"

end FileError

/-! ## 2. The tree -/

/-- The names that lead from the root to a place. -/
abbrev Place := List (List UInt8)

inductive FileNode where
  | directory
  | file (bytes : List UInt8) (stamp : Nat)
  deriving DecidableEq, Repr

/-- All files and directories. The root is a directory without being listed. -/
structure FileTree where
  nodes : List (Place × FileNode)
  writes : Nat
  deriving Repr, Inhabited

namespace FileTree

def empty : FileTree := ⟨[], 0⟩

def at? (t : FileTree) (place : Place) : Option FileNode :=
  if place = [] then some .directory else (t.nodes.find? fun n => n.1 = place).map Prod.snd

/-- The longest name that a file can have, in bytes. -/
def nameLimit : Nat := 255

/-- The longest path that the system takes, in bytes. -/
def pathLimit : Nat := 4095

/-- Takes the steps that the parts of a path spell, from a place where something stands. -/
def follow (t : FileTree) (place : Place) (node : FileNode) :
    List (List UInt8) → Except FileError (Place × FileNode)
  | [] => .ok (place, node)
  | part :: others =>
    match node, Path.stepOf part with
    -- even a part that says nothing needs a directory, so that `a.c/` is no name for a file
    | .file _ _, _ => .error .notDirectory
    | .directory, some .parent => t.follow place.dropLast .directory others
    | .directory, some (.name name) =>
      if nameLimit < name.length then .error .nameTooLong
      else
        match t.at? (place ++ [name]) with
        | some next => t.follow (place ++ [name]) next others
        | none => .error .notFound
    | .directory, _ => t.follow place .directory others

/-- What a path leads to, a relative one being taken from a base directory. The empty path leads nowhere. -/
def resolve (t : FileTree) (base p : Path) : Except FileError (Place × FileNode) :=
  if 0 ∈ p.bytes then .error .nulInName
  else if p.bytes = [] then .error .notFound
  else if pathLimit < p.bytes.length then .error .nameTooLong
  else t.follow [] .directory (base.join p).parts

def exists? (t : FileTree) (base p : Path) : Bool := (t.resolve base p).toOption.isSome

def isFile (t : FileTree) (base p : Path) : Bool :=
  match t.resolve base p with
  | .ok (_, .file _ _) => true
  | _ => false

/-- The text of a file, which has to be UTF-8. -/
def readText (t : FileTree) (base p : Path) : Except FileError String :=
  match t.resolve base p with
  | .error e => .error e
  | .ok (_, .directory) => .error .isDirectory
  | .ok (_, .file bytes _) =>
    match Text.Utf8.decode? bytes with
    | some text => .ok (String.ofList text)
    | none => .error .invalidUtf8

/-- The stamp of what a path leads to; none when it leads to nothing. Directories do not change. -/
def stamp? (t : FileTree) (base p : Path) : Option Nat :=
  match t.resolve base p with
  | .ok (_, .file _ stamp) => some stamp
  | .ok (_, .directory) => some 0
  | .error _ => none

/-- What keeps a program from being started in a directory. -/
def refusal (t : FileTree) (base directory : Path) : Option FileError :=
  match t.resolve base directory with
  | .ok (_, .directory) => none
  | .ok (_, .file _ _) => some .notDirectory
  | .error .nulInName => some .nulInData
  | .error cause => some cause

/-! ## 3. Changes

The paths of these are absolute. -/

/-- Puts something at a place, in the stead of what was there. -/
def put (t : FileTree) (place : Place) (node : FileNode) : FileTree :=
  { t with nodes := (t.nodes.filter fun n => n.1 ≠ place) ++ [(place, node)] }

/-- Goes on from a place by some steps, making the directories that are not there; none when a file is in
the way or a name is too long. -/
def makeWay : List Path.Component → FileTree → Place → Option (FileTree × Place)
  | [], t, place => some (t, place)
  | .parent :: others, t, place => makeWay others t place.dropLast
  | .name name :: others, t, place =>
    let next := place ++ [name]
    match t.at? next with
    | some .directory => makeWay others t next
    | some (.file _ _) => none
    | none => if nameLimit < name.length then none else makeWay others (t.put next .directory) next
  -- the root and a dot lead nowhere else
  | _ :: others, t, place => makeWay others t place

/-- Makes a directory with all that lead to it, and gives its place. -/
def makeDirectory (t : FileTree) (p : Path) : Option (FileTree × Place) := makeWay p.components t []

/-- Writes a file, making the directories that lead to it. Nothing is written in the stead of a directory. -/
def write (t : FileTree) (p : Path) (bytes : List UInt8) : FileTree :=
  match p.fileName?, t.makeDirectory p.parent with
  | some name, some (t, place) =>
    if t.at? (place ++ [name]) = some .directory then t
    else { t with writes := t.writes + 1 }.put (place ++ [name]) (.file bytes (t.writes + 1))
  | _, _ => t

def remove (t : FileTree) (p : Path) : FileTree :=
  match t.resolve .root p with
  | .ok (place, .file _ _) => { t with nodes := t.nodes.filter fun n => n.1 ≠ place }
  | _ => t

/-- A change of files: the paths, each with its new content, or with none when the file is removed. -/
abbrev Changes := List (Path × Option (List UInt8))

def change (t : FileTree) (changes : Changes) : FileTree :=
  changes.foldl
    (fun t c =>
      match c.2 with
      | some bytes => t.write c.1 bytes
      | none => t.remove c.1)
    t

/-- Opens a file for appending, making it where there is none; none when its directory is not there or a
directory stands in its stead. -/
def openForAppend (t : FileTree) (p : Path) : Option FileTree :=
  match t.resolve .root p, t.resolve .root p.parent with
  | .ok (_, .file _ _), _ => some t
  | .error .notFound, .ok (_, .directory) => some (t.write p [])
  | _, _ => none

end FileTree

end SyntaxWatch
