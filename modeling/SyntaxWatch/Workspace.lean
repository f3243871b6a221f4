import SyntaxWatch.Diagnostic
import SyntaxWatch.Document
import SyntaxWatch.FileTree
import SyntaxWatch.Text.Lowercase

/-!
# Documents that are files

A workspace reads its documents from files and keeps those that it was told to load, one for each URI. A
document that is loaded again keeps its place and its language and gets the file's present text; if the
file cannot be read, nothing changes. A document that is only looked up is read afresh every time and
not kept.
-/

set_option autoImplicit false

namespace SyntaxWatch

/-! ## 1. Errors -/

inductive LoadError where
  | noUri (e : Uri.PathError)
  | unreadable (path : Path) (cause : FileError)
  deriving DecidableEq, Repr

namespace LoadError

/-- What went wrong. -/
def message : LoadError → String
  | noUri e => e.message
  | unreadable path _ => "failed to read " ++ path.text

/-- Why it went wrong, where there is a reason beneath. -/
def cause : LoadError → Option String
  | noUri _ => none
  | unreadable _ cause => some cause.message

def fullMessage (e : LoadError) : String :=
  match e.cause with
  | some cause => e.message ++ ": " ++ cause
  | none => e.message

end LoadError

inductive LookupError where
  | notAFile (uri : Uri)
  | unreadable (uri : Uri) (cause : FileError)
  deriving DecidableEq, Repr

namespace LookupError

def message : LookupError → String
  | notAFile uri => "cannot open document " ++ uri.text ++ ": not a file URI"
  | unreadable uri cause => "cannot open document " ++ uri.text ++ ": " ++ cause.message

end LookupError

/-! ## 2. The workspace -/

/-- The directory that is checked, and the documents loaded so far. -/
structure Workspace where
  root : Path
  /-- The language of every document, when it does not go by the file's extension. -/
  language : Option String
  documents : Documents
  deriving Repr

namespace Workspace

def new (root : Path) (language : Option String) : Workspace := ⟨root, language, []⟩

/-- The language of files without an extension that is text. -/
def plainLanguage : String := "plaintext"

def languageOf (w : Workspace) (p : Path) : String :=
  match w.language with
  | some language => language
  | none =>
    match p.extension?.bind Text.Utf8.decode? with
    | some extension => String.ofList (Text.lower extension)
    | none => plainLanguage

def number? (w : Workspace) (uri : Uri) : Option Nat := w.documents.findIdx? fun d => d.uri = uri

/-- Loads the file at a path, again if it was loaded before. -/
def load (w : Workspace) (files : FileTree) (p : Path) : Except LoadError (Workspace × DocumentRef) :=
  match Uri.ofPath p with
  | .error e => .error (.noUri e)
  | .ok uri =>
    match files.readText .root p with
    | .error cause => .error (.unreadable p cause)
    | .ok text =>
      match w.number? uri with
      | some n =>
        let language := (w.documents[n]?.map (·.language)).getD ""
        .ok ({ w with documents := w.documents.modify n fun d => { d with text := text } },
          ⟨n, uri, language⟩)
      | none =>
        let language := w.languageOf p
        .ok ({ w with documents := w.documents ++ [.ofText uri language text] },
          ⟨w.documents.length, uri, language⟩)

/-- The document with a URI: the loaded one if there is one, else the file as it is now. -/
def lookUp (w : Workspace) (files : FileTree) (uri : Uri) : Except LookupError Document :=
  match w.documents.find? fun d => d.uri = uri with
  | some d => .ok d
  | none =>
    match uri.toPath? with
    | none => .error (.notAFile uri)
    | some p =>
      match files.readText .root p with
      | .error cause => .error (.unreadable uri cause)
      | .ok text => .ok (.ofText uri (w.languageOf p) text)

/-- The path to show for a URI: what is inside the root is shown from there, and a URI that is no file is
shown as it is. -/
def shownPath (root : Path) (uri : Uri) : Path :=
  match uri.toPath? with
  | some p => (root.relativeTo? p).getD p
  | none => .ofText uri.text

end Workspace

end SyntaxWatch
