import SyntaxWatch.Collection.Shelf
import SyntaxWatch.Workspace

/-!
# The report of a pass over several files

Each run clears its checker's collection, so the results of a pass are copied out after every file. A
result is kept under its collection's place among those in use and its document's URI, and gives way to
a later result with the same key only.

The report has one line for each diagnostic kept. Lines are ordered by path, component by component,
and by the start of the diagnostic; where both agree, they keep the order of the keys, and then that of
the collection's list.
-/

set_option autoImplicit false

namespace SyntaxWatch

/-! ## 1. Results -/

structure ResultKey where
  collection : Nat
  uri : Uri
  deriving DecidableEq, Repr

namespace ResultKey

/-- Keys come by collection, then by URI. -/
def le (a b : ResultKey) : Bool :=
  if a.collection = b.collection then a.uri.le b.uri else decide (a.collection ≤ b.collection)

end ResultKey

/-- The results copied out so far, each key once. -/
structure Results where
  entries : List (ResultKey × List Diagnostic)
  deriving Repr

namespace Results

def empty : Results := ⟨[]⟩

def get? (c : Results) (key : ResultKey) : Option (List Diagnostic) :=
  (c.entries.find? fun r => r.1 = key).map Prod.snd

/-- Keeps a result, in the stead of an earlier one with its key. -/
def keep (c : Results) (key : ResultKey) (items : List Diagnostic) : Results :=
  ⟨(c.entries.filter fun r => r.1 ≠ key) ++ [(key, items)]⟩

/-- The results that the collections in use hold now, each under its key. -/
def held (live : List Collection) : List (ResultKey × List Diagnostic) :=
  (live.zipIdx).flatMap fun (c, i) => c.snapshot.files.map fun (uri, items) => (⟨i, uri⟩, items)

/-- Copies out what the collections in use hold now. -/
def copyFrom (c : Results) (live : List Collection) : Results :=
  (held live).foldl (fun c r => c.keep r.1 r.2) c

def ordered (c : Results) : List (ResultKey × List Diagnostic) :=
  c.entries.mergeSort fun a b => a.1.le b.1

end Results

/-! ## 2. Lines -/

/-- A diagnostic with the path it is shown under. -/
structure ReportRow where
  path : Path
  diagnostic : Diagnostic
  deriving DecidableEq, Repr

namespace ReportRow

/-- Rows come by path, then by the start of the diagnostic. -/
def le (a b : ReportRow) : Bool :=
  if a.path.components = b.path.components then
    a.diagnostic.range.start.le b.diagnostic.range.start
  else a.path.le b.path

def line (r : ReportRow) : String := r.diagnostic.line r.path

end ReportRow

structure Tally where
  errors : Nat
  warnings : Nat
  infos : Nat
  deriving DecidableEq, Repr

namespace Tally

def zero : Tally := ⟨0, 0, 0⟩

def add (s : Tally) : Severity → Tally
  | .error => { s with errors := s.errors + 1 }
  | .warning => { s with warnings := s.warnings + 1 }
  | .info => { s with infos := s.infos + 1 }

def anyError (s : Tally) : Bool := decide (0 < s.errors)

def line (s : Tally) : String :=
  toString s.errors ++ " error(s), " ++ toString s.warnings ++ " warning(s), " ++ toString s.infos
    ++ " info"

end Tally

namespace Results

/-- The rows before they are ordered by path: by key, then as the collection listed them. -/
def rows (c : Results) (root : Path) : List ReportRow :=
  c.ordered.flatMap fun (key, items) =>
    items.map fun d => ⟨Workspace.shownPath root key.uri, d⟩

def sortedRows (c : Results) (root : Path) : List ReportRow := (c.rows root).mergeSort ReportRow.le

def lines (c : Results) (root : Path) : List String := (c.sortedRows root).map ReportRow.line

def summary (c : Results) : Tally :=
  (c.ordered.flatMap Prod.snd).foldl (fun s d => s.add d.severity) .zero

end Results

/-! ## 3. One document -/

/-- What some collections report for a document now, in the order of the text. -/
def linesFor (live : List Collection) (root : Path) (uri : Uri) : List String :=
  let path := Workspace.shownPath root uri
  ((Collection.allFor live uri).mergeSort fun a b => a.range.le b.range).map fun d => d.line path

end SyntaxWatch
