import SyntaxWatch.Collection

/-!
# A collection as it is shown

The documents that have an error come first, and within both halves they come by URI. Every count is
taken from what is shown; none is kept beside it. Since each document stands in a collection once,
the order leaves nothing open, so equal contents are shown alike whatever was written when.
-/

set_option autoImplicit false

namespace SyntaxWatch

/-- The documents of a collection with their diagnostics, in the order of showing. -/
structure Snapshot where
  files : List (Uri × List Diagnostic)
  deriving DecidableEq, Repr

namespace Snapshot

def hasError (file : Uri × List Diagnostic) : Bool := file.2.any (·.severity.isError)

/-- Documents with errors stand before those without; among equals the URI decides. -/
def le (a b : Uri × List Diagnostic) : Bool :=
  if hasError a = hasError b then a.1.le b.1 else hasError a

def isEmpty (s : Snapshot) : Bool := s.files.isEmpty

def diagnostics (s : Snapshot) : List Diagnostic := s.files.flatMap Prod.snd

def count (s : Snapshot) (grade : Severity) : Nat := s.diagnostics.countP fun d => d.severity == grade

def totalCount (s : Snapshot) : Nat := s.diagnostics.length

/-- A short summary such as `E:3 W:5`; nothing at all when nothing is held. -/
def status (s : Snapshot) : String :=
  if s.isEmpty then ""
  else "E:" ++ toString (s.count .error) ++ " W:" ++ toString (s.count .warning)

end Snapshot

def Collection.snapshot (c : Collection) : Snapshot := ⟨c.entries.mergeSort Snapshot.le⟩

end SyntaxWatch
