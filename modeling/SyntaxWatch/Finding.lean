import SyntaxWatch.Position

/-!
# What a checker prints

A finding is one diagnostic exactly as the checker wrote it: its own path string, its own word for the
severity, and its one-based line and column.

`Findings` groups them by path string. The groups stand in the order in which their paths first
appeared and keep the order of printing inside; nothing is merged. That makes it a view of the list
of findings: `groupsOf`, which only filters, says the same in one line, and is what the incremental
`push` has to agree with.
-/

set_option autoImplicit false

namespace SyntaxWatch

/-- One diagnostic as a checker printed it. -/
structure Finding where
  path : String
  line : UInt32
  column : UInt32
  severity : String
  message : String
  deriving DecidableEq, Repr, Inhabited

namespace Finding

/-- The place it points at, counted from zero; a printed zero counts as a one. -/
def anchor (f : Finding) : Position := ⟨pred32 f.line, pred32 f.column⟩

/-- The one character at the anchor; nothing at all for a column zero. -/
def point (f : Finding) : Range := Range.onLine (pred32 f.line) (pred32 f.column) f.column

end Finding

/-! ## Grouping by path -/

structure Findings where
  groups : List (String × List Finding)
  deriving DecidableEq, Repr

namespace Findings

instance : Inhabited Findings := ⟨⟨[]⟩⟩

def empty : Findings := ⟨[]⟩

/-- Which group a path has, counted from zero. -/
def slot? (fs : Findings) (path : String) : Option Nat :=
  fs.groups.findIdx? fun g => g.1 = path

/-- Adds a finding to its group, which is opened at the end when it is the first of its path. -/
def push (fs : Findings) (f : Finding) : Findings :=
  match fs.slot? f.path with
  | some i => ⟨fs.groups.modify i fun g => (g.1, g.2 ++ [f])⟩
  | none => ⟨fs.groups ++ [(f.path, [f])]⟩

/-- The group of a path; absent when nothing was found there. -/
def get? (fs : Findings) (path : String) : Option (List Finding) :=
  (fs.slot? path).bind fun i => fs.groups[i]?.map Prod.snd

def toList (fs : Findings) : List Finding := fs.groups.flatMap Prod.snd

def fileCount (fs : Findings) : Nat := fs.groups.length

def totalCount (fs : Findings) : Nat := fs.toList.length

def isEmpty (fs : Findings) : Bool := fs.groups.isEmpty

def ofList (found : List Finding) : Findings := found.foldl push empty

/-- The paths of a list of findings, each where it first appears. -/
def pathsOf (found : List Finding) : List String :=
  found.foldl (fun seen f => if f.path ∈ seen then seen else seen ++ [f.path]) []

/-- The grouping said by filtering: each path with the findings that have it. -/
def groupsOf (found : List Finding) : List (String × List Finding) :=
  (pathsOf found).map fun p => (p, found.filter fun f => f.path = p)

end Findings

end SyntaxWatch
