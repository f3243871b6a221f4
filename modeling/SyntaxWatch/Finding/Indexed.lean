import SyntaxWatch.Finding

/-!
# Findings with an index

`Findings` goes through all its groups to find that of a path. Here the slot of every path is kept in a table
beside the groups, which leads to the group at once. Two things that say the same can get out of step, so there
is an outcome for an index that leads out of the groups: both operations answer none then.
-/

set_option autoImplicit false

namespace SyntaxWatch

structure IndexedFindings where
  groups : List (String × List Finding)
  /-- The slot of every path that has a group, counted from zero. -/
  index : List (String × Nat)
  deriving DecidableEq, Repr

namespace IndexedFindings

def empty : IndexedFindings := ⟨[], []⟩

def slot? (t : IndexedFindings) (path : String) : Option Nat :=
  (t.index.find? fun e => e.1 = path).map Prod.snd

/-- Adds a finding to its group, which is opened at the end when the index has no slot for its path. -/
def push? (t : IndexedFindings) (f : Finding) : Option IndexedFindings :=
  match t.slot? f.path with
  | some slot =>
    if slot < t.groups.length then
      some { t with groups := t.groups.modify slot fun g => (g.1, g.2 ++ [f]) }
    else none
  | none => some ⟨t.groups ++ [(f.path, [f])], t.index ++ [(f.path, t.groups.length)]⟩

/-- The group of a path, if the index has a slot for it. -/
def get? (t : IndexedFindings) (path : String) : Option (Option (List Finding)) :=
  match t.slot? path with
  | some slot => t.groups[slot]?.map fun g => some g.2
  | none => some none

def ofList? (found : List Finding) : Option IndexedFindings := found.foldlM push? empty

end IndexedFindings

end SyntaxWatch
