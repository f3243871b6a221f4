import SyntaxWatch.Collection.Snapshot

/-!
# The collections a host has handed out

A host gives every checker a collection and can be asked for those that are still in use. The shelf
throws disposed collections out when it makes a new one, and only then; since a disposed collection is
never shown, that cannot be seen from outside. Collections are numbered from zero as they are made.
-/

set_option autoImplicit false

namespace SyntaxWatch

/-- The collections that have not been thrown out, with their numbers. -/
structure Shelf where
  made : Nat
  kept : List (Nat × Collection)
  deriving Repr

namespace Shelf

def empty : Shelf := ⟨0, []⟩

def create (s : Shelf) (name : String) : Shelf :=
  ⟨s.made + 1, (s.kept.filter fun k => !k.2.disposed) ++ [(s.made, .new name)]⟩

/-- Changes the collection with a number, if it has not been thrown out. -/
def modify (s : Shelf) (n : Nat) (f : Collection → Collection) : Shelf :=
  { s with kept := s.kept.map fun k => if k.1 = n then (k.1, f k.2) else k }

/-- The collections in use, in the order in which they were made. -/
def live (s : Shelf) : List Collection := (s.kept.map Prod.snd).filter fun c => !c.disposed

end Shelf

/-! ## Questions to the collections in use -/

namespace Collection

/-- The newest of some collections that has a name. -/
def newest? (live : List Collection) (name : String) : Option Collection :=
  live.reverse.find? fun c => c.name = name

def allFor (live : List Collection) (uri : Uri) : List Diagnostic := live.flatMap fun c => c.get uri

end Collection

end SyntaxWatch
