import SyntaxWatch.Diagnostic
import SyntaxWatch.Uri

/-!
# A collection of diagnostics

Every checker has one collection, which holds the current diagnostics of each document. No document
is held with an empty list: setting one to nothing takes it out. A disposed collection is empty and
stays so; a write to it is ignored, and counted, since nobody should have made it.
-/

set_option autoImplicit false

namespace SyntaxWatch

/-- The diagnostics that one checker currently reports, by document. -/
structure Collection where
  name : String
  entries : List (Uri × List Diagnostic)
  disposed : Bool
  /-- The writes that came after disposal. -/
  lateWrites : Nat
  deriving DecidableEq, Repr, Inhabited

namespace Collection

def new (name : String) : Collection := ⟨name, [], false, 0⟩

/-- What is held for a document; nothing where it is not held. -/
def get (c : Collection) (uri : Uri) : List Diagnostic :=
  ((c.entries.find? fun e => e.1 = uri).map Prod.snd).getD []

def without (entries : List (Uri × List Diagnostic)) (uri : Uri) : List (Uri × List Diagnostic) :=
  entries.filter fun e => e.1 ≠ uri

def set (c : Collection) (uri : Uri) (items : List Diagnostic) : Collection :=
  if c.disposed then { c with lateWrites := c.lateWrites + 1 }
  else if items = [] then { c with entries := without c.entries uri }
  else { c with entries := without c.entries uri ++ [(uri, items)] }

def clear (c : Collection) : Collection := { c with entries := [] }

/-- Lets go of everything for good. -/
def dispose (c : Collection) : Collection := { c with entries := [], disposed := true }

end Collection

end SyntaxWatch
