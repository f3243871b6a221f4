import SyntaxWatch.Uri
import SyntaxWatch.Word

/-!
# Documents

A document has a name and a language for good; its text and whether it has unsaved edits change while
checkers look at it. Whoever keeps documents numbers them, and passes a `DocumentRef` around: the
fixed part, and the number under which the changing part is found.
-/

set_option autoImplicit false

namespace SyntaxWatch

/-- What stays the same about a document, and the number it is kept under. -/
structure DocumentRef where
  number : Nat
  uri : Uri
  language : String
  deriving DecidableEq, Repr, Inhabited

/-- A document as it is now. -/
structure Document where
  uri : Uri
  language : String
  text : String
  dirty : Bool
  deriving DecidableEq, Repr, Inhabited

namespace Document

/-- A document without unsaved edits. -/
def ofText (uri : Uri) (language text : String) : Document := ⟨uri, language, text, false⟩

def wordRange? (d : Document) (p : Position) : Option Range := Word.rangeAt? d.text.toList p

end Document

/-- Documents under their numbers: the n-th is the n-th that was ever kept. -/
abbrev Documents := List Document

namespace Documents

def ref? (ds : Documents) (number : Nat) : Option DocumentRef :=
  ds[number]?.map fun d => ⟨number, d.uri, d.language⟩

def textOf (ds : Documents) (r : DocumentRef) : String := (ds[r.number]?.map (·.text)).getD ""

end Documents

end SyntaxWatch
