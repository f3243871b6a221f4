import SyntaxWatch.Diagnostic
import SyntaxWatch.Document
import SyntaxWatch.Target

/-!
# Placing findings in a document

The numbers of a finding are those of the text the checker saw. They may be trusted in the document
when that text was the document's own buffer, or when the document has no unsaved edits; a diagnostic
then covers the whole word at its anchor. Otherwise it keeps to the one character that was named.
-/

set_option autoImplicit false

namespace SyntaxWatch.Diagnostic

/-- Whether findings for a target may be widened to words of the document. -/
def trusts (target : Target) (document : Document) : Bool := target.isBuffer || !document.dirty

/-- The range of a finding in the document that was found for it, if one was. -/
def placedRange (target : Target) (document : Option Document) (f : Finding) : Range :=
  match document with
  | some d => if trusts target d then (d.wordRange? f.anchor).getD f.point else f.point
  | none => f.point

def place (findings : List Finding) (source : String) (target : Target) (document : Option Document) :
    List Diagnostic :=
  findings.map fun f => { ofFinding source f with range := placedRange target document f }

end SyntaxWatch.Diagnostic
