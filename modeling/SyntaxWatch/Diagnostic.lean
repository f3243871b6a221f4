import SyntaxWatch.Finding
import SyntaxWatch.Path
import SyntaxWatch.Severity

/-!
# A diagnostic, ready to be shown

A finding becomes a diagnostic when its path has been resolved: it then has a range in the document,
a grade instead of a word, and the name of the checker it comes from. `ofFinding` puts it on the one
character the checker named; `place` may widen that to a word.
-/

set_option autoImplicit false

namespace SyntaxWatch

structure Diagnostic where
  range : Range
  message : String
  severity : Severity
  source : String
  deriving DecidableEq, Repr, Inhabited

namespace Diagnostic

/-- The diagnostic of a finding at the very character that it names. -/
def ofFinding (source : String) (f : Finding) : Diagnostic :=
  ⟨f.point, f.message, Severity.ofWord f.severity, source⟩

/-- The line on which a diagnostic is reported; line and column count from one, in 32 bits. -/
def line (d : Diagnostic) (path : Path) : String :=
  path.text ++ ":" ++ toString (d.range.start.line + 1).toNat ++ ":"
    ++ toString (d.range.start.character + 1).toNat ++ ": " ++ d.severity.label ++ ": [" ++ d.source
    ++ "] " ++ d.message

end Diagnostic

end SyntaxWatch
