import SyntaxWatch.Text.Blank
import SyntaxWatch.Text.Lowercase

/-!
# How bad a diagnostic is

Three grades. A checker's own word for it is read without regard to case and to white space around
it, and every word that names neither an error nor a warning is information.
-/

set_option autoImplicit false

namespace SyntaxWatch

/-- The grade of a diagnostic, the worst first. -/
inductive Severity where
  | error
  | warning
  | info
  deriving DecidableEq, Repr, Inhabited

namespace Severity

/-- The grade that a checker's word stands for. -/
def ofWord (word : String) : Severity :=
  let plain := String.ofList (Text.lower (Text.trimBlanks word.toList))
  if plain = "error" ∨ plain = "fatal error" then error
  else if plain = "warning" then warning
  else info

def isError (s : Severity) : Bool := s == error

def label : Severity → String
  | error => "error"
  | warning => "warning"
  | info => "info"

/-- One for the worst grade, three for the mildest. -/
def rank : Severity → Nat
  | error => 1
  | warning => 2
  | info => 3

/-- The grade reported as `label`; information where the word is none of the three. -/
def ofLabel (word : String) : Severity :=
  if word = "error" then error else if word = "warning" then warning else info

theorem ofLabel_label (s : Severity) : ofLabel s.label = s := by
  cases s <;> simp [ofLabel, label]

end Severity

end SyntaxWatch
