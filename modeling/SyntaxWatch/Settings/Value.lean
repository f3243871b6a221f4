/-!
# Data that settings are read from

Settings arrive as data of some format: a document of JSON, a configuration in TOML. `Value` is what
the two have in common, and as much of it as a setting can be made of. A number with a fraction, a date
and the like are no setting's value whatever they are, so they are all `other`.
-/

set_option autoImplicit false

namespace SyntaxWatch

/-- A piece of data. The keys of a table are different from each other. -/
inductive Value where
  | null
  | bool (b : Bool)
  | int (n : Int)
  | text (s : String)
  | list (items : List Value)
  | table (fields : List (String × Value))
  | other
  deriving Repr, Inhabited

namespace Value

def field? (fields : List (String × Value)) (key : String) : Option Value :=
  (fields.find? fun f => f.1 = key).map Prod.snd

end Value

end SyntaxWatch
