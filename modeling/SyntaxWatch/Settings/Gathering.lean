import SyntaxWatch.Settings.Decode

/-!
# Settings among other fields

In a configuration file the settings share their table with whatever else the file configures. So the
fields of the table are all put by first, and then gone through in the order in which they were given
(`gather?`): the settings among them are read as they come, a second one of the same name is refused, and
one that has not come by the end has its default.
-/

set_option autoImplicit false

namespace SyntaxWatch.Settings

/-- The settings that have come so far. -/
structure Gathered where
  delay : Option Nat
  checkers : Option (List CheckerEntry)

namespace Gathered

/-- Goes on to the next field, which need not be a setting. -/
def take? (g : Gathered) (field : String × Value) : Option Gathered :=
  if field.1 = "delay" then
    if g.delay.isSome then none
    else (natural? field.2).map fun delay => { g with delay := some delay }
  else if field.1 = "checkers" then
    if g.checkers.isSome then none
    else (listOf? entry? field.2).map fun checkers => { g with checkers := some checkers }
  else some g

/-- The settings, with defaults for those that have not come. -/
def settings (g : Gathered) : Settings := ⟨g.delay.getD defaultDelay, g.checkers.getD []⟩

end Gathered

def gather? (fields : List (String × Value)) : Option Settings :=
  (fields.foldlM Gathered.take? ⟨none, none⟩).map Gathered.settings

end SyntaxWatch.Settings
