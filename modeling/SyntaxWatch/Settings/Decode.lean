import SyntaxWatch.Settings
import SyntaxWatch.Settings.Value

/-!
# Reading settings

A record is read from a table by the names of its fields, or from a list of its fields in order. Keys
that no field has are passed over. A field that is there must be of its type, and `null` is of no
type, so a missing field has its default but a field set to `null` is refused. Two fields may be
written in either of two spellings; a table with both is refused.

The list form may stop before fields that have a default, and may not go on after the last field.
-/

set_option autoImplicit false

namespace SyntaxWatch.Settings

/-! ## 1. Values of a type -/

/-- A number of at most 64 bits without a sign. -/
def natural? : Value → Option Nat
  | .int n => if 0 ≤ n ∧ n < UInt64.size then some n.toNat else none
  | _ => none

def text? : Value → Option String
  | .text s => some s
  | _ => none

def listOf? {α : Type} (item? : Value → Option α) : Value → Option (List α)
  | .list items => items.mapM item?
  | _ => none

/-! ## 2. Fields of a table -/

/-- The value under the one of these names that is there. Refused when more than one is; `some none`
when none is. -/
def fieldUnder? (fields : List (String × Value)) (names : List String) : Option (Option Value) :=
  match names.filterMap (Value.field? fields) with
  | [] => some none
  | [v] => some (some v)
  | _ => none

/-- A field that has to be there, under one of its names. -/
def required? {α : Type} (fields : List (String × Value)) (names : List String)
    (read? : Value → Option α) : Option α :=
  match fieldUnder? fields names with
  | some (some v) => read? v
  | _ => none

def optional? {α : Type} (fields : List (String × Value)) (name : String) (default : α)
    (read? : Value → Option α) : Option α :=
  match Value.field? fields name with
  | some v => read? v
  | none => some default

/-! ## 3. The two records -/

def entry? : Value → Option CheckerEntry
  | .table fields => do
    let command ← required? fields ["command"] text?
    let displayName ← required? fields ["display_name", "displayName"] text?
    let arguments ← optional? fields "arguments" [] (listOf? text?)
    let languageIds ← required? fields ["language_ids", "languageIds"] (listOf? text?)
    some ⟨command, displayName, arguments, languageIds⟩
  | .list [command, displayName, arguments, languageIds] => do
    let command ← text? command
    let displayName ← text? displayName
    let arguments ← listOf? text? arguments
    let languageIds ← listOf? text? languageIds
    some ⟨command, displayName, arguments, languageIds⟩
  | _ => none

def ofTable? (fields : List (String × Value)) : Option Settings := do
  let delay ← optional? fields "delay" defaultDelay natural?
  let checkers ← optional? fields "checkers" [] (listOf? entry?)
  some ⟨delay, checkers⟩

def ofValue? : Value → Option Settings
  | .table fields => ofTable? fields
  | .list [] => some empty
  | .list [delay] => do
    let delay ← natural? delay
    some ⟨delay, []⟩
  | .list [delay, checkers] => do
    let delay ← natural? delay
    let checkers ← listOf? entry? checkers
    some ⟨delay, checkers⟩
  | _ => none

end SyntaxWatch.Settings
