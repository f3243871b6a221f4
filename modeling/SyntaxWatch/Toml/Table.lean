import SyntaxWatch.Settings.Value

/-!
# How the tables of a TOML document are put together

A document names its tables piecemeal, and what may still be added to a table depends on how it came to be.
A table opened by its own header, one implied on the way to a longer header, and one made by a dotted key are
told apart while the document is read (`Origin`); a written-out array or inline table is closed at once. A
key is given once, a header opens a table once, and a dotted key extends no table that has a header of its
own.
-/

set_option autoImplicit false

namespace SyntaxWatch.Toml

inductive Origin where
  | header
  | implied
  | dotted
  deriving DecidableEq, Repr

/-- What a key holds while the document is read. -/
inductive Node where
  /-- A value that is complete. -/
  | value (v : Value)
  | table (origin : Origin) (fields : List (String × Node))
  /-- An array of tables, each opened by a header; the last one is the open one. -/
  | tables (elements : List (List (String × Node)))
  deriving Inhabited

/-- The keys of a table, in the order in which they were given. -/
abbrev Fields := List (String × Node)

namespace Fields

def get? (fields : Fields) (key : String) : Option Node :=
  (fields.find? fun f => f.1 = key).map Prod.snd

/-- The fields with another node under a key that is there. -/
def replace (fields : Fields) (key : String) (node : Node) : Fields :=
  fields.map fun f => if f.1 = key then (key, node) else f

/-- The fields with a new key; none when the key has been given. -/
def add? (fields : Fields) (key : String) (node : Node) : Option Fields :=
  if (get? fields key).isSome then none else some (fields ++ [(key, node)])

/-- Makes a change in the table at the end of a path of keys. Tables that are not there are made, by dotted
keys or as implied by a header. A dotted path goes through no table that was opened by a header. -/
def at? (dotted : Bool) (change : Fields → Option Fields) : List String → Fields → Option Fields
  | [], fields => change fields
  | key :: path, fields =>
    match get? fields key with
    | none =>
      (at? dotted change path []).map fun sub =>
        fields ++ [(key, .table (if dotted then .dotted else .implied) sub)]
    | some (.table origin sub) =>
      if dotted ∧ origin = .header then none
      else (at? dotted change path sub).map fun sub => replace fields key (.table origin sub)
    | some (.tables elements) =>
      if dotted then none
      else
        match elements.getLast? with
        | none => none
        | some last =>
          (at? dotted change path last).map fun last =>
            replace fields key (.tables (elements.dropLast ++ [last]))
    | some (.value _) => none

def openTable? (fields : Fields) (path : List String) : Option Fields :=
  match path.getLast? with
  | none => none
  | some key =>
    at? false
      (fun fields =>
        match get? fields key with
        | none => some (fields ++ [(key, .table .header [])])
        | some (.table .implied sub) => some (replace fields key (.table .header sub))
        | some _ => none)
      path.dropLast fields

/-- Opens the next table of an array by its header. -/
def openElement? (fields : Fields) (path : List String) : Option Fields :=
  match path.getLast? with
  | none => none
  | some key =>
    at? false
      (fun fields =>
        match get? fields key with
        | none => some (fields ++ [(key, .tables [[]])])
        | some (.tables elements) => some (replace fields key (.tables (elements ++ [[]])))
        | some _ => none)
      path.dropLast fields

/-- Gives a value to a key, which may be dotted, in a table. -/
def assign? (fields : Fields) (path : List String) (v : Value) : Option Fields :=
  match path.getLast? with
  | none => none
  | some key => at? true (fun fields => add? fields key (.value v)) path.dropLast fields

end Fields

mutual

def Node.toValue : Node → Value
  | .value v => v
  | .table _ fields => .table (Node.fieldValues fields)
  | .tables elements => .list (Node.elementValues elements)

def Node.fieldValues : List (String × Node) → List (String × Value)
  | [] => []
  | (key, node) :: others => (key, node.toValue) :: Node.fieldValues others

def Node.elementValues : List (List (String × Node)) → List Value
  | [] => []
  | fields :: others => .table (Node.fieldValues fields) :: Node.elementValues others

end

end SyntaxWatch.Toml
