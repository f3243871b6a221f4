import SyntaxWatch.Text.Split
import SyntaxWatch.Text.Utf8

/-!
# Paths

A path is the bytes that name a file, with slashes between its parts. They are UTF-8 as a rule, but only
showing a path depends on it (`Path.text`). Most questions are about its *components*: empty parts say
nothing, and neither does a `.` except as the first part of a relative path. Two spellings with the same
components name the same file here; `..` is a component like any other until `normalize` resolves it
lexically.

The spelling itself still matters where a path is shown or joined, so the components are a view
(`Path.components`, and back `Path.ofComponents`) and not the representation.
-/

set_option autoImplicit false

namespace SyntaxWatch

/-- The bytes that name a file or a directory. -/
structure Path where
  bytes : List UInt8
  deriving DecidableEq, Repr, Inhabited

namespace Path

def ofText (text : String) : Path := ⟨Text.Utf8.encode text.toList⟩

/-- The path as it is shown; what is not UTF-8 is replaced. -/
def text (p : Path) : String := String.ofList (Text.Utf8.decodeLossy p.bytes)

/-! ## 1. Components -/

/-- The byte between the parts of a path. -/
def slash : UInt8 := 0x2F

/-- The byte of which the silent parts are made. -/
def dot : UInt8 := 0x2E

inductive Component where
  | root
  | here
  | parent
  | name (bytes : List UInt8)
  deriving DecidableEq, Repr

/-- The parts between the slashes, empty ones and dots included. -/
def parts (p : Path) : List (List UInt8) := Text.pieces slash p.bytes

def isAbsolute (p : Path) : Bool := p.bytes.head? == some slash

/-- The step that a part stands for; empty parts and dots stand for none. -/
def stepOf (part : List UInt8) : Option Component :=
  if part = [] ∨ part = [dot] then none
  else if part = [dot, dot] then some .parent
  else some (.name part)

/-- The steps of a path. A leading dot is kept as the step to where one is. -/
def components (p : Path) : List Component :=
  let steps := p.parts.filterMap stepOf
  if p.isAbsolute then .root :: steps
  else if p.parts.head? = some [dot] then .here :: steps
  else steps

def Component.bytes : Component → List UInt8
  | .root => [slash]
  | .here => [dot]
  | .parent => [dot, dot]
  | .name bytes => bytes

/-- The path with these steps, written with one slash between neighbours. -/
def ofComponents (steps : List Component) : Path :=
  match steps with
  | .root :: others => ⟨slash :: Text.join slash (others.map Component.bytes)⟩
  | _ => ⟨Text.join slash (steps.map Component.bytes)⟩

def root : Path := ofComponents [.root]

/-! ## 2. Joining and resolving -/

/-- The path `q` as seen from `p`: an absolute `q` is not moved, anything else is written behind `p`
with one slash between them. -/
def join (p q : Path) : Path :=
  if q.isAbsolute ∨ p.bytes = [] then q
  else if p.bytes.getLast? = some slash then ⟨p.bytes ++ q.bytes⟩
  else ⟨p.bytes ++ slash :: q.bytes⟩

/-- Takes one more step behind steps that are already resolved (the last of them first). A `..` undoes
a name, stays at the root, and is kept where there is nothing to undo. -/
def resolveStep (done : List Component) (step : Component) : List Component :=
  match step, done with
  | .here, _ => done
  | .parent, .name _ :: before => before
  | .parent, .root :: _ => done
  | _, _ => step :: done

/-- The path with `.` and `..` resolved lexically. As for the operating system, the parent of the root
is the root. -/
def normalize (p : Path) : Path := ofComponents ((p.components.foldl resolveStep []).reverse)

/-- The absolute spelling of a path in a working directory. A `..` is kept, and so is a slash at the
end and a double slash at the very beginning. -/
def absoluteFrom (cwd p : Path) : Path :=
  let steps := p.components.filter fun c => c != .here
  -- two slashes at the beginning are kept as they are, three and more say no more than one
  let double := [slash, slash].isPrefixOf p.bytes && p.bytes[2]? != some slash
  let base : Path :=
    if double then ⟨slash :: (ofComponents steps).bytes⟩
    else if p.isAbsolute then ofComponents steps
    else if steps = [] then cwd
    else cwd.join (ofComponents steps)
  -- joining the empty path writes the slash at the end
  if p.bytes.getLast? = some slash then base.join ⟨[]⟩ else base

/-! ## 3. Names -/

/-- The last step, when it is a name. -/
def fileName? (p : Path) : Option (List UInt8) :=
  match p.components.getLast? with
  | some (.name bytes) => some bytes
  | _ => none

/-- The part of a file name behind its last dot; none when the only dot is its first character. -/
def extension? (p : Path) : Option (List UInt8) :=
  p.fileName?.bind fun name =>
    if dot ∈ name then
      let after := (name.reverse.takeWhile (· ≠ dot)).reverse
      -- the name of a hidden file is no extension
      if after.length + 1 = name.length then none else some after
    else none

/-- The path of the directory in which the last step is taken. -/
def parent (p : Path) : Path := ofComponents p.components.dropLast

/-! ## 4. Inside a directory -/

/-- The parts behind the first `n` steps. Parts that say nothing go with the steps before them. -/
def dropSteps : Nat → List (List UInt8) → List (List UInt8)
  | _, [] => []
  | n, part :: others =>
    if stepOf part = none then dropSteps n others
    else
      match n with
      | 0 => part :: others
      | n + 1 => dropSteps n others

/-- Parts without those at their end that say nothing. -/
def dropSilentEnd (rest : List (List UInt8)) : List (List UInt8) :=
  (rest.reverse.dropWhile fun part => stepOf part = none).reverse

/-- The rest of a path behind a directory, as it is spelled but for an end that says nothing; none when
the path does not begin with the directory's components. Behind the empty path all of it is left, a
leading slash or dot included. -/
def relativeTo? (dir p : Path) : Option Path :=
  if dir.components = [] then
    match p.parts with
    | [] => some p
    | first :: others =>
      -- the root is left of an absolute path even when it has no other part
      let others := dropSilentEnd others
      some ⟨if p.isAbsolute then slash :: Text.join slash others else Text.join slash (first :: others)⟩
  else if dir.components.isPrefixOf p.components then
    let named := dir.components.countP fun step => step != .root && step != .here
    some ⟨Text.join slash (dropSilentEnd (dropSteps named p.parts))⟩
  else none

/-! ## 5. Order -/

/-- Lists in the order of a dictionary, given an order of what they hold. -/
def dictionaryLe {α : Type} [DecidableEq α] (le : α → α → Bool) : List α → List α → Bool
  | [], _ => true
  | _ :: _, [] => false
  | a :: as, b :: bs => if a = b then dictionaryLe le as bs else le a b

/-- The kinds of step, in their order. -/
def Component.rank : Component → Nat
  | .root => 0
  | .here => 1
  | .parent => 2
  | .name _ => 3

/-- Steps come by kind, and names by their bytes. -/
def Component.le (a b : Component) : Bool :=
  match a, b with
  | .name s, .name t => dictionaryLe (fun x y => decide (x ≤ y)) s t
  | _, _ => decide (a.rank ≤ b.rank)

/-- Paths are ordered component by component, so that `a/b` stands before `a.c`. -/
def le (p q : Path) : Bool := dictionaryLe Component.le p.components q.components

end Path

end SyntaxWatch
