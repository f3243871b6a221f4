import SyntaxWatch.Uri

/-!
# What a checker's path string refers to

A string in angle brackets (`<stdin>`) is the buffer that was checked. Any other string is a path: an
absolute one is taken as it is spelled, a relative one is read from the workspace root and resolved.
-/

set_option autoImplicit false

namespace SyntaxWatch

/-- The document that a group of findings belongs to. -/
structure Target where
  uri : Uri
  isBuffer : Bool
  deriving DecidableEq, Repr, Inhabited

namespace Target

/-- Whether a path string stands for the checked buffer: angle brackets around anything but a line
feed. -/
def isMarker (path : String) : Bool :=
  match path.toList with
  | '<' :: rest => rest.getLast? == some '>' && !rest.contains '\n'
  | _ => false

/-- The path that a string means in a workspace. -/
def fullPath (root : Path) (path : String) : Path :=
  let spelled := Path.ofText path
  if spelled.isAbsolute then spelled else (root.join spelled).normalize

/-- The document that a path string refers to, `trigger` being the one that was checked. -/
def resolve (root : Path) (trigger : Uri) (path : String) : Except Uri.PathError Target :=
  if isMarker path then .ok ⟨trigger, true⟩
  else (Uri.ofPath (fullPath root path)).map fun uri => ⟨uri, false⟩

end Target

end SyntaxWatch
