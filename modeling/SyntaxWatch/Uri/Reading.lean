import SyntaxWatch.Text.Split
import SyntaxWatch.Uri
import SyntaxWatch.Uri.Host

/-!
# Reading a URI

A URI that comes from outside is brought into its normal form, in which two URIs are the same when their
texts are. Blanks around it and line ends in it are dropped, the scheme and the name of a network host go
into lower case, the number of a service that goes without saying is left out, dots are resolved, and what
may not stand as it is gets percent-encoded. What is percent-encoded already stays so, except that such dots
are resolved too.

Schemes fall into three families (`Family`). For two of them a backslash is a slash. A URI of the third
has a path that can be resolved only if it begins with a slash; else what follows the scheme says whatever
the scheme wants.
-/

set_option autoImplicit false

namespace SyntaxWatch.Uri

/-! ## 1. Families of schemes -/

/-- How the part behind a scheme is to be read. -/
inductive Family where
  /-- A file; the host is mostly left out. -/
  | file
  /-- Something on a host of the network, with the number of the service that goes without saying. -/
  | network (service : Nat)
  | other
  deriving DecidableEq, Repr

namespace Family

def of (scheme : List Char) : Family :=
  match String.ofList scheme with
  | "file" => .file
  | "http" => .network 80
  | "https" => .network 443
  | "ws" => .network 80
  | "wss" => .network 443
  | "ftp" => .network 21
  | _ => .other

def isSlash (f : Family) (c : Char) : Bool := c == '/' || (c == '\\' && f != .other)

end Family

/-- The scheme in lower case and what stands behind its colon. -/
def scheme? (text : List Char) : Option (List Char × List Char) :=
  let scheme := text.takeWhile fun c => c.isAlphanum || c == '+' || c == '-' || c == '.'
  match text.drop scheme.length with
  | ':' :: rest =>
    if (scheme.head?.map Char.isAlpha).getD false then some (scheme.map Char.toLower, rest) else none
  | _ => none

/-! ## 2. Paths -/

/-- The characters that do not stand in a path. -/
def pathReserved : List Char := " \"<>`#?\x7b\x7d".toList

/-- A percent-encoded dot as a dot. -/
def plainDots : List Char → List Char
  | '%' :: '2' :: c :: rest => if c = 'e' ∨ c = 'E' then '.' :: plainDots rest else '%' :: '2' :: c :: rest
  | c :: rest => c :: plainDots rest
  | [] => []

def isDrive (segment : List Char) : Bool :=
  match segment with
  | [letter, mark] => letter.isAlpha && (mark == ':' || mark == '|')
  | _ => false

/-- The segments in front of a `..`, the last of them first. A drive is never left. -/
def shorten : List (List Char) → List (List Char)
  | [] => []
  | last :: before => if isDrive last then last :: before else before

/-- Segments behind those that are done, the last of which comes first, with their dots resolved. A dot at
the end leaves an empty segment. -/
def resolveDots (done : List (List Char)) : List (List Char) → List (List Char)
  | [] => done.reverse
  | segment :: others =>
    let rest (done : List (List Char)) : List (List Char) :=
      if others = [] then ([] :: done).reverse else resolveDots done others
    if plainDots segment = ['.'] then rest done
    else if plainDots segment = ['.', '.'] then rest (shorten done)
    else resolveDots (encodeText pathReserved segment :: done) others

def segments (f : Family) (text : List Char) : List (List Char) :=
  Text.pieces '/' (text.map fun c => if f.isSlash c then '/' else c)

def pathOf (f : Family) (text : List Char) : List Char :=
  '/' :: Text.join '/' (resolveDots [] (segments f text))

/-- The path behind an authority. On a network there is always one. -/
def pathBehind (f : Family) (text : List Char) : List Char :=
  match text with
  | [] => if f = .other then [] else ['/']
  | c :: rest => pathOf f (if f.isSlash c then rest else c :: rest)

/-! ## 3. Authorities -/

/-- The characters that do not stand in the name of a user or a password. -/
def userReserved : List Char := pathReserved ++ "/:;=@[\\]^|".toList

/-- A user and a password, with the sign behind them. An empty password is left out, and so is an empty user
without a password. -/
def userText (text : List Char) : List Char :=
  let name := text.takeWhile (· ≠ ':')
  let password := (text.dropWhile (· ≠ ':')).drop 1
  let secret := if password = [] then [] else ':' :: encodeText userReserved password
  if name = [] ∧ secret = [] then [] else encodeText userReserved name ++ secret ++ ['@']

/-- A host and what stands behind it, from its colon on. A colon in brackets belongs to the host. -/
def cutAtNumber (inside : Bool) : List Char → List Char × List Char
  | [] => ([], [])
  | c :: rest =>
    if c = ':' ∧ ¬ inside then ([], c :: rest)
    else
      let (host, number) := cutAtNumber (if c = '[' then true else if c = ']' then false else inside) rest
      (c :: host, number)

/-- The number of a service as it is written behind a host, and what is left behind it; none when it is no
number of 16 bits. -/
def service? (f : Family) (text : List Char) : Option (List Char × List Char) :=
  match text with
  | ':' :: rest =>
    let digits := rest.takeWhile Char.isDigit
    let left := rest.drop digits.length
    let number := (Host.numberIn? 10 digits).getD 0
    -- a backslash ends the number even where it is no slash
    if 65535 < number ∨ (left ≠ [] ∧ left.head? ≠ some '\\') then none
    else if digits = [] ∨ f = .network number then some ([], left)
    else some (':' :: (toString number).toList, left)
  | _ => some ([], text)

/-- An authority, and what is left of its text. `alone` tells that nothing follows the authority. -/
def authority? (f : Family) (alone : Bool) (text : List Char) : Option (List Char × List Char) :=
  let place := (Text.pieces '@' text).getLast?.getD []
  let before := text.take (text.length - place.length)
  let user := userText before.dropLast
  let (hostText, numberText) := cutAtNumber false place
  let host? := if f = .other then Host.opaque? hostText else Host.network? hostText
  match host?, service? f numberText with
  | some host, some (service, left) =>
    -- who names a user or a service has to name a host
    if host = [] ∧ (user ≠ [] ∨ numberText ≠ [] ∨ (before = ['@'] ∧ ¬ alone)) then none
    else some (user ++ host ++ service, left)
  | _, _ => none

/-! ## 4. The families -/

/-- A host, the two slashes before it, and the path of a file. A path that begins with a drive is on the
machine at hand and goes without a host, and its drive is written with a colon. All slashes in front of the
path count as one. -/
def withFilePath (host text : List Char) : List Char :=
  let resolved := resolveDots [] (segments .file text)
  let (host, resolved) :=
    match resolved with
    | first :: others => if isDrive first then ([], (first.take 1 ++ [':']) :: others) else (host, resolved)
    | [] => (host, resolved)
  "//".toList ++ host ++ '/' :: (Text.join '/' resolved).dropWhile (· = '/')

/-- What stands behind the scheme of a URI that is a file. A host follows two slashes, but a drive is none,
and neither is the machine at hand under its own name. -/
def fileBody? (text : List Char) : Option (List Char) :=
  let isSlash := Family.file.isSlash
  let slashes := (text.takeWhile isSlash).length
  if slashes < 2 then some (withFilePath [] (text.drop slashes))
  else
    let behind := text.drop 2
    let host := behind.takeWhile fun c => !isSlash c
    let path := behind.drop host.length
    if isDrive host then some (withFilePath [] behind)
    else if host = [] then some (withFilePath [] path)
    else
      (Host.network? host).map fun host =>
        if host = "localhost".toList then withFilePath [] path else withFilePath host (path.drop 1)

/-- What stands behind the scheme of a URI with this part in front of its query. -/
def body? (f : Family) (alone : Bool) (text : List Char) : Option (List Char) :=
  let withAuthority (text : List Char) : Option (List Char) :=
    let before := text.takeWhile fun c => !f.isSlash c
    let path := text.drop before.length
    (authority? f (alone && path.isEmpty) before).map fun (authority, left) =>
      "//".toList ++ authority ++ pathBehind f (left ++ path)
  match f with
  | .file => fileBody? text
  | .network _ => withAuthority (text.dropWhile f.isSlash)
  | .other =>
    match text with
    | '/' :: '/' :: rest => withAuthority rest
    | '/' :: rest =>
      let path := pathOf f rest
      -- two slashes would announce a host
      some (if "//".toList.isPrefixOf path then "/.".toList ++ path else path)
    | _ => some (encodeText [] text)

/-! ## 5. The whole -/

/-- The characters that do not stand in a query, and one more for files and on a network. -/
def queryReserved (f : Family) : List Char :=
  " \"#<>".toList ++ if f = .other then [] else ['\'']

/-- The characters that do not stand in a fragment. -/
def fragmentReserved : List Char := " \"<>`".toList

def fragmentText : List Char → List Char
  | '#' :: fragment => '#' :: encodeText fragmentReserved fragment
  | _ => []

def tailText (f : Family) (text : List Char) : List Char :=
  match text with
  | '?' :: rest =>
    '?' :: encodeText (queryReserved f) (rest.takeWhile (· ≠ '#')) ++ fragmentText (rest.dropWhile (· ≠ '#'))
  | _ => fragmentText text

/-- A text without blanks and controls at its ends, and without tabs and line ends anywhere. -/
def stripped (text : List Char) : List Char :=
  let dropOuter (text : List Char) : List Char := text.dropWhile fun c => decide (c ≤ ' ')
  (dropOuter (dropOuter text).reverse).reverse.filter fun c => c != '\t' && c != '\n' && c != '\r'

def read? (text : String) : Option Uri :=
  (scheme? (stripped text.toList)).bind fun (scheme, rest) =>
    let f := Family.of scheme
    let isMark (c : Char) : Bool := c == '?' || c == '#'
    let tail := rest.dropWhile fun c => !isMark c
    (body? f tail.isEmpty (rest.takeWhile fun c => !isMark c)).map fun body =>
      ⟨String.ofList (scheme ++ ':' :: body ++ tailText f tail)⟩

end SyntaxWatch.Uri
