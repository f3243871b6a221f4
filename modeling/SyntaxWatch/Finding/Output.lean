import SyntaxWatch.Finding.Line
import SyntaxWatch.Text.Utf8

/-!
# The whole output of a checker

Lines that are not of the form of `Finding.Line` are passed over. `Findings.ofText` reads a text that
is there as a whole. `Stream` reads bytes as they come: it parses each line when the byte that ends it
has arrived, so that a line, or one character of it, may be cut by the reads in any way.

`Findings.ofReads` is the reading of a process with two output streams. Either stream has a `Stream` of
its own and the findings of both go into one `Findings`, in the order in which their lines were
completed.
-/

set_option autoImplicit false

namespace SyntaxWatch

/-! ## 1. A text -/

namespace Findings

def addLine (found : Findings) (line : List Char) : Findings := (Finding.Line.addTo found line).2

def ofText (text : List Char) : Findings := (Text.lines text).foldl addLine empty

end Findings

/-! ## 2. A stream of bytes -/

/-- A stream that has been read so far: the bytes after the last line feed, still without an end. -/
structure Stream where
  pending : List UInt8
  deriving DecidableEq, Repr

namespace Stream

def fresh : Stream := ⟨[]⟩

/-- Adds a line of bytes to what was found; bytes that are no UTF-8 read as U+FFFD. -/
def addBytes (found : Findings) (line : List UInt8) : Findings :=
  found.addLine (Text.Utf8.decodeLossy line)

/-- Takes in the next bytes, adding the finding of every line that they complete. -/
def push (s : Stream) (chunk : List UInt8) (found : Findings) : Stream × Findings :=
  -- all segments but the last were ended by a line feed
  let segments := Text.pieces 0x0A (s.pending ++ chunk)
  (⟨segments.getLast?.getD []⟩, segments.dropLast.foldl addBytes found)

/-- The end of the stream: what is left without a line feed is a line too. The stream may go on
afterwards, with nothing pending. -/
def finish (s : Stream) (found : Findings) : Stream × Findings :=
  if s.pending = [] then (s, found) else (fresh, addBytes found s.pending)

end Stream

/-! ## 3. Two streams of one process -/

inductive Channel where
  | output
  | complaint
  deriving DecidableEq, Repr

/-- One read: some bytes from one of the streams, or its end when there are none. -/
structure Read where
  channel : Channel
  bytes : List UInt8
  deriving DecidableEq, Repr

/-- Both streams and what they have yielded. -/
structure Capture where
  output : Stream
  complaint : Stream
  found : Findings

namespace Capture

def start : Capture := ⟨.fresh, .fresh, .empty⟩

def advance (s : Stream) (bytes : List UInt8) (found : Findings) : Stream × Findings :=
  if bytes = [] then s.finish found else s.push bytes found

def step (d : Capture) (read : Read) : Capture :=
  match read.channel with
  | .output =>
    let (s, found) := advance d.output read.bytes d.found
    { d with output := s, found := found }
  | .complaint =>
    let (s, found) := advance d.complaint read.bytes d.found
    { d with complaint := s, found := found }

end Capture

/-- The findings of a process whose streams were read in this order. -/
def Findings.ofReads (reads : List Read) : Findings := (reads.foldl Capture.step Capture.start).found

end SyntaxWatch
