import SyntaxWatch.Finding.Output
import SyntaxWatch.Proofs.Text.Decoding

/-!
# A stream against the whole text

A process prints what it prints, and the reads that fetch it cut it anywhere: inside a line, between
a return and its feed, inside a character. `Stream` looks at complete lines only, so the cuts should
not matter. What it has found after any calls is what `Findings.ofText` finds in the text up to the
last feed, where the end of the stream counts as a feed too.

The invariant is `Stream.upTo`: after some bytes, however they came, the last piece of them is
pending and the others have been parsed.
-/

set_option autoImplicit false

namespace SyntaxWatch

open Text Text.Utf8

/-! ## 1. One line -/

/-- A return at the end of a line makes no difference. -/
theorem Finding.Line.parse?_dropReturn (line : List Char) : parse? (dropReturn line) = parse? line := by
  unfold parse?
  rw [trimLineEnd_dropReturn]

theorem Findings.addLine_dropReturn (found : Findings) (line : List Char) :
    found.addLine (dropReturn line) = found.addLine line := by
  unfold addLine Finding.Line.addTo
  rw [Finding.Line.parse?_dropReturn]

namespace Stream

theorem addBytes_nil (found : Findings) : addBytes found [] = found := by
  unfold addBytes decodeLossy
  rw [scan]
  rfl

end Stream

/-! ## 2. A text whose lines are all ended -/

/-- What is found in a text is found line by line in its bytes. -/
theorem Findings.ofText_decodeLossy {bytes : List UInt8} {ended : List (List UInt8)}
    (hpieces : pieces 0x0A bytes = ended ++ [[]]) :
    ofText (decodeLossy bytes) = ended.foldl Stream.addBytes empty := by
  have hnil : decodeLossy [] = [] := by simp [decodeLossy, scan]
  have hlines : lines (decodeLossy bytes) = ended.map fun line => dropReturn (decodeLossy line) := by
    unfold lines
    rw [pieces_decodeLossy, hpieces, List.map_append, List.map_singleton, hnil, linesOfPieces_concat_nil,
      List.map_map]
    rfl
  unfold ofText
  rw [hlines, List.foldl_map]
  simp only [addLine_dropReturn]
  rfl

/-! ## 3. A script of calls -/

namespace Stream

inductive Call where
  | push (chunk : List UInt8)
  | finish
  deriving DecidableEq, Repr

/-- The bytes for which a call stands; the end of the stream ends the line. -/
def Call.bytes : Call → List UInt8
  | push chunk => chunk
  | finish => [0x0A]

def written (calls : List Call) : List UInt8 := calls.flatMap Call.bytes

def answer (state : Stream × Findings) : Call → Stream × Findings
  | .push chunk => state.1.push chunk state.2
  | .finish => state.1.finish state.2

/-- What a stream is after some calls, and what it has found. -/
def run (calls : List Call) : Stream × Findings := calls.foldl answer (fresh, .empty)

/-- The state after these bytes: the last piece is pending, and the others have been parsed. -/
def upTo (bytes : List UInt8) : Stream × Findings :=
  (⟨(pieces 0x0A bytes).getLast?.getD []⟩, (pieces 0x0A bytes).dropLast.foldl addBytes .empty)

theorem upTo_eq {bytes last : List UInt8} {ended : List (List UInt8)}
    (hbytes : pieces 0x0A bytes = ended ++ [last]) :
    upTo bytes = (⟨last⟩, ended.foldl addBytes .empty) := by
  simp [upTo, hbytes]

theorem push_upTo (bytes chunk : List UInt8) :
    (upTo bytes).1.push chunk (upTo bytes).2 = upTo (bytes ++ chunk) := by
  obtain ⟨ended, last, hbytes⟩ := exists_last_piece 0x0A bytes
  obtain ⟨new, rest, hnew⟩ := exists_last_piece 0x0A (last ++ chunk)
  have hboth : pieces 0x0A (bytes ++ chunk) = (ended ++ new) ++ [rest] := by
    rw [pieces_append hbytes, hnew, List.append_assoc]
  rw [upTo_eq hbytes, upTo_eq hboth, List.foldl_append]
  simp [push, hnew]

theorem finish_upTo (bytes : List UInt8) :
    (upTo bytes).1.finish (upTo bytes).2 = upTo (bytes ++ [0x0A]) := by
  obtain ⟨ended, last, hbytes⟩ := exists_last_piece 0x0A bytes
  have hfeed : pieces 0x0A (bytes ++ [0x0A]) = (ended ++ [last]) ++ [[]] := by
    rw [pieces_append_sep, hbytes]
    rfl
  rw [upTo_eq hbytes, upTo_eq hfeed, List.foldl_append]
  unfold finish
  by_cases hlast : last = []
  · -- an empty rest is passed over, and parsing it would come to the same
    subst hlast
    exact congrArg (Prod.mk fresh) (addBytes_nil _).symm
  · rw [if_neg hlast]
    rfl

theorem answer_upTo (bytes : List UInt8) (call : Call) :
    answer (upTo bytes) call = upTo (bytes ++ call.bytes) := by
  cases call with
  | push chunk => exact push_upTo bytes chunk
  | finish => exact finish_upTo bytes

/-- **The invariant**: only the bytes matter, not how they came. -/
theorem run_eq_upTo (calls : List Call) : run calls = upTo (written calls) := by
  have hfrom : ∀ bytes, calls.foldl answer (upTo bytes) = upTo (bytes ++ written calls) := by
    induction calls with
    | nil =>
      intro bytes
      simp [written]
    | cons call calls ih =>
      intro bytes
      rw [List.foldl_cons, answer_upTo, ih, List.append_assoc]
      rfl
  exact hfrom []

/-- **The stream agrees with the whole text.** After any calls it has found what stands in the text
of their bytes up to the last feed, and when the last call was the end of the stream, what stands in
all of it. -/
theorem stream_eq_ofText (calls : List Call) :
    (run calls).2 = Findings.ofText (decodeLossy (throughLast 0x0A (written calls)))
      ∧ (run (calls ++ [.finish])).2 = Findings.ofText (decodeLossy (written (calls ++ [.finish]))) := by
  have hany : ∀ calls, (run calls).2 = Findings.ofText (decodeLossy (throughLast 0x0A (written calls))) := by
    intro calls
    rw [run_eq_upTo, Findings.ofText_decodeLossy (pieces_throughLast (written calls))]
    rfl
  refine ⟨hany calls, ?_⟩
  have hended : throughLast 0x0A (written (calls ++ [.finish])) = written (calls ++ [.finish]) := by
    unfold written
    rw [List.flatMap_append]
    exact throughLast_snoc _
  rw [hany, hended]

end Stream

end SyntaxWatch
