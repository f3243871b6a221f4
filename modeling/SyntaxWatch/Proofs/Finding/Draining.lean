import SyntaxWatch.Proofs.Finding.Grouping
import SyntaxWatch.Proofs.Finding.Stream

/-!
# Two streams read as one

A process has two streams that are read as they come: some bytes of the one, some of the other, the
end of either. Each stream has its own pending bytes, so a line is never put together from both. What
the streams share is where their findings go.

So the schedule can decide one thing only, which is the order in which findings of different streams
come in (`ofReads_eq_ofList`). Each path then has an interleaving of what either stream alone states
about it, and where one of the streams states nothing, there is nothing left to decide.

## What is *not* in it

Which interleaving it is. That depends on when the process writes and on when it is read.
-/

set_option autoImplicit false

namespace SyntaxWatch

open Text Text.Utf8

/-! ## 1. Interleavings -/

/-- The third list is made of the other two, both of which have kept their order. -/
inductive Interleaving {α : Type} : List α → List α → List α → Prop where
  | nil : Interleaving [] [] []
  | left {x : α} {xs ys zs : List α} : Interleaving xs ys zs → Interleaving (x :: xs) ys (x :: zs)
  | right {y : α} {xs ys zs : List α} : Interleaving xs ys zs → Interleaving xs (y :: ys) (y :: zs)

namespace Interleaving

variable {α : Type} {xs ys zs : List α}

theorem symm (h : Interleaving xs ys zs) : Interleaving ys xs zs := by
  induction h with
  | nil => exact .nil
  | left _ ih => exact ih.right
  | right _ ih => exact ih.left

theorem append_left (front : List α) (h : Interleaving xs ys zs) :
    Interleaving (front ++ xs) ys (front ++ zs) := by
  induction front with
  | nil => exact h
  | cons x front ih => exact ih.left

theorem append_right (front : List α) (h : Interleaving xs ys zs) :
    Interleaving xs (front ++ ys) (front ++ zs) :=
  (h.symm.append_left front).symm

theorem filter (p : α → Bool) (h : Interleaving xs ys zs) :
    Interleaving (xs.filter p) (ys.filter p) (zs.filter p) := by
  induction h with
  | nil => exact .nil
  | @left x xs ys zs _ ih =>
    rw [List.filter_cons, List.filter_cons]
    split
    · exact ih.left
    · exact ih
  | @right y xs ys zs _ ih =>
    rw [List.filter_cons, List.filter_cons]
    split
    · exact ih.right
    · exact ih

theorem mem_iff (h : Interleaving xs ys zs) {z : α} : z ∈ zs ↔ z ∈ xs ∨ z ∈ ys := by
  induction h with
  | nil => simp
  | left _ ih => simp [ih, or_assoc]
  | right _ ih => simp [ih, or_left_comm]

theorem length_eq (h : Interleaving xs ys zs) : zs.length = xs.length + ys.length := by
  induction h with
  | nil => rfl
  | left _ ih => rw [List.length_cons, List.length_cons, ih, Nat.add_right_comm]
  | right _ ih => rw [List.length_cons, List.length_cons, ih, Nat.add_assoc]

theorem eq_left (h : Interleaving xs [] zs) : zs = xs := by
  generalize hnone : ([] : List α) = none at h
  induction h with
  | nil => rfl
  | left _ ih => rw [ih hnone]
  | right _ _ => cases hnone

end Interleaving

/-! ## 2. Texts as lists of findings -/

namespace Findings

/-- The findings in a text, in the order of their lines. -/
def listed (text : List Char) : List Finding := (lines text).filterMap Finding.Line.parse?

theorem foldl_addLine (lines : List (List Char)) (found : Findings) :
    lines.foldl addLine found = (lines.filterMap Finding.Line.parse?).foldl push found := by
  induction lines generalizing found with
  | nil => rfl
  | cons line lines ih =>
    rw [List.foldl_cons, ih, List.filterMap_cons]
    unfold addLine Finding.Line.addTo
    cases Finding.Line.parse? line <;> rfl

theorem ofText_eq_ofList (text : List Char) : ofText text = ofList (listed text) :=
  foldl_addLine (lines text) empty

theorem get?_ofList (printed : List Finding) (path : String) :
    ((ofList printed).get? path).getD [] = printed.filter fun f => f.path = path := by
  induction printed using List.reverseRecOn with
  | nil => rfl
  | append_singleton printed f ih =>
    rw [ofList_snoc, List.filter_append]
    by_cases hf : f.path = path
    · subst hf
      rw [get?_push_self, ih]
      simp
    · rw [get?_push_of_ne _ (Ne.symm hf), ih]
      simp [hf]

theorem paths_ofList (printed : List Finding) : (ofList printed).groups.map Prod.fst = pathsOf printed := by
  rw [groups_ofList]
  unfold groupsOf
  rw [List.map_map]
  exact List.map_id _

end Findings

/-! ## 3. One stream as a list of findings -/

namespace Stream

variable {s : Stream}

/-- The findings on some lines of bytes. -/
def stated (segments : List (List UInt8)) : List Finding :=
  segments.filterMap fun line => Finding.Line.parse? (decodeLossy line)

theorem foldl_addBytes (segments : List (List UInt8)) (found : Findings) :
    segments.foldl addBytes found = (stated segments).foldl Findings.push found := by
  have hlines := Findings.foldl_addLine (segments.map decodeLossy) found
  rw [List.foldl_map, List.filterMap_map] at hlines
  exact hlines

theorem stated_append (front back : List (List UInt8)) : stated (front ++ back) = stated front ++ stated back :=
  List.filterMap_append

/-- Nothing is stated without a byte. -/
theorem stated_nil_line : stated [[]] = [] := by
  have hempty : decodeLossy [] = [] := by simp [decodeLossy, scan]
  unfold stated
  rw [List.filterMap_cons, hempty]
  rfl

/-- The pieces of a text state what its lines state: a return at the end of one makes no difference,
and an empty piece at the end of all states nothing. -/
theorem filterMap_linesOfPieces (segments : List (List Char)) :
    (linesOfPieces segments).filterMap Finding.Line.parse? = segments.filterMap Finding.Line.parse? := by
  induction segments using linesOfPieces.induct with
  | case1 => rfl
  | case2 => rfl
  | case3 last hlast =>
    rw [linesOfPieces, if_neg hlast]
  | case4 piece next others ih =>
    rw [linesOfPieces, List.filterMap_cons, List.filterMap_cons, Finding.Line.parse?_dropReturn, ih]

theorem listed_decodeLossy (bytes : List UInt8) :
    Findings.listed (decodeLossy bytes) = stated (pieces 0x0A bytes) := by
  unfold Findings.listed lines stated
  rw [filterMap_linesOfPieces, pieces_decodeLossy, List.filterMap_map]
  rfl

/-- The findings on the lines that a read completes. The end of the stream completes the last line. -/
def toldBy (s : Stream) (bytes : List UInt8) : List Finding :=
  if bytes = [] then stated [s.pending] else stated (pieces 0x0A (s.pending ++ bytes)).dropLast

/-- The stream after a read. -/
def next (s : Stream) (bytes : List UInt8) : Stream :=
  if bytes = [] then fresh else ⟨(pieces 0x0A (s.pending ++ bytes)).getLast?.getD []⟩

/-- **What a read adds does not depend on what was found before**, nor does the stream that it leaves. -/
theorem advance_eq (s : Stream) (bytes : List UInt8) (found : Findings) :
    Capture.advance s bytes found = (s.next bytes, (s.toldBy bytes).foldl Findings.push found) := by
  unfold Capture.advance next toldBy
  by_cases hend : bytes = []
  · rw [if_pos hend, if_pos hend, if_pos hend]
    unfold finish
    by_cases hpending : s.pending = []
    · rw [if_pos hpending, hpending, stated_nil_line]
      exact congrArg (fun p => (Stream.mk p, found)) hpending
    · rw [if_neg hpending]
      exact congrArg (Prod.mk fresh) (foldl_addBytes [s.pending] found)
  · rw [if_neg hend, if_neg hend, if_neg hend]
    unfold push
    dsimp only
    rw [foldl_addBytes]

/-- The findings that reads of one stream bring, one read after the other. -/
def toldByAll (s : Stream) : List (List UInt8) → List Finding
  | [] => []
  | bytes :: later => s.toldBy bytes ++ (s.next bytes).toldByAll later

/-- **A stream that is read to its end states what stands in its bytes**, however they were cut. What
is pending is carried from read to read and holds no line feed. -/
theorem toldByAll_to_end {chunks : List (List UInt8)} (hchunks : ∀ chunk ∈ chunks, chunk ≠ [])
    (hfree : 0x0A ∉ s.pending) :
    s.toldByAll (chunks ++ [[]]) = stated (pieces 0x0A (s.pending ++ chunks.flatten)) := by
  induction chunks generalizing s with
  | nil =>
    rw [List.flatten_nil, List.append_nil, pieces_of_not_mem hfree]
    exact List.append_nil _
  | cons chunk chunks ih =>
    obtain ⟨ended, last, hpieces⟩ := exists_last_piece 0x0A (s.pending ++ chunk)
    have hchunk : chunk ≠ [] := hchunks chunk List.mem_cons_self
    have htold : s.toldBy chunk = stated ended := by
      unfold toldBy
      rw [if_neg hchunk, hpieces, List.dropLast_concat]
    have hnext : s.next chunk = ⟨last⟩ := by
      unfold next
      rw [if_neg hchunk, hpieces, List.getLast?_concat]
      rfl
    have hmem : last ∈ pieces 0x0A (s.pending ++ chunk) := by
      rw [hpieces]
      exact List.mem_append_right ended List.mem_cons_self
    have hlast : 0x0A ∉ last := not_mem_of_mem_pieces hmem
    have hrest := ih (s := ⟨last⟩) (fun c hc => hchunks c (List.mem_cons_of_mem chunk hc)) hlast
    show s.toldBy chunk ++ (s.next chunk).toldByAll (chunks ++ [[]]) = _
    rw [htold, hnext, hrest, List.flatten_cons, ← List.append_assoc, pieces_append hpieces, stated_append]

end Stream

/-! ## 4. Both streams -/

/-- What the reads of one channel have brought, in order. -/
def Read.bytesOn (channel : Channel) (reads : List Read) : List (List UInt8) :=
  (reads.filter fun r => r.channel = channel).map Read.bytes

namespace Capture

/-- **All that is found is an interleaving of what either stream tells.** By induction on the reads:
each of them puts what it tells in front of what its own stream tells later. -/
theorem found_foldl_step (reads : List Read) (d : Capture) :
    ∃ merged,
      Interleaving (d.output.toldByAll (Read.bytesOn .output reads))
          (d.complaint.toldByAll (Read.bytesOn .complaint reads)) merged
        ∧ (reads.foldl step d).found = merged.foldl Findings.push d.found := by
  induction reads generalizing d with
  | nil => exact ⟨[], .nil, rfl⟩
  | cons read reads ih =>
    obtain ⟨merged, hmerged, hfound⟩ := ih (d.step read)
    obtain ⟨channel, bytes⟩ := read
    cases channel with
    | output =>
      have hstep : d.step ⟨.output, bytes⟩
          = ⟨d.output.next bytes, d.complaint, (d.output.toldBy bytes).foldl Findings.push d.found⟩ := by
        unfold step
        dsimp only
        rw [Stream.advance_eq]
      rw [hstep] at hmerged hfound
      refine ⟨d.output.toldBy bytes ++ merged, hmerged.append_left _, ?_⟩
      rw [List.foldl_cons, hstep, hfound, List.foldl_append]
    | complaint =>
      have hstep : d.step ⟨.complaint, bytes⟩
          = ⟨d.output, d.complaint.next bytes, (d.complaint.toldBy bytes).foldl Findings.push d.found⟩ := by
        unfold step
        dsimp only
        rw [Stream.advance_eq]
      rw [hstep] at hmerged hfound
      refine ⟨d.complaint.toldBy bytes ++ merged, hmerged.append_right _, ?_⟩
      rw [List.foldl_cons, hstep, hfound, List.foldl_append]

end Capture

/-- The reads of one channel bring these bytes, cut in some way, and then the end. No read is empty but
the one that is the end. -/
def Read.Drains (reads : List Read) (channel : Channel) (bytes : List UInt8) : Prop :=
  ∃ chunks : List (List UInt8), (∀ chunk ∈ chunks, chunk ≠ []) ∧ chunks.flatten = bytes
    ∧ Read.bytesOn channel reads = chunks ++ [[]]

namespace Findings

variable {reads : List Read} {out err : List UInt8} {channel : Channel} {bytes : List UInt8}

theorem toldByAll_of_drains (hdrains : Read.Drains reads channel bytes) :
    Stream.fresh.toldByAll (Read.bytesOn channel reads) = listed (decodeLossy bytes) := by
  obtain ⟨chunks, hchunks, rfl, hreads⟩ := hdrains
  have hend := Stream.toldByAll_to_end (s := Stream.fresh) hchunks List.not_mem_nil
  rw [hreads, hend, Stream.listed_decodeLossy]
  rfl

/-- **The schedule decides the order between the streams and nothing else.** -/
theorem ofReads_eq_ofList (hout : Read.Drains reads .output out) (herr : Read.Drains reads .complaint err) :
    ∃ merged, Interleaving (listed (decodeLossy out)) (listed (decodeLossy err)) merged
      ∧ ofReads reads = ofList merged := by
  obtain ⟨merged, hmerged, hfound⟩ := Capture.found_foldl_step reads Capture.start
  refine ⟨merged, ?_, hfound⟩
  rw [← toldByAll_of_drains hout, ← toldByAll_of_drains herr]
  exact hmerged

/-- A text that states nothing lists nothing. -/
theorem listed_eq_nil {text : List Char} (hnone : ∀ line ∈ lines text, Finding.Line.parse? line = none) :
    listed text = [] :=
  List.filterMap_eq_nil_iff.mpr hnone

/-- What is found in two texts that have been read side by side. -/
structure MergedFrom (out err : List Char) (found : Findings) : Prop where
  /-- For each path, the findings of both texts, each in its own order. -/
  lists : ∀ path, Interleaving (((ofText out).get? path).getD []) (((ofText err).get? path).getD [])
    ((found.get? path).getD [])
  /-- The paths are those of both. -/
  paths : ∀ path, path ∈ found.groups.map Prod.fst
    ↔ path ∈ (ofText out).groups.map Prod.fst ∨ path ∈ (ofText err).groups.map Prod.fst
  /-- As many findings as both texts have. -/
  total : found.totalCount = (ofText out).totalCount + (ofText err).totalCount
  /-- If one of them states nothing, the other one is all there is. -/
  output : (∀ line ∈ lines err, Finding.Line.parse? line = none) → found = ofText out
  complaint : (∀ line ∈ lines out, Finding.Line.parse? line = none) → found = ofText err

theorem totalCount_ofList (printed : List Finding) : (ofList printed).totalCount = printed.length := by
  induction printed using List.reverseRecOn with
  | nil => rfl
  | append_singleton printed f ih =>
    rw [ofList_snoc, totalCount_push, ih, List.length_append]
    rfl

/-- **Reading both streams loses nothing, adds nothing and keeps every order**, whatever the schedule:
however the bytes of either stream are cut, whichever is read when, and whichever ends first. -/
theorem streams_merged (hout : Read.Drains reads .output out) (herr : Read.Drains reads .complaint err) :
    MergedFrom (decodeLossy out) (decodeLossy err) (ofReads reads) := by
  obtain ⟨merged, hmerged, hreads⟩ := ofReads_eq_ofList hout herr
  rw [hreads]
  refine ⟨fun path => ?_, fun path => ?_, ?_, fun hnone => ?_, fun hnone => ?_⟩
  · rw [ofText_eq_ofList, ofText_eq_ofList, get?_ofList, get?_ofList, get?_ofList]
    exact hmerged.filter _
  · rw [ofText_eq_ofList, ofText_eq_ofList, paths_ofList, paths_ofList, paths_ofList, mem_pathsOf, mem_pathsOf,
      mem_pathsOf]
    simp only [hmerged.mem_iff, or_and_right, exists_or]
  · rw [ofText_eq_ofList, ofText_eq_ofList, totalCount_ofList, totalCount_ofList, totalCount_ofList]
    exact hmerged.length_eq
  · rw [listed_eq_nil hnone] at hmerged
    rw [hmerged.eq_left, ofText_eq_ofList]
  · rw [listed_eq_nil hnone] at hmerged
    rw [hmerged.symm.eq_left, ofText_eq_ofList]

/-- What the output brings. -/
def crossedOutput : List UInt8 := encode "a.c:1:1: error: x\nb.c:3:1: warning: z\na.c:4:1: error: w\n".toList

/-- What the other stream brings: one line without its end. -/
def crossedComplaint : List UInt8 := encode "a.c:2:1: error: y".toList

/-- The output is cut inside the heads of two lines, and the other stream comes in between and ends first. -/
def crossedReads : List Read :=
  [⟨.output, encode "a.c:1:1: er".toList⟩, ⟨.complaint, encode "a.c:2:1: error: y".toList⟩,
    ⟨.output, encode "ror: x\nb.c:3:".toList⟩, ⟨.complaint, []⟩,
    ⟨.output, encode "1: warning: z\na.c:4:1: error: w\n".toList⟩, ⟨.output, []⟩]

/-- The finding of the one stream comes to stand between those of the other, in the group of their path. -/
theorem streams_merged_crossed :
    Read.Drains crossedReads .output crossedOutput
      ∧ Read.Drains crossedReads .complaint crossedComplaint
      ∧ MergedFrom (decodeLossy crossedOutput) (decodeLossy crossedComplaint) (ofReads crossedReads)
      ∧ (ofText (decodeLossy crossedOutput)).groups
        = [("a.c", [⟨"a.c", 1, 1, "error", "x"⟩, ⟨"a.c", 4, 1, "error", "w"⟩]),
            ("b.c", [⟨"b.c", 3, 1, "warning", "z"⟩])]
      ∧ (ofText (decodeLossy crossedComplaint)).groups = [("a.c", [⟨"a.c", 2, 1, "error", "y"⟩])]
      ∧ (ofReads crossedReads).groups
        = [("a.c", [⟨"a.c", 1, 1, "error", "x"⟩, ⟨"a.c", 2, 1, "error", "y"⟩, ⟨"a.c", 4, 1, "error", "w"⟩]),
            ("b.c", [⟨"b.c", 3, 1, "warning", "z"⟩])] := by
  have hout : Read.Drains crossedReads .output crossedOutput :=
    ⟨[encode "a.c:1:1: er".toList, encode "ror: x\nb.c:3:".toList,
      encode "1: warning: z\na.c:4:1: error: w\n".toList], by decide, by decide, by decide⟩
  have herr : Read.Drains crossedReads .complaint crossedComplaint :=
    ⟨[encode "a.c:2:1: error: y".toList], by decide, by decide, by decide⟩
  refine ⟨hout, herr, streams_merged hout herr, ?_, ?_, ?_⟩
  · decide +kernel
  · decide +kernel
  · decide +kernel

end Findings

end SyntaxWatch
