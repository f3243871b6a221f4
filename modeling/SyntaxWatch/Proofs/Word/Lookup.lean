import Mathlib.Data.List.Pairwise
import SyntaxWatch.Proofs.Word.Tokens

/-!
# Which word a column touches

The words of a line are apart from each other, but one may begin where the one before ends. A column at
such a seam touches both, and the first of them is found; everywhere else a column touches one word at
most. So each word answers for the columns behind its first character up to the one right behind its last,
and for the column of its first character too, unless that is a seam (`Lookup`).

Columns are counted in unbounded numbers here, and written in 32 bits in the range that is found. Nothing
is lost on a line whose length fits into them, since no word reaches beyond the line's end.
-/

set_option autoImplicit false

namespace SyntaxWatch.Word

variable {line : List Char}

/-! ## 1. The first word that is touched -/

theorem touches_iff (w : Word) (column : Nat) :
    w.touches column = true ↔ w.start ≤ column ∧ column ≤ w.stop := by
  simp [touches]

theorem at?_eq_some_iff {column : Nat} {w : Word} :
    at? line column = some w
      ↔ ∃ before after, wordsOf line = before ++ w :: after ∧ (w.start ≤ column ∧ column ≤ w.stop)
        ∧ ∀ v ∈ before, ¬ (v.start ≤ column ∧ column ≤ v.stop) := by
  unfold at?
  rw [List.find?_eq_some_iff_append, touches_iff]
  constructor
  · rintro ⟨htouches, before, after, hwords, hbefore⟩
    refine ⟨before, after, hwords, htouches, ?_⟩
    intro v hv hv'
    simpa [(touches_iff v column).mpr hv'] using hbefore v hv
  · rintro ⟨before, after, hwords, htouches, hbefore⟩
    refine ⟨htouches, before, after, hwords, ?_⟩
    intro v hv
    rw [Bool.not_eq_true', Bool.eq_false_iff]
    exact fun hv' => hbefore v hv ((touches_iff v column).mp hv')

theorem at?_eq_none_iff {column : Nat} :
    at? line column = none ↔ ∀ w ∈ wordsOf line, ¬ (w.start ≤ column ∧ column ≤ w.stop) := by
  unfold at?
  rw [List.find?_eq_none]
  simp only [touches_iff]

/-- The word that is found is one of the line's, and touches the column. -/
theorem mem_of_at? {column : Nat} {w : Word} (h : at? line column = some w) :
    w ∈ wordsOf line ∧ w.start ≤ column ∧ column ≤ w.stop := by
  obtain ⟨before, after, hwords, htouches, _⟩ := at?_eq_some_iff.mp h
  refine ⟨?_, htouches⟩
  rw [hwords]
  exact List.mem_append_right before List.mem_cons_self

theorem inside_of_mem {w : Word} (hw : w ∈ wordsOf line) : w.start < w.stop ∧ w.stop ≤ line.length :=
  ((scan_wordsOf line).inside hw).2

/-- What comes before a word among the words of a line has ended where it begins. -/
theorem stop_le_of_before {before after : List Word} {w : Word}
    (hwords : wordsOf line = before ++ w :: after) : ∀ v ∈ before, v.stop ≤ w.start := by
  have hapart := (scan_wordsOf line).apart
  rw [hwords] at hapart
  intro v hv
  exact (List.pairwise_append.mp hapart).2.2 v hv w List.mem_cons_self

/-- Between its first character and its end, a word is the only one that is touched. -/
theorem at?_behind {w : Word} (hw : w ∈ wordsOf line) {column : Nat} (hstart : w.start < column)
    (hstop : column ≤ w.stop) : at? line column = some w := by
  obtain ⟨before, after, hwords⟩ := List.append_of_mem hw
  refine at?_eq_some_iff.mpr ⟨before, after, hwords, ⟨Nat.le_of_lt hstart, hstop⟩, ?_⟩
  intro v hv htouches
  have hended : v.stop ≤ w.start := stop_le_of_before hwords v hv
  omega

/-- The first word is found where it begins. -/
theorem at?_front {w : Word} {after : List Word} (hwords : wordsOf line = w :: after) :
    at? line w.start = some w := by
  have hw : w ∈ wordsOf line := hwords ▸ List.mem_cons_self
  refine at?_eq_some_iff.mpr ⟨[], after, hwords, ⟨Nat.le_refl _, Nat.le_of_lt (inside_of_mem hw).1⟩, ?_⟩
  intro v hv
  cases hv

/-- **At a seam the first of the two words is found**; where there is none, the word that begins. -/
theorem at?_seam {before after : List Word} {v w : Word} (hwords : wordsOf line = before ++ v :: w :: after) :
    at? line w.start = some (if v.stop = w.start then v else w) := by
  have hmem : ∀ u, u ∈ [v, w] → u ∈ wordsOf line := by
    intro u hu
    rw [hwords]
    apply List.mem_append_right
    simp only [List.mem_cons, List.not_mem_nil, or_false] at hu ⊢
    tauto
  have hv : v.start < v.stop := (inside_of_mem (hmem v (by simp))).1
  have hw : w.start < w.stop := (inside_of_mem (hmem w (by simp))).1
  have hwords' : wordsOf line = (before ++ [v]) ++ w :: after := by rw [hwords]; simp
  have hbefore : ∀ u ∈ before, u.stop ≤ v.start := stop_le_of_before hwords
  split
  · next hseam =>
    -- whatever stands before `v` has ended where `v` begins, which is before the seam
    refine at?_eq_some_iff.mpr ⟨before, w :: after, hwords, by omega, ?_⟩
    intro u hu htouches
    have hended := hbefore u hu
    omega
  · next hno =>
    refine at?_eq_some_iff.mpr ⟨before ++ [v], after, hwords', by omega, ?_⟩
    intro u hu htouches
    have hended : v.stop ≤ w.start := stop_le_of_before hwords' v (by simp)
    rcases List.mem_append.mp hu with hu | hu
    · have hfurther := hbefore u hu
      omega
    · rw [List.mem_singleton.mp hu] at htouches
      omega

/-- A plain character lies in one word and no other. -/
theorem existsUnique_covering {place : Fin line.length} (hplain : isPlain (line.get place) = true) :
    ∃! w, w ∈ wordsOf line ∧ w.start ≤ place ∧ place < w.stop := by
  have hfits : pattern.match? (line.drop place) ≠ none := by
    rw [List.drop_eq_getElem_cons place.isLt]
    exact match?_pattern_of_isPlain hplain _
  obtain ⟨w, hw, hcovers⟩ := (scan_wordsOf line).covered (Nat.zero_le place) hfits
  refine ⟨w, ⟨hw, hcovers⟩, ?_⟩
  rintro v ⟨hv, hcovers'⟩
  by_contra hne
  have hsides : (wordsOf line).Pairwise fun v w => v.stop ≤ w.start ∨ w.stop ≤ v.start :=
    (scan_wordsOf line).apart.imp Or.inl
  have : Std.Symm fun v w : Word => v.stop ≤ w.start ∨ w.stop ≤ v.start := ⟨fun _ _ => Or.symm⟩
  have hdisjoint := hsides.forall hv hw hne
  omega

/-! ## 2. The range of a word -/

/-- The range that covers a word on a line. -/
structure IsRange (r : Range) (row : UInt32) (w : Word) : Prop where
  startLine : r.start.line = row
  stopLine : r.stop.line = row
  first : r.start.character.toNat = w.start
  last : r.stop.character.toNat = w.stop

theorem IsRange.unique {r s : Range} {row : UInt32} {w : Word} (hr : IsRange r row w)
    (hs : IsRange s row w) : r = s := by
  obtain ⟨⟨startLine, first⟩, ⟨stopLine, last⟩⟩ := r
  obtain ⟨⟨startLine', first'⟩, ⟨stopLine', last'⟩⟩ := s
  obtain rfl : startLine = startLine' := hr.startLine.trans hs.startLine.symm
  obtain rfl : stopLine = stopLine' := hr.stopLine.trans hs.stopLine.symm
  obtain rfl : first = first' := UInt32.toNat_inj.mp (hr.first.trans hs.first.symm)
  obtain rfl : last = last' := UInt32.toNat_inj.mp (hr.last.trans hs.last.symm)
  rfl

/-- Its columns fit into 32 bits. -/
theorem isRange_onLine {w : Word} (hstart : w.start < UInt32.size) (hstop : w.stop < UInt32.size)
    (row : UInt32) : IsRange (Range.onLine row (UInt32.ofNat w.start) (UInt32.ofNat w.stop)) row w :=
  ⟨rfl, rfl, UInt32.toNat_ofNat_of_lt hstart, UInt32.toNat_ofNat_of_lt hstop⟩

theorem rangeAt?_of_line {text : List Char} {p : Position}
    (hline : (Text.lines text)[p.line.toNat]? = some line) (hshort : line.length < UInt32.size) (r : Range) :
    rangeAt? text p = some r ↔ ∃ w, at? line p.character.toNat = some w ∧ IsRange r p.line w := by
  have hrange : ∀ w, at? line p.character.toNat = some w →
      IsRange (Range.onLine p.line (UInt32.ofNat w.start) (UInt32.ofNat w.stop)) p.line w := by
    intro w hw
    obtain ⟨hstart, hstop⟩ := inside_of_mem (mem_of_at? hw).1
    exact isRange_onLine (by omega) (by omega) p.line
  unfold rangeAt?
  rw [hline]
  simp only [Option.map_eq_some_iff]
  constructor
  · rintro ⟨w, hw, rfl⟩
    exact ⟨w, hw, hrange w hw⟩
  · rintro ⟨w, hw, hr⟩
    exact ⟨w, hw, (hrange w hw).unique hr⟩

theorem rangeAt?_beyond {text : List Char} {p : Position} (hbeyond : (Text.lines text).length ≤ p.line.toNat) :
    rangeAt? text p = none := by
  unfold rangeAt?
  rw [List.getElem?_eq_none hbeyond]

/-! ## 3. All of it -/

/-- What the words of a line are, and which of them is found at a column. -/
structure Lookup (line : List Char) : Prop where
  /-- The words are the matches that the pattern prefers, each found from the end of the one before. -/
  scanned : Scan line 0 (wordsOf line)
  only : ∀ words, Scan line 0 words → words = wordsOf line
  inside : ∀ w ∈ wordsOf line, w.start < w.stop ∧ w.stop ≤ line.length
  apart : (wordsOf line).Pairwise fun v w => v.stop ≤ w.start
  covering : ∀ place : Fin line.length, isPlain (line.get place) = true →
    ∃! w, w ∈ wordsOf line ∧ w.start ≤ place ∧ place < w.stop
  found : ∀ column w, at? line column = some w
    ↔ ∃ before after, wordsOf line = before ++ w :: after ∧ (w.start ≤ column ∧ column ≤ w.stop)
      ∧ ∀ v ∈ before, ¬ (v.start ≤ column ∧ column ≤ v.stop)
  missed : ∀ column,
    at? line column = none ↔ ∀ w ∈ wordsOf line, ¬ (w.start ≤ column ∧ column ≤ w.stop)
  behind : ∀ w ∈ wordsOf line, ∀ column, w.start < column → column ≤ w.stop → at? line column = some w
  front : ∀ w after, wordsOf line = w :: after → at? line w.start = some w
  /-- A word is found where it begins, unless the one before it ends there. -/
  seam : ∀ before v w after, wordsOf line = before ++ v :: w :: after →
    at? line w.start = some (if v.stop = w.start then v else w)
  /-- Wherever the line stands in a text, the range there is that of the word. -/
  range : ∀ text p, (Text.lines text)[p.line.toNat]? = some line → ∀ r,
    rangeAt? text p = some r ↔ ∃ w, at? line p.character.toNat = some w ∧ IsRange r p.line w

/-- **Looking up a word is exact**: it is the first one that touches the column, of those that the line
has when it is read from the left. -/
theorem lookup_exact (line : List Char) (hshort : line.length < UInt32.size) :
    Lookup line
      ∧ ∀ text p, (Text.lines text).length ≤ p.line.toNat → rangeAt? text p = none := by
  refine ⟨?_, fun text p => rangeAt?_beyond⟩
  exact {
    scanned := scan_wordsOf line
    only := fun words hwords => hwords.unique (scan_wordsOf line)
    inside := fun w => inside_of_mem
    apart := (scan_wordsOf line).apart
    covering := fun place => existsUnique_covering
    found := fun column w => at?_eq_some_iff
    missed := fun column => at?_eq_none_iff
    behind := fun w hw column => at?_behind hw
    front := fun w after => at?_front
    seam := fun before v w after => at?_seam
    range := fun text p hline => rangeAt?_of_line hline hshort }

/-- Two numbers side by side, the second without digits before its point. -/
def seamLine : List Char := "x -1.5.7y".toList

theorem lookup_exact_seam :
    seamLine.length < UInt32.size ∧ wordsOf seamLine = [⟨0, 1⟩, ⟨2, 6⟩, ⟨6, 9⟩]
      ∧ Lookup seamLine ∧ at? seamLine 6 = some ⟨2, 6⟩ ∧ at? seamLine 7 = some ⟨6, 9⟩ := by
  have hshort : seamLine.length < UInt32.size := by decide
  have hwords : wordsOf seamLine = [⟨0, 1⟩, ⟨2, 6⟩, ⟨6, 9⟩] := by cbv
  have hlookup := (lookup_exact seamLine hshort).1
  refine ⟨hshort, hwords, hlookup, ?_, ?_⟩
  · exact hlookup.seam [⟨0, 1⟩] ⟨2, 6⟩ ⟨6, 9⟩ [] hwords
  · refine hlookup.behind ⟨6, 9⟩ ?_ 7 (by decide) (by decide)
    rw [hwords]
    decide

end SyntaxWatch.Word
