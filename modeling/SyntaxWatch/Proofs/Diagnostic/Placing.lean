import Mathlib.Data.List.Forall2
import SyntaxWatch.Diagnostic.Placed
import SyntaxWatch.Proofs.Word.Lookup

/-!
# Where findings are placed

A finding is placed at the word that its anchor touches, where there is a document whose text can be
trusted and such a word; anywhere else at its own character (`Widens`, `Placed`). Either way the range is
one of the anchor's line and the anchor is not outside it, for every line and column that 32 bits can
hold (`OnAnchor`).

The numbers that are shown count from one, so each is one more than a number of the range. There is room
for it: what is shown for the line is the line of the finding, and what is shown for the column lies
between one and the finding's column. A printed zero counts as a one throughout.
-/

set_option autoImplicit false

namespace SyntaxWatch

/-! ## 1. The anchor -/

namespace Finding

theorem toNat_anchor_line (f : Finding) : f.anchor.line.toNat = max f.line.toNat 1 - 1 := by
  show (pred32 f.line).toNat = _
  rw [toNat_pred32]
  omega

theorem toNat_anchor_character (f : Finding) : f.anchor.character.toNat = max f.column.toNat 1 - 1 := by
  show (pred32 f.column).toNat = _
  rw [toNat_pred32]
  omega

end Finding

/-- A range of the finding's line, with the anchor not outside it. -/
structure Range.OnAnchor (r : Range) (f : Finding) : Prop where
  startLine : r.start.line.toNat = max f.line.toNat 1 - 1
  stopLine : r.stop.line.toNat = max f.line.toNat 1 - 1
  start_le : r.start.character.toNat ≤ max f.column.toNat 1 - 1
  le_stop : max f.column.toNat 1 - 1 ≤ r.stop.character.toNat

namespace Range.OnAnchor

variable {r : Range} {f : Finding}

theorem point (f : Finding) : f.point.OnAnchor f where
  startLine := f.toNat_anchor_line
  stopLine := f.toNat_anchor_line
  start_le := Nat.le_of_eq f.toNat_anchor_character
  le_stop := by
    show _ ≤ f.column.toNat
    omega

theorem of_touched {line : List Char} {w : Word}
    (hw : Word.at? line f.anchor.character.toNat = some w) (hr : Word.IsRange r f.anchor.line w) :
    r.OnAnchor f := by
  obtain ⟨_, hstart, hstop⟩ := Word.mem_of_at? hw
  rw [f.toNat_anchor_character] at hstart hstop
  refine ⟨?_, ?_, ?_, ?_⟩
  · rw [hr.startLine, f.toNat_anchor_line]
  · rw [hr.stopLine, f.toNat_anchor_line]
  · rwa [hr.first]
  · rwa [hr.last]

theorem ordered (h : r.OnAnchor f) : r.start.le r.stop = true := by
  have hline : r.start.line = r.stop.line := UInt32.toNat_inj.mp (h.startLine.trans h.stopLine.symm)
  have hcharacter : r.start.character ≤ r.stop.character :=
    UInt32.le_iff_toNat_le.mpr (Nat.le_trans h.start_le h.le_stop)
  simp [Position.le, hline, hcharacter]

/-- There is room to count from one. -/
theorem fits (h : r.OnAnchor f) :
    r.start.line.toNat + 1 < UInt32.size ∧ r.start.character.toNat + 1 < UInt32.size := by
  have hone : 1 < UInt32.size := by decide
  have hline : f.line.toNat < UInt32.size := f.line.toNat_lt
  have hcolumn : f.column.toNat < UInt32.size := f.column.toNat_lt
  have hstart := h.startLine
  have hle := h.start_le
  omega

end Range.OnAnchor

/-! ## 2. Words or single characters -/

namespace Diagnostic

variable {source : String} {target : Target} {document : Option Document} {f : Finding} {w : Word}

/-- The word to which a finding is widened: there is a document, it is the buffer that was checked or has
no unsaved edits, and the word is the first one that the anchor touches there. -/
def Widens (target : Target) (document : Option Document) (f : Finding) (w : Word) : Prop :=
  ∃ d, document = some d ∧ (target.isBuffer = true ∨ d.dirty = false)
    ∧ ∃ line, (Text.lines d.text.toList)[f.anchor.line.toNat]? = some line
      ∧ Word.at? line f.anchor.character.toNat = some w

theorem Widens.unique {v : Word} (hv : Widens target document f v) (hw : Widens target document f w) :
    v = w := by
  obtain ⟨d, rfl, _, line, hline, hat⟩ := hv
  obtain ⟨d', hd, _, line', hline', hat'⟩ := hw
  obtain rfl : d = d' := Option.some.inj hd
  obtain rfl : line = line' := Option.some.inj (hline.symm.trans hline')
  exact Option.some.inj (hat.symm.trans hat')

/-- The document's lines are shorter than 32 bits can count. -/
def ShortLines (document : Option Document) : Prop :=
  ∀ d, document = some d → ∀ line ∈ Text.lines d.text.toList, line.length < UInt32.size

theorem wordRange?_eq_some_iff {d : Document} (hshort : ShortLines (some d)) {p : Position} {r : Range} :
    d.wordRange? p = some r
      ↔ ∃ line, (Text.lines d.text.toList)[p.line.toNat]? = some line
        ∧ ∃ w, Word.at? line p.character.toNat = some w ∧ Word.IsRange r p.line w := by
  show Word.rangeAt? d.text.toList p = some r ↔ _
  cases hline : (Text.lines d.text.toList)[p.line.toNat]? with
  | none =>
    rw [Word.rangeAt?_beyond (List.getElem?_eq_none_iff.mp hline)]
    simp
  | some line =>
    rw [Word.rangeAt?_of_line hline (hshort d rfl line (List.mem_of_getElem? hline))]
    simp

theorem trusts_iff (target : Target) (d : Document) :
    trusts target d = true ↔ target.isBuffer = true ∨ d.dirty = false := by
  simp [trusts]

/-- **A finding covers the word it is widened to**, or the one character that it names. -/
theorem placedRange_cases (target : Target) (hshort : ShortLines document) (f : Finding) :
    (∃ w, Widens target document f w ∧ Word.IsRange (placedRange target document f) f.anchor.line w)
      ∨ (∀ w, ¬ Widens target document f w) ∧ placedRange target document f = f.point := by
  cases document with
  | none =>
    refine .inr ⟨?_, rfl⟩
    rintro w ⟨d, hd, _⟩
    cases hd
  | some d =>
    unfold placedRange
    by_cases htrust : trusts target d = true
    · simp only [htrust, if_true]
      cases hrange : d.wordRange? f.anchor with
      | none =>
        refine .inr ⟨?_, rfl⟩
        rintro w ⟨d', hd, _, line, hline, hw⟩
        obtain rfl : d = d' := Option.some.inj hd
        -- a word that is touched has a range
        have hlong := hshort d rfl line (List.mem_of_getElem? hline)
        obtain ⟨hstart, hstop⟩ := Word.inside_of_mem (Word.mem_of_at? hw).1
        have hr := @Word.isRange_onLine w (by omega) (by omega) f.anchor.line
        rw [(wordRange?_eq_some_iff hshort).mpr ⟨line, hline, w, hw, hr⟩] at hrange
        cases hrange
      | some r =>
        obtain ⟨line, hline, w, hw, hr⟩ := (wordRange?_eq_some_iff hshort).mp hrange
        exact .inl ⟨w, ⟨d, rfl, (trusts_iff target d).mp htrust, line, hline, hw⟩, hr⟩
    · simp only [htrust]
      refine .inr ⟨?_, rfl⟩
      rintro w ⟨d', hd, htrust', _⟩
      obtain rfl : d = d' := Option.some.inj hd
      exact htrust ((trusts_iff target d).mpr htrust')

theorem placedRange_onAnchor (target : Target) (hshort : ShortLines document) (f : Finding) :
    (placedRange target document f).OnAnchor f := by
  rcases placedRange_cases target hshort f with ⟨w, ⟨_, _, _, line, _, hw⟩, hr⟩ | ⟨_, hpoint⟩
  · exact .of_touched hw hr
  · rw [hpoint]
    exact .point f

/-! ## 3. What is shown -/

theorem toNat_succ {n : UInt32} (h : n.toNat + 1 < UInt32.size) : (n + 1).toNat = n.toNat + 1 := by
  rw [UInt32.toNat_add]
  exact Nat.mod_eq_of_lt h

/-- The line that reports a diagnostic, with these numbers in it. -/
def report (d : Diagnostic) (path : Path) (row column : Nat) : String :=
  path.text ++ ":" ++ toString row ++ ":" ++ toString column ++ ": " ++ d.severity.label ++ ": ["
    ++ d.source ++ "] " ++ d.message

theorem line_eq_report {d : Diagnostic} (h : d.range.OnAnchor f) (path : Path) :
    d.line path = d.report path (max f.line.toNat 1) (d.range.start.character.toNat + 1) := by
  obtain ⟨hline, hcharacter⟩ := h.fits
  have hrow : d.range.start.line.toNat + 1 = max f.line.toNat 1 := by
    rw [h.startLine]
    omega
  unfold line report
  rw [toNat_succ hline, toNat_succ hcharacter, hrow]

/-- What has become of a finding. -/
structure Placed (source : String) (target : Target) (document : Option Document) (f : Finding)
    (d : Diagnostic) : Prop where
  message : d.message = f.message
  severity : d.severity = Severity.ofWord f.severity
  source : d.source = source
  word : ∀ w, Widens target document f w → Word.IsRange d.range f.anchor.line w
  point : (∀ w, ¬ Widens target document f w) → d.range = f.point
  anchored : d.range.OnAnchor f
  ordered : d.range.start.le d.range.stop = true
  fits : d.range.start.line.toNat + 1 < UInt32.size ∧ d.range.start.character.toNat + 1 < UInt32.size
  /-- The finding's own line is shown, and a column that is not behind its own. -/
  shown : ∀ path, ∃ column, 1 ≤ column ∧ column ≤ max f.column.toNat 1
    ∧ d.line path = d.report path (max f.line.toNat 1) column

theorem placed_of_anchored {d : Diagnostic} (hmessage : d.message = f.message)
    (hseverity : d.severity = Severity.ofWord f.severity) (hsource : d.source = source)
    (hrange : d.range = placedRange target document f) (hshort : ShortLines document) :
    Placed source target document f d := by
  have hanchored : d.range.OnAnchor f := hrange ▸ placedRange_onAnchor target hshort f
  refine ⟨hmessage, hseverity, hsource, ?_, ?_, hanchored, hanchored.ordered, hanchored.fits, ?_⟩
  · intro w hw
    rw [hrange]
    rcases placedRange_cases target hshort f with ⟨v, hv, hr⟩ | ⟨hnone, _⟩
    · exact hv.unique hw ▸ hr
    · exact absurd hw (hnone w)
  · intro hnone
    rw [hrange]
    rcases placedRange_cases target hshort f with ⟨v, hv, _⟩ | ⟨_, hpoint⟩
    · exact absurd hv (hnone v)
    · exact hpoint
  · intro path
    have hcolumn := hanchored.start_le
    refine ⟨d.range.start.character.toNat + 1, Nat.le_add_left 1 _, ?_, line_eq_report hanchored path⟩
    omega

/-- **Placing is faithful**: every finding becomes one diagnostic, in its turn, at the word or the
character that it points at. -/
theorem placing_faithful (findings : List Finding) (source : String) (target : Target)
    (document : Option Document) (hshort : ShortLines document) :
    List.Forall₂ (Placed source target document) findings (place findings source target document) := by
  unfold place
  rw [List.forall₂_map_right_iff, List.forall₂_same]
  intro f _
  refine placed_of_anchored rfl ?_ rfl rfl hshort
  simp only [ofFinding]

/-- A buffer with unsaved edits, in which two words meet. -/
def seamBuffer : Document := ⟨⟨"untitled:1"⟩, "c", "x -1.5.7y\nend", true⟩

def seamTarget : Target := ⟨⟨"untitled:1"⟩, true⟩

/-- Findings at no place, where the two words meet, and at the last place there is. -/
def noPlace : Finding := ⟨"<stdin>", 0, 0, "error", "a"⟩
def seamPlace : Finding := ⟨"<stdin>", 1, 7, "Warning", "b"⟩
def lastPlace : Finding := ⟨"<stdin>", 4294967295, 4294967295, "note", "c"⟩

theorem placing_faithful_far :
    ShortLines (some seamBuffer)
      ∧ List.Forall₂ (Placed "GCC" seamTarget (some seamBuffer)) [noPlace, seamPlace, lastPlace]
          (place [noPlace, seamPlace, lastPlace] "GCC" seamTarget (some seamBuffer))
      ∧ placedRange seamTarget (some seamBuffer) noPlace = .onLine 0 0 1
      ∧ placedRange seamTarget (some seamBuffer) seamPlace = .onLine 0 2 6
      ∧ placedRange seamTarget (some seamBuffer) lastPlace = .onLine 4294967294 4294967294 4294967295
      ∧ (place [noPlace, seamPlace, lastPlace] "GCC" seamTarget (some seamBuffer)).map Diagnostic.severity
        = [.error, .warning, .info] := by
  have hshort : ShortLines (some seamBuffer) := by
    intro d hd
    obtain rfl : seamBuffer = d := Option.some.inj hd
    decide
  refine ⟨hshort, placing_faithful _ "GCC" seamTarget (some seamBuffer) hshort, ?_, ?_, ?_, ?_⟩
  · cbv
  · cbv
  · cbv
  · decide

end Diagnostic

end SyntaxWatch
