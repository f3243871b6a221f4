import SyntaxWatch.Proofs.Finding.Form

/-!
# What is made of a line

`Finding.Line.addTo` takes a line with its end, whatever returns and feeds that is made of, and adds
what it states. `Recognition` says all of it for one line: which lines are taken for a diagnostic and
which finding is added then, to which group, and that nothing is done otherwise.

The other way round, a finding that is written out comes back as it was. Its path, its word and its
message have to be such as a line can hold, and the message must not end with a return, which would be
taken for a part of the line end.
-/

set_option autoImplicit false

namespace SyntaxWatch

/-! ## 1. Nothing to trim -/

theorem dropWhile_of_head {α : Type} {p : α → Bool} {xs : List α} (hhead : ∀ x ∈ xs.head?, p x = false) :
    xs.dropWhile p = xs := by
  cases xs with
  | nil => rfl
  | cons x xs => exact List.dropWhile_cons_of_neg (by simp [hhead x rfl])

theorem Text.trimLineEnd_of_last {line : List Char} (hlast : ∀ c ∈ line.getLast?, c ≠ '\r' ∧ c ≠ '\n') :
    trimLineEnd line = line := by
  unfold trimLineEnd
  rw [dropWhile_of_head, List.reverse_reverse]
  intro c hc
  rw [List.head?_reverse] at hc
  simpa using hlast c hc

theorem Text.trimBlanks_of_ends {text : List Char} (hfirst : ∀ c ∈ text.head?, isBlank c = false)
    (hlast : ∀ c ∈ text.getLast?, isBlank c = false) : trimBlanks text = text := by
  unfold trimBlanks
  rw [dropWhile_of_head hfirst, dropWhile_of_head, List.reverse_reverse]
  intro c hc
  rw [List.head?_reverse] at hc
  exact hlast c hc

namespace Finding.Line

/-! ## 2. The grade of a word -/

section Severity

variable {word : List Char} (hword : IsSeverity word)

include hword

theorem IsSeverity.ascii : ∀ c ∈ word, c.toNat < 128 := by
  have hall : ∀ w ∈ ["fatal error".toList, "error".toList, "warning".toList], ∀ c ∈ w, c.toNat < 128 := by
    simp
  intro c hc
  exact Text.ascii_of_toLower (hall _ hword c.toLower (List.mem_map_of_mem hc))

theorem IsSeverity.trimBlanks : Text.trimBlanks word = word := by
  have hends : ∀ w ∈ ["fatal error".toList, "error".toList, "warning".toList],
      (∀ c ∈ w.head?, Text.isBlank c = false) ∧ ∀ c ∈ w.getLast?, Text.isBlank c = false := by
    have hletters : Text.isBlank 'f' = false ∧ Text.isBlank 'r' = false ∧ Text.isBlank 'e' = false
        ∧ Text.isBlank 'w' = false ∧ Text.isBlank 'g' = false := by decide
    simp [hletters]
  have hplain : ∀ c ∈ word, Text.isBlank c.toLower = false → Text.isBlank c = false := by
    intro c hc
    exact Text.forall_ascii (P := fun c => Text.isBlank c.toLower = false → Text.isBlank c = false) (by decide)
      (hword.ascii c hc)
  refine Text.trimBlanks_of_ends ?_ ?_
  · intro c hc
    refine hplain c (List.mem_of_mem_head? hc) ((hends _ hword).1 _ ?_)
    rw [List.head?_map, hc]
    rfl
  · intro c hc
    refine hplain c (List.mem_of_getLast? hc) ((hends _ hword).2 _ ?_)
    rw [List.getLast?_map, hc]
    rfl

theorem IsSeverity.ofWord :
    Severity.ofWord (String.ofList word)
      = if word.map Char.toLower = "warning".toList then .warning else .error := by
  have hplain : Text.lower (Text.trimBlanks (String.ofList word).toList) = word.map Char.toLower := by
    rw [String.toList_ofList, hword.trimBlanks, Text.lower_of_ascii hword.ascii]
  unfold Severity.ofWord
  rw [hplain]
  have hall : ∀ w ∈ ["fatal error".toList, "error".toList, "warning".toList],
      (if String.ofList w = "error" ∨ String.ofList w = "fatal error" then Severity.error
        else if String.ofList w = "warning" then .warning else .info)
        = if w = "warning".toList then .warning else .error := by decide
  exact hall _ hword

end Severity

/-! ## 3. Writing a finding out -/

/-- A finding that a line can hold. -/
structure IsWritable (f : Finding) : Prop where
  path : IsPath f.path.toList
  severity : IsSeverity f.severity.toList
  message : '\n' ∉ f.message.toList

/-- The spelling in which a finding is written, without zeros in front. -/
def Spelling.ofFinding (f : Finding) : Spelling where
  path := f.path.toList
  row := Nat.toDigits 10 f.line.toNat
  column := Nat.toDigits 10 f.column.toNat
  severity := f.severity.toList
  message := f.message.toList

theorem isNumeral_toDigits (n : UInt32) : IsNumeral (Nat.toDigits 10 n.toNat) where
  nonempty := Nat.toDigits_ne_nil
  digits := fun _ hc => Nat.isDigit_of_mem_toDigits (by decide) (by decide) hc
  bound := by
    rw [Nat.ofDigitChars_ten_toDigits]
    exact Nat.le_of_lt_succ n.toNat_lt

theorem IsWritable.wellFormed {f : Finding} (hf : IsWritable f) : (Spelling.ofFinding f).WellFormed :=
  ⟨hf.path, isNumeral_toDigits f.line, isNumeral_toDigits f.column, hf.severity, hf.message⟩

theorem Spelling.finding_ofFinding (f : Finding) : (ofFinding f).finding = f := by
  unfold ofFinding finding
  simp only [Nat.ofDigitChars_ten_toDigits, String.ofList_toList, UInt32.ofNat_toNat]

theorem toList_render (f : Finding) : (render f).toList = (Spelling.ofFinding f).text := by
  unfold render Spelling.ofFinding Spelling.text
  simp

/-- A text ends as its message ends, or with the blank in front of an empty one. -/
theorem Spelling.getLast?_text {s : Spelling} : ∀ c ∈ s.text.getLast?, c = ' ' ∨ c ∈ s.message.getLast? := by
  intro c hc
  unfold text at hc
  simp only [List.getLast?_append, List.getLast?_cons] at hc
  cases hmessage : s.message.getLast? with
  | none =>
    left
    simpa [hmessage] using hc.symm
  | some last =>
    right
    simpa [hmessage] using hc

theorem Spelling.trimLineEnd_text {s : Spelling} (hs : s.WellFormed) (hlast : s.message.getLast? ≠ some '\r') :
    Text.trimLineEnd s.text = s.text := by
  refine Text.trimLineEnd_of_last ?_
  intro c hc
  rcases getLast?_text c hc with rfl | hc
  · decide
  · constructor
    · rintro rfl
      exact hlast hc
    · rintro rfl
      exact hs.message (List.mem_of_getLast? hc)

/-! ## 4. Together -/

theorem parse?_eq_some_iff {line : List Char} {f : Finding} :
    parse? line = some f ↔ ∃ s : Spelling, s.WellFormed ∧ Text.trimLineEnd line = s.text ∧ f = s.finding :=
  read?_eq_some_iff

theorem addTo_of_parse? {line : List Char} {f : Finding} (hparse : parse? line = some f) (found : Findings) :
    addTo found line = (true, found.push f) := by
  unfold addTo
  rw [hparse]

/-- What is made of a line, and of what was found before it. -/
structure Recognition (line : List Char) (found : Findings) : Prop where
  /-- The line is taken for a diagnostic just when it has a spelling, its end aside. -/
  accepted : (addTo found line).1 = true ↔ ∃ s : Spelling, s.WellFormed ∧ Text.trimLineEnd line = s.text
  /-- It has one spelling at most. -/
  unique : ∀ s t : Spelling, s.WellFormed → t.WellFormed → Text.trimLineEnd line = s.text →
    Text.trimLineEnd line = t.text → s = t
  /-- The finding that is spelled is added, … -/
  added : ∀ s : Spelling, s.WellFormed → Text.trimLineEnd line = s.text →
    (addTo found line).2 = found.push s.finding
  /-- … at the end of its group, … -/
  group : ∀ s : Spelling, s.WellFormed → Text.trimLineEnd line = s.text →
    (addTo found line).2.get? s.finding.path = some ((found.get? s.finding.path).getD [] ++ [s.finding])
  /-- … which is the only thing that changes. -/
  others : ∀ s : Spelling, s.WellFormed → Text.trimLineEnd line = s.text →
    (addTo found line).2.totalCount = found.totalCount + 1
      ∧ ∀ path, path ≠ s.finding.path → (addTo found line).2.get? path = found.get? path
  /-- Any other line changes nothing. -/
  refused : (addTo found line).1 = false → (addTo found line).2 = found
  /-- The word is an error or a warning, never information. -/
  graded : ∀ s : Spelling, s.WellFormed → Text.trimLineEnd line = s.text →
    Severity.ofWord s.finding.severity
      = if s.severity.map Char.toLower = "warning".toList then .warning else .error

theorem recognition (line : List Char) (found : Findings) : Recognition line found := by
  have hadd : ∀ s : Spelling, s.WellFormed → Text.trimLineEnd line = s.text →
      addTo found line = (true, found.push s.finding) := by
    intro s hs hline
    exact addTo_of_parse? (parse?_eq_some_iff.mpr ⟨s, hs, hline, rfl⟩) found
  refine ⟨⟨?_, ?_⟩, ?_, ?_, ?_, ?_, ?_, ?_⟩
  · intro haccepted
    unfold addTo at haccepted
    split at haccepted
    · rename_i f hparse
      obtain ⟨s, hs, hline, _⟩ := parse?_eq_some_iff.mp hparse
      exact ⟨s, hs, hline⟩
    · cases haccepted
  · rintro ⟨s, hs, hline⟩
    rw [hadd s hs hline]
  · intro s t hs ht hsline htline
    exact Spelling.text_injective hs ht (hsline.symm.trans htline)
  · intro s hs hline
    rw [hadd s hs hline]
  · intro s hs hline
    rw [hadd s hs hline]
    exact Findings.get?_push_self found s.finding
  · intro s hs hline
    rw [hadd s hs hline]
    exact ⟨Findings.totalCount_push found s.finding, fun path hne => Findings.get?_push_of_ne found hne⟩
  · intro hrefused
    unfold addTo at hrefused ⊢
    split at hrefused
    · cases hrefused
    · rfl
  · intro s hs _
    exact hs.severity.ofWord

/-- **A line is read exactly**: each line for what it is, and each finding that a line can hold for
itself when it has been written out. -/
theorem lines_read_exactly :
    (∀ line found, Recognition line found)
      ∧ ∀ f : Finding, IsWritable f → f.message.toList.getLast? ≠ some '\r' →
        ∀ found, addTo found (render f).toList = (true, found.push f) := by
  refine ⟨recognition, ?_⟩
  intro f hf hlast found
  have hline : Text.trimLineEnd (render f).toList = (Spelling.ofFinding f).text := by
    rw [toList_render]
    exact Spelling.trimLineEnd_text hf.wellFormed hlast
  exact addTo_of_parse? (parse?_eq_some_iff.mpr
    ⟨_, hf.wellFormed, hline, (Spelling.finding_ofFinding f).symm⟩) found

/-- A drive letter, a zero in front, a word in mixed case and a message that goes on like a header. -/
def driveFinding : Finding := ⟨"C:\\a.c", 3, 14, "Fatal ERROR", "no: error: x"⟩

theorem lines_read_exactly_drive :
    IsWritable driveFinding
      ∧ addTo .empty (render driveFinding).toList = (true, Findings.empty.push driveFinding)
      ∧ Recognition "C:\\a.c:3:014: Fatal ERROR: no: error: x\r\n".toList .empty := by
  have hwritable : IsWritable driveFinding :=
    ⟨⟨'C', ':', ['\\', 'a', '.', 'c'], by decide, by decide, by decide, by decide, by simp⟩, by decide,
      by decide⟩
  exact ⟨hwritable, lines_read_exactly.2 driveFinding hwritable (by decide) .empty,
    lines_read_exactly.1 _ .empty⟩

end Finding.Line

end SyntaxWatch
