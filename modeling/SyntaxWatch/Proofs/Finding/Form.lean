import SyntaxWatch.Finding.Line
import SyntaxWatch.Proofs.Finding.Grouping
import SyntaxWatch.Proofs.Text.AsciiCase
import SyntaxWatch.Severity

/-!
# The form of a line

`Finding.Line.read?` finds its way through a line from the front. `Spelling` says what it looks for
without reading anything: five parts, a condition on each, and the text that they make together. A
line is taken for a diagnostic just when it is such a text, and it is one in at most one way.

The second is the less obvious half. The two free characters of the path can be colons or digits, so
a line may look as if it had a whole header inside its path, and another one may stand in its
message. But each part ends at a colon that it cannot hold, the path from its third character on, so
the first reading is the only one.

Every reader of a part has an equation of the same kind: it answers with a part and a rest just when
the part is well formed and the input is the part, its colon and the rest.
-/

set_option autoImplicit false

namespace SyntaxWatch.Finding.Line

/-! ## 1. The parts -/

/-- Two characters that are free but for line feeds, and at least one of those that may follow. -/
def IsPath (path : List Char) : Prop :=
  ∃ a b body, path = a :: b :: body ∧ a ≠ '\n' ∧ b ≠ '\n' ∧ body ≠ []
    ∧ ∀ c ∈ body, c ∉ [':', '\r', '\n', '~', '$', '%', '^']

/-- Digits of ASCII, as many zeros in front as there may be, for a number of 32 bits. -/
structure IsNumeral (numeral : List Char) : Prop where
  nonempty : numeral ≠ []
  digits : ∀ c ∈ numeral, c.isDigit = true
  bound : Nat.ofDigitChars 10 numeral 0 ≤ 4294967295

/-- One of the three words, each letter in either case. -/
def IsSeverity (word : List Char) : Prop :=
  word.map Char.toLower ∈ ["fatal error".toList, "error".toList, "warning".toList]

instance (word : List Char) : Decidable (IsSeverity word) := inferInstanceAs (Decidable (_ ∈ _))

/-- The parts of a line, as they are written. -/
structure Spelling where
  path : List Char
  row : List Char
  column : List Char
  severity : List Char
  message : List Char

namespace Spelling

structure WellFormed (s : Spelling) : Prop where
  path : IsPath s.path
  row : IsNumeral s.row
  column : IsNumeral s.column
  severity : IsSeverity s.severity
  message : '\n' ∉ s.message

def text (s : Spelling) : List Char :=
  s.path ++ ':' :: (s.row ++ ':' :: (s.column ++ ':' :: ' ' :: (s.severity ++ ':' :: ' ' :: s.message)))

def finding (s : Spelling) : Finding where
  path := String.ofList s.path
  line := UInt32.ofNat (Nat.ofDigitChars 10 s.row 0)
  column := UInt32.ofNat (Nat.ofDigitChars 10 s.column 0)
  severity := String.ofList s.severity
  message := String.ofList s.message

end Spelling

/-! ## 2. Where a part ends -/

section Stop

variable {p : Char → Bool} {part : List Char} {stop : Char}

theorem takeWhile_part (hpart : ∀ c ∈ part, p c = true) (hstop : p stop = false) (rest : List Char) :
    (part ++ stop :: rest).takeWhile p = part := by
  rw [List.takeWhile_append_of_pos hpart, List.takeWhile_cons_of_neg (by simp [hstop]), List.append_nil]

theorem dropWhile_part (hpart : ∀ c ∈ part, p c = true) (hstop : p stop = false) (rest : List Char) :
    (part ++ stop :: rest).dropWhile p = stop :: rest := by
  rw [List.dropWhile_append_of_pos hpart, List.dropWhile_cons_of_neg (by simp [hstop])]

/-- A part and what follows its stop are all that a text can be cut into there. -/
theorem part_unique {part' rest rest' : List Char} (hpart : ∀ c ∈ part, p c = true)
    (hpart' : ∀ c ∈ part', p c = true) (hstop : p stop = false)
    (htext : part ++ stop :: rest = part' ++ stop :: rest') : part = part' ∧ rest = rest' := by
  constructor
  · rw [← takeWhile_part hpart hstop rest, htext, takeWhile_part hpart' hstop]
  · have hdrop := dropWhile_part hpart hstop rest
    rw [htext, dropWhile_part hpart' hstop] at hdrop
    exact (List.tail_eq_of_cons_eq hdrop).symm

end Stop

/-! ## 3. The path -/

theorem isPathChar_iff {c : Char} :
    isPathChar c = true ↔ c ∉ [':', '\r', '\n', '~', '$', '%', '^'] := by
  simp [isPathChar, and_assoc]

theorem readPath?_eq_some_iff {text path after : List Char} :
    readPath? text = some (path, after) ↔ IsPath path ∧ text = path ++ ':' :: after := by
  constructor
  · intro hread
    unfold readPath? at hread
    split at hread
    · rename_i a b rest
      split at hread
      · cases hread
      · rename_i hfree
        rw [not_or] at hfree
        have hjoin := rest.takeWhile_append_dropWhile (p := isPathChar)
        dsimp only at hread
        split at hread
        · cases hread
        · rename_i c body after' hbody hafter
          rw [hafter] at hjoin
          cases hread
          refine ⟨⟨a, b, rest.takeWhile isPathChar, rfl, hfree.1, hfree.2, ?_, ?_⟩, ?_⟩
          · rw [hbody]
            exact List.cons_ne_nil c body
          · intro x hx
            exact isPathChar_iff.mp (List.all_eq_true.mp List.all_takeWhile x hx)
          · rw [List.cons_append, List.cons_append, hjoin]
        · cases hread
    · cases hread
  · rintro ⟨⟨a, b, body, rfl, ha, hb, hbody, hall⟩, rfl⟩
    have hchars : ∀ c ∈ body, isPathChar c = true := fun c hc => isPathChar_iff.mpr (hall c hc)
    obtain ⟨c, body, rfl⟩ := List.exists_cons_of_ne_nil hbody
    unfold readPath?
    simp only [List.cons_append, ha, hb, or_self, if_false]
    rw [← List.cons_append, takeWhile_part hchars (by decide), dropWhile_part hchars (by decide)]
    rfl

/-! ## 4. The numbers -/

theorem asciiValue?_of_digits {numeral : List Char} (hdigits : ∀ c ∈ numeral, c.isDigit = true)
    (before : Nat) : Text.asciiValue? before numeral = some (Nat.ofDigitChars 10 numeral before) := by
  induction numeral generalizing before with
  | nil => rfl
  | cons c rest ih =>
    unfold Text.asciiValue?
    rw [if_pos (hdigits c List.mem_cons_self), ih (fun x hx => hdigits x (List.mem_cons_of_mem c hx)),
      Nat.ofDigitChars_cons, Nat.mul_comm]
    rfl

theorem asciiDigits?_of_digits {numeral : List Char} (hdigits : ∀ c ∈ numeral, c.isDigit = true)
    (hne : numeral ≠ []) : Text.asciiDigits? numeral = some (Nat.ofDigitChars 10 numeral 0) := by
  obtain ⟨c, rest, rfl⟩ := List.exists_cons_of_ne_nil hne
  exact asciiValue?_of_digits hdigits 0

theorem readNumber?_eq_some_iff {text after : List Char} {n : UInt32} :
    readNumber? text = some (n, after) ↔
      ∃ numeral, IsNumeral numeral ∧ n = UInt32.ofNat (Nat.ofDigitChars 10 numeral 0)
        ∧ text = numeral ++ ':' :: after := by
  constructor
  · intro hread
    have hdigits : ∀ c ∈ text.takeWhile Char.isDigit, c.isDigit = true :=
      List.all_eq_true.mp List.all_takeWhile
    have hjoin := text.takeWhile_append_dropWhile (p := Char.isDigit)
    unfold readNumber? at hread
    dsimp only at hread
    split at hread
    · rename_i value after' hvalue hafter
      split at hread
      · rename_i hbound
        cases hread
        have hne : text.takeWhile Char.isDigit ≠ [] := by
          intro hnone
          rw [hnone] at hvalue
          cases hvalue
        rw [asciiDigits?_of_digits hdigits hne] at hvalue
        cases hvalue
        rw [hafter] at hjoin
        exact ⟨_, ⟨hne, hdigits, Nat.le_of_lt_succ hbound⟩, rfl, hjoin.symm⟩
      · cases hread
    · cases hread
  · rintro ⟨numeral, hnumeral, rfl, rfl⟩
    unfold readNumber?
    dsimp only
    rw [takeWhile_part hnumeral.digits (by decide), dropWhile_part hnumeral.digits (by decide),
      asciiDigits?_of_digits hnumeral.digits hnumeral.nonempty]
    exact if_pos (Nat.lt_succ_of_le hnumeral.bound)

/-! ## 5. The severity -/

theorem takeWord?_eq_some_iff {word text taken rest : List Char} :
    takeWord? word text = some (taken, rest) ↔ taken.map Char.toLower = word ∧ text = taken ++ rest := by
  induction word generalizing text taken with
  | nil =>
    unfold takeWord?
    constructor
    · intro h
      cases h
      exact ⟨rfl, rfl⟩
    · rintro ⟨hmap, rfl⟩
      rw [List.map_eq_nil_iff.mp hmap]
      rfl
  | cons w word ih =>
    cases text with
    | nil =>
      unfold takeWord?
      constructor
      · intro h
        cases h
      · rintro ⟨hmap, htext⟩
        obtain ⟨rfl, _⟩ := List.append_eq_nil_iff.mp htext.symm
        cases hmap
    | cons c text =>
      unfold takeWord?
      constructor
      · intro h
        split at h
        · rename_i hc
          obtain ⟨⟨taken', rest'⟩, hword, heq⟩ := Option.map_eq_some_iff.mp h
          cases heq
          obtain ⟨hmap, rfl⟩ := ih.mp hword
          exact ⟨by rw [List.map_cons, hc, hmap], rfl⟩
        · cases h
      · rintro ⟨hmap, htext⟩
        cases taken with
        | nil => cases hmap
        | cons x taken =>
          have hx : c = x := List.head_eq_of_cons_eq htext
          have htail : takeWord? word text = some (taken, rest) :=
            ih.mpr ⟨List.tail_eq_of_cons_eq hmap, List.tail_eq_of_cons_eq htext⟩
          subst hx
          rw [if_pos (List.head_eq_of_cons_eq hmap), htail]
          rfl

/-- No word holds a colon, in whatever case it is written. -/
theorem IsSeverity.ne_colon {word : List Char} (hword : IsSeverity word) :
    ∀ c ∈ word, decide (c ≠ ':') = true := by
  intro c hc
  have hmem : c.toLower ∈ word.map Char.toLower := List.mem_map_of_mem hc
  have hfree : ∀ w ∈ ["fatal error".toList, "error".toList, "warning".toList], ':' ∉ w := by decide
  rw [decide_eq_true_eq]
  rintro rfl
  exact hfree _ hword hmem

theorem readSeverity?_eq_some_iff {text severity message : List Char} :
    readSeverity? text = some (severity, message) ↔
      IsSeverity severity ∧ text = severity ++ ':' :: ' ' :: message := by
  have hsound : ∀ {severity message}, readSeverity? text = some (severity, message) →
      IsSeverity severity ∧ text = severity ++ ':' :: ' ' :: message := by
    intro severity message hread
    obtain ⟨word, hword, hmatch⟩ := List.exists_of_findSome?_eq_some hread
    split at hmatch
    · rename_i htake
      cases hmatch
      obtain ⟨hmap, htext⟩ := takeWord?_eq_some_iff.mp htake
      refine ⟨?_, htext⟩
      unfold IsSeverity
      rw [hmap]
      exact hword
    · cases hmatch
  refine ⟨hsound, ?_⟩
  rintro ⟨hseverity, htext⟩
  -- some word is found, and the text leaves no choice as to which
  have hsome : (readSeverity? text).isSome = true := by
    unfold readSeverity?
    rw [List.findSome?_isSome_iff]
    refine ⟨severity.map Char.toLower, hseverity, ?_⟩
    rw [takeWord?_eq_some_iff.mpr ⟨rfl, htext⟩]
    rfl
  obtain ⟨⟨severity', message'⟩, hread⟩ := Option.isSome_iff_exists.mp hsome
  obtain ⟨hseverity', htext'⟩ := hsound hread
  obtain ⟨rfl, hmessage⟩ := part_unique (p := fun c => decide (c ≠ ':')) hseverity.ne_colon
    hseverity'.ne_colon (by decide) (htext.symm.trans htext')
  cases hmessage
  exact hread

/-! ## 6. The whole line -/

/-- **A line is read just when it is the text of a spelling**, and then as that spelling says. -/
theorem read?_eq_some_iff {line : List Char} {f : Finding} :
    read? line = some f ↔ ∃ s : Spelling, s.WellFormed ∧ line = s.text ∧ f = s.finding := by
  constructor
  · intro hread
    unfold read? at hread
    split at hread
    · cases hread
    · rename_i path afterPath hreadPath
      split at hread
      · cases hread
      · rename_i row afterRow hreadRow
        split at hread
        · rename_i column afterColumn hreadColumn
          split at hread
          · cases hread
          · rename_i severity message hreadSeverity
            split at hread
            · cases hread
            · rename_i hmessage
              cases hread
              obtain ⟨hpath, rfl⟩ := readPath?_eq_some_iff.mp hreadPath
              obtain ⟨rowText, hrow, rfl, rfl⟩ := readNumber?_eq_some_iff.mp hreadRow
              obtain ⟨columnText, hcolumn, rfl, rfl⟩ := readNumber?_eq_some_iff.mp hreadColumn
              obtain ⟨hseverity, rfl⟩ := readSeverity?_eq_some_iff.mp hreadSeverity
              exact ⟨⟨path, rowText, columnText, severity, message⟩,
                ⟨hpath, hrow, hcolumn, hseverity, hmessage⟩, rfl, rfl⟩
        · cases hread
  · rintro ⟨s, hs, rfl, rfl⟩
    unfold read? Spelling.text
    simp only [readPath?_eq_some_iff.mpr ⟨hs.path, rfl⟩,
      readNumber?_eq_some_iff.mpr ⟨s.row, hs.row, rfl, rfl⟩,
      readNumber?_eq_some_iff.mpr ⟨s.column, hs.column, rfl, rfl⟩,
      readSeverity?_eq_some_iff.mpr ⟨hs.severity, rfl⟩]
    exact if_neg hs.message

/-- **A text has one spelling at most.** -/
theorem Spelling.text_injective {s t : Spelling} (hs : s.WellFormed) (ht : t.WellFormed)
    (htext : s.text = t.text) : s = t := by
  obtain ⟨sPath, sRow, sColumn, sSeverity, sMessage⟩ := s
  obtain ⟨tPath, tRow, tColumn, tSeverity, tMessage⟩ := t
  have hpath : some (sPath, _) = some (tPath, _) :=
    (readPath?_eq_some_iff.mpr ⟨hs.path, rfl⟩).symm.trans (readPath?_eq_some_iff.mpr ⟨ht.path, htext⟩)
  obtain ⟨rfl, hafterPath⟩ := Prod.mk.inj (Option.some.inj hpath)
  obtain ⟨rfl, hafterRow⟩ := part_unique hs.row.digits ht.row.digits (by decide) hafterPath
  obtain ⟨rfl, hafterColumn⟩ := part_unique hs.column.digits ht.column.digits (by decide) hafterRow
  obtain ⟨rfl, hafterSeverity⟩ := part_unique hs.severity.ne_colon ht.severity.ne_colon (by decide)
    (List.tail_eq_of_cons_eq hafterColumn)
  obtain rfl : sMessage = tMessage := List.tail_eq_of_cons_eq hafterSeverity
  rfl

end SyntaxWatch.Finding.Line
