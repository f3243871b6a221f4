import Mathlib.Data.List.Chain
import SyntaxWatch.Text.Lowercase

/-!
# The table of lower-case letters

`lowerIn` walks the runs of upper-case letters and stops at the first one that begins beyond the code
point. Nothing is missed by that, since the runs stand in rising order, so the walk finds the run that maps
a code point whenever there is one (`lowerLetter_iff`). And where a run leads, no run leads on: a lower-case
letter is its own (`lowerIn_lowerIn`).

What the table itself has to say for this is decided from the ends of its runs, two runs at a time, not from
the fifteen hundred letters between them.
-/

set_option autoImplicit false

namespace SyntaxWatch.Text

/-! ## 1. Runs -/

namespace CaseRun

variable {run other : CaseRun} {n : Nat}

/-- The code point is an upper-case letter of the run. -/
def Maps (run : CaseRun) (n : Nat) : Prop :=
  run.first ≤ n ∧ n ≤ run.last ∧ (n - run.first) % run.step = 0

/-- Where the run leads. -/
def target (run : CaseRun) (n : Nat) : Nat := (n + run.distance).toNat

/-- One run ends before the other begins. -/
def Before (run other : CaseRun) : Prop := run.first ≤ run.last ∧ run.last < other.first

instance decidableBefore (run other : CaseRun) : Decidable (run.Before other) :=
  inferInstanceAs (Decidable (_ ∧ _))

instance : IsTrans CaseRun Before :=
  ⟨fun _ _ _ hab hbc => ⟨hab.1, lt_trans (lt_of_lt_of_le hab.2 hbc.1) hbc.2⟩⟩

/-- The run goes in single steps or in double ones, and leads to characters, though never to the dotted
capital I. -/
structure Sound (run : CaseRun) : Prop where
  step : run.step = 1 ∨ run.step = 2
  positive : 0 < run.target run.first
  valid : run.target run.last < 0xD800 ∨ 0xDFFF < run.target run.first ∧ run.target run.last < 0x110000
  undotted : run.target run.last < 0x130 ∨ 0x130 < run.target run.first

/-- The run leads to no letter of the other: its targets lie before that one or behind it, or else in the
gaps between its double steps. -/
def clear (run other : CaseRun) : Bool :=
  (run.target run.last).blt other.first || other.last.blt (run.target run.first)
    || (other.step == 2 && (run.step == 2 || run.first == run.last)
      && (run.target run.first + other.first) % 2 == 1)

/-- The targets of a run lie between those of its ends. -/
theorem target_mem (hmaps : run.Maps n) :
    run.target run.first ≤ run.target n ∧ run.target n ≤ run.target run.last := by
  obtain ⟨hfirst, hlast, -⟩ := hmaps
  unfold target
  omega

theorem Sound.cast_target (hsound : run.Sound) (hmaps : run.Maps n) :
    (run.target n : Int) = n + run.distance := by
  have hpositive := hsound.positive
  have hbounds := target_mem hmaps
  unfold target at *
  omega

theorem Sound.isValidChar_target (hsound : run.Sound) (hmaps : run.Maps n) : (run.target n).isValidChar := by
  have hbounds := target_mem hmaps
  have hvalid := hsound.valid
  unfold Nat.isValidChar
  omega

theorem Sound.target_ne_dotted (hsound : run.Sound) (hmaps : run.Maps n) : run.target n ≠ 0x130 := by
  have hbounds := target_mem hmaps
  have hundotted := hsound.undotted
  omega

theorem Sound.not_maps_target (hsound : run.Sound) (hclear : run.clear other = true) (hmaps : run.Maps n) :
    ¬ other.Maps (run.target n) := by
  intro htarget
  have hbounds := target_mem hmaps
  obtain ⟨hfirst, hlast, hstep⟩ := htarget
  unfold clear at hclear
  simp only [Bool.or_eq_true, Bool.and_eq_true, Nat.blt_eq, beq_iff_eq] at hclear
  rcases hclear with (hbehind | hbefore) | ⟨⟨hdouble, hsteps⟩, hodd⟩
  · omega
  · omega
  · -- all targets of the run have the parity that the other's letters have not
    have hcast := hsound.cast_target hmaps
    have hcastFirst := hsound.cast_target (n := run.first)
      ⟨le_rfl, hmaps.1.trans hmaps.2.1, by rw [Nat.sub_self, Nat.zero_mod]⟩
    obtain ⟨hn, hn', hparity⟩ := hmaps
    rw [hdouble] at hstep
    rcases hsteps with hsteps | hsingle
    · rw [hsteps] at hparity
      omega
    · omega

end CaseRun

/-! ## 2. The walk -/

section Walk

variable {runs : List CaseRun} {n : Nat}

theorem lowerIn_of_maps (hrising : runs.Pairwise CaseRun.Before) {run : CaseRun} (hrun : run ∈ runs)
    (hmaps : run.Maps n) : lowerIn runs n = run.target n := by
  induction runs with
  | nil => cases hrun
  | cons head rest ih =>
    obtain ⟨hhead, hrest⟩ := List.pairwise_cons.mp hrising
    obtain ⟨hfirst, hlast, hstep⟩ := hmaps
    unfold lowerIn
    rcases List.mem_cons.mp hrun with rfl | hrun
    · rw [if_neg (by omega), if_pos ⟨hlast, hstep⟩]
      rfl
    · obtain ⟨hordered, hbefore⟩ := hhead run hrun
      rw [if_neg (by omega), if_neg (by omega)]
      exact ih hrest hrun

theorem lowerIn_of_not_maps (hnone : ∀ run ∈ runs, ¬ run.Maps n) : lowerIn runs n = n := by
  induction runs with
  | nil => rfl
  | cons head rest ih =>
    have hhead := hnone head List.mem_cons_self
    have hrest := ih fun run hrun => hnone run (List.mem_cons_of_mem head hrun)
    unfold lowerIn
    split_ifs with hbefore hmaps
    · rfl
    · exact absurd ⟨not_lt.mp hbefore, hmaps⟩ hhead
    · exact hrest

end Walk

/-! ## 3. The table -/

theorem caseRuns_rising : caseRuns.Pairwise CaseRun.Before :=
  List.IsChain.pairwise (by decide +kernel)

theorem caseRuns_sound : ∀ run ∈ caseRuns, run.Sound := by
  have htable : ∀ run ∈ caseRuns, (run.step = 1 ∨ run.step = 2) ∧ 0 < run.target run.first
      ∧ (run.target run.last < 0xD800 ∨ 0xDFFF < run.target run.first ∧ run.target run.last < 0x110000)
      ∧ (run.target run.last < 0x130 ∨ 0x130 < run.target run.first) := by decide +kernel
  intro run hrun
  obtain ⟨hstep, hpositive, hvalid, hundotted⟩ := htable run hrun
  exact ⟨hstep, hpositive, hvalid, hundotted⟩

theorem caseRuns_clear {run other : CaseRun} (hrun : run ∈ caseRuns) (hother : other ∈ caseRuns) :
    run.clear other = true := by
  have htable : (caseRuns.all fun run => caseRuns.all run.clear) = true := by decide +kernel
  exact List.all_eq_true.mp (List.all_eq_true.mp htable run hrun) other hother

/-- A code point is where some run leads from it, or nothing maps it. -/
theorem lowerIn_cases (n : Nat) :
    (∃ run ∈ caseRuns, run.Maps n ∧ lowerIn caseRuns n = run.target n)
      ∨ (∀ run ∈ caseRuns, ¬ run.Maps n) ∧ lowerIn caseRuns n = n := by
  by_cases hmapped : ∃ run ∈ caseRuns, run.Maps n
  · obtain ⟨run, hrun, hmaps⟩ := hmapped
    exact .inl ⟨run, hrun, hmaps, lowerIn_of_maps caseRuns_rising hrun hmaps⟩
  · have hnone : ∀ run ∈ caseRuns, ¬ run.Maps n := fun run hrun hmaps => hmapped ⟨run, hrun, hmaps⟩
    exact .inr ⟨hnone, lowerIn_of_not_maps hnone⟩

/-- **A lower-case letter is its own.** -/
theorem lowerIn_lowerIn (n : Nat) : lowerIn caseRuns (lowerIn caseRuns n) = lowerIn caseRuns n := by
  rcases lowerIn_cases n with ⟨run, hrun, hmaps, htarget⟩ | ⟨-, hsame⟩
  · rw [htarget]
    exact lowerIn_of_not_maps fun other hother =>
      (caseRuns_sound run hrun).not_maps_target (caseRuns_clear hrun hother) hmaps
  · rw [hsame, hsame]

/-! ## 4. Letters -/

/-- `d` is the lower-case letter of `c` after the table: the one to which a run leads from `c`, or `c`
itself if it is on no run. -/
def LowerLetter (c d : Char) : Prop :=
  (∃ run ∈ caseRuns, run.Maps c.toNat ∧ (d.toNat : Int) = c.toNat + run.distance)
    ∨ (∀ run ∈ caseRuns, ¬ run.Maps c.toNat) ∧ d = c

theorem isValidChar_lowerIn (c : Char) : (lowerIn caseRuns c.toNat).isValidChar := by
  rcases lowerIn_cases c.toNat with ⟨run, hrun, hmaps, htarget⟩ | ⟨-, hsame⟩
  · rw [htarget]
    exact (caseRuns_sound run hrun).isValidChar_target hmaps
  · rw [hsame]
    exact c.valid

theorem toNat_lowerIn (c : Char) :
    (Char.ofNat (lowerIn caseRuns c.toNat)).toNat = lowerIn caseRuns c.toNat := by
  rw [Char.ofNat, dif_pos (isValidChar_lowerIn c)]
  rfl

theorem lowerLetter_iff {c d : Char} : LowerLetter c d ↔ Char.ofNat (lowerIn caseRuns c.toNat) = d := by
  have hsame : Char.ofNat (lowerIn caseRuns c.toNat) = d ↔ lowerIn caseRuns c.toNat = d.toNat := by
    rw [← Char.toNat_inj, toNat_lowerIn]
  rw [hsame]
  constructor
  · rintro (⟨run, hrun, hmaps, hd⟩ | ⟨hnone, rfl⟩)
    · have hcast := (caseRuns_sound run hrun).cast_target hmaps
      rw [lowerIn_of_maps caseRuns_rising hrun hmaps]
      omega
    · exact lowerIn_of_not_maps hnone
  · intro hd
    rcases lowerIn_cases c.toNat with ⟨run, hrun, hmaps, htarget⟩ | ⟨hnone, hc⟩
    · have hcast := (caseRuns_sound run hrun).cast_target hmaps
      exact .inl ⟨run, hrun, hmaps, by omega⟩
    · exact .inr ⟨hnone, Char.toNat_inj.mp (hd.symm.trans hc)⟩

end SyntaxWatch.Text
