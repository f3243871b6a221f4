import Mathlib.Data.List.Forall2
import Mathlib.Data.List.Nodup
import SyntaxWatch.Settings.Decode

/-!
# What settings may look like

Which data are settings, and which settings they are, is said here as a relation, `Spells`, without going
through the data: what stands under which name, of what type it is, and what holds for a name under which
nothing stands. Reading gives the settings that are spelled, and nothing when none are
(`ofValue?_eq_some_iff`); so `null` is accepted in no field, both spellings of a name in no entry, and a
list with more items than there are fields nowhere.
-/

set_option autoImplicit false

namespace SyntaxWatch.Settings

variable {fields : List (String × Value)} {names : List String} {v : Value} {α : Type}
  {read? : Value → Option α} {x : α}

/-! ## 1. Names -/

/-- The value stands under one of the names, and no value under another one of them. -/
def Given (fields : List (String × Value)) (names : List String) (v : Value) : Prop :=
  ∃ name ∈ names, Value.field? fields name = some v
    ∧ ∀ other ∈ names, other ≠ name → Value.field? fields other = none

theorem given_cons_of_none {name : String} (hname : Value.field? fields name = none) :
    Given fields (name :: names) v ↔ Given fields names v := by
  constructor
  · rintro ⟨found, hmem, hfound, hothers⟩
    rcases List.mem_cons.mp hmem with rfl | hmem
    · exact absurd (hname.symm.trans hfound) nofun
    · exact ⟨found, hmem, hfound, fun other hother => hothers other (List.mem_cons_of_mem name hother)⟩
  · rintro ⟨found, hmem, hfound, hothers⟩
    refine ⟨found, List.mem_cons_of_mem name hmem, hfound, fun other hother hne => ?_⟩
    rcases List.mem_cons.mp hother with rfl | hother
    · exact hname
    · exact hothers other hother hne

theorem given_cons_of_some {name : String} {w : Value} (hname : Value.field? fields name = some w)
    (hnew : name ∉ names) :
    Given fields (name :: names) v ↔ w = v ∧ ∀ other ∈ names, Value.field? fields other = none := by
  constructor
  · rintro ⟨found, hmem, hfound, hothers⟩
    rcases List.mem_cons.mp hmem with rfl | hmem
    · refine ⟨Option.some.inj (hname.symm.trans hfound), fun other hother => ?_⟩
      exact hothers other (List.mem_cons_of_mem found hother) (ne_of_mem_of_not_mem hother hnew)
    · have hne : name ≠ found := (ne_of_mem_of_not_mem hmem hnew).symm
      exact absurd (hname.symm.trans (hothers name List.mem_cons_self hne)) nofun
  · rintro ⟨rfl, hothers⟩
    refine ⟨name, List.mem_cons_self, hname, fun other hother hne => ?_⟩
    exact hothers other ((List.mem_cons.mp hother).resolve_left hne)

/-- All that stands under the names, in their order, is one value just when that value is given. -/
theorem filterMap_field?_eq_singleton_iff (hnames : names.Nodup) :
    names.filterMap (Value.field? fields) = [v] ↔ Given fields names v := by
  induction names with
  | nil => exact ⟨nofun, fun ⟨_, hmem, _⟩ => nomatch hmem⟩
  | cons name names ih =>
    obtain ⟨hnew, hrest⟩ := List.nodup_cons.mp hnames
    cases hname : Value.field? fields name with
    | none => rw [List.filterMap_cons_none hname, given_cons_of_none hname, ih hrest]
    | some w =>
      rw [List.filterMap_cons_some hname, given_cons_of_some hname hnew, List.cons_eq_cons,
        List.filterMap_eq_nil_iff]

theorem fieldUnder?_eq_some_some_iff (hnames : names.Nodup) :
    fieldUnder? fields names = some (some v) ↔ Given fields names v := by
  rw [← filterMap_field?_eq_singleton_iff hnames]
  unfold fieldUnder?
  split <;> simp_all

theorem required?_eq_some_iff (hnames : names.Nodup) :
    required? fields names read? = some x ↔ ∃ v, Given fields names v ∧ read? v = some x := by
  simp only [← fieldUnder?_eq_some_some_iff hnames]
  unfold required?
  split <;> simp_all

theorem optional?_eq_some_iff {name : String} {default : α} :
    optional? fields name default read? = some x ↔
      (∃ v, Value.field? fields name = some v ∧ read? v = some x)
        ∨ Value.field? fields name = none ∧ x = default := by
  unfold optional?
  cases Value.field? fields name with
  | none => simp [eq_comm]
  | some v => simp

/-! ## 2. Types -/

theorem natural?_eq_some_iff {n : Nat} : natural? v = some n ↔ v = .int n ∧ n < UInt64.size := by
  unfold natural?
  split
  next m =>
    split_ifs with hrange
    · obtain ⟨k, rfl⟩ := Int.eq_ofNat_of_zero_le hrange.1
      have hk : k < UInt64.size := by exact_mod_cast hrange.2
      rw [Option.some.injEq, Value.int.injEq]
      constructor
      · rintro rfl
        exact ⟨rfl, hk⟩
      · rintro ⟨hn, -⟩
        exact Int.ofNat_inj.mp hn
    · refine ⟨nofun, ?_⟩
      rintro ⟨hm, hn⟩
      obtain rfl := Value.int.inj hm
      exact absurd ⟨Int.natCast_nonneg n, by exact_mod_cast hn⟩ hrange
  next hother => exact ⟨nofun, fun ⟨hv, _⟩ => absurd hv (hother n)⟩

theorem text?_eq_some_iff {s : String} : text? v = some s ↔ v = .text s := by
  cases v <;> simp [text?]

theorem mapM_eq_some_iff {item? : Value → Option α} {items : List Value} {xs : List α} :
    items.mapM item? = some xs ↔ List.Forall₂ (fun item x => item? item = some x) items xs := by
  induction items generalizing xs with
  | nil => simp [eq_comm]
  | cons item items ih =>
    rw [List.mapM_cons, List.forall₂_cons_left_iff]
    simp only [Option.bind_eq_bind, Option.bind_eq_some_iff, Option.pure_def, Option.some.injEq, ih]
    constructor
    · rintro ⟨y, hy, ys, hys, rfl⟩
      exact ⟨y, ys, hy, hys, rfl⟩
    · rintro ⟨y, ys, hy, hys, rfl⟩
      exact ⟨y, hy, ys, hys, rfl⟩

theorem listOf?_eq_some_iff {item? : Value → Option α} {xs : List α} :
    listOf? item? v = some xs ↔
      ∃ items, v = .list items ∧ List.Forall₂ (fun item x => item? item = some x) items xs := by
  cases v <;> simp [listOf?, mapM_eq_some_iff]

/-- A list of texts, as data. -/
def texts (ss : List String) : Value := .list (ss.map .text)

theorem texts?_eq_some_iff {ss : List String} : listOf? text? v = some ss ↔ v = texts ss := by
  simp only [listOf?_eq_some_iff, text?_eq_some_iff]
  unfold texts
  constructor
  · rintro ⟨items, rfl, hitems⟩
    have hsame : items = ss.map .text := by
      rw [← List.forall₂_eq_eq_eq, List.forall₂_map_right_iff]
      exact hitems
    rw [hsame]
  · rintro rfl
    refine ⟨ss.map .text, rfl, ?_⟩
    rw [List.forall₂_map_left_iff]
    exact List.forall₂_same.mpr fun _ _ => rfl

/-! ## 3. The two records -/

/-- The data spell a checker's entry: a table with each name that it must have in just one spelling, or a
list of all four fields. -/
inductive SpellsEntry : Value → CheckerEntry → Prop
  | table {fields : List (String × Value)} {e : CheckerEntry}
      (command : Given fields ["command"] (.text e.command))
      (displayName : Given fields ["display_name", "displayName"] (.text e.displayName))
      (arguments : Value.field? fields "arguments" = some (texts e.arguments)
        ∨ Value.field? fields "arguments" = none ∧ e.arguments = [])
      (languageIds : Given fields ["language_ids", "languageIds"] (texts e.languageIds)) :
      SpellsEntry (.table fields) e
  | list (e : CheckerEntry) :
      SpellsEntry (.list [.text e.command, .text e.displayName, texts e.arguments, texts e.languageIds]) e

/-- The data are a list of entries. -/
def SpellsEntries (v : Value) (es : List CheckerEntry) : Prop :=
  ∃ items, v = .list items ∧ List.Forall₂ SpellsEntry items es

/-- The data are a number of milliseconds that fits into 64 bits. -/
def SpellsDelay (v : Value) (delay : Nat) : Prop := v = .int delay ∧ delay < UInt64.size

/-- The data spell settings: a table, or a list of the two fields that may stop before either. -/
inductive Spells : Value → Settings → Prop
  | table {fields : List (String × Value)} {s : Settings}
      (delay : (∃ v, Value.field? fields "delay" = some v ∧ SpellsDelay v s.delay)
        ∨ Value.field? fields "delay" = none ∧ s.delay = 500)
      (checkers : (∃ v, Value.field? fields "checkers" = some v ∧ SpellsEntries v s.checkers)
        ∨ Value.field? fields "checkers" = none ∧ s.checkers = []) :
      Spells (.table fields) s
  | nothing : Spells (.list []) ⟨500, []⟩
  | delay {v : Value} {delay : Nat} (hdelay : SpellsDelay v delay) : Spells (.list [v]) ⟨delay, []⟩
  | both {v w : Value} {s : Settings} (hdelay : SpellsDelay v s.delay) (hcheckers : SpellsEntries w s.checkers) :
      Spells (.list [v, w]) s

theorem entry?_eq_some_iff {e : CheckerEntry} : entry? v = some e ↔ SpellsEntry v e := by
  unfold entry?
  split
  next fields =>
    have hdisplayName : ["display_name", "displayName"].Nodup := by decide
    have hlanguageIds : ["language_ids", "languageIds"].Nodup := by decide
    simp only [Option.bind_eq_bind, Option.bind_eq_some_iff, required?_eq_some_iff (List.nodup_singleton _),
      required?_eq_some_iff hdisplayName, required?_eq_some_iff hlanguageIds, optional?_eq_some_iff,
      text?_eq_some_iff, texts?_eq_some_iff, exists_eq_right]
    constructor
    · rintro ⟨command, hcommand, displayName, hdisplayName, arguments, harguments, languageIds, hlanguageIds, he⟩
      cases he
      exact .table hcommand hdisplayName harguments hlanguageIds
    · rintro ⟨hcommand, hdisplayName, harguments, hlanguageIds⟩
      exact ⟨e.command, hcommand, e.displayName, hdisplayName, e.arguments, harguments, e.languageIds,
        hlanguageIds, rfl⟩
  next =>
    simp only [Option.bind_eq_bind, Option.bind_eq_some_iff, text?_eq_some_iff, texts?_eq_some_iff]
    constructor
    · rintro ⟨command, rfl, displayName, rfl, arguments, rfl, languageIds, rfl, he⟩
      cases he
      exact .list ⟨command, displayName, arguments, languageIds⟩
    · rintro ⟨⟩
      exact ⟨e.command, rfl, e.displayName, rfl, e.arguments, rfl, e.languageIds, rfl, rfl⟩
  next htable hlist =>
    refine ⟨nofun, ?_⟩
    rintro (⟨_, _, _, _⟩ | _)
    · exact absurd rfl (htable _)
    · exact absurd rfl (hlist _ _ _ _)

theorem entries?_eq_some_iff {es : List CheckerEntry} : listOf? entry? v = some es ↔ SpellsEntries v es := by
  simp only [listOf?_eq_some_iff, entry?_eq_some_iff]
  rfl

theorem ofTable?_eq_some_iff {s : Settings} : ofTable? fields = some s ↔ Spells (.table fields) s := by
  unfold ofTable?
  simp only [Option.bind_eq_bind, Option.bind_eq_some_iff, optional?_eq_some_iff, natural?_eq_some_iff,
    entries?_eq_some_iff]
  constructor
  · rintro ⟨delay, hdelay, checkers, hcheckers, hs⟩
    cases hs
    exact .table hdelay hcheckers
  · rintro ⟨hdelay, hcheckers⟩
    exact ⟨s.delay, hdelay, s.checkers, hcheckers, rfl⟩

/-- **Reading gives the settings that are spelled.** -/
theorem ofValue?_eq_some_iff {s : Settings} : ofValue? v = some s ↔ Spells v s := by
  unfold ofValue?
  split
  next => exact ofTable?_eq_some_iff
  next =>
    constructor
    · rintro ⟨⟩
      exact .nothing
    · rintro ⟨⟩
      rfl
  next =>
    simp only [Option.bind_eq_bind, Option.bind_eq_some_iff, natural?_eq_some_iff]
    constructor
    · rintro ⟨delay, hdelay, hs⟩
      cases hs
      exact .delay hdelay
    · rintro (_ | _ | hdelay)
      exact ⟨_, hdelay, rfl⟩
  next =>
    simp only [Option.bind_eq_bind, Option.bind_eq_some_iff, natural?_eq_some_iff, entries?_eq_some_iff]
    constructor
    · rintro ⟨delay, hdelay, checkers, hcheckers, hs⟩
      cases hs
      exact .both hdelay hcheckers
    · rintro (_ | _ | _ | ⟨hdelay, hcheckers⟩)
      exact ⟨s.delay, hdelay, s.checkers, hcheckers, rfl⟩
  next htable hnothing hdelay hboth =>
    refine ⟨nofun, ?_⟩
    rintro (_ | _ | _ | _)
    · exact absurd rfl (htable _)
    · exact absurd rfl hnothing
    · exact absurd rfl (hdelay _)
    · exact absurd rfl (hboth _ _)

end SyntaxWatch.Settings
