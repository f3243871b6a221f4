import Mathlib.Logic.Equiv.Basic
import Mathlib.Logic.Relation
import SyntaxWatch.ConfigFile
import SyntaxWatch.Proofs.Order.Keyed
import SyntaxWatch.Proofs.Settings.Schema
import SyntaxWatch.Proofs.Toml.Keys

/-!
# One configuration, many spellings

The same settings can be spelled in many ways: keys in any order, keys that mean nothing here, either of two
spellings of a name, a record as a list of its fields. What can be changed about a record is one relation for
both kinds of records, `Rewritten`, since it is a matter of their names alone; so is why it makes no
difference (`Reads.eq_of_rewritten`): a table is read by what stands under its names, and by nothing else.

The other way to read a table, field by field as they come (`gather?`), has the same result for every table
(`gather?_eq`), so a configuration file says what its table says.
-/

set_option autoImplicit false

namespace SyntaxWatch.Settings

variable {fields fields' : List (String × Value)} {names names' : List String} {name key : String} {v v' : Value}

/-! ## 1. Records -/

/-- A field of a record by its name, and how else that is written. -/
structure FieldName where
  name : String
  others : List String
  deriving DecidableEq

def FieldName.all (field : FieldName) : List String := field.name :: field.others

def settingsFields : List FieldName := [⟨"delay", []⟩, ⟨"checkers", []⟩]

def entryFields : List FieldName :=
  [⟨"command", []⟩, ⟨"display_name", ["displayName"]⟩, ⟨"arguments", []⟩, ⟨"language_ids", ["languageIds"]⟩]

/-- One change of the way in which a record with these fields, in this order, is spelled. -/
inductive Rewritten (record : List FieldName) : Value → Value → Prop
  /-- The keys of a table are put in another order. -/
  | permuted {fields fields' : List (String × Value)} (hkeys : (fields.map Prod.fst).Nodup)
      (hperm : fields.Perm fields') : Rewritten record (.table fields) (.table fields')
  /-- A key is added that no field has. -/
  | extended {fields : List (String × Value)} {key : String} (v : Value)
      (hkey : ∀ field ∈ record, key ∉ field.all) :
      Rewritten record (.table fields) (.table ((key, v) :: fields))
  /-- Two spellings of a name are exchanged. -/
  | renamed {fields : List (String × Value)} {field : FieldName} {name other : String}
      (hfield : field ∈ record) (hname : name ∈ field.all) (hother : other ∈ field.all) :
      Rewritten record (.table fields) (.table (fields.map fun f => (Equiv.swap name other f.1, f.2)))
  /-- The first fields, without their names, become a table of just these fields. -/
  | listed {items : List Value} (hlength : items.length ≤ record.length) :
      Rewritten record (.list items) (.table ((record.map FieldName.name).zip items))

/-! ## 2. Looking up -/

theorem field?_perm (hkeys : (fields.map Prod.fst).Nodup) (hperm : fields.Perm fields') (name : String) :
    Value.field? fields name = Value.field? fields' name :=
  congrArg (Option.map Prod.snd) (find?_key_perm Prod.fst hkeys hperm)

theorem field?_cons_self (fields : List (String × Value)) (key : String) (v : Value) :
    Value.field? ((key, v) :: fields) key = some v := by
  unfold Value.field?
  rw [List.find?_cons_of_pos (by simp), Option.map_some]

theorem field?_cons_of_ne (hne : key ≠ name) :
    Value.field? ((key, v) :: fields) name = Value.field? fields name := by
  unfold Value.field?
  rw [List.find?_cons_of_neg (by simpa using hne)]

theorem field?_eq_none (hname : name ∉ fields.map Prod.fst) : Value.field? fields name = none := by
  unfold Value.field?
  rw [(find?_key_eq_none_iff Prod.fst).mpr hname, Option.map_none]

/-- Under other names the same values stand. -/
theorem field?_map_equiv (σ : Equiv.Perm String) (name : String) :
    Value.field? (fields.map fun f => (σ f.1, f.2)) name = Value.field? fields (σ.symm name) := by
  unfold Value.field?
  have hsame : ∀ f : String × Value, decide (σ f.1 = name) = decide (f.1 = σ.symm name) := fun f =>
    decide_eq_decide.mpr (Equiv.eq_symm_apply σ).symm
  rw [List.find?_map, Option.map_map]
  simp only [Function.comp_def, hsame]

/-- Which of several values comes first does not matter, since none is taken. -/
theorem fieldUnder?_congr
    (hperm : (names.filterMap (Value.field? fields)).Perm (names'.filterMap (Value.field? fields'))) :
    fieldUnder? fields names = fieldUnder? fields' names' := by
  unfold fieldUnder?
  generalize names.filterMap (Value.field? fields) = vs at *
  generalize names'.filterMap (Value.field? fields') = vs' at *
  have hlength := hperm.length_eq
  match vs, vs' with
  | [], vs' => rw [hperm.nil_eq]
  | [v], vs' => rw [List.singleton_perm.mp hperm]
  | _ :: _ :: _, _ :: _ :: _ => rfl
  | _ :: _ :: _, [] => cases hlength
  | _ :: _ :: _, [_] => simp at hlength

theorem fieldUnder?_singleton (fields : List (String × Value)) (name : String) :
    fieldUnder? fields [name] = some (Value.field? fields name) := by
  unfold fieldUnder?
  cases hname : Value.field? fields name with
  | none => rw [List.filterMap_cons_none hname, List.filterMap_nil]
  | some v => rw [List.filterMap_cons_some hname, List.filterMap_nil]

/-! ## 3. Why the spelling does not matter -/

section Records

variable {record : List FieldName} {α : Type} {read? : Value → Option α}

/-- The tables say the same about the fields of the record. -/
def Agree (record : List FieldName) (fields fields' : List (String × Value)) : Prop :=
  ∀ field ∈ record, fieldUnder? fields field.all = fieldUnder? fields' field.all

/-- No name is one of two fields: exchanging two names of one field exchanges no others. -/
def Unmixed (record : List FieldName) : Prop :=
  ∀ field ∈ record, ∀ name ∈ field.all, ∀ other ∈ field.all, ∀ field' ∈ record,
    (field'.all.map (Equiv.swap name other)).Perm field'.all

/-- A reading of the record goes by its names, and by its order in a list. -/
structure Reads (record : List FieldName) (read? : Value → Option α) : Prop where
  unmixed : Unmixed record
  table : ∀ fields fields', Agree record fields fields' → read? (.table fields) = read? (.table fields')
  list : ∀ items : List Value, items.length ≤ record.length →
    read? (.list items) = read? (.table ((record.map FieldName.name).zip items))

/-- **The spelling of a record does not matter.** -/
theorem Reads.eq_of_rewritten (hreads : Reads record read?) (h : Rewritten record v v') :
    read? v = read? v' := by
  cases h with
  | permuted hkeys hperm =>
    refine hreads.table _ _ fun field _ => fieldUnder?_congr ?_
    rw [funext (field?_perm hkeys hperm)]
  | extended w hkey =>
    refine hreads.table _ _ fun field hfield => fieldUnder?_congr (List.Perm.of_eq ?_)
    refine List.filterMap_congr fun name hname => (field?_cons_of_ne ?_).symm
    exact (ne_of_mem_of_not_mem hname (hkey field hfield)).symm
  | @renamed fields field name other hfield hname hother =>
    refine hreads.table _ _ fun field' hfield' => fieldUnder?_congr ?_
    have hexchanged := (hreads.unmixed field hfield name hname other hother field' hfield').filterMap
      (Value.field? fields)
    rw [List.filterMap_map] at hexchanged
    rw [funext (field?_map_equiv (Equiv.swap name other)), Equiv.symm_swap]
    exact hexchanged.symm
  | listed hlength => exact hreads.list _ hlength

end Records

theorem Agree.field? {record : List FieldName} (h : Agree record fields fields')
    (hfield : ⟨name, []⟩ ∈ record) : Value.field? fields name = Value.field? fields' name := by
  have hsame : fieldUnder? fields [name] = fieldUnder? fields' [name] := h ⟨name, []⟩ hfield
  rw [fieldUnder?_singleton, fieldUnder?_singleton] at hsame
  exact Option.some.inj hsame

theorem entry?_reads : Reads entryFields entry? where
  unmixed := by
    unfold Unmixed
    decide
  table fields fields' h := by
    have hcommand : fieldUnder? fields ["command"] = fieldUnder? fields' ["command"] :=
      h ⟨"command", []⟩ (by decide)
    have hdisplayName : fieldUnder? fields ["display_name", "displayName"]
        = fieldUnder? fields' ["display_name", "displayName"] := h ⟨"display_name", ["displayName"]⟩ (by decide)
    have hlanguageIds : fieldUnder? fields ["language_ids", "languageIds"]
        = fieldUnder? fields' ["language_ids", "languageIds"] := h ⟨"language_ids", ["languageIds"]⟩ (by decide)
    have harguments : Value.field? fields "arguments" = Value.field? fields' "arguments" := h.field? (by decide)
    simp only [required?, optional?, entry?, hcommand, hdisplayName, harguments, hlanguageIds]
  list items h := by
    match items with
    | [] => rfl
    | [_] => simp [entryFields, entry?, required?, fieldUnder?, Value.field?]
    | [_, _] => simp [entryFields, entry?, required?, optional?, fieldUnder?, Value.field?]
    | [_, _, _] => simp [entryFields, entry?, required?, optional?, fieldUnder?, Value.field?]
    | [_, _, _, _] => simp [entryFields, entry?, required?, optional?, fieldUnder?, Value.field?]
    | _ :: _ :: _ :: _ :: _ :: more =>
      have hlength : more.length + 5 ≤ 4 := h
      omega

theorem ofValue?_reads : Reads settingsFields ofValue? where
  unmixed := by
    unfold Unmixed
    decide
  table fields fields' h := by
    have hdelay : Value.field? fields "delay" = Value.field? fields' "delay" := h.field? (by decide)
    have hcheckers : Value.field? fields "checkers" = Value.field? fields' "checkers" := h.field? (by decide)
    simp only [ofValue?, ofTable?, optional?, hdelay, hcheckers]
  list items h := by
    match items with
    | [] => rfl
    | [_] => simp [ofValue?, ofTable?, settingsFields, optional?, Value.field?]
    | [_, _] => simp [ofValue?, ofTable?, settingsFields, optional?, Value.field?]
    | _ :: _ :: _ :: more =>
      have hlength : more.length + 3 ≤ 2 := h
      omega

/-! ## 4. Entries inside settings -/

/-- One change of the way in which settings are spelled: of the settings as a record, or of one of their
entries. -/
inductive Respelt : Value → Value → Prop
  | whole {v v' : Value} (h : Rewritten settingsFields v v') : Respelt v v'
  | entry {front back : List (String × Value)} {before after : List Value} {e e' : Value}
      (h : Rewritten entryFields e e') :
      Respelt (.table (front ++ ("checkers", .list (before ++ e :: after)) :: back))
        (.table (front ++ ("checkers", .list (before ++ e' :: after)) :: back))

theorem listOf?_congr {α : Type} {item? : Value → Option α} {e e' : Value} (h : item? e = item? e')
    (before after : List Value) :
    listOf? item? (.list (before ++ e :: after)) = listOf? item? (.list (before ++ e' :: after)) := by
  simp only [listOf?, List.mapM_append, List.mapM_cons, h]

theorem field?_append_cons (front back : List (String × Value)) (key : String) (v : Value) (name : String) :
    Value.field? (front ++ (key, v) :: back) name
      = (Value.field? front name).or (if key = name then some v else Value.field? back name) := by
  unfold Value.field?
  rw [List.find?_append, List.find?_cons, Option.map_or]
  by_cases hname : key = name <;> simp [hname]

/-- One value can stand in the place of another if reading does not tell the two apart. -/
theorem optional?_replace {α : Type} {default : α} {read? : Value → Option α}
    (hread : key = name → read? v = read? v') (front back : List (String × Value)) :
    optional? (front ++ (key, v) :: back) name default read?
      = optional? (front ++ (key, v') :: back) name default read? := by
  unfold optional?
  rw [field?_append_cons, field?_append_cons]
  cases Value.field? front name with
  | some w => rfl
  | none =>
    by_cases hname : key = name
    · simp only [hname, Option.none_or, if_true]
      exact hread hname
    · simp only [hname, if_false]

theorem ofValue?_respelt (h : Respelt v v') : ofValue? v = ofValue? v' := by
  cases h with
  | whole h => exact ofValue?_reads.eq_of_rewritten h
  | entry h =>
    have hentry := entry?_reads.eq_of_rewritten h
    have hdelay : "checkers" ≠ "delay" := by decide
    simp only [ofValue?, ofTable?]
    rw [optional?_replace fun hsame => absurd hsame hdelay, optional?_replace fun _ => listOf?_congr hentry _ _]

theorem ofValue?_eqvGen (h : Relation.EqvGen Respelt v v') : ofValue? v = ofValue? v' := by
  induction h with
  | rel _ _ h => exact ofValue?_respelt h
  | refl _ => rfl
  | symm _ _ _ ih => exact ih.symm
  | trans _ _ _ _ _ ih ih' => exact ih.trans ih'

/-! ## 5. Fields as they come -/

section Gathering

variable {α : Type} {default : α} {read? : Value → Option α}

theorem optional?_cons_self : optional? ((key, v) :: fields) key default read? = read? v := by
  unfold optional?
  rw [field?_cons_self]

theorem optional?_cons_of_ne (hne : key ≠ name) :
    optional? ((key, v) :: fields) name default read? = optional? fields name default read? := by
  unfold optional?
  rw [field?_cons_of_ne hne]

theorem optional?_of_not_mem (hname : name ∉ fields.map Prod.fst) :
    optional? fields name default read? = some default := by
  unfold optional?
  rw [field?_eq_none hname]

/-- Nothing that has come is still to come. -/
structure Gathered.Ahead (g : Gathered) (fields : List (String × Value)) : Prop where
  delay : g.delay.isSome = true → "delay" ∉ fields.map Prod.fst
  checkers : g.checkers.isSome = true → "checkers" ∉ fields.map Prod.fst

theorem Gathered.Ahead.tail {g : Gathered} {field : String × Value} (h : g.Ahead (field :: fields)) :
    g.Ahead fields :=
  ⟨fun hcame hmem => h.delay hcame (List.mem_cons_of_mem _ hmem),
    fun hcame hmem => h.checkers hcame (List.mem_cons_of_mem _ hmem)⟩

/-- What has come stands in for a default while the rest is read. -/
theorem foldlM_take? {g : Gathered} (hahead : g.Ahead fields) (hkeys : (fields.map Prod.fst).Nodup) :
    (fields.foldlM Gathered.take? g).map Gathered.settings
      = (optional? fields "delay" (g.delay.getD defaultDelay) natural?).bind fun delay =>
        (optional? fields "checkers" (g.checkers.getD []) (listOf? entry?)).map fun checkers =>
          ⟨delay, checkers⟩ := by
  induction fields generalizing g with
  | nil => rfl
  | cons field fields ih =>
    obtain ⟨key, v⟩ := field
    obtain ⟨hnew, hrest⟩ := List.nodup_cons.mp hkeys
    rw [List.foldlM_cons, Gathered.take?]
    by_cases hdelay : key = "delay"
    · subst hdelay
      have hfirst : g.delay = none :=
        Option.not_isSome_iff_eq_none.mp fun hcame => hahead.delay hcame List.mem_cons_self
      rw [optional?_cons_self, optional?_cons_of_ne (by decide), if_pos rfl, hfirst]
      cases natural? v with
      | none => rfl
      | some delay =>
        have htail := ih (g := { g with delay := some delay })
          ⟨fun _ => hnew, hahead.tail.checkers⟩ hrest
        rw [optional?_of_not_mem hnew] at htail
        exact htail
    · rw [if_neg hdelay, optional?_cons_of_ne hdelay]
      by_cases hcheckers : key = "checkers"
      · subst hcheckers
        have hfirst : g.checkers = none :=
          Option.not_isSome_iff_eq_none.mp fun hcame => hahead.checkers hcame List.mem_cons_self
        rw [optional?_cons_self, if_pos rfl, hfirst]
        cases listOf? entry? v with
        | none => simp
        | some checkers =>
          have htail := ih (g := { g with checkers := some checkers })
            ⟨hahead.tail.delay, fun _ => hnew⟩ hrest
          rw [optional?_of_not_mem hnew] at htail
          exact htail
      · rw [if_neg hcheckers, optional?_cons_of_ne hcheckers]
        exact ih hahead.tail hrest

/-- **Both ways to read a table have the same result.** -/
theorem gather?_eq (hkeys : (fields.map Prod.fst).Nodup) : gather? fields = ofValue? (.table fields) := by
  have hfold := foldlM_take? (g := ⟨none, none⟩) ⟨nofun, nofun⟩ hkeys
  unfold gather?
  rw [hfold]
  simp only [ofValue?, ofTable?, Option.bind_eq_bind, Option.map_eq_bind]
  rfl

end Gathering

/-! ## 6. All spellings together -/

/-- **All spellings of the settings mean the same, and nothing else is accepted.** However the settings or
their entries are respelled, reading gives the same settings or refuses as before. It gives just the settings
that are spelled. A table whose fields are taken as they come is read as any other, and a configuration file
as the table in it. -/
theorem spellings_agree :
    (∀ v v', Relation.EqvGen Respelt v v' → ofValue? v = ofValue? v')
      ∧ (∀ v s, ofValue? v = some s ↔ Spells v s)
      ∧ (∀ fields : List (String × Value), (fields.map Prod.fst).Nodup →
        gather? fields = ofValue? (.table fields))
      ∧ ∀ text : String, ConfigFile.settings? text
        = (Toml.parse? text.toList).bind fun fields => ofValue? (.table fields) := by
  refine ⟨fun _ _ => ofValue?_eqvGen, fun _ _ => ofValue?_eq_some_iff, fun _ => gather?_eq, fun text => ?_⟩
  unfold ConfigFile.settings?
  refine Option.bind_congr fun fields hfields => ?_
  exact gather?_eq (Toml.parse?_keys hfields)

/-! ### One checker, in lists and in tables -/

def lint : List Value := [.text "lint", .text "Lint", texts [], texts ["demo"]]

def withChecker (e : Value) : List (String × Value) := [("delay", .int 50), ("checkers", .list [e])]

def listedSettings : Value := .list [.int 50, .list [.list lint]]

/-- The fields in another order, one of the names in its other spelling, and a key that means nothing. -/
def tabledSettings : List (String × Value) :=
  [("checkers", .list [.table (["command", "displayName", "arguments", "language_ids"].zip lint)]),
    ("theme", .null), ("delay", .int 50)]

theorem spellings_agree_listed :
    Relation.EqvGen Respelt listedSettings (.table tabledSettings)
      ∧ ofValue? listedSettings = ofValue? (.table tabledSettings)
      ∧ (tabledSettings.map Prod.fst).Nodup ∧ gather? tabledSettings = ofValue? listedSettings := by
  let plain := (entryFields.map FieldName.name).zip lint
  let renamed := plain.map fun f => (Equiv.swap "display_name" "displayName" f.1, f.2)
  have hentry : ∀ {e e' : Value}, Rewritten entryFields e e' →
      Respelt (.table (withChecker e)) (.table (withChecker e')) := fun h =>
    @Respelt.entry [("delay", .int 50)] [] [] [] _ _ h
  have hnamed : Respelt listedSettings (.table (withChecker (.list lint))) := .whole (.listed (by decide))
  have hplain : Rewritten entryFields (.list lint) (.table plain) := .listed (by decide)
  have hrenamed : Rewritten entryFields (.table plain) (.table renamed) :=
    @Rewritten.renamed entryFields plain ⟨"display_name", ["displayName"]⟩ _ _ (by decide) (by decide) (by decide)
  have hextended : Rewritten settingsFields (.table (withChecker (.table renamed)))
      (.table (("theme", .null) :: withChecker (.table renamed))) := .extended .null (by decide)
  have hpermuted : Rewritten settingsFields (.table (("theme", .null) :: withChecker (.table renamed)))
      (.table tabledSettings) :=
    .permuted (by decide) (@List.perm_append_comm (String × Value) [("theme", .null), ("delay", .int 50)]
      [("checkers", .list [.table renamed])])
  have hrespelt : Relation.EqvGen Respelt listedSettings (.table tabledSettings) :=
    .trans _ _ _ (.rel _ _ hnamed) <| .trans _ _ _ (.rel _ _ (hentry hplain)) <|
      .trans _ _ _ (.rel _ _ (hentry hrenamed)) <| .trans _ _ _ (.rel _ _ (.whole hextended))
        (.rel _ _ (.whole hpermuted))
  obtain ⟨hagree, -, hgathered, -⟩ := spellings_agree
  have hkeys : (tabledSettings.map Prod.fst).Nodup := by decide
  have hsame := hagree _ _ hrespelt
  exact ⟨hrespelt, hsame, hkeys, (hgathered _ hkeys).trans hsame.symm⟩

end SyntaxWatch.Settings
