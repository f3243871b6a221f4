import SyntaxWatch.Proofs.Order.Keyed
import SyntaxWatch.Toml.Document

/-!
# No key is given twice

The top table of a document is changed in two ways: a node goes to its end under a key that it has not yet,
or in place of the node of a key that it has. So no line of a document makes a key stand there twice, and
what a document says can be taken for a table (`parse?_keys`).
-/

set_option autoImplicit false

namespace SyntaxWatch.Toml

/-! ## 1. Changes of a table -/

namespace Fields

variable {fields fields' : Fields} {change : Fields → Option Fields} {key : String} {path : List String}

def Distinct (fields : Fields) : Prop := (fields.map Prod.fst).Nodup

/-- The change makes no key stand twice. -/
def Keeps (change : Fields → Option Fields) : Prop :=
  ∀ ⦃fields fields'⦄, change fields = some fields' → fields.Distinct → fields'.Distinct

theorem Distinct.append (hdistinct : fields.Distinct) (habsent : get? fields key = none) (node : Node) :
    Distinct (fields ++ [(key, node)]) := by
  have hkey : key ∉ fields.map Prod.fst :=
    (find?_key_eq_none_iff Prod.fst).mp (Option.map_eq_none_iff.mp habsent)
  unfold Distinct
  rw [List.map_append, List.map_singleton, ← List.concat_eq_append]
  exact hdistinct.concat hkey

theorem Distinct.replace (hdistinct : fields.Distinct) (node : Node) : Distinct (replace fields key node) := by
  have hsame : (Fields.replace fields key node).map Prod.fst = fields.map Prod.fst := by
    unfold Fields.replace
    rw [List.map_map]
    refine List.map_congr_left fun f _ => ?_
    rw [Function.comp_apply]
    split_ifs with hkey
    · exact hkey.symm
    · rfl
  unfold Distinct
  rw [hsame]
  exact hdistinct

theorem add?_keeps (node : Node) : Keeps fun fields => add? fields key node := by
  intro fields fields' hadd hdistinct
  simp only [add?] at hadd
  split_ifs at hadd with hthere
  cases hadd
  exact hdistinct.append (Option.not_isSome_iff_eq_none.mp hthere) node

/-- What a change deep in the tables does to the keys of the topmost one, if it is not there itself, is to
add the first of its path. -/
theorem at?_keeps (dotted : Bool) (hchange : Keeps change) (path : List String) :
    Keeps (at? dotted change path) := by
  intro fields fields' hat hdistinct
  cases path with
  | nil => exact hchange hat hdistinct
  | cons key path =>
    unfold at? at hat
    split at hat
    next habsent =>
      obtain ⟨sub, -, rfl⟩ := Option.map_eq_some_iff.mp hat
      exact hdistinct.append habsent _
    next =>
      split_ifs at hat
      obtain ⟨sub, -, rfl⟩ := Option.map_eq_some_iff.mp hat
      exact hdistinct.replace _
    next =>
      split_ifs at hat
      split at hat
      · cases hat
      · obtain ⟨last, -, rfl⟩ := Option.map_eq_some_iff.mp hat
        exact hdistinct.replace _
    next => cases hat

theorem openTable?_distinct (hopen : openTable? fields path = some fields') (hdistinct : fields.Distinct) :
    fields'.Distinct := by
  unfold openTable? at hopen
  split at hopen
  · cases hopen
  · refine at?_keeps false ?_ _ hopen hdistinct
    intro fields fields' hchange hdistinct
    dsimp only at hchange
    split at hchange <;> cases hchange
    next habsent => exact hdistinct.append habsent _
    next => exact hdistinct.replace _

theorem openElement?_distinct (hopen : openElement? fields path = some fields') (hdistinct : fields.Distinct) :
    fields'.Distinct := by
  unfold openElement? at hopen
  split at hopen
  · cases hopen
  · refine at?_keeps false ?_ _ hopen hdistinct
    intro fields fields' hchange hdistinct
    dsimp only at hchange
    split at hchange <;> cases hchange
    next habsent => exact hdistinct.append habsent _
    next => exact hdistinct.replace _

theorem assign?_keeps (path : List String) (v : Value) : Keeps fun fields => assign? fields path v := by
  intro fields fields' hassign hdistinct
  simp only [assign?] at hassign
  split at hassign
  · cases hassign
  · exact at?_keeps true (add?_keeps (.value v)) _ hassign hdistinct

end Fields

/-! ## 2. Documents -/

theorem statement?_distinct {r r' : Reading} {text next : List Char}
    (hread : statement? r text = some (r', next)) (hdistinct : r.fields.Distinct) : r'.fields.Distinct := by
  unfold statement? at hread
  split at hread
  next =>
    split at hread
    · simp only [Option.bind_eq_bind, Option.bind_eq_some_iff] at hread
      obtain ⟨_, -, fields, hopen, heq⟩ := hread
      cases heq
      exact Fields.openElement?_distinct hopen hdistinct
    · cases hread
  next =>
    split at hread
    · simp only [Option.bind_eq_bind, Option.bind_eq_some_iff] at hread
      obtain ⟨_, -, fields, hopen, heq⟩ := hread
      cases heq
      exact Fields.openTable?_distinct hopen hdistinct
    · cases hread
  next =>
    split at hread
    · simp only [Option.bind_eq_bind, Option.bind_eq_some_iff] at hread
      obtain ⟨⟨v, after⟩, -, _, -, fields, hassign, heq⟩ := hread
      cases heq
      exact Fields.at?_keeps false (Fields.assign?_keeps _ v) _ hassign hdistinct
    · cases hread

theorem statements?_distinct {n : Nat} {r r' : Reading} {text : List Char}
    (hread : statements? n r text = some r') (hdistinct : r.fields.Distinct) : r'.fields.Distinct := by
  induction n generalizing r text with
  | zero =>
    unfold statements? at hread
    split_ifs at hread
    cases hread
    exact hdistinct
  | succ n ih =>
    unfold statements? at hread
    split at hread
    · cases hread
      exact hdistinct
    · split at hread
      · exact ih hread hdistinct
      · split at hread
        next hline => exact ih hread (statement?_distinct hline hdistinct)
        next => cases hread

theorem map_fst_fieldValues (fields : Fields) :
    (Node.fieldValues fields).map Prod.fst = fields.map Prod.fst := by
  induction fields with
  | nil => rfl
  | cons f fields ih =>
    obtain ⟨key, node⟩ := f
    unfold Node.fieldValues
    rw [List.map_cons, List.map_cons, ih]

/-- **The keys of a document's top table are different from each other.** -/
theorem parse?_keys {text : List Char} {fields : List (String × Value)} (hread : parse? text = some fields) :
    (fields.map Prod.fst).Nodup := by
  obtain ⟨r, hr, rfl⟩ := Option.map_eq_some_iff.mp hread
  rw [map_fst_fieldValues]
  exact statements?_distinct hr List.nodup_nil

end SyntaxWatch.Toml
