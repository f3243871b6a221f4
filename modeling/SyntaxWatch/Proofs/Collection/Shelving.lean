import SyntaxWatch.Collection.Shelf
import SyntaxWatch.Proofs.Collection.History
import SyntaxWatch.Proofs.Order.Keyed

/-!
# A shelf that throws nothing out

A shelf forgets disposed collections when it makes a new one. `Shelf.everMade` is the list of all collections
that were made, as they have become: the shelf as it would be had nothing been thrown out. Only the disposed
ones can be told apart in the two (`Shelf.Accounts`), and those are never shown, so both answer every question
alike.

The reason is that a disposed collection cannot come back: whatever is done to it, it stays disposed.
-/

set_option autoImplicit false

namespace SyntaxWatch

namespace Collection

theorem Change.apply_of_disposed {c : Collection} (hgone : c.disposed = true) (change : Change) :
    (change.apply c).disposed = true := by
  cases change with
  | set uri items => exact (set_disposed c uri items).trans hgone
  | clear => exact hgone
  | dispose => rfl

theorem Change.apply_name (change : Change) (c : Collection) : (change.apply c).name = c.name := by
  cases change with
  | set uri items =>
    show (c.set uri items).name = c.name
    unfold Collection.set
    split_ifs <;> rfl
  | clear => rfl
  | dispose => rfl

/-- The newest with a name is the last one that is in use and has it. -/
theorem newest?_filter (all : List Collection) (name : String) :
    newest? (all.filter fun c => !c.disposed) name
      = (all.filter fun c => !c.disposed && decide (c.name = name)).getLast? := by
  unfold newest?
  rw [← List.head?_filter, List.filter_reverse, List.head?_reverse, List.filter_filter]
  simp only [Bool.and_comm]

end Collection

namespace Shelf

/-! ## 1. What is done with a shelf -/

inductive Act where
  | create (name : String)
  /-- Something is done to the collection with a number, by whoever it was handed out to. -/
  | alter (number : Nat) (change : Collection.Change)
  deriving DecidableEq, Repr

def perform (s : Shelf) : Act → Shelf
  | .create name => s.create name
  | .alter number change => s.modify number change.apply

/-- All collections that were made, in that order, as they are after one more act. -/
def Act.remember (all : List Collection) : Act → List Collection
  | create name => all ++ [.new name]
  | alter number change => all.modify number change.apply

/-- The name of the collection that is made. -/
def Act.created? : Act → Option String
  | create name => some name
  | alter _ _ => none

/-- All collections that some acts made, as they are after all of them. -/
def everMade (acts : List Act) : List Collection := acts.foldl Act.remember []

theorem everMade_snoc (acts : List Act) (act : Act) : everMade (acts ++ [act]) = act.remember (everMade acts) := by
  unfold everMade
  rw [List.foldl_append]
  rfl

/-- One collection was made for each name that was asked for, in that order. -/
theorem names_everMade (acts : List Act) : (everMade acts).map Collection.name = acts.filterMap Act.created? := by
  induction acts using List.reverseRecOn with
  | nil => rfl
  | append_singleton acts act ih =>
    rw [everMade_snoc, List.filterMap_append, ← ih]
    cases act with
    | create name => exact List.map_append
    | alter number change =>
      exact (map_key_modify Collection.name change.apply_name _ number).trans (List.append_nil _).symm

/-! ## 2. What cannot be seen -/

/-- All collections with their numbers. -/
def numbered (all : List Collection) : List (Nat × Collection) := all.mapIdx Prod.mk

/-- The collections with their numbers that are in use. -/
def inUse (kept : List (Nat × Collection)) : List (Nat × Collection) := kept.filter fun k => !k.2.disposed

/-- Of all collections that were made, the shelf has those that are in use, under their numbers. -/
structure Accounts (all : List Collection) (s : Shelf) : Prop where
  made : s.made = all.length
  held : inUse s.kept = inUse (numbered all)

variable {s : Shelf} {all : List Collection}

theorem inUse_append (kept others : List (Nat × Collection)) :
    inUse (kept ++ others) = inUse kept ++ inUse others := List.filter_append kept others

theorem filter_map_snd (kept : List (Nat × Collection)) :
    ((kept.map Prod.snd).filter fun c => !c.disposed) = (inUse kept).map Prod.snd := by
  rw [List.filter_map]
  rfl

theorem map_snd_numbered (all : List Collection) : (numbered all).map Prod.snd = all := by
  refine List.ext_getElem? fun i => ?_
  unfold numbered
  rw [List.getElem?_map, List.getElem?_mapIdx]
  cases all[i]? <;> rfl

theorem accounts_empty : Accounts [] empty := ⟨rfl, rfl⟩

/-- What is done to one number, among collections that have their numbers. -/
def changeAt (number : Nat) (change : Collection.Change) (k : Nat × Collection) : Nat × Collection :=
  if k.1 = number then (k.1, change.apply k.2) else k

theorem numbered_modify (all : List Collection) (number : Nat) (change : Collection.Change) :
    numbered (all.modify number change.apply) = (numbered all).map (changeAt number change) := by
  refine List.ext_getElem? fun i => ?_
  unfold numbered
  rw [List.getElem?_mapIdx, List.getElem?_modify, List.getElem?_map, List.getElem?_mapIdx]
  cases all[i]? with
  | none => rfl
  | some c =>
    show some (i, if number = i then change.apply c else c) = some (changeAt number change (i, c))
    unfold changeAt
    by_cases hi : number = i
    · rw [if_pos hi, if_pos hi.symm]
    · rw [if_neg hi, if_neg (Ne.symm hi)]

/-- A change cannot bring a collection back into use, so those out of use can be left out before it. -/
theorem inUse_map_changeAt (kept : List (Nat × Collection)) (number : Nat) (change : Collection.Change) :
    inUse (kept.map (changeAt number change)) = inUse ((inUse kept).map (changeAt number change)) := by
  have hdead : ∀ k : Nat × Collection, k.2.disposed = true → (changeAt number change k).2.disposed = true := by
    intro k hgone
    unfold changeAt
    split
    · exact Collection.Change.apply_of_disposed hgone change
    · exact hgone
  unfold inUse
  rw [List.filter_map, List.filter_map, List.filter_filter]
  congr 1
  refine List.filter_congr fun k _ => ?_
  cases hgone : k.2.disposed with
  | true => simp [hdead k hgone]
  | false => simp

theorem Accounts.create (h : Accounts all s) (name : String) : Accounts (all ++ [.new name]) (s.create name) := by
  refine ⟨?_, ?_⟩
  · rw [List.length_append, List.length_singleton, ← h.made]
    rfl
  · have hcreate : (s.create name).kept = inUse s.kept ++ [(s.made, .new name)] := rfl
    have hnumbered : numbered (all ++ [.new name]) = numbered all ++ [(all.length, .new name)] :=
      List.mapIdx_concat
    have hagain : inUse (inUse s.kept) = inUse s.kept := by simp [inUse]
    rw [hcreate, hnumbered, inUse_append, inUse_append, hagain, h.held, h.made]

theorem Accounts.modify (h : Accounts all s) (number : Nat) (change : Collection.Change) :
    Accounts (all.modify number change.apply) (s.modify number change.apply) := by
  refine ⟨?_, ?_⟩
  · rw [List.length_modify, ← h.made]
    rfl
  · have hmodify : (s.modify number change.apply).kept = s.kept.map (changeAt number change) := rfl
    rw [hmodify, numbered_modify, inUse_map_changeAt, h.held, ← inUse_map_changeAt]

/-- **Every act keeps the account.** -/
theorem Accounts.perform (h : Accounts all s) (act : Act) : Accounts (act.remember all) (s.perform act) := by
  cases act with
  | create name => exact h.create name
  | alter number change => exact h.modify number change

/-- **What is shown is what would be shown had nothing been thrown out.** -/
theorem Accounts.live (h : Accounts all s) : s.live = all.filter fun c => !c.disposed := by
  unfold Shelf.live
  rw [filter_map_snd, h.held, ← filter_map_snd, map_snd_numbered]

-- what was disposed is thrown out by the next creation, and was not shown before
example : ([.create "GCC", .alter 0 .dispose].foldl perform empty).kept.length = 1
    ∧ ([.create "GCC", .alter 0 .dispose].foldl perform empty).live = []
    ∧ ([.create "GCC", .alter 0 .dispose, .create "Lint"].foldl perform empty).kept = [(1, .new "Lint")] := by
  decide

end Shelf

end SyntaxWatch
