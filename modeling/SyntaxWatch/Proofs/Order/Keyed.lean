import Mathlib.Data.List.Nodup

/-!
# Lists with a key

A map is kept as a list whose elements have keys, and looked up by the first element of a key. Where no key
occurs twice that is *the* element of the key (`find?_key_iff`), whatever order the elements stand in.
-/

set_option autoImplicit false

namespace SyntaxWatch

variable {α κ : Type} [DecidableEq κ] (key : α → κ) {l : List α} {k : κ}

/-- Where no key occurs twice, what is found under a key is what stands there. -/
theorem find?_key_iff (hnodup : (l.map key).Nodup) {x : α} :
    l.find? (fun x => key x = k) = some x ↔ x ∈ l ∧ key x = k := by
  constructor
  · exact fun h => ⟨List.mem_of_find?_eq_some h, by simpa using List.find?_some h⟩
  · rintro ⟨hmem, rfl⟩
    have hisSome : (l.find? fun y => key y = key x).isSome = true := by
      rw [List.find?_isSome]
      exact ⟨x, hmem, by simp⟩
    obtain ⟨y, hy⟩ := Option.isSome_iff_exists.mp hisSome
    have hkey : key y = key x := by simpa using List.find?_some hy
    rw [hy, List.inj_on_of_nodup_map hnodup (List.mem_of_find?_eq_some hy) hmem hkey]

theorem find?_key_eq_none_iff : l.find? (fun x => key x = k) = none ↔ k ∉ l.map key := by
  simp [List.find?_eq_none]

/-- When everything under one key has been taken out, the others are found as before. -/
theorem find?_filter_key (l : List α) (k other : κ) :
    (l.filter fun x => key x ≠ k).find? (fun x => key x = other)
      = if other = k then none else l.find? fun x => key x = other := by
  rw [List.find?_filter]
  split_ifs with hsame
  · rw [List.find?_eq_none]
    intro x _
    simp [hsame]
  · refine congrArg (List.find? · l) (funext fun x => ?_)
    by_cases hx : key x = other
    · simp [hx, hsame]
    · simp [hx]

/-- What is put in place of everything under its key is found under that key, and no other one. -/
theorem find?_filter_append (l : List α) (x : α) (other : κ) :
    ((l.filter fun y => key y ≠ key x) ++ [x]).find? (fun y => key y = other)
      = if other = key x then some x else l.find? fun y => key y = other := by
  rw [List.find?_append, find?_filter_key]
  split_ifs with hsame
  · rw [Option.none_or, List.find?_cons_of_pos (by simpa using hsame.symm)]
  · rw [List.find?_cons_of_neg (by simpa using Ne.symm hsame), List.find?_nil, Option.or_none]

omit [DecidableEq κ] in
/-- A change of one element that leaves its key alone leaves all keys alone. -/
theorem map_key_modify {f : α → α} (hf : ∀ x, key (f x) = key x) (l : List α) (n : Nat) :
    (l.modify n f).map key = l.map key := by
  refine List.ext_getElem? fun i => ?_
  rw [List.getElem?_map, List.getElem?_map, List.getElem?_modify]
  cases l[i]? with
  | none => rfl
  | some x =>
    show some (key (if n = i then f x else x)) = some (key x)
    split_ifs
    · rw [hf]
    · rfl

/-- Where no key occurs twice, what is found under a key changes when the element that stands there does. -/
theorem find?_modify_key {f : α → α} (hf : ∀ x, key (f x) = key x) (hnodup : (l.map key).Nodup) {n : Nat} {x : α}
    (hx : l[n]? = some x) (k : κ) :
    (l.modify n f).find? (fun y => key y = k)
      = if k = key x then some (f x) else l.find? fun y => key y = k := by
  induction l generalizing n with
  | nil => cases hx
  | cons head tail ih =>
    obtain ⟨hhead, htail⟩ := List.nodup_cons.mp hnodup
    cases n with
    | zero =>
      obtain rfl : head = x := Option.some.inj hx
      rw [List.modify_zero_cons, List.find?_cons, List.find?_cons, hf]
      by_cases hk : key head = k
      · simp [hk]
      · simp [hk, Ne.symm hk]
    | succ n =>
      have hmem : key x ∈ tail.map key := List.mem_map_of_mem (List.mem_of_getElem? hx)
      rw [List.modify_succ_cons, List.find?_cons, List.find?_cons, ih htail hx]
      by_cases hk : key head = k
      · -- the changed element comes later and has another key
        have hother : k ≠ key x := fun h => hhead (hk.trans h ▸ hmem)
        simp [hk, hother]
      · simp [hk]

/-- The order of the elements does not matter where no key occurs twice. -/
theorem find?_key_perm {l' : List α} (hnodup : (l.map key).Nodup) (hperm : l.Perm l') :
    l.find? (fun x => key x = k) = l'.find? fun x => key x = k := by
  have hnodup' : (l'.map key).Nodup := (hperm.map key).nodup_iff.mp hnodup
  refine Option.ext fun x => ?_
  rw [find?_key_iff key hnodup, find?_key_iff key hnodup', hperm.mem_iff]

end SyntaxWatch
