import Mathlib.Data.List.Nodup
import SyntaxWatch.Command.Desk
import SyntaxWatch.Proofs.Engine.Service

/-!
# Counting by name

`Pending` is a list of names with counts. `Pending.count` is what it says about a name, and the
lemmas here say what each operation does to it: a call adds one under its checker's name, and an
ending takes one away, as long as there is one. Names with nothing left are taken out, so the list is
empty just when every count is zero (`Sound.eq_nil_iff`).
-/

set_option autoImplicit false

namespace SyntaxWatch.Pending

variable {p : Pending} {name other : String} {k : Nat}

/-- How many runs are still to end, of checkers of a name. -/
def count (p : Pending) (name : String) : Nat := (p.lookup name).getD 0

/-- Every name stands there once, and with something left. -/
structure Sound (p : Pending) : Prop where
  nodup : (p.map Prod.fst).Nodup
  positive : ∀ e ∈ p, 0 < e.2

/-! ## 1. Along the list -/

theorem count_cons_self (name : String) (k : Nat) (p : Pending) : count ((name, k) :: p) name = k := by
  simp [count]

theorem count_cons_of_ne (hne : other ≠ name) (k : Nat) (p : Pending) :
    count ((other, k) :: p) name = count p name := by
  unfold count
  rw [List.lookup_cons, beq_eq_false_iff_ne.mpr (Ne.symm hne)]

theorem count_of_not_mem (hnone : name ∉ p.map Prod.fst) : count p name = 0 := by
  induction p with
  | nil => rfl
  | cons e p ih =>
    rw [List.map_cons, List.mem_cons, not_or] at hnone
    rw [count_cons_of_ne (Ne.symm hnone.1)]
    exact ih hnone.2

theorem Sound.tail {e : String × Nat} (hp : Sound (e :: p)) : Sound p :=
  ⟨(List.nodup_cons.mp hp.nodup).2, fun x hx => hp.positive x (List.mem_cons_of_mem e hx)⟩

theorem Sound.cons (hp : Sound p) (hname : name ∉ p.map Prod.fst) (hk : 0 < k) : Sound ((name, k) :: p) :=
  ⟨List.nodup_cons.mpr ⟨hname, hp.nodup⟩, List.forall_mem_cons.mpr ⟨hk, hp.positive⟩⟩

/-- **Nothing is pending when every count is zero.** -/
theorem Sound.eq_nil_iff (hp : Sound p) : p = [] ↔ ∀ name, count p name = 0 := by
  constructor
  · rintro rfl name
    rfl
  · intro hzero
    cases p with
    | nil => rfl
    | cons e p =>
      have hpos := hp.positive e List.mem_cons_self
      have hnone := hzero e.1
      rw [count_cons_self] at hnone
      omega

/-! ## 2. Calls -/

theorem add_cons_self (hname : name ∉ p.map Prod.fst) (k : Nat) :
    add ((name, k) :: p) name = (name, k + 1) :: p := by
  have hothers : p.map (fun e => if e.1 = name then (name, e.2 + 1) else e) = p.map id := by
    refine List.map_congr_left fun e he => ?_
    rw [if_neg fun h => hname (List.mem_map.mpr ⟨e, he, h⟩)]
    rfl
  unfold add
  rw [if_pos (by simp), List.map_cons, hothers, List.map_id, if_pos rfl]

theorem add_cons_of_ne (hne : other ≠ name) (k : Nat) (p : Pending) :
    add ((other, k) :: p) name = (other, k) :: add p name := by
  unfold add
  rw [List.any_cons, decide_eq_false hne, Bool.false_or, List.map_cons, if_neg hne]
  split <;> rfl

theorem mem_keys_add (hother : other ∈ (add p name).map Prod.fst) : other = name ∨ other ∈ p.map Prod.fst := by
  unfold add at hother
  split at hother
  · obtain ⟨_, hmem, rfl⟩ := List.mem_map.mp hother
    obtain ⟨e, he, rfl⟩ := List.mem_map.mp hmem
    by_cases h : e.1 = name
    · rw [if_pos h]
      exact .inl rfl
    · rw [if_neg h]
      exact .inr (List.mem_map_of_mem he)
  · rw [List.map_append, List.mem_append] at hother
    exact hother.symm.imp_left List.mem_singleton.mp

theorem Sound.add (hp : Sound p) (name : String) : Sound (add p name) := by
  induction p with
  | nil => exact ⟨List.nodup_singleton _, by simp [Pending.add]⟩
  | cons e p ih =>
    obtain ⟨other, k⟩ := e
    obtain ⟨hother, _⟩ := List.nodup_cons.mp hp.nodup
    by_cases hne : other = name
    · subst hne
      rw [add_cons_self hother]
      exact hp.tail.cons hother (Nat.succ_pos k)
    · rw [add_cons_of_ne hne]
      refine (ih hp.tail).cons ?_ (hp.positive _ List.mem_cons_self)
      exact fun h => (mem_keys_add h).elim hne hother

theorem Sound.count_add (hp : Sound p) (name other : String) :
    count (Pending.add p name) other = count p other + if name = other then 1 else 0 := by
  induction p with
  | nil =>
    by_cases h : name = other
    · subst h
      rw [if_pos rfl]
      exact count_cons_self name 1 []
    · rw [if_neg h]
      exact count_cons_of_ne h 1 []
  | cons e p ih =>
    obtain ⟨n, k⟩ := e
    obtain ⟨hn, _⟩ := List.nodup_cons.mp hp.nodup
    by_cases hne : n = name
    · subst hne
      rw [add_cons_self hn]
      by_cases h : n = other
      · subst h
        rw [count_cons_self, count_cons_self, if_pos rfl]
      · rw [count_cons_of_ne h, count_cons_of_ne h, if_neg h, Nat.add_zero]
    · rw [add_cons_of_ne hne]
      by_cases h : n = other
      · subst h
        rw [count_cons_self, count_cons_self, if_neg (Ne.symm hne), Nat.add_zero]
      · rw [count_cons_of_ne h, count_cons_of_ne h]
        exact ih hp.tail

theorem foldl_add (names : List String) (hp : Sound p) :
    Sound (names.foldl add p) ∧ ∀ name, count (names.foldl add p) name = count p name + names.count name := by
  induction names generalizing p with
  | nil => exact ⟨hp, fun _ => rfl⟩
  | cons first names ih =>
    obtain ⟨hsound, hcount⟩ := ih (hp.add first)
    refine ⟨hsound, fun name => ?_⟩
    rw [List.foldl_cons, hcount, hp.count_add, List.count_cons, Nat.add_assoc, Nat.add_comm (names.count name)]
    by_cases h : first = name
    · simp [h]
    · simp [h]

theorem sound_nil : Sound [] := ⟨List.nodup_nil, nofun⟩

theorem ofCheckers_sound (checkers : List Checker) (language : String) : Sound (ofCheckers checkers language) :=
  (foldl_add _ sound_nil).1

/-- A document of a language is counted for every checker that covers it, under the checker's name. -/
theorem count_ofCheckers (checkers : List Checker) (language name : String) :
    count (ofCheckers checkers language) name
      = checkers.countP fun c => c.profile.covers language && decide (c.name = name) := by
  unfold ofCheckers
  rw [(foldl_add _ sound_nil).2, show count [] name = 0 from rfl, Nat.zero_add, List.count, List.countP_map,
    List.countP_filter]
  refine List.countP_congr fun c _ => ?_
  simp [Bool.and_comm]

/-! ## 3. Endings -/

/-- What is left after an ending has been told under a name. -/
def spend (p : Pending) (name : String) : Pending :=
  (p.map fun e => if e.1 = name then (e.1, e.2 - 1) else e).filter fun e => decide (0 < e.2)

theorem observe_eq (p : Pending) (n : Notice) :
    observe p n = if n.event.isTerminal then spend p n.checker else p := rfl

theorem spend_of_not_mem (hp : Sound p) (hname : name ∉ p.map Prod.fst) : spend p name = p := by
  have hothers : p.map (fun e => if e.1 = name then (e.1, e.2 - 1) else e) = p.map id := by
    refine List.map_congr_left fun e he => ?_
    rw [if_neg fun h => hname (List.mem_map.mpr ⟨e, he, h⟩)]
    rfl
  unfold spend
  rw [hothers, List.map_id, List.filter_eq_self]
  exact fun e he => decide_eq_true (hp.positive e he)

theorem spend_cons_self (hp : Sound ((name, k) :: p)) :
    spend ((name, k) :: p) name = if 1 < k then (name, k - 1) :: p else p := by
  have hname := (List.nodup_cons.mp hp.nodup).1
  have hrest : spend p name = p := spend_of_not_mem hp.tail hname
  unfold spend at *
  rw [List.map_cons, if_pos rfl, List.filter_cons, hrest]
  by_cases hk : 1 < k
  · have hleft : 0 < k - 1 := by omega
    rw [if_pos (decide_eq_true hleft), if_pos hk]
  · have hleft : ¬ 0 < k - 1 := by omega
    rw [if_neg fun h => hleft (of_decide_eq_true h), if_neg hk]

theorem spend_cons_of_ne (hne : other ≠ name) (hk : 0 < k) (p : Pending) :
    spend ((other, k) :: p) name = (other, k) :: spend p name := by
  unfold spend
  rw [List.map_cons, if_neg hne, List.filter_cons_of_pos (by simpa using hk)]

theorem mem_keys_spend (hother : other ∈ (spend p name).map Prod.fst) : other ∈ p.map Prod.fst := by
  unfold spend at hother
  obtain ⟨_, hmem, rfl⟩ := List.mem_map.mp hother
  obtain ⟨e, he, rfl⟩ := List.mem_map.mp (List.mem_filter.mp hmem).1
  refine List.mem_map.mpr ⟨e, he, ?_⟩
  split <;> rfl

theorem Sound.spend (hp : Sound p) (name : String) :
    Sound (spend p name)
      ∧ ∀ other, count (Pending.spend p name) other = count p other - if name = other then 1 else 0 := by
  induction p with
  | nil => exact ⟨sound_nil, fun other => (Nat.zero_sub _).symm⟩
  | cons e p ih =>
    obtain ⟨n, k⟩ := e
    obtain ⟨hn, _⟩ := List.nodup_cons.mp hp.nodup
    have hk : 0 < k := hp.positive _ List.mem_cons_self
    obtain ⟨hsound, hcount⟩ := ih hp.tail
    by_cases hne : n = name
    · subst hne
      rw [spend_cons_self hp]
      by_cases hmore : 1 < k
      · rw [if_pos hmore]
        refine ⟨hp.tail.cons hn (by omega), fun other => ?_⟩
        by_cases h : n = other
        · subst h
          rw [count_cons_self, count_cons_self, if_pos rfl]
        · rw [count_cons_of_ne h, count_cons_of_ne h, if_neg h, Nat.sub_zero]
      · rw [if_neg hmore]
        refine ⟨hp.tail, fun other => ?_⟩
        by_cases h : n = other
        · subst h
          rw [count_of_not_mem hn, count_cons_self, if_pos rfl]
          omega
        · rw [count_cons_of_ne h, if_neg h, Nat.sub_zero]
    · rw [spend_cons_of_ne hne hk]
      refine ⟨hsound.cons (fun h => hn (mem_keys_spend h)) hk, fun other => ?_⟩
      by_cases h : n = other
      · subst h
        rw [count_cons_self, count_cons_self, if_neg (Ne.symm hne), Nat.sub_zero]
      · rw [count_cons_of_ne h, count_cons_of_ne h]
        exact hcount other

/-- **Hearing a notice** takes one away under its name if it is an ending, and nothing otherwise. -/
theorem Sound.observe (hp : Sound p) (n : Notice) :
    Sound (observe p n)
      ∧ ∀ name, count (Pending.observe p n) name = count p name - Notice.endings name [n] := by
  rw [observe_eq]
  by_cases hending : n.event.isTerminal = true
  · rw [if_pos hending]
    obtain ⟨hsound, hcount⟩ := hp.spend n.checker
    refine ⟨hsound, fun name => ?_⟩
    rw [hcount]
    simp [Notice.endings, hending, List.countP_singleton]
  · rw [if_neg hending]
    refine ⟨hp, fun name => ?_⟩
    simp [Notice.endings, hending]

/-- Hearing several notices takes away as many as there are endings among them. -/
theorem Sound.hearAll (hp : Sound p) (notices : List Notice) :
    Sound (notices.foldl Pending.observe p)
      ∧ ∀ name, count (notices.foldl Pending.observe p) name = count p name - Notice.endings name notices := by
  induction notices generalizing p with
  | nil => exact ⟨hp, fun _ => rfl⟩
  | cons n notices ih =>
    obtain ⟨hsound, hcount⟩ := hp.observe n
    obtain ⟨hall, hcounts⟩ := ih hsound
    refine ⟨hall, fun name => ?_⟩
    rw [List.foldl_cons, hcounts, hcount, Nat.sub_sub, ← Notice.endings_append, List.singleton_append]

end SyntaxWatch.Pending
