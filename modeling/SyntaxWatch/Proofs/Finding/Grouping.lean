import Mathlib.Data.List.Induction
import Mathlib.Data.List.Nodup
import SyntaxWatch.Finding

/-!
# One finding more

What `Findings.push` does to the groups, seen through `get?`: the finding goes to the end of the
group of its path, which is opened if there is none yet, and every other group stays as it is. This
holds of any groups, also of such as no checker leaves behind.

Both functions look for the first group of a path, so they are followed along the list of groups,
one group at a time.

From this, `groups_ofList` says what a whole output leaves behind, without replaying it: every path
once, in the order in which the paths first appeared, with the findings that have it.
-/

set_option autoImplicit false

namespace SyntaxWatch.Findings

variable {path name : String} {items : List Finding} {groups : List (String × List Finding)} {f : Finding}

/-! ## 1. Along the groups -/

theorem slot?_cons_of_eq (h : name = path) : slot? ⟨(name, items) :: groups⟩ path = some 0 := by
  unfold slot?
  simp [List.findIdx?_cons, h]

theorem slot?_cons_of_ne (h : name ≠ path) :
    slot? ⟨(name, items) :: groups⟩ path = (slot? ⟨groups⟩ path).map (· + 1) := by
  unfold slot?
  simp [List.findIdx?_cons, h]

theorem get?_cons_of_eq (h : name = path) : get? ⟨(name, items) :: groups⟩ path = some items := by
  unfold get?
  rw [slot?_cons_of_eq h]
  rfl

theorem get?_cons_of_ne (h : name ≠ path) :
    get? ⟨(name, items) :: groups⟩ path = get? ⟨groups⟩ path := by
  unfold get?
  rw [slot?_cons_of_ne h]
  cases slot? ⟨groups⟩ path <;> rfl

theorem push_cons_of_eq (h : name = f.path) :
    push ⟨(name, items) :: groups⟩ f = ⟨(name, items ++ [f]) :: groups⟩ := by
  unfold push
  rw [slot?_cons_of_eq h]
  rfl

theorem push_cons_of_ne (h : name ≠ f.path) :
    push ⟨(name, items) :: groups⟩ f = ⟨(name, items) :: (push ⟨groups⟩ f).groups⟩ := by
  unfold push
  rw [slot?_cons_of_ne h]
  cases slot? ⟨groups⟩ f.path <;> rfl

/-! ## 2. All groups -/

theorem get?_push_self (found : Findings) (f : Finding) :
    (found.push f).get? f.path = some ((found.get? f.path).getD [] ++ [f]) := by
  obtain ⟨groups⟩ := found
  induction groups with
  | nil => exact get?_cons_of_eq rfl
  | cons group groups ih =>
    obtain ⟨name, items⟩ := group
    by_cases h : name = f.path
    · rw [push_cons_of_eq h, get?_cons_of_eq h, get?_cons_of_eq h]
      rfl
    · rw [push_cons_of_ne h, get?_cons_of_ne h, get?_cons_of_ne h]
      exact ih

theorem get?_push_of_ne (found : Findings) (hne : path ≠ f.path) :
    (found.push f).get? path = found.get? path := by
  obtain ⟨groups⟩ := found
  induction groups with
  | nil => exact get?_cons_of_ne hne.symm
  | cons group groups ih =>
    obtain ⟨name, items⟩ := group
    by_cases h : name = f.path
    · have hother : name ≠ path := fun h' => hne (h'.symm.trans h)
      rw [push_cons_of_eq h, get?_cons_of_ne hother, get?_cons_of_ne hother]
    · rw [push_cons_of_ne h]
      by_cases hpath : name = path
      · rw [get?_cons_of_eq hpath, get?_cons_of_eq hpath]
      · rw [get?_cons_of_ne hpath, get?_cons_of_ne hpath]
        exact ih

/-! ## 3. How many -/

/-- The findings of the groups whose paths pass a test. -/
def under (test : String → Bool) (found : Findings) : List Finding :=
  (found.groups.filter fun g => test g.1).flatMap Prod.snd

theorem length_under_cons (test : String → Bool) (name : String) (items : List Finding)
    (groups : List (String × List Finding)) :
    (under test ⟨(name, items) :: groups⟩).length
      = (if test name then items.length else 0) + (under test ⟨groups⟩).length := by
  unfold under
  rw [List.filter_cons]
  split
  · rw [List.flatMap_cons, List.length_append]
  · rw [Nat.zero_add]

theorem length_under_push (test : String → Bool) (found : Findings) (f : Finding) :
    (under test (found.push f)).length = (under test found).length + if test f.path then 1 else 0 := by
  obtain ⟨groups⟩ := found
  induction groups with
  | nil =>
    rw [show push ⟨[]⟩ f = ⟨[(f.path, [f])]⟩ from rfl, length_under_cons, Nat.add_comm]
    rfl
  | cons group groups ih =>
    obtain ⟨name, items⟩ := group
    by_cases h : name = f.path
    · rw [push_cons_of_eq h, length_under_cons, length_under_cons, List.length_append, h]
      split <;> simp [Nat.add_right_comm]
    · rw [push_cons_of_ne h, length_under_cons, length_under_cons, Nat.add_assoc]
      exact congrArg _ ih

theorem totalCount_push (found : Findings) (f : Finding) :
    (found.push f).totalCount = found.totalCount + 1 := by
  have hall : ∀ fs : Findings, fs.totalCount = (under (fun _ => true) fs).length := by
    intro fs
    simp [totalCount, toList, under]
  rw [hall, hall, length_under_push, if_pos rfl]

/-! ## 4. The grouping of a list -/

theorem ofList_snoc (printed : List Finding) (f : Finding) :
    ofList (printed ++ [f]) = (ofList printed).push f := by
  unfold ofList
  rw [List.foldl_append]
  rfl

theorem pathsOf_snoc (printed : List Finding) (f : Finding) :
    pathsOf (printed ++ [f])
      = if f.path ∈ pathsOf printed then pathsOf printed else pathsOf printed ++ [f.path] := by
  unfold pathsOf
  rw [List.foldl_append]
  rfl

theorem mem_pathsOf_snoc {printed : List Finding} :
    path ∈ pathsOf (printed ++ [f]) ↔ path ∈ pathsOf printed ∨ path = f.path := by
  rw [pathsOf_snoc]
  by_cases hf : f.path ∈ pathsOf printed
  · rw [if_pos hf]
    exact ⟨.inl, fun h => h.elim id fun heq => heq ▸ hf⟩
  · rw [if_neg hf, List.mem_append, List.mem_singleton]

theorem mem_pathsOf {printed : List Finding} : path ∈ pathsOf printed ↔ ∃ f ∈ printed, f.path = path := by
  induction printed using List.reverseRecOn with
  | nil => simp [pathsOf]
  | append_singleton printed f ih =>
    rw [mem_pathsOf_snoc, ih]
    simp [or_and_right, exists_or, eq_comm]

theorem pathsOf_nodup (printed : List Finding) : (pathsOf printed).Nodup := by
  induction printed using List.reverseRecOn with
  | nil => exact List.nodup_nil
  | append_singleton printed f ih =>
    rw [pathsOf_snoc]
    by_cases hf : f.path ∈ pathsOf printed
    · rwa [if_pos hf]
    · rw [if_neg hf, ← List.concat_eq_append]
      exact ih.concat hf

/-- Where no path is printed twice, the paths are those that are printed. -/
theorem pathsOf_of_nodup {printed : List Finding} (hnodup : (printed.map Finding.path).Nodup) :
    pathsOf printed = printed.map Finding.path := by
  induction printed using List.reverseRecOn with
  | nil => rfl
  | append_singleton printed f ih =>
    rw [List.map_append, List.map_singleton, List.nodup_append] at hnodup
    obtain ⟨hprinted, _, hnew⟩ := hnodup
    have hf : f.path ∉ pathsOf printed := by
      rw [ih hprinted]
      exact fun h => hnew f.path h f.path List.mem_cons_self rfl
    rw [pathsOf_snoc, if_neg hf, ih hprinted, List.map_append, List.map_singleton]

/-- A finding whose path has a group goes to the end of it. -/
theorem push_map_of_mem {paths : List String} (hnodup : paths.Nodup) (hf : f.path ∈ paths)
    (g : String → List Finding) :
    push ⟨paths.map fun p => (p, g p)⟩ f
      = ⟨paths.map fun p => (p, g p ++ if f.path = p then [f] else [])⟩ := by
  induction paths with
  | nil => cases hf
  | cons p paths ih =>
    obtain ⟨hp, hrest⟩ := List.nodup_cons.mp hnodup
    rw [List.map_cons, List.map_cons]
    by_cases h : p = f.path
    · have hothers : ∀ q ∈ paths, (q, g q) = (q, g q ++ if f.path = q then [f] else []) := by
        intro q hq
        have hne : f.path ≠ q := fun hq' => hp (h.trans hq' ▸ hq)
        rw [if_neg hne, List.append_nil]
      rw [push_cons_of_eq h, if_pos h.symm, List.map_congr_left hothers]
    · rw [push_cons_of_ne h, ih hrest ((List.mem_cons.mp hf).resolve_left (Ne.symm h)),
        if_neg (Ne.symm h), List.append_nil]

theorem push_map_of_not_mem {paths : List String} (hf : f.path ∉ paths) (g : String → List Finding) :
    push ⟨paths.map fun p => (p, g p)⟩ f = ⟨(paths.map fun p => (p, g p)) ++ [(f.path, [f])]⟩ := by
  induction paths with
  | nil => rfl
  | cons p paths ih =>
    rw [List.mem_cons, not_or] at hf
    rw [List.map_cons, push_cons_of_ne (Ne.symm hf.1), ih hf.2, List.cons_append]

/-- **Both ways of grouping agree**: taking in one finding after the other, and filtering by path. -/
theorem groups_ofList (printed : List Finding) : (ofList printed).groups = groupsOf printed := by
  induction printed using List.reverseRecOn with
  | nil => rfl
  | append_singleton printed f ih =>
    have hbefore : ofList printed = ⟨groupsOf printed⟩ := by rw [← ih]
    have hfilter : ∀ p, (printed ++ [f]).filter (fun x => x.path = p)
        = printed.filter (fun x => x.path = p) ++ if f.path = p then [f] else [] := by
      intro p
      simp [List.filter_append, List.filter_singleton]
    rw [ofList_snoc, hbefore]
    unfold groupsOf
    rw [pathsOf_snoc]
    simp only [hfilter]
    by_cases hf : f.path ∈ pathsOf printed
    · rw [if_pos hf, push_map_of_mem (pathsOf_nodup printed) hf]
    · have hfirst : printed.filter (fun x => x.path = f.path) = [] := by
        rw [List.filter_eq_nil_iff]
        intro g hg hpath
        exact hf (mem_pathsOf.mpr ⟨g, hg, by simpa using hpath⟩)
      have hothers : ∀ p ∈ pathsOf printed, (p, printed.filter fun x => x.path = p)
          = (p, (printed.filter fun x => x.path = p) ++ if f.path = p then [f] else []) := by
        intro p hp
        have hne : f.path ≠ p := fun h => hf (h ▸ hp)
        rw [if_neg hne, List.append_nil]
      rw [if_neg hf, push_map_of_not_mem hf, List.map_append, List.map_singleton, hfirst, if_pos rfl,
        List.nil_append, List.map_congr_left hothers]

/-- As many findings are under some paths as have been printed with one of them. -/
theorem length_under_ofList (test : String → Bool) (printed : List Finding) :
    (under test (ofList printed)).length = printed.countP fun f => test f.path := by
  induction printed using List.reverseRecOn with
  | nil => rfl
  | append_singleton printed f ih =>
    rw [ofList_snoc, length_under_push, ih, List.countP_append, List.countP_singleton]

end SyntaxWatch.Findings
