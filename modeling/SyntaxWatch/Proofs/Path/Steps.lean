import Mathlib.Data.List.Basic
import SyntaxWatch.Path
import SyntaxWatch.Proofs.Text.Pieces

/-!
# The steps of a path

Between its slashes a path says which steps to take: names, and `..`. What else it says is where the steps
begin, at the root or where one is. So its components are its steps (`Path.steps`) behind one component at
most (`components_eq`), and for an absolute path that one is the root.

Steps can be written down as a path and are read back from it (`components_ofSteps`), and writing one path
behind another puts their steps one behind the other (`steps_join`). What is proved about paths elsewhere
goes by their steps and leaves the bytes alone.
-/

set_option autoImplicit false

namespace SyntaxWatch.Path

/-! ## 1. Steps and what stands before them -/

/-- The names and `..` of a path, in order. -/
def steps (p : Path) : List Component := p.parts.filterMap stepOf

/-- What can stand between slashes and says something: `..` and the names that can be told from it. -/
structure IsStep (s : Component) : Prop where
  slash_free : slash ∉ s.bytes
  read : stepOf s.bytes = some s

theorem bytes_of_stepOf {part : List UInt8} {step : Component} (h : stepOf part = some step) :
    step.bytes = part := by
  unfold stepOf at h
  split at h
  · cases h
  split at h
  · next hparent =>
    cases h
    exact hparent.symm
  · cases h
    rfl

theorem isStep_of_stepOf {part : List UInt8} {s : Component} (hfree : slash ∉ part)
    (h : stepOf part = some s) : IsStep s := by
  obtain rfl := bytes_of_stepOf h
  exact ⟨hfree, h⟩

theorem isStep_of_mem_steps {p : Path} {s : Component} (hs : s ∈ p.steps) : IsStep s := by
  obtain ⟨part, hpart, h⟩ := List.mem_filterMap.mp hs
  exact isStep_of_stepOf (Text.not_mem_of_mem_pieces hpart) h

theorem isStep_parent : IsStep .parent := ⟨by decide, by decide⟩

theorem IsStep.cases {s : Component} (h : IsStep s) : s = .parent ∨ ∃ name, s = .name name := by
  cases s with
  | root => exact absurd h.slash_free (by decide)
  | here => exact absurd h.read (by decide)
  | parent => exact .inl rfl
  | name bytes => exact .inr ⟨bytes, rfl⟩

/-- The steps can be told from their bytes. -/
theorem filterMap_stepOf_bytes {steps : List Component} (hsteps : ∀ s ∈ steps, IsStep s) :
    (steps.map Component.bytes).filterMap stepOf = steps := by
  induction steps with
  | nil => rfl
  | cons s steps ih =>
    rw [List.map_cons, List.filterMap_cons_some (hsteps s List.mem_cons_self).read,
      ih fun other hother => hsteps other (List.mem_cons_of_mem s hother)]

/-- What stands before the steps. -/
def beginning (p : Path) : List Component :=
  if p.isAbsolute then [.root] else if p.parts.head? = some [dot] then [.here] else []

theorem components_eq (p : Path) : p.components = p.beginning ++ p.steps := by
  unfold components beginning steps
  split
  · rfl
  split
  · rfl
  · rfl

theorem components_of_isAbsolute {p : Path} (hp : p.isAbsolute = true) :
    p.components = .root :: p.steps := by
  rw [components_eq, beginning, if_pos hp]
  rfl

/-! ## 2. Writing steps down -/

/-- Steps with a slash between neighbours. -/
def ofSteps (steps : List Component) : Path := ⟨Text.join slash (steps.map Component.bytes)⟩

/-- The same from the root. -/
def ofRootSteps (steps : List Component) : Path := ⟨slash :: Text.join slash (steps.map Component.bytes)⟩

theorem ofComponents_of_steps {steps : List Component} (hsteps : ∀ s ∈ steps, IsStep s) :
    ofComponents steps = ofSteps steps := by
  cases steps with
  | nil => rfl
  | cons s others =>
    obtain rfl | ⟨name, rfl⟩ := (hsteps s List.mem_cons_self).cases
    · rfl
    · rfl

/-- Parts that hold no slash are the parts of the path that is made of them. -/
theorem parts_join {parts : List (List UInt8)} (hne : parts ≠ []) (hfree : ∀ part ∈ parts, slash ∉ part) :
    (⟨Text.join slash parts⟩ : Path).parts = parts :=
  Text.pieces_join hne hfree

/-- A path of parts, the first of which says something, begins with no slash and no dot. -/
theorem components_join {parts : List (List UInt8)} (hfree : ∀ part ∈ parts, slash ∉ part)
    (hfirst : ∀ part ∈ parts.head?, stepOf part ≠ none) :
    (⟨Text.join slash parts⟩ : Path).isAbsolute = false
      ∧ (⟨Text.join slash parts⟩ : Path).steps = parts.filterMap stepOf
      ∧ (⟨Text.join slash parts⟩ : Path).components = parts.filterMap stepOf := by
  cases parts with
  | nil => exact ⟨rfl, rfl, rfl⟩
  | cons part others =>
    have hparts := parts_join (List.cons_ne_nil part others) hfree
    have hsays : stepOf part ≠ none := hfirst part rfl
    have hsteps : (⟨Text.join slash (part :: others)⟩ : Path).steps = (part :: others).filterMap stepOf := by
      unfold steps
      rw [hparts]
    have habsolute : (⟨Text.join slash (part :: others)⟩ : Path).isAbsolute = false := by
      cases part with
      | nil => exact absurd rfl hsays
      | cons b part =>
        have hb : b ≠ slash := by
          rintro rfl
          exact hfree _ List.mem_cons_self List.mem_cons_self
        unfold isAbsolute
        rw [Text.join_cons_cons]
        simp [hb]
    refine ⟨habsolute, hsteps, ?_⟩
    have hdot : part ≠ [dot] := by
      rintro rfl
      exact hsays rfl
    rw [components_eq, beginning, hparts, hsteps]
    simp [habsolute, hdot]

theorem components_ofSteps {steps : List Component} (hsteps : ∀ s ∈ steps, IsStep s) :
    (ofSteps steps).isAbsolute = false ∧ (ofSteps steps).components = steps := by
  have hfree : ∀ part ∈ steps.map Component.bytes, slash ∉ part := by
    intro part hpart
    obtain ⟨s, hs, rfl⟩ := List.mem_map.mp hpart
    exact (hsteps s hs).slash_free
  have hfirst : ∀ part ∈ (steps.map Component.bytes).head?, stepOf part ≠ none := by
    intro part hpart
    obtain ⟨s, hs, rfl⟩ := List.mem_map.mp (List.mem_of_head? hpart)
    simp [(hsteps s hs).read]
  obtain ⟨habsolute, _, hcomponents⟩ := components_join hfree hfirst
  exact ⟨habsolute, hcomponents.trans (filterMap_stepOf_bytes hsteps)⟩

theorem isAbsolute_ofRootSteps (steps : List Component) : (ofRootSteps steps).isAbsolute = true := by
  simp [isAbsolute, ofRootSteps]

theorem components_ofRootSteps {steps : List Component} (hsteps : ∀ s ∈ steps, IsStep s) :
    (ofRootSteps steps).components = .root :: steps := by
  rw [components_of_isAbsolute (isAbsolute_ofRootSteps steps)]
  unfold Path.steps parts ofRootSteps
  rw [Text.pieces_sep]
  cases steps with
  | nil => rfl
  | cons s others =>
    rw [Text.pieces_join (by simp)]
    · exact congrArg _ (filterMap_stepOf_bytes hsteps)
    · intro part hpart
      obtain ⟨t, ht, rfl⟩ := List.mem_map.mp hpart
      exact (hsteps t ht).slash_free

/-- A slash at the end says nothing. -/
theorem components_append_slash {p : Path} (hp : p.isAbsolute = true) :
    (⟨p.bytes ++ [slash]⟩ : Path).components = p.components := by
  have habsolute : (⟨p.bytes ++ [slash]⟩ : Path).isAbsolute = true := by
    unfold isAbsolute at hp ⊢
    rw [beq_iff_eq] at hp ⊢
    rw [List.head?_append, hp]
    rfl
  rw [components_of_isAbsolute habsolute, components_of_isAbsolute hp]
  unfold steps parts
  rw [Text.pieces_append_sep, List.filterMap_append]
  simp [Text.pieces, stepOf]

/-! ## 3. One path behind another -/

variable {p q : Path}

theorem join_of_isAbsolute (hq : q.isAbsolute = true) : p.join q = q := by
  simp [join, hq]

/-- Whether the path in front ends with a slash or gets one, it is cut there. -/
theorem bytes_join (hq : q.isAbsolute = false) (hp : p.bytes ≠ []) :
    ∃ front, (p.join q).bytes = front ++ slash :: q.bytes
      ∧ (p.bytes = front ∨ p.bytes = front ++ [slash]) := by
  unfold join
  rw [if_neg (by simp [hq, hp])]
  split
  · next hlast =>
    obtain ⟨front, hfront⟩ := List.getLast?_eq_some_iff.mp hlast
    exact ⟨front, by simp [hfront], .inr hfront⟩
  · exact ⟨p.bytes, rfl, .inl rfl⟩

theorem join_empty (hp : p.bytes = []) : p.join q = q := by
  simp [join, hp]

theorem isAbsolute_join (hq : q.isAbsolute = false) : (p.join q).isAbsolute = p.isAbsolute := by
  by_cases hp : p.bytes = []
  · rw [join_empty hp, hq]
    simp [isAbsolute, hp]
  · obtain ⟨front, hbytes, hfront | hfront⟩ := bytes_join hq hp
    · unfold isAbsolute
      rw [hbytes, List.head?_append_of_ne_nil _ (hfront ▸ hp), hfront]
    · unfold isAbsolute
      rw [hbytes, hfront]
      cases front with
      | nil => rfl
      | cons b front => rfl

/-- **The steps of a path that is written behind another** come behind the steps of that one. -/
theorem steps_join (hq : q.isAbsolute = false) : (p.join q).steps = p.steps ++ q.steps := by
  by_cases hp : p.bytes = []
  · have hnone : p.steps = [] := by
      simp [steps, parts, hp, Text.pieces, stepOf]
    rw [join_empty hp, hnone, List.nil_append]
  · obtain ⟨front, hbytes, hfront | hfront⟩ := bytes_join hq hp
    · unfold steps parts
      rw [hbytes, hfront, Text.pieces_append_sep, List.filterMap_append]
    · unfold steps parts
      rw [hbytes, hfront, Text.pieces_append_sep, Text.pieces_append_sep, List.filterMap_append,
        List.filterMap_append]
      simp [Text.pieces, stepOf]

end SyntaxWatch.Path
