import SyntaxWatch.Proofs.Uri.FileName

/-!
# Files under their URIs, and how they are shown

Documents, diagnostics and reports are kept under the URI of a file. That is as good as keeping them under
the components of its path: two paths have one URI just when they have the same components, and the path
that is read back from a URI has those of the path it was made from.

What is shown for a URI is that path, or the rest of it behind the root. The rest is cut off part by part,
with the parts that say nothing; it has the components that are left (`relativeTo?_of_prefix`), so that
the root and what is shown behind it name the file again.
-/

set_option autoImplicit false

namespace SyntaxWatch

namespace Path

/-! ## 1. The rest behind a directory -/

theorem steps_dropSteps (n : Nat) (parts : List (List UInt8)) :
    (dropSteps n parts).filterMap stepOf = (parts.filterMap stepOf).drop n := by
  induction parts generalizing n with
  | nil => simp [dropSteps]
  | cons part others ih =>
    unfold dropSteps
    cases hstep : stepOf part with
    | none => simp [hstep, ih]
    | some s =>
      cases n with
      | zero => simp
      | succ n => simp [hstep, ih]

/-- What is left begins with a part that says something. -/
theorem head_dropSteps (n : Nat) (parts : List (List UInt8)) :
    ∀ part ∈ (dropSteps n parts).head?, stepOf part ≠ none := by
  induction parts generalizing n with
  | nil => simp [dropSteps]
  | cons part others ih =>
    unfold dropSteps
    split
    · exact ih n
    · next hsays =>
      cases n with
      | zero => simpa using hsays
      | succ n => exact ih n

theorem mem_of_mem_dropSteps {n : Nat} {parts : List (List UInt8)} {part : List UInt8}
    (h : part ∈ dropSteps n parts) : part ∈ parts := by
  induction parts generalizing n with
  | nil => simp [dropSteps] at h
  | cons first others ih =>
    unfold dropSteps at h
    split at h
    · exact List.mem_cons_of_mem first (ih h)
    · cases n with
      | zero => exact h
      | succ n => exact List.mem_cons_of_mem first (ih h)

/-- The end that is dropped says nothing. -/
theorem dropSilentEnd_append (rest : List (List UInt8)) :
    ∃ silent, rest = dropSilentEnd rest ++ silent ∧ ∀ part ∈ silent, stepOf part = none := by
  refine ⟨(rest.reverse.takeWhile fun part => stepOf part = none).reverse, ?_, ?_⟩
  · unfold dropSilentEnd
    rw [← List.reverse_append, List.takeWhile_append_dropWhile, List.reverse_reverse]
  · intro part hpart
    have hsilent := List.mem_takeWhile_imp (List.mem_reverse.mp hpart)
    simpa using hsilent

theorem steps_dropSilentEnd (rest : List (List UInt8)) :
    (dropSilentEnd rest).filterMap stepOf = rest.filterMap stepOf := by
  obtain ⟨silent, hrest, hsilent⟩ := dropSilentEnd_append rest
  have hnone : silent.filterMap stepOf = [] := List.filterMap_eq_nil_iff.mpr hsilent
  conv_rhs => rw [hrest, List.filterMap_append, hnone, List.append_nil]

theorem head_dropSilentEnd {rest : List (List UInt8)} {part : List UInt8}
    (h : part ∈ (dropSilentEnd rest).head?) : part ∈ rest.head? := by
  obtain ⟨silent, hrest, _⟩ := dropSilentEnd_append rest
  rw [hrest, List.head?_append, h]
  rfl

/-- A directory's steps are counted without its root. -/
theorem countP_components {dir : Path} (hdir : dir.isAbsolute = true) :
    (dir.components.countP fun step => step != .root && step != .here) = dir.steps.length := by
  rw [components_of_isAbsolute hdir, List.countP_cons_of_neg (by decide)]
  refine List.countP_eq_length.mpr ?_
  intro s hs
  obtain rfl | ⟨name, rfl⟩ := (isStep_of_mem_steps hs).cases
  · rfl
  · simp

/-- **Behind a directory, the rest of a path has the components that are left.** -/
theorem relativeTo?_of_prefix {dir p : Path} (hdir : dir.isAbsolute = true) {rest : List Component}
    (hrest : p.components = dir.components ++ rest) :
    ∃ shown, dir.relativeTo? p = some shown ∧ shown.isAbsolute = false ∧ shown.steps = rest
      ∧ shown.components = rest := by
  have hp : p.isAbsolute = true := by
    -- only an absolute path has the root among its components
    by_contra hno
    have hnoroot : .root ∉ p.components := by
      rw [components_eq, beginning, if_neg hno, List.mem_append, not_or]
      refine ⟨by split <;> simp, ?_⟩
      intro hroot
      exact absurd (isStep_of_mem_steps hroot).slash_free (by decide)
    rw [hrest, components_of_isAbsolute hdir] at hnoroot
    exact hnoroot List.mem_cons_self
  have hsteps : p.steps = dir.steps ++ rest := by
    rw [components_of_isAbsolute hp, components_of_isAbsolute hdir] at hrest
    exact (List.cons.inj hrest).2
  let kept := dropSilentEnd (dropSteps dir.steps.length p.parts)
  have hkept : kept.filterMap stepOf = rest := by
    show (dropSilentEnd _).filterMap stepOf = rest
    rw [steps_dropSilentEnd, steps_dropSteps]
    show p.steps.drop dir.steps.length = rest
    rw [hsteps, List.drop_left]
  have hfree : ∀ part ∈ kept, slash ∉ part := by
    intro part hpart
    obtain ⟨silent, hsplit, _⟩ := dropSilentEnd_append (dropSteps dir.steps.length p.parts)
    have hleft : part ∈ dropSteps dir.steps.length p.parts := by
      rw [hsplit]
      exact List.mem_append_left silent hpart
    exact Text.not_mem_of_mem_pieces (mem_of_mem_dropSteps hleft)
  have hfirst : ∀ part ∈ kept.head?, stepOf part ≠ none := by
    intro part hpart
    exact head_dropSteps _ _ part (head_dropSilentEnd hpart)
  obtain ⟨habsolute, hshownSteps, hshown⟩ := components_join hfree hfirst
  refine ⟨⟨Text.join slash kept⟩, ?_, habsolute, hshownSteps.trans hkept, hshown.trans hkept⟩
  have hne : dir.components ≠ [] := by
    rw [components_of_isAbsolute hdir]
    exact List.cons_ne_nil _ _
  have hprefix : dir.components.isPrefixOf p.components = true := by
    rw [List.isPrefixOf_iff_prefix, hrest]
    exact List.prefix_append _ _
  unfold relativeTo?
  rw [if_neg hne, if_pos hprefix, countP_components hdir]

theorem relativeTo?_of_not_prefix {dir p : Path} (hdir : dir.isAbsolute = true)
    (hno : ¬ dir.components <+: p.components) : dir.relativeTo? p = none := by
  have hne : dir.components ≠ [] := by
    rw [components_of_isAbsolute hdir]
    exact List.cons_ne_nil _ _
  unfold relativeTo?
  rw [if_neg hne, if_neg]
  rw [List.isPrefixOf_iff_prefix]
  exact hno

end Path

/-! ## 2. Names for files -/

/-- What a URI says about the file at a path. -/
structure Uri.Names (u : Uri) (p : Path) : Prop where
  made : ofPath p = .ok u
  back : ∃ q, u.toPath? = some q ∧ q.components = p.components
  /-- Inside the root, the rest behind it is shown. -/
  inside : ∀ root : Path, root.isAbsolute = true → ∀ rest, p.components = root.components ++ rest →
    (Workspace.shownPath root u).components = rest
  /-- Anything else is shown as the path that is read back, whatever it is spelled like. -/
  outside : ∀ root : Path, root.isAbsolute = true → ¬ root.components <+: p.components →
    u.toPath? = some (Workspace.shownPath root u) ∧ (Workspace.shownPath root u).components = p.components
  behindRoot : ∀ root : Path, root.isAbsolute = true →
    (root.join (Workspace.shownPath root u)).components = p.components

theorem Workspace.shownPath_of_toPath? {u : Uri} {q : Path} (hq : u.toPath? = some q) (root : Path) :
    shownPath root u = (root.relativeTo? q).getD q := by
  unfold shownPath
  rw [hq]

theorem Uri.names_of_isAbsolute {p : Path} (hp : p.isAbsolute = true) : ∃ u : Uri, u.Names p := by
  have hmade := ofPath_of_isAbsolute hp
  obtain ⟨q, hq, habsolute, hcomponents⟩ := toPath?_of_ofPath hmade
  refine ⟨_, hmade, ⟨q, hq, hcomponents⟩, ?_, ?_, ?_⟩
  · intro root hroot rest hrest
    obtain ⟨shown, hshown, _, _, hrestComponents⟩ := Path.relativeTo?_of_prefix hroot (hcomponents.trans hrest)
    rw [Workspace.shownPath_of_toPath? hq, hshown]
    exact hrestComponents
  · intro root hroot hno
    rw [← hcomponents] at hno
    rw [Workspace.shownPath_of_toPath? hq, Path.relativeTo?_of_not_prefix hroot hno]
    exact ⟨hq, hcomponents⟩
  · intro root hroot
    rw [Workspace.shownPath_of_toPath? hq, ← hcomponents]
    -- inside the root the rest is put behind it again, and outside the path is absolute and not moved
    by_cases hprefix : root.components <+: q.components
    · obtain ⟨rest, hrest⟩ := hprefix
      obtain ⟨shown, hshown, hrelative, hsteps, _⟩ := Path.relativeTo?_of_prefix hroot hrest.symm
      have hjoined : (root.join shown).isAbsolute = true := (Path.isAbsolute_join hrelative).trans hroot
      rw [hshown, Option.getD_some, Path.components_of_isAbsolute hjoined, Path.steps_join hrelative, hsteps,
        ← hrest, Path.components_of_isAbsolute hroot, List.cons_append]
    · rw [Path.relativeTo?_of_not_prefix hroot hprefix, Option.getD_none, Path.join_of_isAbsolute habsolute]

/-- **URIs tell files apart, and nothing else**: two paths have the same URI just when they have the same
components, and whatever is shown for a URI names the file that it was made for. -/
theorem file_uri_faithful :
    (∀ p q : Path, p.isAbsolute = true → q.isAbsolute = true →
        (Uri.ofPath p = Uri.ofPath q ↔ p.components = q.components))
      ∧ ∀ p : Path, p.isAbsolute = true → ∃ u : Uri, u.Names p := by
  refine ⟨?_, fun p => Uri.names_of_isAbsolute⟩
  intro p q hp hq
  constructor
  · intro hsame
    have hu := Uri.ofPath_of_isAbsolute hq
    exact Uri.components_of_ofPath (hsame.trans hu) hu
  · exact Uri.ofPath_congr hp hq

/-- Two spellings of one file, with a name that looks like an escape and one like that of a drive; the file
with the name that the escape would stand for is another one. -/
theorem file_uri_faithful_drive :
    Uri.ofPath (.ofText "/ws//ü%41/./c:") = Uri.ofPath (.ofText "/ws/ü%41/c:/")
      ∧ Uri.ofPath (.ofText "/ws/%41") ≠ Uri.ofPath (.ofText "/ws/A")
      ∧ ∃ u : Uri, Uri.ofPath (.ofText "/ws//ü%41/./c:") = .ok u
        ∧ (Workspace.shownPath (.ofText "/ws") u).components = (Path.ofText "ü%41/c:").components
        ∧ (Workspace.shownPath (.ofText "/other") u).components = (Path.ofText "/ws/ü%41/c:").components := by
  have hspelled : (Path.ofText "/ws//ü%41/./c:").isAbsolute = true := by decide
  obtain ⟨hsame, hnames⟩ := file_uri_faithful
  refine ⟨(hsame _ _ hspelled (by decide)).mpr (by decide), ?_, ?_⟩
  · rw [Ne, hsame _ _ (by decide) (by decide)]
    decide
  · obtain ⟨u, hu⟩ := hnames _ hspelled
    refine ⟨u, hu.made, hu.inside _ (by decide) _ (by decide), ?_⟩
    rw [(hu.outside _ (by decide) (by decide)).2]
    decide

end SyntaxWatch
