import SyntaxWatch.Proofs.Uri.FileName
import SyntaxWatch.Target

/-!
# Resolving a path lexically

The steps of a path are taken one by one, with the steps that are left on a stack. Whatever the path, the
stack has one of two shapes (`Settled`): names on the root, or names on a number of `..` where there was
nothing to undo. A stack of such a shape is built again by its own steps (`Settled.foldl_reverse`), so
resolving twice is resolving once, and a front that is resolved first makes no difference to what comes
behind it.

A relative path string is resolved in the workspace, and an absolute one is taken as it is spelled. The
two spellings of one file have the same URI therefore only if the longer one has no `..` in it.
-/

set_option autoImplicit false

namespace SyntaxWatch

namespace Path

/-! ## 1. The stack -/

/-- The shape of a stack of resolved steps, the last of them first: on the root, or without one. -/
inductive Settled : Bool → List Component → Prop
  | rooted : Settled true [.root]
  | climbing (n : Nat) : Settled false (List.replicate n .parent)
  | name {absolute : Bool} {done : List Component} {bytes : List UInt8} (hname : IsStep (.name bytes))
      (h : Settled absolute done) : Settled absolute (.name bytes :: done)

theorem resolveStep_name (done : List Component) (bytes : List UInt8) :
    resolveStep done (.name bytes) = .name bytes :: done := by
  cases done <;> rfl

theorem resolveStep_climbing (n : Nat) :
    resolveStep (List.replicate n .parent) .parent = List.replicate (n + 1) .parent := by
  cases n <;> rfl

namespace Settled

variable {absolute : Bool} {done : List Component}

theorem step (h : Settled absolute done) {s : Component} (hs : IsStep s) :
    Settled absolute (resolveStep done s) := by
  obtain rfl | ⟨bytes, rfl⟩ := hs.cases
  · cases h with
    | rooted => exact .rooted
    | climbing n =>
      rw [resolveStep_climbing]
      exact .climbing (n + 1)
    | name _ h => exact h
  · rw [resolveStep_name]
    exact .name hs h

/-- The shape is kept over any steps. -/
theorem run (h : Settled absolute done) {steps : List Component} (hsteps : ∀ s ∈ steps, IsStep s) :
    Settled absolute (steps.foldl resolveStep done) := by
  induction steps generalizing done with
  | nil => exact h
  | cons s steps ih =>
    exact ih (h.step (hsteps s List.mem_cons_self)) fun t ht => hsteps t (List.mem_cons_of_mem s ht)

theorem foldl_climbing (n : Nat) :
    (List.replicate n Component.parent).foldl resolveStep [] = List.replicate n .parent := by
  induction n with
  | zero => rfl
  | succ n ih =>
    rw [List.replicate_succ', List.foldl_append, ih, ← List.replicate_succ']
    exact resolveStep_climbing n

/-- **A settled stack is built by its own steps.** -/
theorem foldl_reverse (h : Settled absolute done) : done.reverse.foldl resolveStep [] = done := by
  induction h with
  | rooted => rfl
  | climbing n => rw [List.reverse_replicate, foldl_climbing]
  | @name _ done bytes _ _ ih =>
    rw [List.reverse_cons, List.foldl_append, ih]
    exact resolveStep_name done bytes

/-- Read from its first step on, a settled stack is what it stands on and then the names. -/
theorem exists_names (h : Settled absolute done) :
    ∃ front, ∃ names : List (List UInt8), done.reverse = front ++ names.map Component.name
      ∧ (∀ name ∈ names, IsStep (.name name))
      ∧ (absolute = true ∧ front = [.root] ∨ absolute = false ∧ ∃ n, front = List.replicate n .parent) := by
  induction h with
  | rooted => exact ⟨[.root], [], rfl, by simp, .inl ⟨rfl, rfl⟩⟩
  | climbing n => exact ⟨List.replicate n .parent, [], by simp, by simp, .inr ⟨rfl, n, rfl⟩⟩
  | @name _ done bytes hname h ih =>
    obtain ⟨front, names, hnames, hsteps, hfront⟩ := ih
    refine ⟨front, names ++ [bytes], by simp [hnames], ?_, hfront⟩
    intro name hmem
    rcases List.mem_append.mp hmem with hmem | hmem
    · exact hsteps name hmem
    · rw [List.mem_singleton.mp hmem]
      exact hname

theorem of_absolute (h : Settled true done) :
    ∃ names : List (List UInt8), done.reverse = .root :: names.map Component.name
      ∧ ∀ name ∈ names, IsStep (.name name) := by
  obtain ⟨front, names, hnames, hsteps, ⟨_, rfl⟩ | ⟨habsolute, _⟩⟩ := h.exists_names
  · exact ⟨names, hnames, hsteps⟩
  · cases habsolute

theorem of_relative (h : Settled false done) :
    ∃ n, ∃ names : List (List UInt8),
      done.reverse = List.replicate n .parent ++ names.map Component.name ∧ ∀ s ∈ done.reverse, IsStep s := by
  obtain ⟨front, names, hnames, hsteps, ⟨hrelative, _⟩ | ⟨_, n, rfl⟩⟩ := h.exists_names
  · cases hrelative
  · refine ⟨n, names, hnames, ?_⟩
    intro s hs
    rw [hnames] at hs
    rcases List.mem_append.mp hs with hs | hs
    · rw [List.eq_of_mem_replicate hs]
      exact isStep_parent
    · obtain ⟨name, hname, rfl⟩ := List.mem_map.mp hs
      exact hsteps name hname

end Settled

/-! ## 2. Normal paths -/

variable {p q : Path}

/-- What is on the stack before the first step. -/
def bottom (p : Path) : List Component := if p.isAbsolute then [.root] else []

theorem bottom_settled (p : Path) : Settled p.isAbsolute p.bottom := by
  unfold bottom
  cases p.isAbsolute with
  | true => exact .rooted
  | false => exact .climbing 0

/-- The stack behind the last step. -/
def resolved (p : Path) : List Component := p.components.foldl resolveStep []

theorem resolved_eq (p : Path) : p.resolved = p.steps.foldl resolveStep p.bottom := by
  unfold resolved
  rw [components_eq, List.foldl_append]
  refine congrArg (fun done => p.steps.foldl resolveStep done) ?_
  unfold beginning bottom
  split
  · rfl
  split
  · rfl
  · rfl

theorem resolved_settled (p : Path) : Settled p.isAbsolute p.resolved := by
  rw [resolved_eq]
  exact p.bottom_settled.run fun s => isStep_of_mem_steps

/-- A normal path is the written form of its stack: nothing is lost, and nothing comes in. -/
theorem normalize_written (p : Path) :
    p.normalize.isAbsolute = p.isAbsolute ∧ p.normalize.components = p.resolved.reverse := by
  have hsettled := p.resolved_settled
  show (ofComponents p.resolved.reverse).isAbsolute = _ ∧ (ofComponents p.resolved.reverse).components = _
  cases habsolute : p.isAbsolute with
  | true =>
    rw [habsolute] at hsettled
    obtain ⟨names, hnames, hsteps⟩ := hsettled.of_absolute
    rw [hnames]
    refine ⟨isAbsolute_ofRootSteps _, components_ofRootSteps ?_⟩
    intro s hs
    obtain ⟨name, hname, rfl⟩ := List.mem_map.mp hs
    exact hsteps name hname
  | false =>
    rw [habsolute] at hsettled
    obtain ⟨_, _, _, hsteps⟩ := hsettled.of_relative
    rw [ofComponents_of_steps hsteps]
    exact components_ofSteps hsteps

theorem resolved_normalize (p : Path) : p.normalize.resolved = p.resolved := by
  unfold resolved
  rw [(normalize_written p).2]
  exact p.resolved_settled.foldl_reverse

theorem normalize_congr (h : p.resolved = q.resolved) : p.normalize = q.normalize := by
  unfold normalize
  exact congrArg (fun done => ofComponents done.reverse) h

theorem normalize_normalize (p : Path) : p.normalize.normalize = p.normalize :=
  normalize_congr (resolved_normalize p)

theorem resolved_join (hq : q.isAbsolute = false) :
    (p.join q).resolved = q.steps.foldl resolveStep p.resolved := by
  rw [resolved_eq, resolved_eq, steps_join hq, List.foldl_append]
  unfold bottom
  rw [isAbsolute_join hq]

/-- **A front may be resolved first.** -/
theorem normalize_join (hq : q.isAbsolute = false) : (p.join q).normalize = (p.normalize.join q).normalize := by
  apply normalize_congr
  rw [resolved_join hq, resolved_join hq, resolved_normalize]

theorem components_normalize_absolute (hp : p.isAbsolute = true) :
    ∃ names : List (List UInt8), p.normalize.components = .root :: names.map Component.name := by
  have hsettled := p.resolved_settled
  rw [hp] at hsettled
  obtain ⟨names, hnames, _⟩ := hsettled.of_absolute
  exact ⟨names, (normalize_written p).2.trans hnames⟩

theorem components_normalize_relative (hp : p.isAbsolute = false) :
    ∃ n, ∃ names : List (List UInt8),
      p.normalize.components = List.replicate n .parent ++ names.map Component.name := by
  have hsettled := p.resolved_settled
  rw [hp] at hsettled
  obtain ⟨n, names, hnames, _⟩ := hsettled.of_relative
  exact ⟨n, names, (normalize_written p).2.trans hnames⟩

/-- Without a `..` there is nothing to undo, and all steps are taken. -/
theorem foldl_names {steps : List Component} (hsteps : ∀ s ∈ steps, IsStep s) (hparent : .parent ∉ steps)
    (done : List Component) : steps.foldl resolveStep done = steps.reverse ++ done := by
  induction steps generalizing done with
  | nil => rfl
  | cons s steps ih =>
    rw [List.mem_cons, not_or] at hparent
    obtain rfl | ⟨bytes, rfl⟩ := (hsteps s List.mem_cons_self).cases
    · exact absurd rfl hparent.1
    · rw [List.foldl_cons, resolveStep_name,
        ih (fun t ht => hsteps t (List.mem_cons_of_mem _ ht)) hparent.2]
      simp

/-- **An absolute path keeps its components just when no `..` is among them.** -/
theorem components_normalize_eq_iff (hp : p.isAbsolute = true) :
    p.normalize.components = p.components ↔ .parent ∉ p.components := by
  constructor
  · -- a normal path holds names only behind the root
    intro hsame hparent
    obtain ⟨names, hnames⟩ := components_normalize_absolute hp
    rw [← hsame, hnames] at hparent
    simp at hparent
  · intro hparent
    rw [components_of_isAbsolute hp, List.mem_cons, not_or] at hparent
    rw [(normalize_written p).2, resolved_eq, foldl_names (fun s => isStep_of_mem_steps) hparent.2,
      components_of_isAbsolute hp]
    simp [bottom, hp]

end Path

/-! ## 3. Path strings -/

namespace Target

variable {root : Path} {trigger : Uri} {path : String}

/-- A string in angle brackets does not begin with a slash. -/
theorem not_isMarker_of_isAbsolute (h : (Path.ofText path).isAbsolute = true) : isMarker path = false := by
  unfold isMarker
  split
  · next rest hpath =>
    have hbytes : (Path.ofText path).bytes = 0x3C :: Text.Utf8.encode rest := by
      unfold Path.ofText
      rw [hpath]
      rfl
    unfold Path.isAbsolute at h
    rw [hbytes] at h
    exact absurd h (by simp [Path.slash])
  · rfl

theorem resolve_of_not_isMarker (hmarker : isMarker path = false) :
    resolve root trigger path = (Uri.ofPath (fullPath root path)).map fun uri => ⟨uri, false⟩ := by
  simp [resolve, hmarker]

theorem fullPath_of_isAbsolute (hpath : (Path.ofText path).isAbsolute = true) :
    fullPath root path = Path.ofText path := by
  simp only [fullPath, hpath, if_true]

theorem fullPath_of_relative (hpath : (Path.ofText path).isAbsolute = false) :
    fullPath root path = (root.join (Path.ofText path)).normalize := by
  simp only [fullPath, hpath, Bool.false_eq_true, if_false]

theorem isAbsolute_fullPath (root : Path) (path : String) :
    (fullPath root path).isAbsolute = ((Path.ofText path).isAbsolute || root.isAbsolute) := by
  cases habsolute : (Path.ofText path).isAbsolute with
  | true => rw [fullPath_of_isAbsolute habsolute, habsolute, Bool.true_or]
  | false =>
    rw [fullPath_of_relative habsolute, (Path.normalize_written _).1, Path.isAbsolute_join habsolute,
      Bool.false_or]

/-- Resolving fails for a relative path in a relative root, and for nothing else. -/
theorem resolve_fails_iff :
    (∃ e, resolve root trigger path = .error e)
      ↔ isMarker path = false ∧ (Path.ofText path).isAbsolute = false ∧ root.isAbsolute = false := by
  cases hmarker : isMarker path with
  | true => simp [resolve, hmarker]
  | false =>
    rw [resolve_of_not_isMarker hmarker]
    cases hfull : (fullPath root path).isAbsolute with
    | true =>
      rw [Uri.ofPath_of_isAbsolute hfull]
      rw [isAbsolute_fullPath, Bool.or_eq_true_iff] at hfull
      simp only [Except.map, reduceCtorEq, exists_false, true_and, false_iff, not_and]
      intro hrelative hroot
      simp [hrelative, hroot] at hfull
    | false =>
      rw [Uri.ofPath_of_not_isAbsolute hfull]
      rw [isAbsolute_fullPath, Bool.or_eq_false_iff] at hfull
      simp [Except.map, hfull]

/-- A relative path has the URI of its absolute spelling just when that one has no `..`. -/
theorem ofPath_fullPath_eq_iff (hroot : root.isAbsolute = true) (hpath : (Path.ofText path).isAbsolute = false) :
    Uri.ofPath (fullPath root path) = Uri.ofPath (root.join (Path.ofText path))
      ↔ .parent ∉ (root.join (Path.ofText path)).components := by
  have hspelled : (root.join (Path.ofText path)).isAbsolute = true := by
    rw [Path.isAbsolute_join hpath, hroot]
  have hnormal : (root.join (Path.ofText path)).normalize.isAbsolute = true := by
    rw [(Path.normalize_written _).1, hspelled]
  rw [fullPath_of_relative hpath, ← Path.components_normalize_eq_iff hspelled]
  constructor
  · intro hsame
    have huri := Uri.ofPath_of_isAbsolute hspelled
    exact Uri.components_of_ofPath (hsame.trans huri) huri
  · exact Uri.ofPath_congr hnormal hspelled

/-- The URI of a file decides its target. -/
theorem map_file_inj {a b : Except Uri.PathError Uri} :
    a.map (fun uri => (⟨uri, false⟩ : Target)) = b.map (fun uri => ⟨uri, false⟩) ↔ a = b := by
  cases a <;> cases b <;> simp [Except.map]

theorem resolve_spelled (hroot : root.isAbsolute = true) (hpath : (Path.ofText path).isAbsolute = false)
    {spelling : String} (hspelling : Path.ofText spelling = root.join (Path.ofText path)) :
    resolve root trigger spelling
      = (Uri.ofPath (root.join (Path.ofText path))).map fun uri => ⟨uri, false⟩ := by
  have habsolute : (Path.ofText spelling).isAbsolute = true := by
    rw [hspelling, Path.isAbsolute_join hpath, hroot]
  rw [resolve_of_not_isMarker (not_isMarker_of_isAbsolute habsolute), fullPath_of_isAbsolute habsolute,
    hspelling]

end Target

/-! ## 4. All of it -/

/-- What resolving a path comes to. -/
structure Path.Resolution (p : Path) : Prop where
  again : p.normalize.normalize = p.normalize
  rooted : p.isAbsolute = true →
    p.normalize.isAbsolute = true ∧ .here ∉ p.normalize.components ∧ .parent ∉ p.normalize.components
  relative : p.isAbsolute = false → ∃ n, ∃ names : List (List UInt8),
    p.normalize.components = List.replicate n .parent ++ names.map Component.name
  /-- What is written behind the path may find it resolved already. -/
  behind : ∀ q : Path, q.isAbsolute = false → (p.join q).normalize = (p.normalize.join q).normalize

/-- What a path string refers to in a workspace. -/
structure Target.Resolution (root : Path) (trigger : Uri) (path : String) : Prop where
  fails : (∃ e, resolve root trigger path = .error e)
    ↔ isMarker path = false ∧ (Path.ofText path).isAbsolute = false ∧ root.isAbsolute = false
  /-- The path behind the root, as it is spelled, is another name for the same document unless it has a
  `..` in it. -/
  joined : root.isAbsolute = true → (Path.ofText path).isAbsolute = false → isMarker path = false →
    (resolve root trigger path
        = (Uri.ofPath (root.join (Path.ofText path))).map (fun uri => ⟨uri, false⟩)
      ↔ .parent ∉ (root.join (Path.ofText path)).components)
  spelled : root.isAbsolute = true → (Path.ofText path).isAbsolute = false → isMarker path = false →
    ∀ spelling, Path.ofText spelling = root.join (Path.ofText path) →
      (resolve root trigger path = resolve root trigger spelling
        ↔ .parent ∉ (root.join (Path.ofText path)).components)

/-- **Resolving is lexical, and done once.** -/
theorem lexical_resolution :
    (∀ p : Path, p.Resolution) ∧ ∀ root trigger path, Target.Resolution root trigger path := by
  constructor
  · intro p
    refine ⟨p.normalize_normalize, ?_, Path.components_normalize_relative, fun q => Path.normalize_join⟩
    intro hp
    obtain ⟨names, hnames⟩ := Path.components_normalize_absolute hp
    refine ⟨(Path.normalize_written p).1.trans hp, ?_, ?_⟩
    · simp [hnames]
    · simp [hnames]
  · intro root trigger path
    have hjoined : root.isAbsolute = true → (Path.ofText path).isAbsolute = false →
        Target.isMarker path = false →
        (Target.resolve root trigger path
            = (Uri.ofPath (root.join (Path.ofText path))).map (fun uri => ⟨uri, false⟩)
          ↔ .parent ∉ (root.join (Path.ofText path)).components) := by
      intro hroot hpath hmarker
      rw [Target.resolve_of_not_isMarker hmarker, Target.map_file_inj]
      exact Target.ofPath_fullPath_eq_iff hroot hpath
    refine ⟨Target.resolve_fails_iff, hjoined, ?_⟩
    intro hroot hpath hmarker spelling hspelling
    rw [Target.resolve_spelled hroot hpath hspelling]
    exact hjoined hroot hpath hmarker

theorem lexical_resolution_climbing :
    (Path.ofText "/ws").isAbsolute = true ∧ (Path.ofText "a/../../x.h").isAbsolute = false
      ∧ (Path.ofText "/ws/a/../../x.h").normalize.normalize = (Path.ofText "/ws/a/../../x.h").normalize
      ∧ Target.resolve (Path.ofText "/ws") ⟨"untitled:1"⟩ "a/../../x.h"
        ≠ Target.resolve (Path.ofText "/ws") ⟨"untitled:1"⟩ "/ws/a/../../x.h"
      ∧ Target.resolve (Path.ofText "/ws") ⟨"untitled:1"⟩ "./a//x.h"
        = Target.resolve (Path.ofText "/ws") ⟨"untitled:1"⟩ "/ws/./a//x.h" := by
  have hroot : (Path.ofText "/ws").isAbsolute = true := by decide
  have hclimbing : (Path.ofText "a/../../x.h").isAbsolute = false := by decide
  refine ⟨hroot, hclimbing, (lexical_resolution.1 _).again, ?_, ?_⟩
  · have hspelled := (lexical_resolution.2 (Path.ofText "/ws") ⟨"untitled:1"⟩ "a/../../x.h").spelled hroot
      hclimbing (by decide) "/ws/a/../../x.h" (by decide)
    exact fun hsame => hspelled.mp hsame (by decide)
  · have hspelled := (lexical_resolution.2 (Path.ofText "/ws") ⟨"untitled:1"⟩ "./a//x.h").spelled hroot
      (by decide) (by decide) "/ws/./a//x.h" (by decide)
    exact hspelled.mpr (by decide)

end SyntaxWatch
