import Mathlib.Data.Finset.Card
import Mathlib.Data.List.Nodup
import SyntaxWatch.Finding.Indexed
import SyntaxWatch.Proofs.Finding.Draining
import SyntaxWatch.Proofs.Order.Keyed

/-!
# Grouping is filtering

The groups of a list of findings are kept up while the findings come in, one by one, and so is the index that
leads from a path to its group. What comes of it is what filtering the whole list would give: each path where it
first appears, with the findings that have it (`Filtered`).

The index is treated on its own (`IndexedFindings.InStep`): it leads from each path to the slot of its group, and
from no other path anywhere. A push keeps it so, and leaves the groups that `Findings.push` leaves, which goes
without an index.

For a text all this means that only those lines count that state something, and they by what they state.
-/

set_option autoImplicit false

namespace SyntaxWatch

/-! ## 1. The slots of paths -/

theorem getElem?_concat_eq_some_iff {α : Type} {l : List α} {x y : α} {i : Nat} :
    (l ++ [x])[i]? = some y ↔ l[i]? = some y ∨ i = l.length ∧ x = y := by
  rcases Nat.lt_trichotomy i l.length with hlt | rfl | hgt
  · rw [List.getElem?_append_left hlt]
    simp [Nat.ne_of_lt hlt]
  · rw [List.getElem?_concat_length, List.getElem?_eq_none (Nat.le_refl _)]
    simp
  · have hbeyond : (l ++ [x]).length ≤ i := by
      rw [List.length_append]
      exact Nat.succ_le_of_lt hgt
    rw [List.getElem?_eq_none hbeyond, List.getElem?_eq_none (Nat.le_of_lt hgt)]
    simp [Nat.ne_of_gt hgt]

theorem Findings.slot?_eq_some_iff {found : Findings} (hnodup : (found.groups.map Prod.fst).Nodup) {path : String}
    {slot : Nat} : found.slot? path = some slot ↔ (found.groups.map Prod.fst)[slot]? = some path := by
  unfold slot?
  rw [List.findIdx?_eq_some_iff_getElem]
  constructor
  · rintro ⟨hlt, hpath, _⟩
    rw [List.getElem?_map, List.getElem?_eq_getElem hlt]
    simpa using hpath
  · intro hpath
    obtain ⟨group, hgroup, hname⟩ := Option.map_eq_some_iff.mp (List.getElem?_map.symm.trans hpath)
    obtain ⟨hlt, rfl⟩ := List.getElem?_eq_some_iff.mp hgroup
    refine ⟨hlt, by simpa using hname, fun j hj hsame => ?_⟩
    -- an earlier slot with the same path would be the same slot
    have hearlier : (found.groups.map Prod.fst)[j]? = some path := by
      rw [List.getElem?_map, List.getElem?_eq_getElem (hj.trans hlt)]
      simpa using hsame
    have hlength : j < (found.groups.map Prod.fst).length := by
      rw [List.length_map]
      exact hj.trans hlt
    have hjs : j = slot := (List.getElem?_inj hlength hnodup).mp (hearlier.trans hpath.symm)
    exact Nat.lt_irrefl slot (hjs ▸ hj)

namespace IndexedFindings

variable {t : IndexedFindings} {f : Finding} {path : String}

/-- The index leads from each path to its own slot, and from no other path anywhere. -/
def InStep (t : IndexedFindings) : Prop :=
  ∀ path slot, t.slot? path = some slot ↔ (t.groups.map Prod.fst)[slot]? = some path

theorem inStep_empty : empty.InStep := by
  intro path slot
  simp [empty, slot?]

theorem InStep.nodup (ht : t.InStep) : (t.groups.map Prod.fst).Nodup := by
  rw [List.nodup_iff_getElem?_ne_getElem?]
  intro i j hij hj hsame
  have hi : t.slot? (t.groups.map Prod.fst)[j] = some j := (ht _ j).mpr (List.getElem?_eq_getElem hj)
  have hsecond : t.slot? (t.groups.map Prod.fst)[j] = some i :=
    (ht _ i).mpr (hsame.trans (List.getElem?_eq_getElem hj))
  exact Nat.ne_of_lt hij (Option.some.inj (hsecond.symm.trans hi))

/-- The index has the slots that going through the groups would find. -/
theorem InStep.slot?_eq (ht : t.InStep) (path : String) : t.slot? path = (Findings.mk t.groups).slot? path := by
  refine Option.ext fun slot => ?_
  rw [ht path slot, Findings.slot?_eq_some_iff ht.nodup]

theorem InStep.lt_of_slot? (ht : t.InStep) {slot : Nat} (hslot : t.slot? path = some slot) :
    slot < t.groups.length := by
  obtain ⟨hlt, _⟩ := List.getElem?_eq_some_iff.mp ((ht path slot).mp hslot)
  rwa [List.length_map] at hlt

theorem InStep.get? (ht : t.InStep) (path : String) :
    t.get? path = some ((Findings.mk t.groups).get? path) := by
  unfold IndexedFindings.get? Findings.get?
  rw [← ht.slot?_eq]
  cases hslot : t.slot? path with
  | none => rfl
  | some slot =>
    show t.groups[slot]?.map (fun g => some g.2) = some (t.groups[slot]?.map Prod.snd)
    rw [List.getElem?_eq_getElem (ht.lt_of_slot? hslot)]
    rfl

theorem slot?_concat (groups : List (String × List Finding)) (name : String) (slot : Nat) :
    slot? ⟨groups, t.index ++ [(name, slot)]⟩ path
      = (t.slot? path).or (if name = path then some slot else none) := by
  unfold slot?
  rw [List.find?_append]
  cases t.index.find? fun e => e.1 = path with
  | some e => rfl
  | none =>
    by_cases hname : name = path
    · simp [hname]
    · simp [hname]

/-- **A push keeps the index in step**, finds its group where the index says, and leaves the groups that are
left without an index. -/
theorem InStep.push? (ht : t.InStep) (f : Finding) :
    ∃ next, t.push? f = some next ∧ next.groups = ((Findings.mk t.groups).push f).groups ∧ next.InStep := by
  unfold IndexedFindings.push? Findings.push
  rw [← ht.slot?_eq]
  cases hslot : t.slot? f.path with
  | some slot =>
    have hpaths : (t.groups.modify slot fun g => (g.1, g.2 ++ [f])).map Prod.fst = t.groups.map Prod.fst :=
      map_key_modify Prod.fst (f := fun g => (g.1, g.2 ++ [f])) (fun _ => rfl) t.groups slot
    refine ⟨_, if_pos (ht.lt_of_slot? hslot), rfl, fun path other => ?_⟩
    rw [hpaths]
    exact ht path other
  | none =>
    refine ⟨_, rfl, rfl, fun path slot => ?_⟩
    rw [slot?_concat, List.map_append, List.map_singleton, getElem?_concat_eq_some_iff, ← ht path slot,
      List.length_map]
    by_cases hpath : f.path = path
    · subst hpath
      simp [hslot, eq_comm]
    · simp [hpath]

/-- **No look-up leads out of the groups**, and the groups are those without an index. -/
theorem ofList?_inStep (pushed : List Finding) :
    ∃ t, ofList? pushed = some t ∧ t.groups = (Findings.ofList pushed).groups ∧ t.InStep := by
  induction pushed using List.reverseRecOn with
  | nil => exact ⟨empty, rfl, rfl, inStep_empty⟩
  | append_singleton pushed f ih =>
    obtain ⟨t, hpushed, hgroups, ht⟩ := ih
    obtain ⟨next, hnext, hnextGroups, hstep⟩ := ht.push? f
    refine ⟨next, ?_, ?_, hstep⟩
    · unfold ofList? at hpushed ⊢
      rw [List.foldlM_append, hpushed]
      exact (bind_pure _).trans hnext
    · rw [hnextGroups, hgroups, Findings.ofList_snoc]

end IndexedFindings

/-! ## 2. Groups as filters -/

namespace Findings

/-- What there is when all of this has been pushed: a group for each path, by filtering. -/
structure Filtered (pushed : List Finding) (found : Findings) : Prop where
  /-- Each path stands where it first appears, and once. -/
  paths : found.groups.map Prod.fst = (pushed.map Finding.path).eraseDups
  items : ∀ group ∈ found.groups, group.2 ≠ [] ∧ group.2 = pushed.filter fun f => f.path = group.1
  slots : ∀ path slot, found.slot? path = some slot ↔ (found.groups.map Prod.fst)[slot]? = some path
  get : ∀ path, (∃ f ∈ pushed, f.path = path) → found.get? path = some (pushed.filter fun f => f.path = path)
  absent : ∀ path, found.get? path = none ↔ ∀ f ∈ pushed, f.path ≠ path
  totalCount : found.totalCount = pushed.length
  fileCount : found.fileCount = (pushed.map Finding.path).toFinset.card
  isEmpty : found.isEmpty = true ↔ pushed = []

variable {pushed : List Finding} {path : String}

theorem pathsOf_eq_eraseDups (pushed : List Finding) : pathsOf pushed = (pushed.map Finding.path).eraseDups := by
  induction pushed using List.reverseRecOn with
  | nil => rfl
  | append_singleton pushed f ih =>
    rw [pathsOf_snoc, List.map_append, List.map_singleton, List.eraseDups_append, ← ih]
    by_cases hf : f.path ∈ pathsOf pushed
    · obtain ⟨g, hg, hpath⟩ := mem_pathsOf.mp hf
      have hnone : [f.path].removeAll (pushed.map Finding.path) = [] := by
        simpa [List.removeAll, List.filter_cons] using ⟨g, hg, hpath⟩
      rw [if_pos hf, hnone, List.eraseDups_nil, List.append_nil]
    · have hnew : [f.path].removeAll (pushed.map Finding.path) = [f.path] := by
        rw [mem_pathsOf] at hf
        simpa [List.removeAll, List.filter_cons] using hf
      rw [if_neg hf, hnew]
      rfl

theorem mem_groups_ofList {group : String × List Finding} : group ∈ (ofList pushed).groups ↔
    (∃ f ∈ pushed, f.path = group.1) ∧ group.2 = pushed.filter fun f => f.path = group.1 := by
  rw [groups_ofList, ← mem_pathsOf]
  unfold groupsOf
  rw [List.mem_map]
  constructor
  · rintro ⟨path, hpath, rfl⟩
    exact ⟨hpath, rfl⟩
  · rintro ⟨hpath, hitems⟩
    exact ⟨group.1, hpath, Prod.ext rfl hitems.symm⟩

theorem get?_eq_some_iff {found : Findings} (hnodup : (found.groups.map Prod.fst).Nodup) {items : List Finding} :
    found.get? path = some items ↔ (path, items) ∈ found.groups := by
  unfold get?
  constructor
  · intro hget
    obtain ⟨slot, hslot, hitems⟩ := Option.bind_eq_some_iff.mp hget
    obtain ⟨group, hgroup, rfl⟩ := Option.map_eq_some_iff.mp hitems
    rw [slot?_eq_some_iff hnodup, List.getElem?_map, hgroup] at hslot
    obtain rfl : group.1 = path := Option.some.inj hslot
    exact List.mem_of_getElem? hgroup
  · intro hmem
    obtain ⟨slot, hslot⟩ := List.mem_iff_getElem?.mp hmem
    have hpath : found.slot? path = some slot := by
      rw [slot?_eq_some_iff hnodup, List.getElem?_map, hslot]
      rfl
    rw [hpath, Option.bind_some, hslot]
    rfl

theorem ofList_filtered (pushed : List Finding) : Filtered pushed (ofList pushed) := by
  have hnodup : ((ofList pushed).groups.map Prod.fst).Nodup := by
    rw [paths_ofList]
    exact pathsOf_nodup pushed
  have hget : ∀ path, (∃ f ∈ pushed, f.path = path) →
      (ofList pushed).get? path = some (pushed.filter fun f => f.path = path) := by
    intro path hpath
    exact (get?_eq_some_iff hnodup).mpr (mem_groups_ofList.mpr ⟨hpath, rfl⟩)
  refine ⟨?_, fun group hgroup => ?_, fun path slot => slot?_eq_some_iff hnodup, hget, fun path => ?_,
    totalCount_ofList pushed, ?_, ?_⟩
  · rw [paths_ofList, pathsOf_eq_eraseDups]
  · obtain ⟨⟨f, hf, hpath⟩, hitems⟩ := mem_groups_ofList.mp hgroup
    refine ⟨?_, hitems⟩
    rw [hitems]
    exact List.ne_nil_of_mem (List.mem_filter.mpr ⟨hf, by simpa using hpath⟩)
  · constructor
    · intro hnone f hf hpath
      rw [hget path ⟨f, hf, hpath⟩] at hnone
      cases hnone
    · intro hall
      rw [Option.eq_none_iff_forall_ne_some]
      intro items hitems
      obtain ⟨⟨f, hf, hpath⟩, _⟩ := mem_groups_ofList.mp ((get?_eq_some_iff hnodup).mp hitems)
      exact hall f hf hpath
  · have hsame : (pushed.map Finding.path).toFinset = ((ofList pushed).groups.map Prod.fst).toFinset := by
      ext path
      rw [List.mem_toFinset, List.mem_toFinset, paths_ofList, mem_pathsOf, List.mem_map]
    rw [hsame, List.toFinset_card_of_nodup hnodup, List.length_map]
    rfl
  · unfold isEmpty
    rw [List.isEmpty_iff, List.eq_nil_iff_forall_not_mem, List.eq_nil_iff_forall_not_mem]
    constructor
    · intro hnone f hf
      have hgroup : (f.path, pushed.filter fun g => g.path = f.path) ∈ (ofList pushed).groups :=
        mem_groups_ofList.mpr ⟨⟨f, hf, rfl⟩, rfl⟩
      exact hnone _ hgroup
    · intro hnone group hgroup
      obtain ⟨⟨f, hf, _⟩, _⟩ := mem_groups_ofList.mp hgroup
      exact hnone f hf

/-! ## 3. The lines of a text -/

/-- Whether a line adds a finding. -/
def isStatement (line : List Char) : Bool := (Finding.Line.addTo empty line).1

theorem isStatement_eq (line : List Char) : isStatement line = (Finding.Line.parse? line).isSome := by
  unfold isStatement Finding.Line.addTo
  cases Finding.Line.parse? line <;> rfl

/-- What is found in a text comes from its statements. -/
theorem listed_eq_filter (text : List Char) :
    listed text = ((Text.lines text).filter isStatement).filterMap Finding.Line.parse? := by
  unfold listed
  rw [List.filterMap_filter]
  refine List.filterMap_congr fun line _ => ?_
  rw [isStatement_eq]
  cases Finding.Line.parse? line <;> rfl

/-- A text is read piece by piece, whether or not the last piece is ended. -/
theorem listed_join {parts : List (List Char)} (hfree : ∀ part ∈ parts, '\n' ∉ part) :
    listed (Text.join '\n' parts) = parts.filterMap Finding.Line.parse? := by
  unfold listed Text.lines
  rw [Stream.filterMap_linesOfPieces]
  cases parts with
  | nil => rfl
  | cons part others => rw [Text.pieces_join (List.cons_ne_nil part others) hfree]

/-- **Lines that state nothing may stand anywhere** in a text. -/
theorem ofText_join_noise {text : List Char} {front noise back : List (List Char)}
    (htext : Text.pieces '\n' text = front ++ back)
    (hnoise : ∀ line ∈ noise, '\n' ∉ line ∧ isStatement line = false) :
    ofText (Text.join '\n' (front ++ noise ++ back)) = ofText text := by
  have hfree : ∀ part ∈ front ++ back, '\n' ∉ part := by
    intro part hpart
    rw [← htext] at hpart
    exact Text.not_mem_of_mem_pieces hpart
  have hsilent : noise.filterMap Finding.Line.parse? = [] := by
    rw [List.filterMap_eq_nil_iff]
    intro line hline
    simpa [isStatement_eq] using (hnoise line hline).2
  have hall : ∀ part ∈ front ++ noise ++ back, '\n' ∉ part := by
    intro part hpart
    rcases List.mem_append.mp hpart with hpart | hback
    · rcases List.mem_append.mp hpart with hfront | hpart
      · exact hfree part (List.mem_append_left back hfront)
      · exact (hnoise part hpart).1
    · exact hfree part (List.mem_append_right front hback)
  have hlisted : listed text = (front ++ back).filterMap Finding.Line.parse? := by
    rw [← listed_join hfree, ← htext, Text.join_pieces]
  rw [ofText_eq_ofList, ofText_eq_ofList, listed_join hall, hlisted, List.filterMap_append, List.filterMap_append,
    hsilent, List.append_nil, List.filterMap_append]

/-! ## 4. All of it -/

/-- **Grouping by path is filtering by path**, with an index or without one, and of a text only the lines count
that state something. -/
theorem grouping_exact :
    (∀ pushed, Filtered pushed (ofList pushed)
        ∧ ∃ t, IndexedFindings.ofList? pushed = some t ∧ t.InStep ∧ t.groups = (ofList pushed).groups
          ∧ ∀ path, t.get? path = some ((ofList pushed).get? path))
      ∧ (∀ text text', (Text.lines text).filter isStatement = (Text.lines text').filter isStatement →
        ofText text = ofText text')
      ∧ ∀ text front back, Text.pieces '\n' text = front ++ back →
        ∀ noise : List (List Char), (∀ line ∈ noise, '\n' ∉ line ∧ isStatement line = false) →
          ofText (Text.join '\n' (front ++ noise ++ back)) = ofText text := by
  refine ⟨fun pushed => ⟨ofList_filtered pushed, ?_⟩, fun text text' hsame => ?_,
    fun text front back htext noise hnoise => ofText_join_noise htext hnoise⟩
  · obtain ⟨t, hpushed, hgroups, ht⟩ := IndexedFindings.ofList?_inStep pushed
    refine ⟨t, hpushed, ht, hgroups, fun path => ?_⟩
    rw [ht.get?, hgroups]
  · rw [ofText_eq_ofList, ofText_eq_ofList, listed_eq_filter, listed_eq_filter, hsame]

/-- Two paths that take turns. -/
def turns : List Char := "a.c:1:1: error: x\nb.c:2:1: error: y\na.c:1:1: error: x".toList

/-- The same with a remark in between and the end of the last line written. -/
def remarked : List Char := "a.c:1:1: error: x\nb.c:2:1: error: y\r\na.c:1:9: note: z\na.c:1:1: error: x\n".toList

theorem grouping_exact_turns :
    (Text.lines turns).filter isStatement = (Text.lines remarked).filter isStatement
      ∧ ofText turns = ofText remarked
      ∧ ofText (Text.join '\n' (["a.c:1:1: error: x".toList] ++ ["2 errors".toList, []]
          ++ ["b.c:2:1: error: y".toList, "a.c:1:1: error: x".toList])) = ofText turns
      ∧ (ofText turns).groups
        = [("a.c", [⟨"a.c", 1, 1, "error", "x"⟩, ⟨"a.c", 1, 1, "error", "x"⟩]), ("b.c", [⟨"b.c", 2, 1, "error", "y"⟩])] := by
  obtain ⟨_, hsame, hnoise⟩ := grouping_exact
  have hlines : (Text.lines turns).filter isStatement = (Text.lines remarked).filter isStatement := by decide
  refine ⟨hlines, hsame _ _ hlines, hnoise turns _ _ (by decide) _ (by decide), by decide⟩

end Findings

end SyntaxWatch
