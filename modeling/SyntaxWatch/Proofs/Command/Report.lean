import SyntaxWatch.Command
import SyntaxWatch.Proofs.Command.Visit

/-!
# What a pass reports, and how it exits

A pass visits its files one after the other. What comes of a visit is what the runs on this file have
left behind in the collections (`Visit.left?`); what is reported under a checker and a document is what the
last of these runs has left there that left anything (`Desk.lastLeft?`).

The report is not made that way. After each file everything is copied that any collection holds,
and that of a checker which did not run is still there from an earlier file. It does no harm, because
it has been copied before and nothing newer has come since (`UpToDate`).

The exit status is read off the report, not off the runs: an error for which a later run of the same
checker has left something else does not count (`ErrorLeft`).
-/

set_option autoImplicit false

namespace SyntaxWatch

/-! ## 1. Visits -/

/-- One file of a pass, with the desk before the file is checked and the desk afterwards. -/
structure Visit where
  path : Path
  before : Desk
  after : Desk

namespace Visit

def language (v : Visit) : String := v.before.workspace.languageOf v.path

/-- Whether the checker with a number handles the file. -/
def concerns (v : Visit) (i : Nat) : Bool :=
  v.before.engine.checkers[i]?.any fun c => c.profile.covers v.language

/-- What the collection with a number holds afterwards for a document. -/
def held (v : Visit) (key : ResultKey) : List Diagnostic := Results.heldAt v.after.engine.collections key

/-- What the run of a checker on this file has left for a document; none if it did not run on the file or
left nothing there. -/
def left? (key : ResultKey) (v : Visit) : Option (List Diagnostic) :=
  if v.concerns key.collection = true ∧ v.held key ≠ [] then some (v.held key) else none

theorem of_left {v : Visit} {key : ResultKey} {items : List Diagnostic} (hleft : v.left? key = some items) :
    v.concerns key.collection = true ∧ items ≠ []
      ∧ ∃ c, v.after.engine.checkers[key.collection]? = some c ∧ c.collection.get key.uri = items := by
  unfold left? at hleft
  split at hleft
  · next hsome =>
    obtain ⟨hconcerns, hheld⟩ := hsome
    have hitems : v.held key = items := Option.some.inj hleft
    rw [hitems] at hheld
    refine ⟨hconcerns, hheld, ?_⟩
    unfold held Results.heldAt Engine.collections at hitems
    rw [List.getElem?_map] at hitems
    cases hc : v.after.engine.checkers[key.collection]? with
    | none =>
      rw [hc] at hitems
      exact absurd hitems.symm hheld
    | some c =>
      rw [hc] at hitems
      exact ⟨c, rfl, hitems⟩
  · cases hleft

end Visit

namespace Desk

def visit (d : Desk) (p : Path) : Visit := ⟨p, d, (d.checkFile .empty p).1⟩

def visits (d : Desk) : List Path → List Visit
  | [] => []
  | p :: others => d.visit p :: (d.visit p).after.visits others

/-- What the last run of a checker has left for a document that left anything there. -/
def lastLeft? (d : Desk) (paths : List Path) (key : ResultKey) : Option (List Diagnostic) :=
  ((d.visits paths).filterMap (Visit.left? key)).getLast?

variable {d : Desk} {p : Path} {paths : List Path} {collected : Results} {i : Nat} {b : Checker}

/-- What has been copied so far has no influence on the desk. -/
theorem checkFile_collected (d : Desk) (p : Path) (collected other : Results) :
    (d.checkFile collected p).1 = (d.checkFile other p).1
      ∧ (d.checkFile collected p).2.2 = (d.checkFile other p).2.2 := by
  unfold checkFile
  dsimp only
  split
  · exact ⟨rfl, rfl⟩
  · split
    · exact ⟨rfl, rfl⟩
    · split <;> exact ⟨rfl, rfl⟩

theorem checkAll_cons (hcomplete : (d.checkAll collected (p :: paths)).2.2 = .complete) :
    (d.checkFile collected p).2.2 = .complete
      ∧ d.checkAll collected (p :: paths) = (d.visit p).after.checkAll (d.checkFile collected p).2.1 paths := by
  unfold visit
  rw [← (checkFile_collected d p collected .empty).1]
  rw [checkAll] at hcomplete ⊢
  rcases hfile : d.checkFile collected p with ⟨after, copied, ended⟩
  rw [hfile] at hcomplete
  cases ended with
  | complete => exact ⟨rfl, rfl⟩
  | interrupted => cases hcomplete
  | stuck => cases hcomplete
  | failed e => cases hcomplete

/-! ## 2. One visit -/

/-- Whatever is held now has been copied, and not been replaced since. -/
def UpToDate (d : Desk) (collected : Results) : Prop :=
  ∀ key, Results.heldAt d.engine.collections key ≠ [] →
    collected.get? key = some (Results.heldAt d.engine.collections key)

theorem heldAt_congr {d e : Desk} {key : ResultKey}
    (h : e.engine.checkers[key.collection]? = d.engine.checkers[key.collection]?) :
    Results.heldAt e.engine.collections key = Results.heldAt d.engine.collections key := by
  unfold Results.heldAt Engine.collections
  rw [List.getElem?_map, List.getElem?_map, h]

theorem concerns_eq (hb : d.engine.checkers[i]? = some b) :
    (d.visit p).concerns i = b.profile.covers (d.workspace.languageOf p) := by
  unfold Visit.concerns Visit.language visit
  rw [hb]
  rfl

/-- What is true of one visit of a pass. -/
structure Exact (v : Visit) : Prop where
  /-- Whoever handles the file has run on it, once and to the end, and holds what this run has brought. -/
  ran : ∀ (i : Nat) (b : Checker), v.before.engine.checkers[i]? = some b → v.concerns i = true →
    ∃ (document : DocumentRef) (collection : Collection), Uri.ofPath v.path = .ok document.uri
      ∧ b.Brought document collection ∧ v.after.engine.checkers[i]? = some (b.inRun false 0 collection)
  /-- Nobody else has moved. -/
  others : ∀ i, v.concerns i = false → v.after.engine.checkers[i]? = v.before.engine.checkers[i]?

theorem Visited.exact (hvisited : d.Visited p (d.visit p).after) : Exact (d.visit p) := by
  refine ⟨fun i b hb hi => hvisited.ran i b hb ((concerns_eq hb).symm.trans hi), fun i hi => ?_⟩
  cases hb : (d.visit p).before.engine.checkers[i]? with
  | none =>
    have hlength : (d.visit p).after.engine.checkers.length = (d.visit p).before.engine.checkers.length :=
      hvisited.length
    rw [List.getElem?_eq_none_iff] at hb ⊢
    exact hlength ▸ hb
  | some b => exact hvisited.others i b hb ((concerns_eq hb).symm.trans hi)

/-- A file that nobody handles changes nothing. -/
theorem UpToDate.of_nobody (hupToDate : d.UpToDate collected) (hexact : Exact (d.visit p))
    (hnobody : ∀ i, (d.visit p).concerns i = false) :
    (d.visit p).after.UpToDate collected
      ∧ ∀ key, collected.get? key = ((d.visit p).left? key).or (collected.get? key) := by
  refine ⟨fun key => ?_, fun key => ?_⟩
  · rw [heldAt_congr (hexact.others key.collection (hnobody key.collection))]
    exact hupToDate key
  · unfold Visit.left?
    rw [if_neg (by simp [hnobody]), Option.none_or]

/-- Copying adds what the runs have left, and what it copies of the other checkers is there already. -/
theorem UpToDate.copied (hupToDate : d.UpToDate collected) (hexact : Exact (d.visit p))
    (hready : (d.visit p).after.Ready) :
    (d.visit p).after.UpToDate (collected.copyFrom (d.visit p).after.engine.collections)
      ∧ ∀ key, (collected.copyFrom (d.visit p).after.engine.collections).get? key
          = ((d.visit p).left? key).or (collected.get? key) := by
  have htidy : ∀ c ∈ (d.visit p).after.engine.collections, c.Tidy := by
    intro k hk
    obtain ⟨c, hc, rfl⟩ := List.mem_map.mp hk
    exact hready.tidy c hc
  refine ⟨fun key hheld => ?_, fun key => ?_⟩
  · rw [Results.get?_copyFrom htidy, if_neg hheld]
  · rw [Results.get?_copyFrom htidy]
    unfold Visit.left? Visit.held
    by_cases hnone : Results.heldAt (d.visit p).after.engine.collections key = []
    · rw [if_pos hnone, if_neg fun h => h.2 hnone, Option.none_or]
    · rw [if_neg hnone]
      cases hconcerns : (d.visit p).concerns key.collection with
      | true => rw [if_pos ⟨rfl, hnone⟩, Option.some_or]
      | false =>
        rw [if_neg fun h => Bool.false_ne_true h.1, Option.none_or]
        rw [heldAt_congr (hexact.others key.collection hconcerns)] at hnone ⊢
        exact (hupToDate key hnone).symm

/-- **What a visit adds to the report**: under each key what the run has left there, and otherwise what was
there before. -/
theorem Ready.visit (hd : d.Ready) (hupToDate : d.UpToDate collected)
    (hcomplete : (d.checkFile collected p).2.2 = .complete) :
    (d.visit p).after.Ready ∧ Exact (d.visit p) ∧ (d.visit p).after.UpToDate (d.checkFile collected p).2.1
      ∧ ∀ key, (d.checkFile collected p).2.1.get? key = ((d.visit p).left? key).or (collected.get? key) := by
  obtain ⟨hvisited, hresults⟩ := hd.checkFile hcomplete
  rw [(checkFile_collected d p collected .empty).1] at hvisited hresults
  have hexact : Exact (d.visit p) := Visited.exact hvisited
  refine ⟨hvisited.ready, hexact, ?_⟩
  rcases hresults with ⟨hnobody, hsame⟩ | hcopied
  · rw [hsame]
    refine hupToDate.of_nobody hexact fun i => ?_
    cases hb : d.engine.checkers[i]? with
    | none =>
      unfold Visit.concerns
      rw [show (d.visit p).before.engine.checkers[i]? = none from hb]
      rfl
    | some b => exact (concerns_eq hb).trans (hnobody i b hb)
  · rw [hcopied, hvisited.ready.live]
    exact hupToDate.copied hexact hvisited.ready

/-! ## 3. A whole pass -/

theorem getLast?_cons_or {α : Type} (a : Option α) (later : List α) (before : Option α) :
    (a.toList ++ later).getLast?.or before = later.getLast?.or (a.or before) := by
  rw [List.getLast?_append]
  cases later.getLast? <;> cases a <;> rfl

/-- **What a pass adds to a report**, visit by visit. -/
theorem Ready.checkAll (hd : d.Ready) (hupToDate : d.UpToDate collected)
    (hcomplete : (d.checkAll collected paths).2.2 = .complete) :
    (∀ v ∈ d.visits paths, Exact v) ∧ ∀ key, (d.checkAll collected paths).2.1.get? key
      = (d.lastLeft? paths key).or (collected.get? key) := by
  induction paths generalizing d collected with
  | nil => exact ⟨nofun, fun _ => rfl⟩
  | cons p paths ih =>
    obtain ⟨hfile, hrest⟩ := checkAll_cons hcomplete
    rw [hrest] at hcomplete
    obtain ⟨hready, hexact, hcopied, hone⟩ := hd.visit hupToDate hfile
    obtain ⟨hall, hfold⟩ := ih hready hcopied hcomplete
    refine ⟨List.forall_mem_cons.mpr ⟨hexact, hall⟩, fun key => ?_⟩
    unfold lastLeft? at hfold ⊢
    rw [hrest, hfold, hone, ← getLast?_cons_or, ← filterMap_cons_toList]
    rfl

/-- What is true of the report of a pass that is complete. -/
structure Reported (d : Desk) (paths : List Path) (collected : Results) : Prop where
  /-- The files are visited in their order, and each visit is as it should be. -/
  visits : (d.visits paths).map Visit.path = paths ∧ ∀ v ∈ d.visits paths, Exact v
  /-- Under a key stands what the last run of its checker has left for the document that left anything there,
  and nothing if there was no such run. -/
  last : ∀ key, collected.get? key = d.lastLeft? paths key
  /-- Whatever is reported is what the checker under whose number it stands held after a run of its own. -/
  own : ∀ key items, collected.get? key = some items → ∃ v ∈ d.visits paths, v.concerns key.collection = true
    ∧ items ≠ [] ∧ ∃ c, v.after.engine.checkers[key.collection]? = some c ∧ c.collection.get key.uri = items
  /-- What a run has left for a document gives way to what another run of the same checker has left for it, and
  to nothing else. -/
  remains : ∀ earlier v later key items, d.visits paths = earlier ++ v :: later → v.left? key = some items →
    (∀ w ∈ later, w.left? key = none) → collected.get? key = some items

theorem visits_paths (d : Desk) (paths : List Path) : (d.visits paths).map Visit.path = paths := by
  induction paths generalizing d with
  | nil => rfl
  | cons p paths ih => exact congrArg (List.cons p) (ih _)

theorem Ready.reported (hd : d.Ready) (hblank : d.UpToDate .empty)
    (hcomplete : (d.checkAll .empty paths).2.2 = .complete) :
    d.Reported paths (d.checkAll .empty paths).2.1 := by
  obtain ⟨hexact, hfold⟩ := hd.checkAll hblank hcomplete
  have hlast : ∀ key, (d.checkAll .empty paths).2.1.get? key = d.lastLeft? paths key := by
    intro key
    rw [hfold]
    exact Option.or_none
  refine ⟨⟨d.visits_paths paths, hexact⟩, hlast, ?_, ?_⟩
  · intro key items hget
    rw [hlast] at hget
    unfold lastLeft? at hget
    obtain ⟨v, hv, hleft⟩ := List.mem_filterMap.mp (List.mem_of_getLast? hget)
    exact ⟨v, hv, Visit.of_left hleft⟩
  · intro earlier v later key items hsplit hleft hnone
    rw [hlast]
    unfold lastLeft?
    rw [hsplit, List.filterMap_append, List.filterMap_cons_some hleft,
      List.filterMap_eq_nil_iff.mpr hnone, List.getLast?_append]
    rfl

end Desk

/-! ## 4. From the command line -/

namespace Command

variable {m : Machine} {files : FileTree} {o : Options} {s : Settings} {paths : List Path}

/-- An engine that has just been started holds nothing. -/
theorem heldAt_fresh {capacity : Nat} {e : Engine} (hfresh : e.Fresh capacity) (key : ResultKey) :
    Results.heldAt e.collections key = [] := by
  unfold Results.heldAt Engine.collections
  rw [List.getElem?_map]
  cases hc : e.checkers[key.collection]? with
  | none => rfl
  | some c =>
    rw [Option.map_some, Option.map_some, hfresh.blank c (List.mem_of_getElem? hc)]
    rfl

/-- The desk of a command is ready for its first file. -/
theorem desk_ready (m : Machine) (files : FileTree) (o : Options) (s : Settings) :
    (desk m files o s).Ready ∧ (desk m files o s).UpToDate .empty := by
  have hfresh := Engine.start_fresh (Path.absoluteFrom m.directory (.ofText (o.root.getD "."))) feedCapacity s
  unfold desk
  dsimp only
  generalize (Engine.idle (Path.absoluteFrom m.directory (.ofText (o.root.getD "."))) feedCapacity).start none s = e
    at hfresh ⊢
  have hready : ∀ d : Desk, d.engine = e → d.processes = [] → d.workspace = .new
      (Path.absoluteFrom m.directory (.ofText (o.root.getD "."))) o.language → d.Ready ∧ d.UpToDate .empty := by
    rintro d rfl hprocesses hworkspace
    refine ⟨⟨hfresh.roll, hfresh.rested, fun c hc => ?_, hfresh.timers, hprocesses, hfresh.events, ?_, ?_⟩,
      fun key hheld => absurd (heldAt_fresh hfresh key) hheld⟩
    · rw [hfresh.blank c hc]
      exact Collection.tidy_new _
    · rw [hfresh.feed]
      exact Nat.succ_pos 63
    · rw [hworkspace]
      exact nofun
  -- with or without a warning that there are no checkers
  split
  · exact hready _ rfl rfl rfl
  · exact hready _ rfl rfl rfl

/-- **What a pass reports**, for any files, any checkers and whatever comes of their runs. -/
theorem report_exact (hcomplete : ((desk m files o s).checkAll .empty paths).2.2 = .complete) :
    (desk m files o s).Reported paths ((desk m files o s).checkAll .empty paths).2.1 :=
  (desk_ready m files o s).1.reported (desk_ready m files o s).2 hcomplete

/-! ### Two checkers of one name -/

/-- Files with these texts, and the programs at hand. -/
def atHand (texts : List (String × String)) : Machine where
  files := texts.foldl (fun t (path, text) => t.write (.ofText path) (Text.Utf8.encode text.toList)) .empty
  directory := .ofText "/w"
  environment := ⟨.ofText "/home", .ofText "/home", none⟩
  actions := []
  runs := Program.outcome

/-- Checks these files with a configuration that is named. -/
def checking (names : List String) : Options := ⟨some "c.toml", none, none, false, names⟩

/-- One of the checkers prints its file, and the other one cannot be started. -/
def oneStarts : Settings := ⟨500, [⟨"cat", "Check", [], ["c"]⟩, ⟨"nowhere", "Check", [], ["rs"]⟩]⟩

def someFiles : Machine :=
  atHand [("/w/a.c", "/x/h.h:1:1: error: bad\n"), ("/w/b.rs", "fn\n"), ("/w/c.c", "c.c:1:1: warning: odd\n"),
    ("/w/d", "text\n")]

/-- One of them twice, and one that nobody handles. -/
def someNames : List Path :=
  [.ofText "/w/a.c", .ofText "/w/b.rs", .ofText "/w/d", .ofText "/w/c.c", .ofText "/w/a.c"]

theorem report_exact_mixed :
    ((desk someFiles someFiles.files (checking []) oneStarts).checkAll .empty someNames).2.2 = .complete
      ∧ (desk someFiles someFiles.files (checking []) oneStarts).Reported someNames
        ((desk someFiles someFiles.files (checking []) oneStarts).checkAll .empty someNames).2.1 := by
  have hcomplete : ((desk someFiles someFiles.files (checking []) oneStarts).checkAll .empty someNames).2.2
      = .complete := by decide +kernel
  exact ⟨hcomplete, report_exact hcomplete⟩

end Command

/-! ## 5. The exit status -/

namespace Desk

variable {d : Desk} {p : Path} {collected : Results}

theorem checkFile_keyed (hkeyed : collected.Keyed) : (d.checkFile collected p).2.1.Keyed := by
  fun_cases Desk.checkFile d collected p with
  | case3 => exact hkeyed.copyFrom _
  | _ => exact hkeyed

theorem checkAll_keyed (d : Desk) (hkeyed : collected.Keyed) (paths : List Path) :
    (d.checkAll collected paths).2.1.Keyed := by
  induction paths generalizing d collected with
  | nil => exact hkeyed
  | cons p paths ih =>
    have hfile := checkFile_keyed (d := d) (p := p) hkeyed
    rw [checkAll]
    generalize d.checkFile collected p = result at hfile ⊢
    obtain ⟨after, copied, ended⟩ := result
    cases ended with
    | complete => exact ih after hfile
    | _ => exact hfile

end Desk

namespace Command

variable {m : Machine} {files : FileTree} {o : Options} {s : Settings}

/-- The files to be checked. -/
def paths (m : Machine) (o : Options) : List Path :=
  o.files.map fun name => Path.absoluteFrom m.directory (.ofText name)

/-- Whether an error is left at the end, under some checker and some document. -/
def ErrorLeft (d : Desk) (paths : List Path) : Prop :=
  ∃ key items, d.lastLeft? paths key = some items ∧ ∃ x ∈ items, x.severity = .error

theorem runWith_status (hsettings : settings m files o = .ok s) (honce : o.watch = false)
    (hcomplete : ((desk m files o s).checkAll .empty (paths m o)).2.2 = .complete) :
    (runWith m files o).status
      = some (if ((desk m files o s).checkAll .empty (paths m o)).2.1.summary.anyError then 1 else 0) := by
  unfold paths at hcomplete ⊢
  unfold runWith
  rw [hsettings]
  dsimp only
  generalize (desk m files o s).checkAll .empty _ = result at hcomplete ⊢
  obtain ⟨d, collected, ended⟩ := result
  cases hcomplete
  dsimp only
  unfold afterPass
  rw [honce]
  rfl

theorem anyError_iff_errorLeft
    (hcomplete : ((desk m files o s).checkAll .empty (paths m o)).2.2 = .complete) :
    ((desk m files o s).checkAll .empty (paths m o)).2.1.summary.anyError = true
      ↔ ErrorLeft (desk m files o s) (paths m o) := by
  obtain ⟨hready, hblank⟩ := desk_ready m files o s
  rw [(Desk.checkAll_keyed _ Results.keyed_empty (paths m o)).anyError_iff]
  unfold ErrorLeft
  simp only [(hready.reported hblank hcomplete).last]

/-- **The exit status of a pass** says whether an error was left, not whether there was one: what a later run
of the same checker leaves for the same document counts in its stead. -/
theorem status_exact (hsettings : settings m files o = .ok s) (honce : o.watch = false)
    (hcomplete : ((desk m files o s).checkAll .empty (paths m o)).2.2 = .complete) :
    ((runWith m files o).status = some 1 ↔ ErrorLeft (desk m files o s) (paths m o))
      ∧ ((runWith m files o).status = some 0 ↔ ¬ ErrorLeft (desk m files o s) (paths m o)) := by
  rw [runWith_status hsettings honce hcomplete, ← anyError_iff_errorLeft hcomplete]
  cases ((desk m files o s).checkAll .empty (paths m o)).2.1.summary.anyError <;> simp

/-! ### An error in a header, and then a warning -/

/-- Two files that share a header. -/
def sharedHeader : Machine :=
  atHand [("/w/a.c", "/x/h.h:1:1: error: bad\n"), ("/w/b.c", "/x/h.h:1:1: warning: odd\n"),
    ("/w/c.toml", "[[checkers]]\ncommand = 'cat'\ndisplay_name = 'Cat'\nlanguage_ids = ['c']\n")]

def onlyCat : Settings := ⟨500, [⟨"cat", "Cat", [], ["c"]⟩]⟩

theorem status_exact_shared :
    settings sharedHeader sharedHeader.files (checking ["b.c", "a.c"]) = .ok onlyCat
      ∧ ((runWith sharedHeader sharedHeader.files (checking ["b.c", "a.c"])).status = some 1
        ↔ ErrorLeft (desk sharedHeader sharedHeader.files (checking ["b.c", "a.c"]) onlyCat)
          (paths sharedHeader (checking ["b.c", "a.c"]))) := by
  have hsettings : settings sharedHeader sharedHeader.files (checking ["b.c", "a.c"]) = .ok onlyCat := by
    decide +kernel
  have hcomplete : ((desk sharedHeader sharedHeader.files (checking ["b.c", "a.c"]) onlyCat).checkAll .empty
      (paths sharedHeader (checking ["b.c", "a.c"]))).2.2 = .complete := by decide +kernel
  exact ⟨hsettings, (status_exact hsettings rfl hcomplete).1⟩

/-- A pass that has come upon an error need not fail: the warning about the header is from a later run. -/
theorem not_every_error_fails :
    settings sharedHeader sharedHeader.files (checking ["a.c", "b.c"]) = .ok onlyCat
      ∧ ((desk sharedHeader sharedHeader.files (checking ["a.c", "b.c"]) onlyCat).checkAll .empty
        (paths sharedHeader (checking ["a.c", "b.c"]))).2.2 = .complete
      ∧ (∃ v ∈ (desk sharedHeader sharedHeader.files (checking ["a.c", "b.c"]) onlyCat).visits
          (paths sharedHeader (checking ["a.c", "b.c"])), ∃ c ∈ v.after.engine.checkers,
            ∃ held ∈ c.collection.entries, ∃ x ∈ held.2, x.severity = .error)
      ∧ (runWith sharedHeader sharedHeader.files (checking ["a.c", "b.c"])).status = some 0 := by
  have hsettings : settings sharedHeader sharedHeader.files (checking ["a.c", "b.c"]) = .ok onlyCat := by
    decide +kernel
  have hcomplete : ((desk sharedHeader sharedHeader.files (checking ["a.c", "b.c"]) onlyCat).checkAll .empty
      (paths sharedHeader (checking ["a.c", "b.c"]))).2.2 = .complete := by decide +kernel
  have herror : ∃ v ∈ (desk sharedHeader sharedHeader.files (checking ["a.c", "b.c"]) onlyCat).visits
      (paths sharedHeader (checking ["a.c", "b.c"])), ∃ c ∈ v.after.engine.checkers,
        ∃ held ∈ c.collection.entries, ∃ x ∈ held.2, x.severity = .error := by decide +kernel
  have hstatus : (runWith sharedHeader sharedHeader.files (checking ["a.c", "b.c"])).status = some 0 := by
    decide +kernel
  exact ⟨hsettings, hcomplete, herror, hstatus⟩

end Command

end SyntaxWatch
