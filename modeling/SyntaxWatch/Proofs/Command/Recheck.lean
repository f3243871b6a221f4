import SyntaxWatch.Command.Watch
import SyntaxWatch.Proofs.Engine.Announcing

/-!
# What is checked again after a reload

A new configuration is followed by announcements of all files, one right after the other. Since a new checker
has one timer like any other, it runs on the last announced file that it covers, and on no other one: that is
the whole of what begins (`Rechecked.runs`), however long one waits. A file is checked again by a checker just
if it is this last one (`Rechecked.checked`).

The active document, which a checker is asked for when it starts, is forgotten in the same way.

## What is *not* in it

That all files are checked again. They are where each checker covers at most one of them.
-/

set_option autoImplicit false

namespace SyntaxWatch

namespace Engine

variable {e : Engine} {i : Nat} {profiles : List CheckerProfile}

/-! ## 1. The timers of new checkers -/

theorem enroll_of_ne (hne : i ≠ e.checkers.length) (active : Option DocumentRef) (profile : CheckerProfile) :
    SameFor i e (e.enroll active profile) := by
  have hhired : (e.checkers ++ [Checker.start profile e.root e.delay])[i]? = e.checkers[i]? := by
    rcases Nat.lt_or_gt_of_ne hne with hold | hbeyond
    · exact List.getElem?_append_left hold
    · have hlength : (e.checkers ++ [Checker.start profile e.root e.delay]).length ≤ i := by
        rw [List.length_append]
        exact hbeyond
      rw [List.getElem?_eq_none hlength, List.getElem?_eq_none (Nat.le_of_lt hbeyond)]
  have hsame : SameFor i e { e with
      checkers := e.checkers ++ [.start profile e.root e.delay]
      enrolled := e.enrolled ++ [e.checkers.length] } := ⟨hhired, rfl, rfl⟩
  cases active with
  | none => exact hsame
  | some document => exact hsame.trans (triggerOne_of_ne (Ne.symm hne) _ document)

theorem foldl_enroll_of_lt (hi : i < e.checkers.length) (active : Option DocumentRef)
    (profiles : List CheckerProfile) :
    SameFor i e (profiles.foldl (fun e profile => e.enroll active profile) e) := by
  induction profiles generalizing e with
  | nil => exact .refl i e
  | cons profile profiles ih =>
    have hlength : (e.enroll active profile).checkers.length = e.checkers.length + 1 := by
      rw [(e.enroll_joined active profile).checkers]
      exact List.length_append
    exact (enroll_of_ne (Nat.ne_of_lt hi) active profile).trans (ih (by omega))

/-- A new checker waits for the active document, if that is one for it. -/
theorem enroll_primed (hfree : e.timersOf e.checkers.length = []) (active : Option DocumentRef)
    (profile : CheckerProfile) :
    ∃ c, (e.enroll active profile).Primed e.checkers.length c
        ((covered profile active.toList).getLast?.map (Prod.mk e.now))
      ∧ (Checker.start profile e.root e.delay).Worked c := by
  have hlast : (e.checkers ++ [Checker.start profile e.root e.delay])[e.checkers.length]?
      = some (.start profile e.root e.delay) := by simp
  have hstart : Primed { e with
      checkers := e.checkers ++ [.start profile e.root e.delay]
      enrolled := e.enrolled ++ [e.checkers.length] } e.checkers.length (.start profile e.root e.delay) none :=
    ⟨hlast, rfl, rfl, hfree⟩
  cases active with
  | none => exact ⟨_, hstart, .refl _⟩
  | some document =>
    obtain ⟨c, hasked⟩ := triggerOne_asked hstart.checker rfl document
    refine ⟨c, ?_, hasked.worked⟩
    have hprimed := hasked.primed hstart
    rw [Option.or_none] at hprimed
    exact hprimed

/-- All of them do, each on its own. -/
theorem foldl_enroll_primed (hfree : ∀ j, e.checkers.length ≤ j → e.timersOf j = [])
    (active : Option DocumentRef) {k : Nat} {profile : CheckerProfile} (hprofile : profiles[k]? = some profile) :
    ∃ c, (profiles.foldl (fun e profile => e.enroll active profile) e).Primed (e.checkers.length + k) c
        ((covered profile active.toList).getLast?.map (Prod.mk e.now))
      ∧ (Checker.start profile e.root e.delay).Worked c
      ∧ (profiles.foldl (fun e profile => e.enroll active profile) e).now = e.now := by
  induction profiles generalizing e k with
  | nil => cases hprofile
  | cons first profiles ih =>
    have hjoined := e.enroll_joined active first
    have hlength : (e.enroll active first).checkers.length = e.checkers.length + 1 := by
      rw [hjoined.checkers]
      exact List.length_append
    cases k with
    | zero =>
      obtain rfl : first = profile := Option.some.inj hprofile
      obtain ⟨c, hprimed, hworked⟩ := enroll_primed (hfree _ (Nat.le_refl _)) active first
      have hthere : e.checkers.length < (e.enroll active first).checkers.length := by omega
      have hrest := foldl_enroll_of_lt hthere active profiles
      have hnow := (enroll_of_ne (Nat.succ_ne_self e.checkers.length) active first).now
      exact ⟨c, hprimed.same hrest, hworked, hrest.now.trans hnow⟩
    | succ k =>
      have hnow := (enroll_of_ne (Nat.succ_ne_self e.checkers.length) active first).now
      have hfree' : ∀ j, (e.enroll active first).checkers.length ≤ j →
          (e.enroll active first).timersOf j = [] := by
        intro j hj
        rw [(enroll_of_ne (by omega) active first).timers]
        exact hfree j (by omega)
      have hrest := ih hfree' hprofile
      rw [hlength, hnow, hjoined.root, hjoined.delay, Nat.add_assoc, Nat.add_comm 1 k] at hrest
      exact hrest

/-! ## 2. Nobody has a timer before being there -/

/-- Timers are those of checkers that are there, and listeners can be this far behind. -/
structure Kempt (capacity : Nat) (e : Engine) : Prop where
  free : ∀ j, e.checkers.length ≤ j → e.timersOf j = []
  capacity : e.feedCapacity = capacity

variable {capacity : Nat}

theorem disposeOne_timersOf (e : Engine) (i j : Nat) (hfree : e.timersOf j = []) :
    (e.disposeOne i).timersOf j = [] := by
  rw [List.eq_nil_iff_forall_not_mem] at hfree ⊢
  intro t ht
  obtain ⟨ht, hj⟩ := List.mem_filter.mp ht
  exact hfree t (List.mem_filter.mpr ⟨(List.mem_filter.mp ht).1, hj⟩)

theorem Kempt.hear (hk : e.Kempt capacity) (i : Nat) (h : Happening) : (e.hear i h).Kempt capacity := by
  have hoffice := e.hear_office i h
  refine ⟨fun j hj => ?_, hoffice.feedCapacity.trans hk.capacity⟩
  rw [hoffice.length] at hj
  have hfree := hk.free j hj
  unfold Engine.hear
  split
  · by_cases hij : i = j
    · subst hij
      unfold deliver
      rw [List.getElem?_eq_none hj]
      exact hfree
    · rw [(deliver_of_ne hij e _).1.timers]
      exact hfree
  · exact disposeOne_timersOf e i j hfree

theorem Kempt.triggerOne (hk : e.Kempt capacity) (document : DocumentRef) (i : Nat) :
    (e.triggerOne document i).Kempt capacity := by
  rcases e.triggerOne_eq document i with hsame | hheard
  · rw [hsame]
    exact hk
  · rw [hheard]
    exact hk.hear i _

theorem Kempt.shutdown (hk : e.Kempt capacity) : e.shutdown.Kempt capacity := by
  have hall : (e.enrolled.foldl disposeOne e).Kempt capacity :=
    List.foldlRecOn _ _ hk fun f hf i _ => hf.hear i .disposal
  exact ⟨hall.free, hall.capacity⟩

theorem Kempt.enrollAll (hk : e.Kempt capacity) (active : Option DocumentRef) (settings : Settings) :
    (e.enrollAll active settings).Kempt capacity := by
  unfold Engine.enrollAll
  refine List.foldlRecOn settings.profiles _ ⟨hk.free, hk.capacity⟩ fun f hf profile _ => ?_
  have hjoined := f.enroll_joined active profile
  refine ⟨fun j hj => ?_, hjoined.feedCapacity.trans hf.capacity⟩
  rw [hjoined.checkers, List.length_append] at hj
  have hj : f.checkers.length + 1 ≤ j := hj
  rw [(enroll_of_ne (by omega) active profile).timers]
  exact hf.free j (by omega)

end Engine

open Engine in
theorem Workshop.Move.kempt {e : Engine} {capacity : Nat} (hk : e.Kempt capacity) (move : Move) :
    (move.carryOut e).Kempt capacity := by
  cases move with
  | hear i h => exact hk.hear i h
  | trigger document => exact List.foldlRecOn _ _ hk fun f hf i _ => hf.triggerOne document i
  | announce burst =>
    exact List.foldlRecOn _ _ hk fun f hf i _ =>
      List.foldlRecOn _ _ hf fun g hg document _ => hg.triggerOne document i
  | advance ms => exact ⟨hk.free, hk.capacity⟩
  | ring =>
    refine ⟨fun j hj => ?_, hk.capacity⟩
    show e.takeDue.1.timersOf j = []
    rw [(takeDue_timersOf e j).1, hk.free j hj]
    rfl
  | poll budget => exact ⟨hk.free, hk.capacity⟩
  | start active settings =>
    have hempty : Kempt capacity { e with events := .empty eventCapacity } := ⟨hk.free, hk.capacity⟩
    exact hempty.enrollAll active settings
  | reload active settings => exact hk.shutdown.enrollAll active settings
  | shutdown => exact hk.shutdown

theorem Workshop.foldl_kempt (root : Path) (capacity : Nat) (moves : List Move) :
    (moves.foldl Move.carryOut (.idle root capacity)).Kempt capacity :=
  List.foldlRecOn moves Move.carryOut (⟨fun _ _ => rfl, rfl⟩ : (Engine.idle root capacity).Kempt capacity)
    fun _ hk move _ => move.kempt hk

namespace Engine

variable {e : Engine} {capacity : Nat} {settings : Settings} {k : Nat} {profile : CheckerProfile}

/-! ## 3. After a reload -/

/-- A reload, and then announcements one by one. -/
def renew (e : Engine) (active : Option DocumentRef) (settings : Settings) (documents : List DocumentRef) :
    Engine :=
  (e.reload active settings).announceEach documents

/-- A reload puts as many checkers on the roll as there are profiles, behind all that were there. -/
theorem reload_enrolled (e : Engine) (active : Option DocumentRef) (settings : Settings) :
    (e.reload active settings).enrolled = List.range' e.checkers.length settings.profiles.length := by
  rw [← e.shutdown_office.length]
  exact (e.shutdown.enrollAll_joined active settings).enrolled

theorem Kempt.reload_feedCapacity (hk : e.Kempt capacity) (active : Option DocumentRef) (settings : Settings) :
    (e.reload active settings).feedCapacity = capacity :=
  (e.shutdown.enrollAll_joined active settings).feedCapacity.trans hk.shutdown.capacity

/-- A new checker waits for the active document. -/
theorem Kempt.reload_primed (hk : e.Kempt capacity) (active : Option DocumentRef)
    (hprofile : settings.profiles[k]? = some profile) :
    ∃ c, (e.reload active settings).Primed (e.checkers.length + k) c
        ((covered profile active.toList).getLast?.map (Prod.mk (e.reload active settings).now))
      ∧ (Checker.start profile e.shutdown.root settings.delay).Worked c := by
  obtain ⟨c, hprimed, hworked, hnow⟩ := foldl_enroll_primed (e := { e.shutdown with delay := settings.delay })
    hk.shutdown.free active hprofile
  refine ⟨c, ?_, hworked⟩
  rw [← e.shutdown_office.length, show (e.reload active settings).now = e.shutdown.now from hnow]
  exact hprimed

/-- **The timer of a new checker** is set for the last document that it has been asked for and covers, the
active one being the first. -/
theorem Kempt.renew_primed (hk : e.Kempt capacity) (room : 0 < capacity) (active : Option DocumentRef)
    (documents : List DocumentRef) (hprofile : settings.profiles[k]? = some profile) :
    ∃ c, (e.renew active settings documents).Primed (e.checkers.length + k) c
        ((covered profile (active.toList ++ documents)).getLast?.map
          (Prod.mk (e.renew active settings documents).now))
      ∧ delayOf c = Nat.min settings.delay timerLimit := by
  obtain ⟨c, hprimed, hworked⟩ := hk.reload_primed active hprofile
  have henrolled : e.checkers.length + k ∈ (e.reload active settings).enrolled := by
    have hprofiles := (List.getElem?_eq_some_iff.mp hprofile).1
    rw [reload_enrolled, List.mem_range'_1]
    omega
  have hnodup : (e.reload active settings).enrolled.Nodup := by
    rw [reload_enrolled]
    exact List.nodup_range'
  have hroom : 0 < (e.reload active settings).feedCapacity := by
    rw [hk.reload_feedCapacity]
    exact room
  obtain ⟨d, hasked⟩ := announceEach_asked hroom hnodup henrolled hprimed.checker hprimed.alive documents
  have hset := hasked.primed hprimed
  rw [hworked.profile] at hset
  have hnow : (e.renew active settings documents).now = (e.reload active settings).now := hasked.now
  refine ⟨d, ?_, ?_⟩
  · rw [covered_append, List.getLast?_append, Option.map_or, hnow]
    exact hset
  · unfold delayOf
    rw [hasked.worked.delay, hworked.delay]
    rfl

/-- What is checked when these documents have been announced one by one after a reload. -/
structure Rechecked (active : Option DocumentRef) (settings : Settings) (documents : List DocumentRef)
    (e : Engine) : Prop where
  /-- Whatever comes to a new checker but another document: as soon as the clock has moved to the end of the
  delay there has been one run, of the last document that the checker covers. -/
  runs : ∀ k profile, settings.profiles[k]? = some profile → ∀ beats ms,
    AllFair (e.checkers.length + k) (e.renew active settings documents) (beats ++ [.pass ms]) →
      Beat.triggers (e.checkers.length + k) (e.renew active settings documents).now (beats ++ [.pass ms]) = [] →
        checks (e.checkers.length + k) (e.renew active settings documents) (beats ++ [.pass ms])
          = if (e.renew active settings documents).now + Nat.min settings.delay timerLimit
              ≤ Beat.clock (e.renew active settings documents).now (beats ++ [.pass ms]) then
              (covered profile (active.toList ++ documents)).getLast?.toList
            else []
  /-- So an announced document that a checker covers is checked by it just if no other one comes later, … -/
  checked : ∀ k profile, settings.profiles[k]? = some profile → ∀ document ∈ covered profile documents,
    (∃ ms, document ∈ checks (e.checkers.length + k) (e.renew active settings documents) [.pass ms])
      ↔ (covered profile documents).getLast? = some document
  /-- … and all of them are checked just if they are one and the same. -/
  complete : ∀ k profile, settings.profiles[k]? = some profile →
    ((∀ document ∈ covered profile documents,
        ∃ ms, document ∈ checks (e.checkers.length + k) (e.renew active settings documents) [.pass ms])
      ↔ ∀ document ∈ covered profile documents, ∀ other ∈ covered profile documents, document = other)

/-- **One run for each new checker**: as soon as the clock has moved to the end of the delay. -/
theorem checks_renew (hk : e.Kempt capacity) (room : 0 < capacity) (active : Option DocumentRef)
    (documents : List DocumentRef) (hprofile : settings.profiles[k]? = some profile) {beats : List Beat} {ms : Nat}
    (hfair : AllFair (e.checkers.length + k) (e.renew active settings documents) (beats ++ [.pass ms]))
    (hnone : Beat.triggers (e.checkers.length + k) (e.renew active settings documents).now (beats ++ [.pass ms])
      = []) :
    checks (e.checkers.length + k) (e.renew active settings documents) (beats ++ [.pass ms])
      = if (e.renew active settings documents).now + Nat.min settings.delay timerLimit
          ≤ Beat.clock (e.renew active settings documents).now (beats ++ [.pass ms]) then
          (covered profile (active.toList ++ documents)).getLast?.toList
        else [] := by
  obtain ⟨c, hprimed, hdelay⟩ := hk.renew_primed room active documents hprofile
  rw [checks_of_primed hprimed hfair hnone, hdelay]
  cases (covered profile (active.toList ++ documents)).getLast? with
  | none => simp
  | some document => simp [Option.filter_some, apply_ite]

/-- The last of the documents is checked, and no other one. -/
theorem mem_checks_renew_iff (hk : e.Kempt capacity) (room : 0 < capacity) (active : Option DocumentRef)
    {documents : List DocumentRef} (hprofile : settings.profiles[k]? = some profile) {document : DocumentRef}
    (hdocument : document ∈ covered profile documents) :
    (∃ ms, document ∈ checks (e.checkers.length + k) (e.renew active settings documents) [.pass ms])
      ↔ (covered profile documents).getLast? = some document := by
  have hsome : covered profile documents ≠ [] := List.ne_nil_of_mem hdocument
  have hlast : (covered profile (active.toList ++ documents)).getLast? = (covered profile documents).getLast? := by
    rw [covered_append, List.getLast?_append_of_ne_nil _ hsome]
  have hpass : ∀ ms, checks (e.checkers.length + k) (e.renew active settings documents) [.pass ms]
      = if (e.renew active settings documents).now + Nat.min settings.delay timerLimit
          ≤ (e.renew active settings documents).now + ms then (covered profile documents).getLast?.toList
        else [] := by
    intro ms
    rw [← hlast]
    have hone := checks_renew hk room active documents hprofile
      (show AllFair _ _ ([] ++ [.pass ms]) from ⟨trivial, trivial⟩)
    exact hone rfl
  constructor
  · rintro ⟨ms, hms⟩
    rw [hpass] at hms
    split at hms
    · exact Option.mem_toList.mp hms
    · cases hms
  · intro hthis
    refine ⟨Nat.min settings.delay timerLimit, ?_⟩
    rw [hpass, if_pos (Nat.le_refl _), hthis]
    exact List.mem_singleton.mpr rfl

theorem Kempt.rechecked (hk : e.Kempt capacity) (room : 0 < capacity) (active : Option DocumentRef)
    (settings : Settings) (documents : List DocumentRef) : e.Rechecked active settings documents := by
  refine ⟨?_, ?_, ?_⟩
  · intro k profile hprofile beats ms hfair hnone
    exact checks_renew hk room active documents hprofile hfair hnone
  · intro k profile hprofile document hdocument
    exact mem_checks_renew_iff hk room active hprofile hdocument
  · intro k profile hprofile
    constructor
    · intro hall document hdocument other hother
      have hlast := (mem_checks_renew_iff hk room active hprofile hdocument).mp (hall document hdocument)
      have hlast' := (mem_checks_renew_iff hk room active hprofile hother).mp (hall other hother)
      rw [hlast] at hlast'
      exact Option.some.inj hlast'
    · intro hone document hdocument
      have hsome : covered profile documents ≠ [] := List.ne_nil_of_mem hdocument
      refine (mem_checks_renew_iff hk room active hprofile hdocument).mpr ?_
      rw [List.getLast?_eq_some_getLast hsome]
      exact congrArg some (hone _ (List.getLast_mem hsome) _ hdocument)

end Engine

/-! ## 4. The files that are announced -/

/-- The documents that some files are loaded into, one file after the other. A file that cannot be loaded is
passed over. -/
def Workspace.loadEach (files : FileTree) (w : Workspace) : List Path → List DocumentRef
  | [] => []
  | p :: others =>
    match w.load files p with
    | .ok (w, document) => document :: loadEach files w others
    | .error _ => loadEach files w others

namespace Desk

/-- The files whose stamp is not what it was. -/
def changedFiles (d : Desk) (files : List (Path × Option Nat)) : List Path :=
  (files.filter fun f => decide (d.files.stamp? .root f.1 ≠ f.2)).map Prod.fst

/-- A file that is opened again is announced, if it can be loaded. -/
theorem reopen_cases (d : Desk) (p : Path) :
    (∃ w document, d.workspace.load d.files p = .ok (w, document) ∧ (d.reopen p).workspace = w
        ∧ (d.reopen p).engine = d.engine.announce [document] ∧ (d.reopen p).files = d.files)
      ∨ ∃ error, d.workspace.load d.files p = .error error ∧ (d.reopen p).workspace = d.workspace
        ∧ (d.reopen p).engine = d.engine ∧ (d.reopen p).files = d.files := by
  unfold reopen open?
  cases d.workspace.load d.files p with
  | error error => exact .inr ⟨error, rfl, rfl, rfl, rfl⟩
  | ok loaded => exact .inl ⟨loaded.1, loaded.2, rfl, rfl, rfl, rfl⟩

theorem reopen_files (d : Desk) (p : Path) : (d.reopen p).files = d.files := by
  rcases d.reopen_cases p with ⟨_, _, _, _, _, hfiles⟩ | ⟨_, _, _, _, hfiles⟩ <;> exact hfiles

/-- What a file adds, in front of what is to come. -/
theorem announceEach_reopen (d : Desk) (p : Path) (others : List Path) :
    (d.reopen p).engine.announceEach ((d.reopen p).workspace.loadEach d.files others)
      = d.engine.announceEach (d.workspace.loadEach d.files (p :: others)) := by
  rcases d.reopen_cases p with
    ⟨w, document, hload, hworkspace, hengine, _⟩ | ⟨error, hload, hworkspace, hengine, _⟩
  · rw [hworkspace, hengine, Workspace.loadEach, hload]
    rfl
  · rw [hworkspace, hengine, Workspace.loadEach, hload]

theorem foldl_reopen_engine (d : Desk) (files : List (Path × Option Nat)) :
    (files.foldl (fun d f => d.reopen f.1) d).engine
      = d.engine.announceEach (d.workspace.loadEach d.files (files.map Prod.fst)) := by
  induction files generalizing d with
  | nil => rfl
  | cons f files ih =>
    rw [List.foldl_cons, ih, reopen_files, announceEach_reopen]
    rfl

/-- **A new configuration**: the engine is reloaded, and every file that can be read is announced. -/
theorem reconfigure_engine {d : Desk} {v : Vigil} {settings : Settings}
    (hread : ConfigFile.read d.files v.directory v.configFile = .ok settings) :
    (d.reconfigure v).engine
      = d.engine.renew none settings (d.workspace.loadEach d.files (v.files.map Prod.fst)) := by
  unfold reconfigure
  rw [hread]
  exact foldl_reopen_engine _ v.files

/-- **A look at the files**: those that have changed are announced, one by one. -/
theorem lookAtFiles_engine (d : Desk) (files : List (Path × Option Nat)) :
    (d.lookAtFiles files).1.engine
      = d.engine.announceEach (d.workspace.loadEach d.files (d.changedFiles files)) := by
  induction files generalizing d with
  | nil => rfl
  | cons f files ih =>
    obtain ⟨p, stamp⟩ := f
    unfold lookAtFiles
    dsimp only
    by_cases hsame : d.files.stamp? .root p = stamp
    · rw [if_pos hsame, ih]
      unfold changedFiles
      rw [List.filter_cons_of_neg (by simpa using hsame)]
    · rw [if_neg hsame, ih, reopen_files]
      unfold changedFiles
      rw [reopen_files, announceEach_reopen, List.filter_cons_of_pos (by simpa using hsame), List.map_cons]

open Workshop in
/-- **What is checked again.** After a reload, whatever has been done with the engine before, each new checker runs
on the last announced document that it covers, and on no other one; and a new configuration and a look at the
files do announce the files one by one. -/
theorem recheck_exact (root : Path) {capacity : Nat} (room : 0 < capacity) (moves : List Move)
    (active : Option DocumentRef) (settings : Settings) (documents : List DocumentRef) :
    (moves.foldl Move.carryOut (.idle root capacity)).Rechecked active settings documents
      ∧ (∀ (d : Desk) (v : Vigil), ConfigFile.read d.files v.directory v.configFile = .ok settings →
          (d.reconfigure v).engine
            = d.engine.renew none settings (d.workspace.loadEach d.files (v.files.map Prod.fst)))
      ∧ ∀ (d : Desk) (files : List (Path × Option Nat)), (d.lookAtFiles files).1.engine
          = d.engine.announceEach (d.workspace.loadEach d.files (d.changedFiles files)) := by
  refine ⟨?_, ?_, lookAtFiles_engine⟩
  · exact (foldl_kempt root capacity moves).rechecked room active settings documents
  · intro d v hread
    exact reconfigure_engine hread

/-! ### Two files for one checker -/

def checkSettings : Settings := ⟨10, [⟨"check", "Check", [], ["c"]⟩]⟩

/-- A desk where the checker has been started that the configuration asks for. -/
def twoFiles : Desk where
  files := [("/w/a.c", "int a;"), ("/w/b.c", "int b;"),
      ("/w/c.toml", "delay = 10\n[[checkers]]\ncommand = 'check'\ndisplay_name = 'Check'\nlanguage_ids = ['c']")].foldl
    (fun t (path, text) => t.write (.ofText path) (Text.Utf8.encode text.toList)) .empty
  runs := fun _ _ _ => .abort
  workspace := .new (.ofText "/w") none
  engine := [Workshop.Move.start none checkSettings].foldl Workshop.Move.carryOut (.idle (.ofText "/w") 64)
  processes := []
  pending := []
  printed := []
  actions := []

def watched : Vigil :=
  ⟨.ofText "/w", .ofText "c.toml", none, [(.ofText "/w/a.c", none), (.ofText "/w/b.c", none)], 0, 0⟩

def firstFile : DocumentRef := ⟨0, ⟨"file:///w/a.c"⟩, "c"⟩

def secondFile : DocumentRef := ⟨1, ⟨"file:///w/b.c"⟩, "c"⟩

theorem recheck_exact_two :
    ConfigFile.read twoFiles.files watched.directory watched.configFile = .ok checkSettings
      ∧ twoFiles.workspace.loadEach twoFiles.files (watched.files.map Prod.fst) = [firstFile, secondFile]
      ∧ (twoFiles.reconfigure watched).engine
        = twoFiles.engine.renew none checkSettings
          (twoFiles.workspace.loadEach twoFiles.files (watched.files.map Prod.fst))
      ∧ 0 < 64 ∧ twoFiles.engine.Rechecked none checkSettings [firstFile, secondFile] := by
  have hread : ConfigFile.read twoFiles.files watched.directory watched.configFile = .ok checkSettings := by
    decide +kernel
  have hloaded : twoFiles.workspace.loadEach twoFiles.files (watched.files.map Prod.fst)
      = [firstFile, secondFile] := by decide +kernel
  obtain ⟨hrechecked, hreconfigured, _⟩ := recheck_exact (.ofText "/w") (by decide : 0 < 64)
    [.start none checkSettings] none checkSettings [firstFile, secondFile]
  exact ⟨hread, hloaded, hreconfigured twoFiles watched hread, by decide, hrechecked⟩

/-- The first of the two files is never checked again. -/
theorem not_all_rechecked :
    ¬ ∀ (root : Path) (capacity : Nat) (moves : List Workshop.Move) (active : Option DocumentRef)
        (settings : Settings) (documents : List DocumentRef), 0 < capacity →
        ∀ k profile, settings.profiles[k]? = some profile →
          ∀ document ∈ documents, profile.covers document.language = true →
            ∃ ms, document ∈ Engine.checks
              ((moves.foldl Workshop.Move.carryOut (.idle root capacity)).checkers.length + k)
              ((moves.foldl Workshop.Move.carryOut (.idle root capacity)).renew active settings documents)
              [.pass ms] := by
  intro hall
  have hcovers : (CheckerProfile.ofEntry ⟨"check", "Check", [], ["c"]⟩).covers "c" = true := by decide
  have hfirst := hall (.ofText "/w") 64 [] none checkSettings [firstFile, secondFile] (by decide) 0 _ rfl firstFile
    List.mem_cons_self hcovers
  have hkempt := Workshop.foldl_kempt (.ofText "/w") 64 []
  have hlast := (Engine.mem_checks_renew_iff hkempt (by decide) none rfl (by decide)).mp hfirst
  exact absurd hlast (by decide)

end Desk

end SyntaxWatch
