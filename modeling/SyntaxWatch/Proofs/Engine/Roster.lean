import SyntaxWatch.Proofs.Engine.Workshop
import SyntaxWatch.Proofs.Settings.Profiles

/-!
# Who is on the roll

The checkers of an engine are those that have left, in front, and those of the present configuration
behind them (`Staffed`). Nothing that a checker does can move it from one part to the other: what comes
to it leaves it what it is (`Staffed.hear`). Only a new configuration does, and then everybody leaves
before anybody comes.

So of all that was done with an engine only the settings that were given last can be seen in its roll
(`InForce`), and a reload makes the same checkers as the first start (`SameRoll`).

## What is *not* in it

Two configurations at once. An engine is started when nobody is enrolled, and it is not for the host to end one
checker of the present configuration (`Workshop.Move.Proper`).
-/

set_option autoImplicit false

namespace SyntaxWatch

/-! ## 1. Checkers that have left -/

/-- A checker that has ended, and has let go of its collection. -/
structure Checker.Left (c : Checker) : Prop where
  ended : c.runs.disposed = true
  letGo : c.collection.disposed = true

theorem Checker.dispose_left (c : Checker) : c.dispose.Left := ⟨rfl, rfl⟩

theorem Checker.Left.meet {c : Checker} (hleft : c.Left) (h : Happening) : (c.meet h).1.Left := by
  by_cases hend : h = .disposal
  · rw [hend]
    exact c.dispose_left
  · rw [Checker.meet_of_disposed hleft.ended hend]
    exact hleft

namespace Engine

variable {e f : Engine} {i : Nat}

/-! ## 2. The two parts of the roll -/

/-- These many checkers have left, and those behind them serve these profiles. -/
structure Staffed (home : Path) (pause : Nat) (profiles : List CheckerProfile) (former : Nat) (e : Engine) :
    Prop where
  root : e.root = home
  delay : e.delay = pause
  roll : e.enrolled = List.range' former profiles.length
  length : e.checkers.length = former + profiles.length
  left : ∀ i c, e.checkers[i]? = some c → i < former → c.Left
  serving : ∀ k profile c, profiles[k]? = some profile → e.checkers[former + k]? = some c →
    (Checker.start profile home pause).Worked c

section Staffed

variable {root : Path} {delay : Nat} {profiles : List CheckerProfile} {former : Nat}

theorem Staffed.of_same (hs : Staffed root delay profiles former e) (hoffice : SameOffice e f)
    (hcheckers : f.checkers = e.checkers) : Staffed root delay profiles former f := by
  refine ⟨hoffice.root.trans hs.root, hoffice.delay.trans hs.delay, hoffice.enrolled.trans hs.roll,
    hoffice.length.trans hs.length, ?_, ?_⟩
  · rw [hcheckers]
    exact hs.left
  · rw [hcheckers]
    exact hs.serving

/-- **What comes to a checker leaves it where it is**, unless it ends a checker that is enrolled. -/
theorem Staffed.hear (hs : Staffed root delay profiles former e) {h : Happening}
    (hproper : h = .disposal → i ∉ e.enrolled) : Staffed root delay profiles former (e.hear i h) := by
  have hoffice := e.hear_office i h
  refine ⟨hoffice.root.trans hs.root, hoffice.delay.trans hs.delay, hoffice.enrolled.trans hs.roll,
    hoffice.length.trans hs.length, ?_, ?_⟩
  · intro j c hc hj
    rw [hear_checkers] at hc
    by_cases hij : i = j
    · subst hij
      rw [List.getElem?_modify_eq] at hc
      obtain ⟨b, hb, rfl⟩ := Option.map_eq_some_iff.mp hc
      exact (hs.left i b hb hj).meet h
    · rw [List.getElem?_modify_ne _ _ hij] at hc
      exact hs.left j c hc hj
  · intro k profile c hprofile hc
    rw [hear_checkers] at hc
    by_cases hik : i = former + k
    · subst hik
      rw [List.getElem?_modify_eq] at hc
      obtain ⟨b, hb, rfl⟩ := Option.map_eq_some_iff.mp hc
      have hk : k < profiles.length := (List.getElem?_eq_some_iff.mp hprofile).1
      have henrolled : former + k ∈ e.enrolled := by
        rw [hs.roll, List.mem_range'_1]
        exact ⟨Nat.le_add_right _ _, Nat.add_lt_add_left hk former⟩
      refine (hs.serving k profile b hprofile hb).trans (Checker.meet_worked ?_)
      exact fun hend => hproper hend henrolled
    · rw [List.getElem?_modify_ne _ _ hik] at hc
      exact hs.serving k profile c hprofile hc

theorem Staffed.triggerOne (hs : Staffed root delay profiles former e) (document : DocumentRef) (i : Nat) :
    Staffed root delay profiles former (e.triggerOne document i) := by
  rcases e.triggerOne_eq document i with hsame | hheard
  · rw [hsame]
    exact hs
  · rw [hheard]
    exact hs.hear nofun

theorem Staffed.trigger (hs : Staffed root delay profiles former e) (document : DocumentRef) :
    Staffed root delay profiles former (e.trigger document) :=
  List.foldlRecOn _ _ hs fun _ he i _ => he.triggerOne document i

theorem Staffed.announce (hs : Staffed root delay profiles former e) (burst : List DocumentRef) :
    Staffed root delay profiles former (e.announce burst) :=
  List.foldlRecOn _ _ hs fun _ he i _ => List.foldlRecOn _ _ he fun _ he document _ => he.triggerOne document i

/-! ## 3. Everybody leaves -/

theorem shutdown_office (e : Engine) : SameOffice { e with enrolled := [] } e.shutdown := by
  obtain ⟨hroot, hdelay, _, hlength, hcapacity⟩ := foldl_disposeOne_office e.enrolled e
  exact ⟨hroot, hdelay, rfl, hlength, hcapacity⟩

theorem Staffed.shutdown (hs : Staffed root delay profiles former e) :
    Staffed root delay [] e.checkers.length e.shutdown := by
  have hoffice := e.shutdown_office
  refine ⟨hoffice.root.trans hs.root, hoffice.delay.trans hs.delay, hoffice.enrolled, hoffice.length, ?_, nofun⟩
  intro i c hc hi
  have hc : (e.enrolled.foldl disposeOne e).checkers[i]? = some c := hc
  by_cases hroll : i ∈ e.enrolled
  · obtain ⟨b, rfl⟩ := foldl_disposeOne_of_mem hroll hc
    exact b.dispose_left
  · -- whoever is not on the roll has left before
    rw [foldl_disposeOne_of_not_mem hroll] at hc
    refine hs.left i c hc (Nat.lt_of_not_le fun hle => hroll ?_)
    rw [hs.roll, List.mem_range'_1, ← hs.length]
    exact ⟨hle, hi⟩

/-- With nobody on the roll everybody has left. -/
theorem Staffed.of_nobody (hs : Staffed root delay profiles former e) (hnobody : e.enrolled = []) :
    Staffed root delay [] e.checkers.length e := by
  have hnone : profiles = [] := by
    rw [hs.roll, List.range'_eq_nil_iff] at hnobody
    exact List.length_eq_zero_iff.mp hnobody
  subst hnone
  have hlength : e.checkers.length = former := hs.length
  rw [hlength]
  exact hs

end Staffed

/-! ## 4. Everybody comes -/

/-- The checker that is made for a profile. It is asked for the active document at once. -/
def hired (active : Option DocumentRef) (root : Path) (delay : Nat) (profile : CheckerProfile) : Checker :=
  match active with
  | some document =>
    if profile.covers document.language then ((Checker.start profile root delay).step (.trigger document)).1
    else .start profile root delay
  | none => .start profile root delay

theorem hired_worked (active : Option DocumentRef) (root : Path) (delay : Nat) (profile : CheckerProfile) :
    (Checker.start profile root delay).Worked (hired active root delay profile) := by
  unfold hired
  cases active with
  | none => exact .refl _
  | some document =>
    dsimp only
    split
    · exact Checker.step_worked _
    · exact .refl _

/-- Checkers for these profiles have come to the first engine. -/
structure Joined (active : Option DocumentRef) (profiles : List CheckerProfile) (e f : Engine) : Prop where
  checkers : f.checkers = e.checkers ++ profiles.map (hired active e.root e.delay)
  enrolled : f.enrolled = e.enrolled ++ List.range' e.checkers.length profiles.length
  root : f.root = e.root
  delay : f.delay = e.delay
  feedCapacity : f.feedCapacity = e.feedCapacity

theorem enroll_joined (e : Engine) (active : Option DocumentRef) (profile : CheckerProfile) :
    Joined active [profile] e (e.enroll active profile) := by
  cases active with
  | none => exact ⟨rfl, rfl, rfl, rfl, rfl⟩
  | some document =>
    have hlast : (e.checkers ++ [Checker.start profile e.root e.delay])[e.checkers.length]?
        = some (.start profile e.root e.delay) := by simp
    unfold enroll triggerOne
    dsimp only
    rw [hlast]
    dsimp only
    by_cases hcovers : profile.covers document.language = true
    · rw [if_pos (show (Checker.start profile e.root e.delay).profile.covers document.language = true from
        hcovers)]
      obtain ⟨hroot, hdelay, henrolled, _, hcapacity⟩ := deliver_office
        { e with
          checkers := e.checkers ++ [.start profile e.root e.delay]
          enrolled := e.enrolled ++ [e.checkers.length] } e.checkers.length (.trigger document)
      refine ⟨?_, henrolled, hroot, hdelay, hcapacity⟩
      rw [deliver_checkers]
      refine (List.modifyTailIdx_add _ 0 e.checkers _).trans ?_
      simp [hired, hcovers]
    · rw [if_neg (show ¬ (Checker.start profile e.root e.delay).profile.covers document.language = true from
        hcovers)]
      refine ⟨?_, rfl, rfl, rfl, rfl⟩
      simp [hired, hcovers]

theorem foldl_enroll_joined (active : Option DocumentRef) (profiles : List CheckerProfile) (e : Engine) :
    Joined active profiles e (profiles.foldl (fun e profile => e.enroll active profile) e) := by
  induction profiles generalizing e with
  | nil => exact ⟨(List.append_nil _).symm, (List.append_nil _).symm, rfl, rfl, rfl⟩
  | cons profile profiles ih =>
    obtain ⟨hcheckers, henrolled, hroot, hdelay, hcapacity⟩ := e.enroll_joined active profile
    obtain ⟨hcheckers', henrolled', hroot', hdelay', hcapacity'⟩ := ih (e.enroll active profile)
    refine ⟨?_, ?_, hroot'.trans hroot, hdelay'.trans hdelay, hcapacity'.trans hcapacity⟩
    · rw [List.foldl_cons, hcheckers', hcheckers, hroot, hdelay, List.append_assoc]
      rfl
    · rw [List.foldl_cons, henrolled', henrolled, hcheckers, List.append_assoc, List.length_append]
      rfl

theorem enrollAll_joined (e : Engine) (active : Option DocumentRef) (settings : Settings) :
    Joined active settings.profiles { e with delay := settings.delay } (e.enrollAll active settings) :=
  foldl_enroll_joined active settings.profiles _

/-- **The roll after a configuration**: all that were there have left, and behind them there is a checker for
each profile. -/
theorem Staffed.enrollAll {root : Path} {delay : Nat} (hs : Staffed root delay [] e.checkers.length e)
    (active : Option DocumentRef) (settings : Settings) :
    Staffed root settings.delay settings.profiles e.checkers.length (e.enrollAll active settings) := by
  obtain ⟨hcheckers, henrolled, hroot, hdelay, _⟩ := e.enrollAll_joined active settings
  refine ⟨hroot.trans hs.root, hdelay, ?_, ?_, ?_, ?_⟩
  · rw [henrolled, show e.enrolled = [] from hs.roll]
    rfl
  · rw [hcheckers, List.length_append, List.length_map]
  · intro i c hc hi
    rw [hcheckers, List.getElem?_append_left hi] at hc
    exact hs.left i c hc hi
  · intro k profile c hprofile hc
    rw [hcheckers, List.getElem?_append_right (Nat.le_add_right _ _), Nat.add_sub_cancel_left,
      List.getElem?_map, hprofile] at hc
    cases hc
    rw [← hs.root]
    exact hired_worked active e.root settings.delay profile

/-! ## 5. What can be seen of a roll -/

theorem filterMap_getElem?_range' {α : Type} {l : List α} {n m : Nat} (hlength : l.length = n + m) :
    (List.range' n m).filterMap (fun i => l[i]?) = l.drop n := by
  induction m generalizing n with
  | zero =>
    rw [List.drop_of_length_le (show l.length ≤ n from Nat.le_of_eq hlength)]
    exact List.filterMap_nil
  | succ m ih =>
    have hn : n < l.length := by omega
    have hrest : l.length = n + 1 + m := by omega
    rw [List.range'_succ, List.filterMap_cons, List.getElem?_eq_getElem hn, ih hrest]
    exact (List.drop_eq_getElem_cons hn).symm

section Present

variable {root : Path} {delay : Nat} {profiles : List CheckerProfile} {former : Nat}

theorem Staffed.present_eq (hs : Staffed root delay profiles former e) : e.present = e.checkers.drop former := by
  unfold present
  rw [hs.roll]
  exact filterMap_getElem?_range' hs.length

theorem Staffed.worked (hs : Staffed root delay profiles former e) :
    List.Forall₂ (fun profile c => (Checker.start profile root delay).Worked c) profiles e.present := by
  rw [hs.present_eq, List.forall₂_iff_get]
  refine ⟨?_, ?_⟩
  · rw [List.length_drop, hs.length, Nat.add_sub_cancel_left]
  · intro k hk hk'
    refine hs.serving k _ _ (List.getElem?_eq_getElem hk) ?_
    rw [← List.getElem?_drop]
    exact List.getElem?_eq_getElem hk'

/-- What work does not change can be read off the profiles. -/
theorem Staffed.map_present {β : Type} (hs : Staffed root delay profiles former e) {see : Checker → β}
    {given : CheckerProfile → β}
    (hsee : ∀ profile c, (Checker.start profile root delay).Worked c → given profile = see c) :
    e.present.map see = profiles.map given := by
  have hsame : List.Forall₂ Eq (profiles.map given) (e.present.map see) := by
    rw [List.forall₂_map_left_iff, List.forall₂_map_right_iff]
    exact hs.worked.imp hsee
  rw [List.forall₂_eq_eq_eq] at hsame
  exact hsame.symm

theorem Staffed.present_profile (hs : Staffed root delay profiles former e) :
    e.present.map Checker.profile = profiles := by
  rw [hs.map_present fun _ _ h => h.profile.symm]
  exact List.map_id profiles

theorem Staffed.of_present (hs : Staffed root delay profiles former e) {c : Checker} (hc : c ∈ e.present) :
    ∃ profile ∈ profiles, (Checker.start profile root delay).Worked c := by
  obtain ⟨k, hk, rfl⟩ := List.mem_iff_getElem.mp hc
  have hk' : k < profiles.length := hs.worked.length_eq ▸ hk
  exact ⟨profiles[k], List.getElem_mem hk', hs.worked.get hk' hk⟩

/-- Those in front of the present ones have let go of their collections. -/
theorem Staffed.collections (hs : Staffed root delay profiles former e) :
    ∃ old, e.collections = old ++ e.present.map Checker.collection ∧ ∀ c ∈ old, c.disposed = true := by
  refine ⟨(e.checkers.take former).map Checker.collection, ?_, ?_⟩
  · unfold Engine.collections
    rw [hs.present_eq, ← List.map_append, List.take_append_drop]
  · intro c hc
    obtain ⟨b, hb, rfl⟩ := List.mem_map.mp hc
    obtain ⟨i, hi, rfl⟩ := List.mem_iff_getElem.mp hb
    have hformer : i < former := Nat.lt_of_lt_of_le hi (List.length_take_le _ _)
    rw [List.getElem_take]
    exact (hs.left i _ (List.getElem?_eq_getElem _) hformer).letGo

/-- The present ones have not. -/
theorem Staffed.live (hs : Staffed root delay profiles former e) :
    e.liveCollections = e.present.map Checker.collection := by
  obtain ⟨old, hcollections, hold⟩ := hs.collections
  unfold liveCollections
  rw [hcollections, List.filter_append, List.filter_eq_nil_iff.mpr, List.nil_append, List.filter_eq_self]
  · intro c hc
    obtain ⟨b, hb, rfl⟩ := List.mem_map.mp hc
    obtain ⟨profile, _, hserves⟩ := hs.of_present hb
    rw [show b.collection.disposed = false from hserves.letGo]
    rfl
  · intro c hc
    rw [hold c hc]
    exact Bool.false_ne_true

/-- After a configuration the present checkers are those that were made for its profiles. -/
theorem Staffed.present_enrollAll (hs : Staffed root delay [] e.checkers.length e) (active : Option DocumentRef)
    (settings : Settings) :
    (e.enrollAll active settings).present = settings.profiles.map (hired active root settings.delay) := by
  rw [(hs.enrollAll active settings).present_eq, (e.enrollAll_joined active settings).checkers, List.drop_left,
    ← hs.root]

end Present

/-- The roll of an engine is that of these settings. -/
structure InForce (s : Settings) (e : Engine) : Prop where
  delay : e.delay = s.delay
  /-- There is one checker for each entry with a command, in the order of the entries, … -/
  checkers : List.Forall₂ CheckerProfile.ReadyFrom s.entries (e.present.map Checker.profile)
  /-- … and all of them wait for the delay of the settings. -/
  delays : ∀ c ∈ e.present, c.delay = s.delay
  countFor : ∀ language, e.countFor language = s.entries.countP fun entry => entry.Lists language
  /-- Of all collections that were ever made, those of the present checkers are the last, in the order of the
  checkers. The ones before them have been let go of, … -/
  collections : ∃ old, e.collections = old ++ e.present.map Checker.collection ∧ ∀ c ∈ old, c.disposed = true
  /-- … and they have not. -/
  live : e.liveCollections = e.present.map Checker.collection
  headings : e.liveCollections.map Collection.name = s.entries.map CheckerEntry.displayName

theorem Staffed.inForce {root : Path} {former : Nat} {s : Settings}
    (hs : Staffed root s.delay s.profiles former e) : InForce s e := by
  have hprofiles := hs.present_profile
  refine ⟨hs.delay, ?_, ?_, ?_, hs.collections, hs.live, ?_⟩
  · rw [hprofiles]
    exact s.profiles_ready
  · intro c hc
    obtain ⟨profile, _, hserves⟩ := hs.of_present hc
    exact hserves.delay
  · intro language
    rw [← s.countP_profiles language, ← hprofiles, List.countP_map]
    rfl
  · have hheadings : e.present.map (Collection.name ∘ Checker.collection)
        = s.profiles.map CheckerProfile.displayName := hs.map_present fun _ _ h => h.heading.symm
    rw [hs.live, List.map_map, hheadings, s.profiles_eq, List.map_map]
    rfl

/-- The two engines have the same checkers at present, in the same state, and show the same of them. -/
structure SameRoll (e f : Engine) : Prop where
  present : f.present = e.present
  delay : f.delay = e.delay
  countFor : ∀ language, f.countFor language = e.countFor language
  live : f.liveCollections = e.liveCollections

/-- A configuration makes the same checkers wherever nobody is left. -/
theorem Staffed.sameRoll {root : Path} {delay delay' : Nat} (he : Staffed root delay [] e.checkers.length e)
    (hf : Staffed root delay' [] f.checkers.length f) (active : Option DocumentRef) (settings : Settings) :
    SameRoll (e.enrollAll active settings) (f.enrollAll active settings) := by
  have hpresent : (f.enrollAll active settings).present = (e.enrollAll active settings).present := by
    rw [he.present_enrollAll, hf.present_enrollAll]
  have he' := (he.enrollAll active settings).inForce
  have hf' := (hf.enrollAll active settings).inForce
  refine ⟨hpresent, hf'.delay.trans he'.delay.symm, fun language => ?_, ?_⟩
  · unfold countFor
    rw [hpresent]
  · rw [hf'.live, he'.live, hpresent]

end Engine

/-! ## 6. All that can be done with an engine -/

namespace Workshop

/-- The settings in force after a move. A shutdown keeps the delay. -/
def Move.inForce (s : Settings) : Move → Settings
  | .start _ given | .reload _ given => given
  | .shutdown => { s with checkers := [] }
  | .hear _ _ | .trigger _ | .announce _ | .advance _ | .ring | .poll _ => s

def inForce (moves : List Move) : Settings := moves.foldl Move.inForce .empty

/-- A first configuration comes when nobody is enrolled, and nobody who is enrolled is ended alone. -/
def Move.Proper (e : Engine) : Move → Prop
  | .start _ _ => e.enrolled = []
  | .hear i h => h = .disposal → i ∉ e.enrolled
  | .trigger _ | .announce _ | .advance _ | .ring | .poll _ | .reload _ _ | .shutdown => True

instance decidableProper (e : Engine) : (move : Move) → Decidable (move.Proper e)
  | .start _ _ => inferInstanceAs (Decidable (e.enrolled = []))
  | .hear i h => inferInstanceAs (Decidable (h = .disposal → i ∉ e.enrolled))
  | .trigger _ | .announce _ | .advance _ | .ring | .poll _ | .reload _ _ | .shutdown => isTrue trivial

def AllProper (e : Engine) : List Move → Prop
  | [] => True
  | move :: later => move.Proper e ∧ AllProper (move.carryOut e) later

instance decidableAllProper : (e : Engine) → (moves : List Move) → Decidable (AllProper e moves)
  | _, [] => isTrue trivial
  | e, move :: later =>
    have := decidableAllProper (move.carryOut e) later
    inferInstanceAs (Decidable (_ ∧ _))

variable {root : Path} {e : Engine} {s : Settings}

open Engine in
/-- **Every move leaves the roll to the settings in force.** -/
theorem Move.staffed {former : Nat} (hs : Staffed root s.delay s.profiles former e) {move : Move}
    (hproper : move.Proper e) :
    ∃ former, Staffed root (move.inForce s).delay (move.inForce s).profiles former (move.carryOut e) := by
  cases move with
  | hear i h => exact ⟨former, hs.hear hproper⟩
  | trigger document => exact ⟨former, hs.trigger document⟩
  | announce burst => exact ⟨former, hs.announce burst⟩
  | advance ms => exact ⟨former, hs.of_same ⟨rfl, rfl, rfl, rfl, rfl⟩ rfl⟩
  | ring => exact ⟨former, hs.of_same ⟨rfl, rfl, rfl, rfl, rfl⟩ rfl⟩
  | poll budget => exact ⟨former, hs.of_same ⟨rfl, rfl, rfl, rfl, rfl⟩ rfl⟩
  | start active settings =>
    have hempty : Staffed root s.delay s.profiles former { e with events := .empty eventCapacity } :=
      hs.of_same ⟨rfl, rfl, rfl, rfl, rfl⟩ rfl
    exact ⟨_, (hempty.of_nobody hproper).enrollAll active settings⟩
  | reload active settings =>
    have hnobody := hs.shutdown
    rw [← e.shutdown_office.length] at hnobody
    exact ⟨_, hnobody.enrollAll active settings⟩
  | shutdown => exact ⟨_, hs.shutdown⟩

open Engine in
theorem staffed_foldl {former : Nat} (hs : Staffed root s.delay s.profiles former e) {moves : List Move}
    (proper : AllProper e moves) :
    ∃ former, Staffed root (moves.foldl Move.inForce s).delay (moves.foldl Move.inForce s).profiles former
      (moves.foldl Move.carryOut e) := by
  induction moves generalizing e s former with
  | nil => exact ⟨former, hs⟩
  | cons move later ih =>
    obtain ⟨former, hnext⟩ := move.staffed hs proper.1
    exact ih hnext proper.2

theorem idle_staffed (root : Path) (feedCapacity : Nat) :
    Engine.Staffed root Settings.empty.delay [] 0 (.idle root feedCapacity) :=
  ⟨rfl, rfl, rfl, rfl, nofun, nofun⟩

/-- **A roll has no memory.** Whatever is done with an engine, its roll is that of the settings that were given
last, and a reload leads to the same roll as the first start. -/
theorem roll_exact {feedCapacity : Nat} {moves : List Move} (proper : AllProper (.idle root feedCapacity) moves) :
    (moves.foldl Move.carryOut (.idle root feedCapacity)).InForce (inForce moves)
      ∧ ∀ active settings, Engine.SameRoll ((Engine.idle root feedCapacity).start active settings)
          ((moves.foldl Move.carryOut (.idle root feedCapacity)).reload active settings) := by
  have hidle := idle_staffed root feedCapacity
  obtain ⟨former, hs⟩ := staffed_foldl (s := .empty) hidle proper
  refine ⟨hs.inForce, fun active settings => ?_⟩
  have hnobody := hs.shutdown
  rw [← (Engine.shutdown_office _).length] at hnobody
  have hopening : Engine.Staffed root Settings.empty.delay [] 0
      { Engine.idle root feedCapacity with events := .empty Engine.eventCapacity } :=
    hidle.of_same ⟨rfl, rfl, rfl, rfl, rfl⟩ rfl
  exact hopening.sameRoll hnobody active settings

/-- An entry whose command is blank stands between two of one name. -/
def twinSettings : Settings :=
  ⟨100, [⟨"gcc", "GCC", ["-x"], ["CPP", "c", "C"]⟩, ⟨"\u2003 ", "Blank", [], ["c"]⟩,
    ⟨"clang", "GCC", [], ["cpp"]⟩]⟩

/-- A reload comes while a run goes on, whose output comes later. Then everybody leaves, and comes again. -/
def turnover : List Move :=
  [.start (some Bench.sampleDocument) twinSettings, .hear 0 (.expiry 1 Bench.sampleDocument),
    .reload none ⟨7, [⟨"sh", "Shell", ["-n"], ["shellscript"]⟩]⟩,
    .hear 0 (.output 1 Bench.sampleDocument [Bench.sampleFinding "<stdin>"]), .shutdown, .start none twinSettings]

theorem roll_exact_turnover :
    AllProper (.idle (.ofText "/w") 16) turnover ∧ inForce turnover = twinSettings
      ∧ (turnover.foldl Move.carryOut (.idle (.ofText "/w") 16)).collections.map Collection.disposed
        = [true, true, true, false, false]
      ∧ (turnover.foldl Move.carryOut (.idle (.ofText "/w") 16)).InForce twinSettings
      ∧ ∀ active settings, Engine.SameRoll ((Engine.idle (.ofText "/w") 16).start active settings)
          ((turnover.foldl Move.carryOut (.idle (.ofText "/w") 16)).reload active settings) := by
  have proper : AllProper (.idle (.ofText "/w") 16) turnover := by decide +kernel
  exact ⟨proper, rfl, by decide +kernel, roll_exact proper⟩

end Workshop

end SyntaxWatch
