import SyntaxWatch.Proofs.Checker.Invariant
import SyntaxWatch.Proofs.Engine.Workshop

/-!
# What holds along a course

A course is any number of small steps of a workshop: one checker hears something, one checker is
hired, or nothing happens to any checker. Every move is a course (`act_course`), so what holds along
courses holds for engines, whatever is done with them.

Along any course the checkers stay in step with their benches (`Course.lockstep`), stay who they
are, and keep their histories (`Course.later`). Along a course on which only what is possible comes,
every history is possible (`Course.coherent`). And whoever is not enrolled has ended
(`Course.retired`).
-/

set_option autoImplicit false

namespace SyntaxWatch

namespace Workshop

/-! ## 1. Paths -/

/-- Any number of small steps, where what comes to a checker is allowed to come. Whoever is taken
off the roll has ended. -/
inductive Course (Allowed : Workshop → Nat → Happening → Prop) (w : Workshop) : Workshop → Prop where
  | refl : Course Allowed w w
  | give {v : Workshop} {i : Nat} {h : Happening} :
    Course Allowed w v → Allowed v i h → Course Allowed w (v.give i h)
  | hire {v : Workshop} (profile : CheckerProfile) : Course Allowed w v → Course Allowed w (v.hire profile)
  | adjust {v : Workshop} (e : Engine) :
    Course Allowed w v → e.checkers = v.engine.checkers →
    (∀ i c, v.engine.checkers[i]? = some c → i ∈ v.engine.enrolled → i ∉ e.enrolled →
      c.runs.disposed = true) →
    Course Allowed w { v with engine := e }

variable {Allowed : Workshop → Nat → Happening → Prop} {u v w : Workshop}

theorem Course.trans (huv : Course Allowed u v) (hvw : Course Allowed v w) : Course Allowed u w := by
  induction hvw with
  | refl => exact huv
  | give _ hallowed ih => exact ih.give hallowed
  | hire profile _ ih => exact ih.hire profile
  | adjust e _ hcheckers henrolled ih => exact ih.adjust e hcheckers henrolled

theorem Course.foldl {β : Type} {f : Workshop → β → Workshop} (hstep : ∀ w x, Course Allowed w (f w x))
    (xs : List β) (w : Workshop) : Course Allowed w (xs.foldl f w) := by
  induction xs generalizing w with
  | nil => exact .refl
  | cons x xs ih => exact (hstep w x).trans (ih (f w x))

theorem Course.touch (w : Workshop) {e : Engine} (hcheckers : e.checkers = w.engine.checkers)
    (henrolled : e.enrolled = w.engine.enrolled) : Course Allowed w { w with engine := e } := by
  refine Course.refl.adjust e hcheckers ?_
  intro i c _ hin hout
  rw [henrolled] at hout
  exact absurd hin hout

/-! ## 2. Every move is a course -/

section Moves

variable (htrigger : ∀ w i document, Allowed w i (.trigger document))

include htrigger

theorem triggerOne_course (w : Workshop) (document : DocumentRef) (i : Nat) :
    Course Allowed w (w.triggerOne document i) := by
  unfold triggerOne
  cases w.engine.checkers[i]? with
  | none => exact .refl
  | some c =>
    show Course Allowed w (if _ then _ else _)
    split
    · exact Course.refl.give (htrigger w i document)
    · exact .refl

theorem trigger_course (w : Workshop) (document : DocumentRef) : Course Allowed w (w.trigger document) :=
  Course.foldl (fun w i => triggerOne_course htrigger w document i) _ w

theorem announce_course (w : Workshop) (burst : List DocumentRef) : Course Allowed w (w.announce burst) :=
  Course.foldl (fun w i => Course.foldl (fun w document => triggerOne_course htrigger w document i) _ w) _ w

theorem enroll_course (w : Workshop) (active : Option DocumentRef) (profile : CheckerProfile) :
    Course Allowed w (w.enroll active profile) := by
  have hhire : Course Allowed w (w.hire profile) := Course.refl.hire profile
  cases active with
  | none => exact hhire
  | some document => exact hhire.trans (triggerOne_course htrigger _ document _)

theorem enrollAll_course (w : Workshop) (active : Option DocumentRef) (settings : Settings) :
    Course Allowed w (w.enrollAll active settings) :=
  (Course.touch w (e := { w.engine with delay := settings.delay }) rfl rfl).trans
    (Course.foldl (fun w profile => enroll_course htrigger w active profile) settings.profiles _)

end Moves

/-! ### The end of all enrolled checkers -/

theorem give_self (w : Workshop) (i : Nat) (h : Happening) :
    (w.give i h).engine.checkers[i]? = w.engine.checkers[i]?.map fun c => (c.meet h).1 := by
  show (w.engine.hear i h).checkers[i]? = _
  rw [Engine.hear_checkers, List.getElem?_modify_eq]
  rfl

theorem give_other (w : Workshop) {i j : Nat} (hij : i ≠ j) (h : Happening) :
    (w.give i h).engine.checkers[j]? = w.engine.checkers[j]? := by
  show (w.engine.hear i h).checkers[j]? = _
  rw [Engine.hear_checkers, List.getElem?_modify_ne _ _ hij]

theorem give_enrolled (w : Workshop) (i : Nat) (h : Happening) :
    (w.give i h).engine.enrolled = w.engine.enrolled := (w.engine.hear_office i h).enrolled

theorem shutdown_course (hdisposal : ∀ w i, Allowed w i .disposal) (w : Workshop) :
    Course Allowed w w.shutdown := by
  have hdismiss : Course Allowed w w.dismiss :=
    Course.foldl (fun w i => Course.refl.give (hdisposal w i)) _ w
  refine hdismiss.adjust _ rfl ?_
  intro i c hc hin _
  rw [dismiss_engine] at hin hc
  rw [(Engine.foldl_disposeOne_office _ _).enrolled] at hin
  obtain ⟨b, rfl⟩ := Engine.foldl_disposeOne_of_mem hin hc
  rfl

/-- **Every move is a course.** -/
theorem act_course (htrigger : ∀ w i document, Allowed w i (.trigger document))
    (hdisposal : ∀ w i, Allowed w i .disposal) {w : Workshop} {move : Move}
    (hhear : ∀ i h, move = .hear i h → Allowed w i h) : Course Allowed w (w.act move) := by
  cases move with
  | hear i h => exact Course.refl.give (hhear i h rfl)
  | trigger document => exact trigger_course htrigger w document
  | announce burst => exact announce_course htrigger w burst
  | advance ms => exact Course.touch w rfl rfl
  | ring => exact Course.touch w rfl rfl
  | poll budget => exact Course.touch w rfl rfl
  | start active settings =>
    exact (Course.touch w (e := { w.engine with events := .empty Engine.eventCapacity }) rfl rfl).trans
      (enrollAll_course htrigger _ active settings)
  | reload active settings =>
    exact (shutdown_course hdisposal w).trans (enrollAll_course htrigger _ active settings)
  | shutdown => exact shutdown_course hdisposal w

theorem after_course (w : Workshop) (moves : List Move) : Course (fun _ _ _ => True) w (w.after moves) :=
  Course.foldl (fun _ _ => act_course (fun _ _ _ => trivial) (fun _ _ => trivial) fun _ _ _ => trivial) moves w

theorem possible_course {moves : List Move} (possible : w.Possible moves) :
    Course CanHear w (w.after moves) := by
  induction moves generalizing w with
  | nil => exact .refl
  | cons move moves ih =>
    obtain ⟨hcan, hrest⟩ := possible
    refine Course.trans (act_course (fun _ _ _ _ _ => trivial) (fun _ _ _ _ => trivial) ?_) (ih hrest)
    rintro i h rfl
    exact hcan

/-! ## 3. In step -/

/-- Every checker is where its history has led it, and who is not there yet has no history. -/
structure Lockstep (w : Workshop) : Prop where
  checker : ∀ (i : Nat) (c : Checker), w.engine.checkers[i]? = some c → (w.bench i c).checker = c
  unborn : ∀ i, w.engine.checkers.length ≤ i → w.history i = []

structure Later (w v : Workshop) : Prop where
  checkers : ∀ (i : Nat) (c : Checker), w.engine.checkers[i]? = some c →
    ∃ d, v.engine.checkers[i]? = some d ∧ Checker.Later c d
  histories : ∀ i, ∃ more, v.history i = w.history i ++ more

theorem history_give_self {i : Nat} (hi : i < w.engine.checkers.length) (h : Happening) :
    (w.give i h).history i = w.history i ++ [h] := by
  unfold history give
  rw [if_pos hi, List.filterMap_append]
  simp

theorem history_give_other (w : Workshop) {i j : Nat} (hij : i ≠ j) (h : Happening) :
    (w.give i h).history j = w.history j := by
  unfold history give
  split
  · simp [List.filterMap_append, hij]
  · rfl

theorem history_give_nobody {i : Nat} (hi : w.engine.checkers.length ≤ i) (h : Happening) (j : Nat) :
    (w.give i h).history j = w.history j := by
  unfold history give
  rw [if_neg (Nat.not_lt.mpr hi)]

theorem give_length (w : Workshop) (i : Nat) (h : Happening) :
    (w.give i h).engine.checkers.length = w.engine.checkers.length := by
  show (w.engine.hear i h).checkers.length = _
  rw [Engine.hear_checkers, List.length_modify]

theorem hire_old {i : Nat} {c : Checker} (profile : CheckerProfile) (hc : w.engine.checkers[i]? = some c) :
    (w.hire profile).engine.checkers[i]? = some c := by
  show (w.engine.checkers ++ [_])[i]? = some c
  rw [List.getElem?_append_left (List.getElem?_eq_some_iff.mp hc).1]
  exact hc

/-- Whoever is there after somebody was hired was there before, or has just been started. -/
theorem of_hire {i : Nat} {c : Checker} {profile : CheckerProfile}
    (hc : (w.hire profile).engine.checkers[i]? = some c) :
    w.engine.checkers[i]? = some c
      ∨ (i = w.engine.checkers.length ∧ c = .start profile w.engine.root w.engine.delay) := by
  have hc : (w.engine.checkers ++ [.start profile w.engine.root w.engine.delay])[i]? = some c := hc
  rcases Nat.lt_or_ge i w.engine.checkers.length with hi | hi
  · rw [List.getElem?_append_left hi] at hc
    exact .inl hc
  · rw [List.getElem?_append_right hi] at hc
    obtain ⟨hlt, hget⟩ := List.getElem?_eq_some_iff.mp hc
    have hlength : i - w.engine.checkers.length < 1 := hlt
    refine .inr ⟨by omega, ?_⟩
    rw [← hget]
    simp

theorem bench_give {i : Nat} {c : Checker} (hc : w.engine.checkers[i]? = some c) (h : Happening) :
    (w.give i h).bench i (c.meet h).1 = (w.bench i c).meet h := by
  have hlater := Checker.meet_later (c := c) h
  have hi := (List.getElem?_eq_some_iff.mp hc).1
  unfold bench
  rw [hlater.profile, hlater.root, hlater.delay, history_give_self hi, Bench.after_snoc]

theorem Lockstep.give (hw : w.Lockstep) (i : Nat) (h : Happening) : (w.give i h).Lockstep := by
  constructor
  · intro j d hd
    by_cases hij : i = j
    · subst hij
      rw [give_self] at hd
      obtain ⟨c, hc, rfl⟩ := Option.map_eq_some_iff.mp hd
      rw [bench_give hc, Bench.meet_checker, hw.checker i c hc]
    · rw [give_other w hij] at hd
      unfold bench
      rw [history_give_other w hij]
      exact hw.checker j d hd
  · intro j hj
    rw [give_length] at hj
    by_cases hij : i = j
    · subst hij
      rw [history_give_nobody hj]
      exact hw.unborn i hj
    · rw [history_give_other w hij]
      exact hw.unborn j hj

theorem Lockstep.hire (hw : w.Lockstep) (profile : CheckerProfile) : (w.hire profile).Lockstep := by
  constructor
  · intro i c hc
    rcases of_hire hc with hc | ⟨rfl, rfl⟩
    · exact hw.checker i c hc
    · have hnone : (w.hire profile).history w.engine.checkers.length = [] := hw.unborn _ (Nat.le_refl _)
      unfold bench
      rw [hnone]
      rfl
  · intro i hi
    have hlength : (w.hire profile).engine.checkers.length = w.engine.checkers.length + 1 :=
      List.length_append
    exact hw.unborn i (by omega)

theorem Lockstep.adjust (hw : w.Lockstep) {e : Engine} (hcheckers : e.checkers = w.engine.checkers) :
    Lockstep { w with engine := e } := by
  constructor
  · intro i c hc
    have hc : e.checkers[i]? = some c := hc
    rw [hcheckers] at hc
    exact hw.checker i c hc
  · intro i hi
    have hi : e.checkers.length ≤ i := hi
    rw [hcheckers] at hi
    exact hw.unborn i hi

/-- **Checkers and benches stay in step.** -/
theorem Course.lockstep (hcourse : Course Allowed w v) (hw : w.Lockstep) : v.Lockstep := by
  induction hcourse with
  | refl => exact hw
  | give _ _ ih => exact ih.give _ _
  | hire profile _ ih => exact ih.hire profile
  | adjust e _ hcheckers _ ih => exact ih.adjust hcheckers

/-! ## 4. Nobody is lost -/

theorem Later.refl (w : Workshop) : Later w w :=
  ⟨fun _ c hc => ⟨c, hc, .refl c⟩, fun _ => ⟨[], (List.append_nil _).symm⟩⟩

theorem Later.trans (huv : Later u v) (hvw : Later v w) : Later u w := by
  constructor
  · intro i c hc
    obtain ⟨d, hd, hcd⟩ := huv.checkers i c hc
    obtain ⟨e, he, hde⟩ := hvw.checkers i d hd
    exact ⟨e, he, hcd.trans hde⟩
  · intro i
    obtain ⟨more, hmore⟩ := huv.histories i
    obtain ⟨rest, hrest⟩ := hvw.histories i
    exact ⟨more ++ rest, by rw [hrest, hmore, List.append_assoc]⟩

theorem later_give (w : Workshop) (i : Nat) (h : Happening) : Later w (w.give i h) := by
  constructor
  · intro j c hc
    by_cases hij : i = j
    · subst hij
      exact ⟨(c.meet h).1, by rw [give_self, hc]; rfl, Checker.meet_later h⟩
    · exact ⟨c, by rw [give_other w hij]; exact hc, .refl c⟩
  · intro j
    by_cases hij : i = j
    · subst hij
      rcases Nat.lt_or_ge i w.engine.checkers.length with hi | hi
      · exact ⟨[h], history_give_self hi h⟩
      · exact ⟨[], by rw [history_give_nobody hi, List.append_nil]⟩
    · exact ⟨[], by rw [history_give_other w hij, List.append_nil]⟩

/-- **Nobody is lost**: along a course, checkers stay who they are and keep their histories. -/
theorem Course.later (hcourse : Course Allowed w v) : Later w v := by
  induction hcourse with
  | refl => exact .refl w
  | give _ _ ih => exact ih.trans (later_give _ _ _)
  | hire profile _ ih =>
    refine ih.trans ⟨fun i c hc => ⟨c, hire_old profile hc, .refl c⟩, fun i => ⟨[], ?_⟩⟩
    exact (List.append_nil _).symm
  | adjust e _ hcheckers _ ih =>
    refine ih.trans ⟨fun i c hc => ⟨c, ?_, .refl c⟩, fun i => ⟨[], ?_⟩⟩
    · exact (congrArg (·[i]?) hcheckers).trans hc
    · exact (List.append_nil _).symm

/-! ## 5. Possible histories -/

/-- The histories that the benches of a workshop have are possible ones. -/
def Coherent (w : Workshop) : Prop :=
  ∀ (i : Nat) (c : Checker), w.engine.checkers[i]? = some c →
    (Bench.opening c.profile c.root c.delay).Possible (w.history i)

theorem Coherent.give (hw : w.Coherent) {i : Nat} {h : Happening} (hcan : w.CanHear i h) :
    (w.give i h).Coherent := by
  intro j d hd
  by_cases hij : i = j
  · subst hij
    rw [give_self] at hd
    obtain ⟨c, hc, rfl⟩ := Option.map_eq_some_iff.mp hd
    have hlater := Checker.meet_later (c := c) h
    rw [hlater.profile, hlater.root, hlater.delay,
      history_give_self (List.getElem?_eq_some_iff.mp hc).1]
    exact Bench.possible_append.mpr ⟨hw i c hc, hcan c hc, trivial⟩
  · rw [give_other w hij] at hd
    rw [history_give_other w hij]
    exact hw j d hd

/-- **What is possible for the workshop is possible on every bench.** -/
theorem Course.coherent (hcourse : Course CanHear w v) (hlockstep : w.Lockstep) (hw : w.Coherent) :
    v.Coherent := by
  induction hcourse with
  | refl => exact hw
  | give _ hcan ih => exact ih.give hcan
  | hire profile hbefore ih =>
    intro i c hc
    rcases of_hire hc with hc | ⟨rfl, rfl⟩
    · exact ih i c hc
    · have hnone := (hbefore.lockstep hlockstep).unborn _ (Nat.le_refl _)
      exact hnone ▸ trivial
  | adjust e _ hcheckers _ ih =>
    intro i c hc
    have hc : e.checkers[i]? = some c := hc
    rw [hcheckers] at hc
    exact ih i c hc

/-! ## 6. The roll -/

/-- Whoever is not enrolled has ended. -/
def Retired (w : Workshop) : Prop :=
  ∀ (i : Nat) (c : Checker), w.engine.checkers[i]? = some c → i ∉ w.engine.enrolled →
    c.runs.disposed = true

theorem Retired.give (hw : w.Retired) (i : Nat) (h : Happening) : (w.give i h).Retired := by
  intro j d hd hout
  rw [give_enrolled] at hout
  by_cases hij : i = j
  · subst hij
    rw [give_self] at hd
    obtain ⟨c, hc, rfl⟩ := Option.map_eq_some_iff.mp hd
    exact (Checker.meet_later h).disposed (hw i c hc hout)
  · rw [give_other w hij] at hd
    exact hw j d hd hout

/-- **Whoever leaves the roll has ended.** -/
theorem Course.retired (hcourse : Course Allowed w v) (hw : w.Retired) : v.Retired := by
  induction hcourse with
  | refl => exact hw
  | give _ _ ih => exact ih.give _ _
  | @hire v profile _ ih =>
    intro i c hc hout
    have hout : i ∉ v.engine.enrolled ++ [v.engine.checkers.length] := hout
    rw [List.mem_append, not_or] at hout
    rcases of_hire hc with hc | ⟨rfl, _⟩
    · exact ih i c hc hout.1
    · exact absurd List.mem_cons_self hout.2
  | @adjust v e _ hcheckers hleft ih =>
    intro i c hc hout
    have hc : e.checkers[i]? = some c := hc
    rw [hcheckers] at hc
    by_cases hin : i ∈ v.engine.enrolled
    · exact hleft i c hc hin hout
    · exact ih i c hc hin

end Workshop

end SyntaxWatch
