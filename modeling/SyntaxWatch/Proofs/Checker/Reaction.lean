import SyntaxWatch.Proofs.Checker.Bench

/-!
# What a checker does with a happening

One equation for each kind of happening, for a checker that has not ended: the checker afterwards
and the effects, as they stand. Later modules cite these and unfold no reaction again.

The one with an argument in it is `sendGroups_eq`. Groups whose path leads nowhere are counted off
inside the loop, while the parcels are counted off later, one by one, as they are answered. What the
loop leaves behind is exactly the number of parcels, and the loop itself settles the run only if
there are none.
-/

set_option autoImplicit false

namespace SyntaxWatch

/-! ## 1. A run with files left -/

namespace RunState

/-- The state in which so many files of a run are still to be written, and the run is over if there
are none. -/
def withLeft (s : RunState) (token n : Nat) : RunState :=
  { s with unwritten := n, running := if n = 0 then none else some token }

theorem counts_iff {s : RunState} {token : Nat} :
    s.counts token = true ↔ s.disposed = false ∧ token = s.token := by
  simp [counts]

theorem running_withLeft_of_ne (s : RunState) (token : Nat) {n : Nat} (hne : n ≠ 0) :
    (s.withLeft token n).running = some token := by
  unfold withLeft
  simp only [if_neg hne]

theorem withLeft_self {s : RunState} {token n : Nat} (hrunning : s.running = some token)
    (hunwritten : s.unwritten = n) (hne : n ≠ 0) : s.withLeft token n = s := by
  unfold withLeft
  rw [if_neg hne, ← hrunning, ← hunwritten]

theorem fileWritten_succ {s : RunState} {token n : Nat} (hcounts : s.counts token = true)
    (hrunning : s.running = some token) (hunwritten : s.unwritten = n + 1) :
    s.fileWritten token = (s.withLeft token n, decide (n = 0)) := by
  unfold fileWritten settleIfNoneLeft withLeft
  rw [if_pos ⟨hcounts, hrunning⟩, hunwritten]
  by_cases hn : n = 0
  · simp [hn]
  · simp [hn, hrunning]

theorem awaitFiles_of_ne {s : RunState} {token files : Nat} (hcounts : s.counts token = true)
    (hne : files ≠ 0) : s.awaitFiles token files = ({ s with unwritten := files }, false) := by
  unfold awaitFiles settleIfNoneLeft
  rw [if_pos hcounts, if_neg hne]

theorem giveUp_of_ne {s : RunState} {token : Nat} (hother : s.running ≠ some token) :
    s.giveUp token = s := by
  unfold giveUp
  rw [if_neg hother]

/-! ### What counting off leaves alone -/

theorem fileWritten_token (s : RunState) (token : Nat) : (s.fileWritten token).1.token = s.token := by
  unfold fileWritten settleIfNoneLeft
  grind

theorem fileWritten_disposed (s : RunState) (token : Nat) :
    (s.fileWritten token).1.disposed = s.disposed := by
  unfold fileWritten settleIfNoneLeft
  grind

theorem awaitFiles_token (s : RunState) (token files : Nat) :
    (s.awaitFiles token files).1.token = s.token := by
  unfold awaitFiles settleIfNoneLeft
  grind

theorem awaitFiles_disposed (s : RunState) (token files : Nat) :
    (s.awaitFiles token files).1.disposed = s.disposed := by
  unfold awaitFiles settleIfNoneLeft
  grind

theorem giveUp_token (s : RunState) (token : Nat) : (s.giveUp token).token = s.token := by
  unfold giveUp
  split <;> rfl

theorem giveUp_disposed (s : RunState) (token : Nat) : (s.giveUp token).disposed = s.disposed := by
  unfold giveUp
  split <;> rfl

end RunState

namespace Checker

def withLeft (c : Checker) (token n : Nat) : Checker := { c with runs := c.runs.withLeft token n }

variable {c : Checker}

/-! ## 2. The same checker, later -/

/-- The second checker can be the first one at a later time: it has kept its name, its root and its
delay, its token has not gone back, and its end is final. -/
structure Later (c d : Checker) : Prop where
  profile : d.profile = c.profile
  root : d.root = c.root
  delay : d.delay = c.delay
  token : c.runs.token ≤ d.runs.token
  disposed : c.runs.disposed = true → d.runs.disposed = true

theorem Later.refl (c : Checker) : Later c c := ⟨rfl, rfl, rfl, Nat.le_refl _, id⟩

theorem Later.trans {d e : Checker} (hcd : Later c d) (hde : Later d e) : Later c e :=
  ⟨hde.profile.trans hcd.profile, hde.root.trans hcd.root, hde.delay.trans hcd.delay,
    Nat.le_trans hcd.token hde.token, fun h => hde.disposed (hcd.disposed h)⟩

theorem Later.name {d : Checker} (h : Later c d) : d.name = c.name := by
  unfold Checker.name
  rw [h.profile]

/-- The second checker is the first one after some work, none of which has ended it: neither the
checker nor its collection has been let go of. -/
structure Worked (c d : Checker) : Prop where
  profile : d.profile = c.profile
  root : d.root = c.root
  delay : d.delay = c.delay
  token : c.runs.token ≤ d.runs.token
  disposed : d.runs.disposed = c.runs.disposed
  heading : d.collection.name = c.collection.name
  letGo : d.collection.disposed = c.collection.disposed

theorem Worked.refl (c : Checker) : Worked c c := ⟨rfl, rfl, rfl, Nat.le_refl _, rfl, rfl, rfl⟩

theorem Worked.trans {d e : Checker} (hcd : Worked c d) (hde : Worked d e) : Worked c e :=
  ⟨hde.profile.trans hcd.profile, hde.root.trans hcd.root, hde.delay.trans hcd.delay,
    Nat.le_trans hcd.token hde.token, hde.disposed.trans hcd.disposed, hde.heading.trans hcd.heading,
    hde.letGo.trans hcd.letGo⟩

theorem Worked.later {d : Checker} (h : Worked c d) : Later c d :=
  ⟨h.profile, h.root, h.delay, h.token, fun hended => h.disposed.trans hended⟩

theorem Worked.of_runs {s : RunState} (htoken : c.runs.token ≤ s.token)
    (hdisposed : s.disposed = c.runs.disposed) : Worked c { c with runs := s } :=
  ⟨rfl, rfl, rfl, htoken, hdisposed, rfl, rfl⟩

theorem Worked.clear (c : Checker) : Worked c { c with collection := c.collection.clear } :=
  ⟨rfl, rfl, rfl, Nat.le_refl _, rfl, rfl, rfl⟩

theorem Worked.set (c : Checker) (uri : Uri) (diagnostics : List Diagnostic) :
    Worked c { c with collection := c.collection.set uri diagnostics } := by
  have hset : (c.collection.set uri diagnostics).name = c.collection.name
      ∧ (c.collection.set uri diagnostics).disposed = c.collection.disposed := by
    unfold Collection.set
    split
    · exact ⟨rfl, rfl⟩
    · split <;> exact ⟨rfl, rfl⟩
  exact ⟨rfl, rfl, rfl, Nat.le_refl _, rfl, hset.1, hset.2⟩

theorem sendGroup_worked (token : Nat) (trigger : Uri) (group : String × List Finding) :
    Worked c (c.sendGroup token trigger group).1 := by
  unfold sendGroup
  split
  · exact .refl c
  · exact .of_runs (Nat.le_of_eq (RunState.fileWritten_token _ _).symm) (RunState.fileWritten_disposed _ _)

theorem sendGroups_worked (token : Nat) (trigger : Uri) (groups : List (String × List Finding)) :
    Worked c (c.sendGroups token trigger groups).1 := by
  induction groups generalizing c with
  | nil => exact .refl c
  | cons group others ih => exact (sendGroup_worked token trigger group).trans ih

theorem react_worked (input : Input) : Worked c (c.react input).1 := by
  cases input with
  | trigger document =>
    unfold react armFor RunState.arm
    by_cases hended : c.runs.disposed = true
    · simp only [if_pos hended]
      exact .refl c
    · simp only [if_neg hended]
      exact .of_runs (Nat.le_refl _) rfl
  | expired seq document =>
    unfold react beginRun RunState.fire
    by_cases hrefused : c.runs.disposed ∨ c.runs.armed ≠ some seq
    · simp only [if_pos hrefused]
      exact .refl c
    · simp only [if_neg hrefused]
      exact (Worked.clear c).trans (.of_runs (Nat.le_succ _) rfl)
  | finished token document output =>
    unfold react takeOutput
    by_cases hcounts : c.runs.counts token = true
    · simp only [if_pos hcounts]
      have htoken := RunState.awaitFiles_token c.runs token output.fileCount
      have hdisposed := RunState.awaitFiles_disposed c.runs token output.fileCount
      cases hawait : c.runs.awaitFiles token output.fileCount with
      | mk s done =>
        rw [hawait] at htoken hdisposed
        have hcounted : Worked c { c with runs := s } := .of_runs (Nat.le_of_eq htoken.symm) hdisposed
        cases done with
        | true => exact hcounted
        | false => exact hcounted.trans (sendGroups_worked token document.uri output.groups)
    · simp only [if_neg hcounts]
      exact .refl c
  | failed token failure =>
    exact .of_runs (Nat.le_of_eq (RunState.giveUp_token _ _).symm) (RunState.giveUp_disposed _ _)
  | aborted token =>
    exact .of_runs (Nat.le_of_eq (RunState.giveUp_token _ _).symm) (RunState.giveUp_disposed _ _)
  | placed token uri diagnostics =>
    unfold react write
    by_cases hcounts : c.runs.counts token = true
    · simp only [if_pos hcounts]
      refine (Worked.set c uri diagnostics).trans (.of_runs ?_ ?_)
      · exact Nat.le_of_eq (RunState.fileWritten_token _ _).symm
      · exact RunState.fileWritten_disposed _ _
    · simp only [if_neg hcounts]
      exact .refl c

theorem step_worked (input : Input) : Worked c (c.step input).1 := by
  unfold step
  split
  · exact .refl c
  · exact react_worked input

theorem react_later (input : Input) : Later c (c.react input).1 := (react_worked input).later

theorem meet_later (h : Happening) : Later c (c.meet h).1 := by
  unfold meet
  split
  · exact (step_worked _).later
  · exact ⟨rfl, rfl, rfl, Nat.le_succ _, fun _ => rfl⟩

/-- Only its end ends a checker. -/
theorem meet_worked {h : Happening} (hne : h ≠ .disposal) : Worked c (c.meet h).1 := by
  cases h with
  | disposal => exact absurd rfl hne
  | _ => exact step_worked _

/-! ## 3. A checker that has ended -/

theorem meet_of_disposed {h : Happening} (hended : c.runs.disposed = true) (hne : h ≠ .disposal) :
    c.meet h = (c, []) := by
  cases h with
  | disposal => exact absurd rfl hne
  | _ => simp [meet, Happening.input?, step, isDisposed, hended]

theorem meet_disposal : c.meet .disposal = (c.dispose, []) := rfl

section Living

variable (alive : c.runs.disposed = false)

include alive

theorem meet_input {h : Happening} {input : Input} (hinput : h.input? c.name = some input) :
    c.meet h = c.react input := by
  unfold meet step isDisposed
  rw [hinput]
  simp [alive]

/-! ## 4. Timers -/

theorem meet_trigger (document : DocumentRef) :
    c.meet (.trigger document)
      = ({ c with
            runs := { c.runs with armings := c.runs.armings + 1, armed := some (c.runs.armings + 1) } },
          [.startTimer (c.runs.armings + 1) document]) := by
  rw [meet_input alive rfl]
  simp [react, armFor, RunState.arm, alive]

theorem meet_expiry_of_ne {seq : Nat} (document : DocumentRef) (hlate : c.runs.armed ≠ some seq) :
    c.meet (.expiry seq document) = (c, []) := by
  rw [meet_input alive rfl]
  simp [react, beginRun, RunState.fire, hlate]

theorem meet_expiry {seq : Nat} (document : DocumentRef) (harmed : c.runs.armed = some seq) :
    c.meet (.expiry seq document)
      = ({ c with
            runs := { c.runs with
              armed := none
              token := c.runs.token + 1
              running := some (c.runs.token + 1)
              unwritten := 0 }
            collection := c.collection.clear },
          [.emit (.started (c.runs.token + 1) document.uri), .launch (c.runs.token + 1) document]) := by
  rw [meet_input alive rfl]
  simp [react, beginRun, RunState.fire, alive, harmed]

/-! ## 5. The end of a process -/

theorem meet_failure (token : Nat) (document : DocumentRef) (cause : RunFailure) :
    c.meet (.failure token document cause)
      = ({ c with runs := c.runs.giveUp token },
          [.warn ("Checker " ++ c.name ++ " received error: " ++ cause.message),
            .emit (.failed token cause)]) := by
  rw [meet_input alive rfl]
  rfl

theorem meet_death (token : Nat) (document : DocumentRef) :
    c.meet (.death token document)
      = ({ c with runs := c.runs.giveUp token }, [.emit (.failed token .aborted)]) := by
  rw [meet_input alive rfl]
  rfl

theorem meet_output_of_ne {token : Nat} (document : DocumentRef) (printed : List Finding)
    (hstale : token ≠ c.runs.token) :
    c.meet (.output token document printed) = (c, [.emit (.discarded token)]) := by
  have hcounts : ¬ c.runs.counts token = true := fun h => hstale (RunState.counts_iff.mp h).2
  rw [meet_input alive rfl]
  simp [react, takeOutput, hcounts]

end Living

/-! ## 6. The loop over the groups -/

def awaiting (c : Checker) (token files : Nat) : Checker :=
  { c with runs := (c.runs.awaitFiles token files).1 }

/-- The effects of the loop when these are the parcels and so many files are to come after it. -/
def sending (token toCome : Nat) (parcels : List Parcel) : List Effect :=
  parcels.map (fun p => .lookUp token p.target p.findings)
    ++ endingIf (decide (toCome + parcels.length = 0)) token

theorem sendGroups_cons (token : Nat) (trigger : Uri) (group : String × List Finding)
    (others : List (String × List Finding)) :
    c.sendGroups token trigger (group :: others)
      = (((c.sendGroup token trigger group).1.sendGroups token trigger others).1,
          (c.sendGroup token trigger group).2
            ++ ((c.sendGroup token trigger group).1.sendGroups token trigger others).2) := rfl

theorem sendGroup_of_ok {token : Nat} {trigger : Uri} {group : String × List Finding} {target : Target}
    (hgoal : Target.resolve c.root trigger group.1 = .ok target) :
    c.sendGroup token trigger group = (c, [.lookUp token target group.2]) := by
  unfold sendGroup
  rw [hgoal]

theorem sendGroup_of_error {token n : Nat} {trigger : Uri} {group : String × List Finding}
    {cause : Uri.PathError} (hgoal : Target.resolve c.root trigger group.1 = .error cause)
    (hcounts : c.runs.counts token = true) (hrunning : c.runs.running = some token)
    (hunwritten : c.runs.unwritten = n + 1) :
    c.sendGroup token trigger group = (c.withLeft token n, endingIf (decide (n = 0)) token) := by
  unfold sendGroup
  rw [hgoal]
  simp only [RunState.fileWritten_succ hcounts hrunning hunwritten]
  rfl

/-- **The loop.** With `toCome` files to come afterwards, it leaves one unwritten file for each of
them and for each parcel. -/
theorem sendGroups_eq {token : Nat} (toCome : Nat) (trigger : Uri) (groups : List (String × List Finding))
    (hcounts : c.runs.counts token = true) (hrunning : c.runs.running = some token)
    (hunwritten : c.runs.unwritten = toCome + groups.length) (hsome : 0 < toCome + groups.length) :
    c.sendGroups token trigger groups
      = (c.withLeft token (toCome + (Parcel.ofGroups c.root trigger groups).length),
          sending token toCome (Parcel.ofGroups c.root trigger groups)) := by
  induction groups generalizing c toCome with
  | nil =>
    have hne : toCome ≠ 0 := by simpa [Nat.pos_iff_ne_zero] using hsome
    have hleft : c.runs.unwritten = toCome := hunwritten
    have hself : c.withLeft token toCome = c := by
      unfold withLeft
      rw [RunState.withLeft_self hrunning hleft hne]
    simp [sendGroups, Parcel.ofGroups, sending, endingIf, hne, hself]
  | cons group others ih =>
    rw [List.length_cons] at hunwritten
    rw [sendGroups_cons]
    cases hgoal : Target.resolve c.root trigger group.1 with
    | ok target =>
      -- the lookup is one more file to come
      rw [sendGroup_of_ok hgoal, Parcel.ofGroups_cons_of_ok others hgoal]
      have hrest := ih (toCome + 1) hcounts hrunning (by omega) (by omega)
      simp [hrest, sending, Nat.add_assoc, Nat.add_comm]
    | error cause =>
      have hleft : c.runs.unwritten = (toCome + others.length) + 1 := by omega
      rw [sendGroup_of_error hgoal hcounts hrunning hleft, Parcel.ofGroups_cons_of_error others hgoal]
      by_cases hlast : toCome + others.length = 0
      · -- nothing is left at all, so this is where the run is settled
        have htoCome : toCome = 0 := by omega
        have hothers : others = [] := List.length_eq_zero_iff.mp (by omega)
        subst htoCome hothers
        rfl
      · have hstill := RunState.running_withLeft_of_ne c.runs token hlast
        have hrest := ih (c := c.withLeft token (toCome + others.length)) toCome hcounts hstill rfl (by omega)
        rw [hrest]
        simp only [hlast, decide_false, endingIf, Bool.false_eq_true, if_false, List.nil_append]
        rfl

/-! ## 7. What counts for the current run -/

section Current

variable (alive : c.runs.disposed = false) (hrunning : c.runs.running = some c.runs.token)

include alive hrunning

/-- What is taken in for the current run, however it is grouped: a parcel is sent for every group whose
path leads somewhere. -/
theorem takeOutput_eq (document : DocumentRef) (found : Findings) :
    c.takeOutput c.runs.token document found
      = (c.withLeft c.runs.token (Parcel.ofGroups c.root document.uri found.groups).length,
          sending c.runs.token 0 (Parcel.ofGroups c.root document.uri found.groups)) := by
  have hcounts : c.runs.counts c.runs.token = true := RunState.counts_iff.mpr ⟨alive, rfl⟩
  cases hgroups : found.groups with
  | nil =>
    simp [takeOutput, RunState.awaitFiles, RunState.settleIfNoneLeft, Findings.fileCount, hcounts,
      hgroups, Parcel.ofGroups, sending, endingIf, withLeft, RunState.withLeft]
  | cons group others =>
    -- the loop starts with as many unwritten files as there are groups
    have hawait := RunState.awaitFiles_of_ne hcounts (show (group :: others).length ≠ 0 by simp)
    have htake : c.takeOutput c.runs.token document found
        = (c.awaiting c.runs.token (group :: others).length).sendGroups c.runs.token document.uri
            (group :: others) := by
      simp only [takeOutput, hcounts, if_true, Findings.fileCount, hgroups, hawait, awaiting]
    have hloop := sendGroups_eq (c := c.awaiting c.runs.token (group :: others).length) 0
      document.uri (group :: others) (by rw [awaiting, hawait]; exact hcounts)
      (by rw [awaiting, hawait]; exact hrunning) (by rw [awaiting, hawait, Nat.zero_add]) (by simp)
    rw [Nat.zero_add] at hloop
    refine htake.trans (hloop.trans ?_)
    rw [awaiting, hawait]
    rfl

/-- **The output of the current run** sends its parcels on their way, and settles the run if there
are none. -/
theorem meet_output (document : DocumentRef) (printed : List Finding) :
    c.meet (.output c.runs.token document printed)
      = (c.withLeft c.runs.token (Parcel.ofPrinted c.root document.uri printed).length,
          sending c.runs.token 0 (Parcel.ofPrinted c.root document.uri printed)) := by
  rw [meet_input alive rfl]
  exact takeOutput_eq alive hrunning document (.ofList printed)

/-- **The counter inside the loop** is the number of parcels sent so far and of groups that are
left. -/
theorem unwritten_inside_loop (trigger : Uri) {groups sent left : List (String × List Finding)}
    (hsplit : groups = sent ++ left) :
    ((c.awaiting c.runs.token groups.length).sendGroups c.runs.token trigger sent).1.runs.unwritten
      = (Parcel.ofGroups c.root trigger sent).length + left.length := by
  have hcounts : c.runs.counts c.runs.token = true := RunState.counts_iff.mpr ⟨alive, rfl⟩
  have hlength : groups.length = left.length + sent.length := by
    rw [hsplit, List.length_append, Nat.add_comm]
  by_cases hnone : groups.length = 0
  · have hsent : sent = [] := List.length_eq_zero_iff.mp (by omega)
    have hleft : left = [] := List.length_eq_zero_iff.mp (by omega)
    subst hsent hleft
    rw [hnone]
    simp [sendGroups, awaiting, RunState.awaitFiles, RunState.settleIfNoneLeft, hcounts, Parcel.ofGroups]
  · have hawait := RunState.awaitFiles_of_ne hcounts hnone
    rw [sendGroups_eq left.length trigger sent (by rw [awaiting, hawait]; exact hcounts)
      (by rw [awaiting, hawait]; exact hrunning) (by rw [awaiting, hawait]; exact hlength) (by omega)]
    exact Nat.add_comm _ _

/-- **An answer to the current run** is written and counted off. -/
theorem meet_answer (a : Answer) {n : Nat} (hunwritten : c.runs.unwritten = n + 1) :
    c.meet (.answer c.runs.token a)
      = ({ c.withLeft c.runs.token n with
            collection := c.collection.set a.uri (a.diagnostics c.name) },
          .emit (.published a.uri (a.diagnostics c.name).length)
            :: endingIf (decide (n = 0)) c.runs.token) := by
  have hcounts : c.runs.counts c.runs.token = true := RunState.counts_iff.mpr ⟨alive, rfl⟩
  rw [meet_input alive rfl]
  simp only [react, write, hcounts, if_true, RunState.fileWritten_succ hcounts hrunning hunwritten]
  rfl

end Current

theorem meet_answer_of_ne {token : Nat} (alive : c.runs.disposed = false) (a : Answer)
    (hstale : token ≠ c.runs.token) : c.meet (.answer token a) = (c, []) := by
  have hcounts : ¬ c.runs.counts token = true := fun h => hstale (RunState.counts_iff.mp h).2
  rw [meet_input alive rfl]
  simp [react, write, hcounts]

end Checker

end SyntaxWatch
