import SyntaxWatch.Proofs.Checker.Invariant

/-!
# What one happening can come to

`Outcome` lists everything that one happening can do on the bench of a checker that has not ended, as
far as errands and events go: nothing at all, the start of a run, or the return of one errand in one
of five ways. Whatever is said about the errands and the events of a run over a whole history is a
case analysis on it (`Live.outcome`), and no reaction of the checker is looked at again.

The errands of one run are a part of those on the bench (`errandsOf`), and the errands of others come
and go without it.
-/

set_option autoImplicit false

namespace SyntaxWatch

namespace Bench

/-! ## 1. The errands of one run -/

/-- The errands that are out for a run. -/
def errandsOf (b : Bench) (token : Nat) : List Errand := b.errands.filter (·.token = token)

variable {b c : Bench} {token : Nat}

theorem mem_errandsOf {e : Errand} : e ∈ b.errandsOf token ↔ e ∈ b.errands ∧ e.token = token := by
  simp [errandsOf]

theorem errandsOf_eq_nil : b.errandsOf token = [] ↔ ∀ e ∈ b.errands, e.token ≠ token := by
  simp [errandsOf, List.filter_eq_nil_iff]

theorem errandsOf_append {more : List Errand} (herrands : c.errands = b.errands ++ more) :
    c.errandsOf token = b.errandsOf token ++ more.filter (·.token = token) := by
  unfold errandsOf
  rw [herrands, List.filter_append]

theorem errandsOf_erase {e : Errand} (herrands : c.errands = b.errands.erase e) :
    c.errandsOf token = (b.errandsOf token).erase e := by
  unfold errandsOf
  rw [herrands, List.erase_filter]

theorem errandsOf_erase_of_ne {e : Errand} (herrands : c.errands = b.errands.erase e)
    (hother : e.token ≠ token) : c.errandsOf token = b.errandsOf token := by
  rw [errandsOf_erase herrands]
  exact List.erase_of_not_mem fun hmem => hother (mem_errandsOf.mp hmem).2

theorem filter_lookUp (token : Nat) (parcels : List Parcel) :
    (parcels.map (Errand.lookUp token)).filter (·.token = token) = parcels.map (Errand.lookUp token) := by
  rw [List.filter_eq_self]
  intro e he
  obtain ⟨p, _, rfl⟩ := List.mem_map.mp he
  exact decide_eq_true rfl

theorem filter_lookUp_of_ne {run : Nat} (hother : run ≠ token) (parcels : List Parcel) :
    (parcels.map (Errand.lookUp run)).filter (·.token = token) = [] := by
  rw [List.filter_eq_nil_iff]
  intro e he
  obtain ⟨p, _, rfl⟩ := List.mem_map.mp he
  exact fun h => hother (of_decide_eq_true h)

theorem erase_lookUp (token : Nat) (parcels : List Parcel) (parcel : Parcel) :
    (parcels.map (Errand.lookUp token)).erase (.lookUp token parcel)
      = (parcels.erase parcel).map (Errand.lookUp token) := by
  induction parcels with
  | nil => rfl
  | cons p parcels ih =>
    rw [List.map_cons, List.erase_cons, List.erase_cons]
    by_cases hp : p = parcel
    · simp [hp]
    · simp [hp, ih]

/-- A run without a process has only its parcels out. -/
theorem errandsOf_of_processes (hnone : b.currentRun.processes = []) :
    b.errandsOf b.token = b.currentRun.parcels.map (Errand.lookUp b.token) := by
  have hlist : ∀ errands : List Errand, errands.filterMap (Errand.process? b.token) = [] →
      errands.filter (·.token = b.token)
        = (errands.filterMap (Errand.parcel? b.token)).map (Errand.lookUp b.token) := by
    intro errands
    induction errands with
    | nil => exact fun _ => rfl
    | cons e errands ih =>
      intro hnone
      rw [List.filterMap_eq_nil_iff] at hnone
      have hrest := ih (List.filterMap_eq_nil_iff.mpr fun x hx => hnone x (List.mem_cons_of_mem e hx))
      have he := hnone e List.mem_cons_self
      cases e with
      | process t d =>
        have hne : t ≠ b.token := by
          rintro rfl
          simp [Errand.process?] at he
        simpa [List.filterMap_cons, Errand.token, Errand.parcel?, hne] using hrest
      | lookUp t p =>
        by_cases ht : t = b.token
        · simpa [Errand.token, Errand.parcel?, ht] using hrest
        · simpa [Errand.token, Errand.parcel?, ht] using hrest
  exact hlist b.errands hnone

/-! ## 2. Outcomes -/

/-- What is told when a happening is met. -/
def told (b : Bench) (h : Happening) : List Event := Checker.eventsOf (b.checker.meet h).2

inductive Outcome (b : Bench) (h : Happening) : Prop where
  /-- The timer is armed, or the timer of an older arming runs out. -/
  | quiet (token : (b.meet h).token = b.token) (errands : (b.meet h).errands = b.errands)
      (told : b.told h = [])
  | starts (document : DocumentRef) (token : (b.meet h).token = b.token + 1)
      (errands : (b.meet h).errands = b.errands ++ [.process (b.token + 1) document])
      (told : b.told h = [.started (b.token + 1) document.uri])
  /-- The output of the current run is taken in, and its parcels are sent. -/
  | accepts (document : DocumentRef) (printed : List Finding) (parcels : List Parcel)
      (met : h = .output b.token document printed) (out : .process b.token document ∈ b.errands)
      (token : (b.meet h).token = b.token)
      (errands : (b.meet h).errands
        = b.errands.erase (.process b.token document) ++ parcels.map (.lookUp b.token))
      (told : b.told h = if parcels = [] then [.settled b.token] else [])
  /-- The output of an older run is dropped. -/
  | discards (run : Nat) (document : DocumentRef) (printed : List Finding)
      (met : h = .output run document printed) (older : run < b.token)
      (out : .process run document ∈ b.errands) (token : (b.meet h).token = b.token)
      (errands : (b.meet h).errands = b.errands.erase (.process run document))
      (told : b.told h = [.discarded run])
  /-- A run comes to nothing, whether it is the current one or not. -/
  | fails (run : Nat) (document : DocumentRef) (cause : RunFailure)
      (met : h = .failure run document cause ∨ cause = .aborted ∧ h = .death run document)
      (out : .process run document ∈ b.errands) (token : (b.meet h).token = b.token)
      (errands : (b.meet h).errands = b.errands.erase (.process run document))
      (told : b.told h = [.failed run cause])
  /-- An answer to the current run is written. -/
  | places (a : Answer) (met : h = .answer b.token a)
      (out : .lookUp b.token a.parcel ∈ b.errands) (token : (b.meet h).token = b.token)
      (errands : (b.meet h).errands = b.errands.erase (.lookUp b.token a.parcel))
      (told : b.told h = .published a.uri (a.diagnostics b.checker.name).length
        :: if (b.meet h).errandsOf b.token = [] then [.settled b.token] else [])
  /-- An answer to an older run is overlooked. -/
  | overlooks (run : Nat) (a : Answer) (met : h = .answer run a) (older : run < b.token)
      (out : .lookUp run a.parcel ∈ b.errands) (token : (b.meet h).token = b.token)
      (errands : (b.meet h).errands = b.errands.erase (.lookUp run a.parcel))
      (told : b.told h = [])

/-- Whatever is out after a happening was out before it, unless it is the process of a new run or a
lookup for the current one, whose process has come back. -/
theorem Outcome.mem_errands {h : Happening} (houtcome : Outcome b h) {e : Errand}
    (he : e ∈ (b.meet h).errands) :
    e ∈ b.errands ∨ (∃ document, e = .process (b.token + 1) document)
      ∨ ∃ parcel document, e = .lookUp b.token parcel ∧ .process b.token document ∈ b.errands := by
  cases houtcome with
  | quiet htoken errands told =>
    left
    rw [← errands]
    exact he
  | starts document htoken errands told =>
    rw [errands] at he
    rcases List.mem_append.mp he with he | he
    · exact .inl he
    · exact .inr (.inl ⟨document, List.mem_singleton.mp he⟩)
  | accepts document printed parcels met out htoken errands told =>
    rw [errands] at he
    rcases List.mem_append.mp he with he | he
    · exact .inl (List.mem_of_mem_erase he)
    · obtain ⟨parcel, _, rfl⟩ := List.mem_map.mp he
      exact .inr (.inr ⟨parcel, document, rfl, out⟩)
  | discards run document printed met older out htoken errands told =>
    exact .inl (List.mem_of_mem_erase (errands ▸ he))
  | fails run document cause met out htoken errands told =>
    exact .inl (List.mem_of_mem_erase (errands ▸ he))
  | places a met out htoken errands told => exact .inl (List.mem_of_mem_erase (errands ▸ he))
  | overlooks run a met older out htoken errands told => exact .inl (List.mem_of_mem_erase (errands ▸ he))

theorem events_meet (b : Bench) (h : Happening) : (b.meet h).events = b.events ++ b.told h := meet_events b h

theorem token_meet {h : Happening} {c : Checker} {new : List Effect}
    (hmeet : b.checker.meet h = (c, new)) : (b.meet h).token = c.runs.token := by
  unfold token
  rw [meet_checker, hmeet]

theorem errands_meet {h : Happening} {c : Checker} {new : List Effect}
    (hmeet : b.checker.meet h = (c, new)) :
    (b.meet h).errands = without b.errands h ++ new.filterMap Errand.ofEffect? := by
  rw [meet_errands, hmeet]

/-- Nobody is sent out by what is only told. -/
theorem errands_meet_of_told {h : Happening} {c : Checker} {new : List Effect}
    (hmeet : b.checker.meet h = (c, new)) (hnone : new.filterMap Errand.ofEffect? = []) :
    (b.meet h).errands = without b.errands h := by
  rw [errands_meet hmeet, hnone, List.append_nil]

theorem told_meet {h : Happening} {c : Checker} {new : List Effect}
    (hmeet : b.checker.meet h = (c, new)) : b.told h = Checker.eventsOf new := by
  unfold told
  rw [hmeet]

theorem sent_endingIf (done : Bool) (token : Nat) :
    (Checker.endingIf done token).filterMap Errand.ofEffect? = [] := by
  cases done <;> rfl

section Step

variable {start : Bench} {past : List Happening} (hl : Live start past b)

include hl

/-- An answer comes to the current run only while its parcels are counted, and no process is out
then. -/
theorem Live.counter {parcel : Parcel} (hout : .lookUp b.token parcel ∈ b.errands) :
    b.checker.runs.running = some b.token
      ∧ b.checker.runs.unwritten = (b.currentRun.parcels.erase parcel).length + 1
      ∧ b.errandsOf b.token = b.currentRun.parcels.map (Errand.lookUp b.token) := by
  have hmem := mem_parcels hout rfl
  cases hl.stage with
  | spent phase =>
    rw [phase.parcels] at hmem
    cases hmem
  | waiting document phase =>
    rw [phase.parcels] at hmem
    cases hmem
  | placing document printed before later split counted phase =>
    exact ⟨phase.running_of_mem hmem, phase.unwritten_of_mem hmem, errandsOf_of_processes phase.processes⟩

/-- **Every happening has one of the outcomes.** -/
theorem Live.outcome {h : Happening} (hcan : b.CanMeet h) (hne : h ≠ .disposal) : Outcome b h := by
  have alive := hl.orderly.alive
  cases h with
  | trigger document =>
    have hmeet := Checker.meet_trigger alive document
    exact .quiet ((token_meet hmeet).trans rfl) (errands_meet_of_told hmeet rfl) (told_meet hmeet)
  | expiry seq document =>
    by_cases harmed : b.checker.runs.armed = some seq
    · have hmeet := Checker.meet_expiry alive document harmed
      exact .starts document (token_meet hmeet) (errands_meet hmeet) (told_meet hmeet)
    · have hmeet := Checker.meet_expiry_of_ne alive document harmed
      exact .quiet (token_meet hmeet) (errands_meet_of_told hmeet rfl) (told_meet hmeet)
  | output run document printed =>
    have hle : run ≤ b.token := hl.orderly.errands _ hcan
    by_cases hcurrent : run = b.token
    · subst hcurrent
      have hrunning := (hl.stage.waiting_of_process hcan).running
      have hmeet := Checker.meet_output alive hrunning document printed
      refine .accepts document printed _ rfl hcan ((token_meet hmeet).trans rfl) ?_
        ((told_meet hmeet).trans (eventsOf_sending _ _))
      exact (errands_meet hmeet).trans (congrArg _ (sent_sending _ _))
    · have hmeet := Checker.meet_output_of_ne alive document printed hcurrent
      exact .discards run document printed rfl (Nat.lt_of_le_of_ne hle hcurrent) hcan (token_meet hmeet)
        (errands_meet_of_told hmeet rfl) (told_meet hmeet)
  | failure run document cause =>
    have hmeet := Checker.meet_failure alive run document cause
    exact .fails run document cause (.inl rfl) hcan
      ((token_meet hmeet).trans (RunState.giveUp_token _ _)) (errands_meet_of_told hmeet rfl)
      (told_meet hmeet)
  | death run document =>
    have hmeet := Checker.meet_death alive run document
    exact .fails run document .aborted (.inr ⟨rfl, rfl⟩) hcan
      ((token_meet hmeet).trans (RunState.giveUp_token _ _)) (errands_meet_of_told hmeet rfl)
      (told_meet hmeet)
  | answer run a =>
    have hle : run ≤ b.token := hl.orderly.errands _ hcan
    by_cases hcurrent : run = b.token
    · subst hcurrent
      obtain ⟨hrunning, hunwritten, hparcels⟩ := hl.counter hcan
      have hmeet := Checker.meet_answer alive hrunning a hunwritten
      have herrands : (b.meet (.answer b.token a)).errands = b.errands.erase (.lookUp b.token a.parcel) :=
        errands_meet_of_told hmeet (sent_endingIf _ _)
      have hleft : (b.meet (.answer b.token a)).errandsOf b.token = []
          ↔ (b.currentRun.parcels.erase a.parcel).length = 0 := by
        rw [errandsOf_erase herrands, hparcels, erase_lookUp, List.map_eq_nil_iff, List.length_eq_zero_iff]
      refine .places a rfl hcan ((token_meet hmeet).trans rfl) herrands ((told_meet hmeet).trans ?_)
      have hlast : Checker.eventsOf
            (Checker.endingIf (decide ((b.currentRun.parcels.erase a.parcel).length = 0)) b.token)
          = if (b.meet (.answer b.token a)).errandsOf b.token = [] then [.settled b.token] else [] := by
        rw [eventsOf_endingIf]
        simp only [decide_eq_true_eq, hleft]
      exact congrArg (List.cons _) hlast
    · have hmeet := Checker.meet_answer_of_ne alive a hcurrent
      exact .overlooks run a rfl (Nat.lt_of_le_of_ne hle hcurrent) hcan (token_meet hmeet)
        (errands_meet_of_told hmeet rfl) (told_meet hmeet)
  | disposal => exact absurd rfl hne

end Step

end Bench

end SyntaxWatch
