import SyntaxWatch.Proofs.Checker.Tale

/-!
# What a host can count on

A host of a checker sees nothing but events. `Ledger` says what it can rely on when it counts them:
runs are numbered as they start, every report is about a run that has started, a run ends once at
most, and no document of a run is reported when the run is settled or a newer one has begun.

A run need not end at all. When everything has come back, it is without an ending if it was overtaken
while its parcels were out, and only then, and from the kind of its ending one can tell what came of
its process.

How many of the events a host gets to see, and in how long a queue they wait, makes no difference to
any of this.
-/

set_option autoImplicit false

namespace SyntaxWatch

namespace Bench

variable {profile : CheckerProfile} {root : Path} {delay : Nat} {past later : List Happening}
  {token : Nat}

/-! ## 1. What stays -/

/-- What was told stays told. -/
theorem mem_events_after {b : Bench} {e : Event} (he : e ∈ b.events) (later : List Happening) :
    e ∈ (b.after later).events := by
  rw [events_after]
  exact List.mem_append_left _ he

theorem told_mem_events {b : Bench} {h : Happening} {e : Event} (he : e ∈ (b.after past).told h)
    (later : List Happening) : e ∈ (b.after (past ++ h :: later)).events := by
  rw [after_append]
  refine mem_events_after (b := (b.after past).meet h) ?_ later
  rw [events_meet]
  exact List.mem_append_right _ he

section Quiet

variable {start b : Bench} {h : Happening}

/-- Nobody sends out the process of an older run, … -/
theorem Outcome.process_of_older (houtcome : Outcome b h) (older : token < b.token)
    {document : DocumentRef} (hout : .process token document ∈ (b.meet h).errands) :
    .process token document ∈ b.errands := by
  rcases houtcome.mem_errands hout with hmem | ⟨d, heq⟩ | ⟨parcel, d, heq, _⟩
  · exact hmem
  · cases heq
    omega
  · cases heq

/-- … and without one an older run is told of no more. -/
theorem Outcome.endingsOf_of_older (houtcome : Outcome b h) (older : token < b.token)
    (hnone : ∀ document, .process token document ∉ b.errands) :
    (b.meet h).endingsOf token = b.endingsOf token := by
  have hcurrent : b.token ≠ token := by omega
  have hother : ∀ {run document}, .process run document ∈ b.errands → run ≠ token := by
    rintro run document hout rfl
    exact hnone document hout
  cases houtcome with
  | quiet htoken errands told => exact endingsOf_meet_of_told told rfl
  | starts document htoken errands told => exact endingsOf_meet_of_told told rfl
  | accepts document printed parcels met out htoken errands told =>
    exact endingsOf_meet_of_told told (by split <;> simp [Event.ends, hcurrent])
  | discards run document printed met older out htoken errands told =>
    exact endingsOf_meet_of_told told (by simp [Event.ends, hother out])
  | fails run document cause met out htoken errands told =>
    exact endingsOf_meet_of_told told (by simp [Event.ends, hother out])
  | places a met out htoken errands told =>
    exact endingsOf_meet_of_told told (by split <;> simp [Event.ends, hcurrent])
  | overlooks run a met older out htoken errands told => exact endingsOf_meet_of_told told rfl

end Quiet

/-- **An older run whose process has come back gets no ending any more.** -/
theorem endingsOf_after (possible : (opening profile root delay).Possible (past ++ later))
    (alive : ((opening profile root delay).after (past ++ later)).checker.runs.disposed = false)
    (older : token < ((opening profile root delay).after past).token)
    (hnone : ∀ document, .process token document ∉ ((opening profile root delay).after past).errands) :
    ((opening profile root delay).after (past ++ later)).endingsOf token
      = ((opening profile root delay).after past).endingsOf token := by
  induction later generalizing past with
  | nil => rw [List.append_nil]
  | cons h later ih =>
    obtain ⟨hpast, hcan, _⟩ := possible_append.mp possible
    have hb := booked_of_alive hpast (alive_upto alive)
    rw [List.append_cons] at possible alive ⊢
    have hne : h ≠ .disposal := by
      rintro rfl
      have hnext := alive_upto alive
      rw [after_snoc] at hnext
      cases hnext
    have houtcome := hb.live.outcome hcan hne
    have hnext := ih possible alive
    rw [after_snoc] at hnext
    rw [hnext, houtcome.endingsOf_of_older older hnone]
    · exact Nat.lt_of_lt_of_le older (Checker.meet_later h).token
    · intro document hout
      exact hnone document (houtcome.process_of_older older hout)

/-! ## 2. When everything has come back -/

/-- What the ending of a run says about it, when nothing is out any more. -/
structure Fate (start : Bench) (past : List Happening) (token : Nat) : Prop where
  unfinished : (∀ e ∈ (start.after past).events, e.ends token = false) ↔ Overtaken start past token
  discarded : .discarded token ∈ (start.after past).events ↔ Outlived start past token
  failed : ∀ cause, .failed token cause ∈ (start.after past).events ↔ Broken past token cause

section Rest

variable (possible : (opening profile root delay).Possible past)
  (alive : ((opening profile root delay).after past).checker.runs.disposed = false)

include possible alive

theorem untold_of_overtaken (ho : Overtaken (opening profile root delay) past token) :
    ((opening profile root delay).after past).endingsOf token = [] := by
  obtain ⟨before, document, printed, middle, later, rfl, _, older, parcel, hout⟩ := ho
  have hb := booked_of_alive (possible_append.mp possible).1 (alive_upto alive)
  have hcourse : Course (opening profile root delay) _ _ token := hb.course_of_mem hout
  obtain ⟨parcels, hparcels, huntold, _⟩ := hcourse.of_lookUp hout
  rw [endingsOf_after possible alive older, huntold]
  intro d hprocess
  have hmem : .process token d ∈ Bench.errandsOf _ token := mem_errandsOf.mpr ⟨hprocess, rfl⟩
  rw [hparcels] at hmem
  obtain ⟨p, _, hp⟩ := List.mem_map.mp hmem
  cases hp

theorem told_of_outlived (ho : Outlived (opening profile root delay) past token) :
    .discarded token ∈ ((opening profile root delay).after past).events := by
  obtain ⟨before, document, printed, later, rfl, older⟩ := ho
  refine told_mem_events ?_ later
  rw [told_meet (Checker.meet_output_of_ne (alive_upto alive) document printed (Nat.ne_of_lt older))]
  exact List.mem_singleton_self _

theorem told_of_broken {cause : RunFailure} (hbroken : Broken past token cause) :
    .failed token cause ∈ ((opening profile root delay).after past).events := by
  rcases hbroken with ⟨document, hmem⟩ | ⟨rfl, document, hmem⟩
  · obtain ⟨before, later, rfl⟩ := List.append_of_mem hmem
    refine told_mem_events ?_ later
    rw [told_meet (Checker.meet_failure (alive_upto alive) token document cause)]
    exact List.mem_singleton_self _
  · obtain ⟨before, later, rfl⟩ := List.append_of_mem hmem
    refine told_mem_events ?_ later
    rw [told_meet (Checker.meet_death (alive_upto alive) token document)]
    exact List.mem_singleton_self _

end Rest

/-- At rest a run has been overtaken or has ended. -/
theorem course_at_rest (rest : ((opening profile root delay).after past).errands = [])
    (hcourse : Course (opening profile root delay) past
      ((opening profile root delay).after past) token) :
    ((opening profile root delay).after past).endingsOf token = []
        ∧ Overtaken (opening profile root delay) past token
      ∨ ∃ e, ((opening profile root delay).after past).endingsOf token = [e]
        ∧ CameTo (opening profile root delay) past token e := by
  have hnone : ((opening profile root delay).after past).errandsOf token = [] := by
    unfold errandsOf
    rw [rest, List.filter_nil]
  cases hcourse with
  | running document out untold =>
    rw [hnone] at out
    cases out
  | placing parcels current some out untold cause =>
    rw [hnone] at out
    exact absurd (List.map_eq_nil_iff.mp out.symm) some
  | overtaken parcels older out untold cause => exact .inl ⟨untold, cause⟩
  | ended ending out told cause => exact .inr ⟨ending, told, cause⟩

theorem fate_at_rest {uri : Uri} (possible : (opening profile root delay).Possible past)
    (alive : ((opening profile root delay).after past).checker.runs.disposed = false)
    (rest : ((opening profile root delay).after past).errands = [])
    (started : .started token uri ∈ ((opening profile root delay).after past).events) :
    Fate (opening profile root delay) past token := by
  have hb := booked_of_alive possible alive
  obtain ⟨hpos, hle⟩ := hb.started.mp ⟨uri, started⟩
  have hcourse := course_at_rest rest (hb.course token hpos hle)
  have hcame : ∀ e ∈ ((opening profile root delay).after past).events, e.ends token = true →
      CameTo (opening profile root delay) past token e := by
    intro e he hends
    have hmem : e ∈ ((opening profile root delay).after past).endingsOf token :=
      List.mem_filter.mpr ⟨he, hends⟩
    rcases hcourse with ⟨huntold, _⟩ | ⟨ending, htold, hcause⟩
    · rw [huntold] at hmem
      cases hmem
    · rw [htold] at hmem
      rw [List.mem_singleton.mp hmem]
      exact hcause
  refine ⟨⟨?_, ?_⟩, ⟨?_, told_of_outlived possible alive⟩, ?_⟩
  · intro huntold
    rcases hcourse with ⟨_, hovertaken⟩ | ⟨ending, htold, _⟩
    · exact hovertaken
    · have hmem : ending ∈ ((opening profile root delay).after past).endingsOf token := by simp [htold]
      obtain ⟨he, hends⟩ := List.mem_filter.mp hmem
      rw [huntold ending he] at hends
      cases hends
  · intro hovertaken e he
    have huntold := untold_of_overtaken possible alive hovertaken
    exact Bool.eq_false_iff.mpr (List.filter_eq_nil_iff.mp huntold e he)
  · intro hmem
    exact hcame _ hmem (decide_eq_true rfl)
  · intro cause
    refine ⟨?_, told_of_broken possible alive⟩
    intro hmem
    exact hcame _ hmem (decide_eq_true rfl)

/-! ## 3. The ledger -/

/-- A document is written only when an answer comes. -/
theorem answered_of_told {h : Happening} (possible : (opening profile root delay).Possible (past ++ [h]))
    {uri : Uri} {count : Nat} (htold : .published uri count ∈ ((opening profile root delay).after past).told h) :
    ∃ a, h = .answer h.run a ∧ a.uri = uri := by
  obtain ⟨hpast, hcan, _⟩ := possible_append.mp possible
  rcases (kept_and_booked hpast).2 with hb | he
  · by_cases hdisposal : h = .disposal
    · subst hdisposal
      cases htold
    · cases hb.telling (hb.live.outcome hcan hdisposal) with
      | silent token told =>
        rw [told] at htold
        cases htold
      | start uri' token told =>
        rw [told] at htold
        cases List.mem_singleton.mp htold
      | ending e token told ends born old untold =>
        rw [told] at htold
        rw [← List.mem_singleton.mp htold] at ends
        cases ends
      | writing a count' settled token met told born untold =>
        subst met
        rw [told] at htold
        rcases List.mem_cons.mp htold with heq | htold
        · cases heq
          exact ⟨a, rfl, rfl⟩
        · cases settled <;> simp at htold
  · rw [told_of_ended he] at htold
    cases htold

structure Ledger (start : Bench) (past : List Happening) : Prop where
  /-- The tale is that of the events, … -/
  events : (start.tale past).map Report.event = (start.after past).events
  /-- … each with the run that it names, … -/
  named : ∀ r ∈ start.tale past, ∀ token, r.event.token? = some token → r.run = token
  /-- … or with the run whose answer was written. -/
  answered : ∀ r ∈ start.tale past, ∀ uri count, r.event = .published uri count →
    ∃ a, .answer r.run a ∈ past ∧ a.uri = uri
  /-- The runs are numbered in the order in which they start. -/
  numbered : ∃ n, (start.after past).events.filterMap Event.start? = List.range' 1 n
  /-- Whatever else is told is about a run that has started. -/
  begun : ∀ before r rest, start.tale past = before ++ r :: rest → r.event.isStart = false →
    ∃ uri, ⟨r.run, .started r.run uri⟩ ∈ before
  /-- No document of a run is reported after its settlement or after the start of a newer run. -/
  inside : (start.tale past).Pairwise Report.Inside
  /-- No run ends twice. -/
  once : (start.tale past).Pairwise Report.Apart
  /-- When everything has come back, the ending of a run says what became of it. -/
  rest : (start.after past).checker.runs.disposed = false → (start.after past).errands = [] →
    ∀ token uri, .started token uri ∈ (start.after past).events → Fate start past token

/-- **The events of a checker can be counted on**, after every possible history. -/
theorem ledger_exact (possible : (opening profile root delay).Possible past) :
    Ledger (opening profile root delay) past := by
  have hk := (kept_and_booked possible).1
  refine ⟨tale_events profile root delay past, fun r hr token => run_of_mem_tale hr, ?_, ?_, hk.begun,
    hk.inside, hk.once, ?_⟩
  · intro r hr uri count hevent
    obtain ⟨before, h, later, rfl, e, he, rfl⟩ := mem_tale hr
    obtain rfl : e = .published uri count := hevent
    rw [List.append_cons] at possible
    obtain ⟨a, hanswer, huri⟩ := answered_of_told (possible_append.mp possible).1 he
    exact ⟨a, hanswer ▸ List.mem_append_right _ List.mem_cons_self, huri⟩
  · rw [← tale_events]
    exact hk.numbered
  · intro alive hnone token uri hstarted
    exact fate_at_rest possible alive hnone hstarted

/-! ### Runs that overlap -/

/-- The first run is overtaken while its parcel is out, the second one finishes too late, the third
comes to nothing and the fourth is settled. -/
def fourRuns : List Happening :=
  [.trigger sampleDocument, .expiry 1 sampleDocument,
    .output 1 sampleDocument [sampleFinding "<stdin>"],
    .trigger sampleDocument, .expiry 2 sampleDocument,
    .answer 1 ⟨sampleParcel, none⟩,
    .trigger sampleDocument, .expiry 3 sampleDocument,
    .output 2 sampleDocument [sampleFinding "<stdin>"],
    .failure 3 sampleDocument (.notFound "check"),
    .trigger sampleDocument, .expiry 4 sampleDocument,
    .output 4 sampleDocument [sampleFinding "<stdin>"],
    .answer 4 ⟨sampleParcel, none⟩]

theorem ledger_exact_overlapping :
    sample.Possible fourRuns ∧ (sample.after fourRuns).checker.runs.disposed = false
      ∧ (sample.after fourRuns).errands = [] ∧ Ledger sample fourRuns :=
  ⟨by decide, by decide, by decide, ledger_exact (by decide)⟩

example : (sample.tale fourRuns).map Report.event
    = [.started 1 sampleDocument.uri, .started 2 sampleDocument.uri, .started 3 sampleDocument.uri,
      .discarded 2, .failed 3 (.notFound "check"), .started 4 sampleDocument.uri,
      .published sampleDocument.uri 1, .settled 4] := by decide

end Bench

end SyntaxWatch
