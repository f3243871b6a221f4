import SyntaxWatch.Proofs.Checker.Invariant

/-!
# The accounts of a run

From the moment its output is taken in until something newer comes, a run keeps accounts: how many
files are left to write, who was sent out for them, who has answered, and what has been told.
`Settlement` says that these accounts agree at every moment. The counter is the number of parcels
out, every parcel is out or answered and never both, and the run is told to be settled once, when
nothing is out any more.

The counter goes down in two places, for the groups passed over inside the loop and for the answers
later on. Subtraction stops at zero, so that a step too many would not be seen; `loop` and `counted`
say that neither place ever takes one from nothing.
-/

set_option autoImplicit false

namespace SyntaxWatch

/-! ## 1. Groups -/

namespace Findings

theorem ofList_nonempty (printed : List Finding) : ∀ group ∈ (ofList printed).groups, group.2 ≠ [] := by
  have hpush : ∀ (fs : Findings) (f : Finding), (∀ group ∈ fs.groups, group.2 ≠ []) →
      ∀ group ∈ (fs.push f).groups, group.2 ≠ [] := by
    intro fs f hfs group hgroup
    unfold push at hgroup
    split at hgroup
    · rename_i i _
      obtain ⟨j, hj, rfl⟩ := List.mem_iff_getElem.mp hgroup
      rw [List.getElem_modify]
      split
      · simp
      · exact hfs _ (List.getElem_mem _)
    · rcases List.mem_append.mp hgroup with hgroup | hgroup
      · exact hfs group hgroup
      · rw [List.mem_singleton.mp hgroup]
        simp
  have hfrom : ∀ (later : List Finding) (fs : Findings), (∀ group ∈ fs.groups, group.2 ≠ []) →
      ∀ group ∈ (later.foldl push fs).groups, group.2 ≠ [] := by
    intro later
    induction later with
    | nil => exact fun fs hfs => hfs
    | cons f later ih => exact fun fs hfs => ih (fs.push f) (hpush fs f hfs)
  exact hfrom printed empty nofun

end Findings

namespace Bench

/-! ## 2. A run that stays the current one -/

variable {start b : Bench} {token : Nat} {document : DocumentRef} {printed : List Finding}
  {before later : List Happening}

/-- A run that counts at two moments counts at every moment between them. -/
theorem counts_between {s t u : Checker} (hst : Checker.Later s t) (htu : Checker.Later t u)
    (hs : s.runs.counts token = true) (hu : u.runs.counts token = true) : t.runs.counts token = true := by
  obtain ⟨_, hs⟩ := RunState.counts_iff.mp hs
  obtain ⟨halive, hu⟩ := RunState.counts_iff.mp hu
  have hle := hst.token
  have hge := htu.token
  have hdisposed : t.runs.disposed = false := by
    rw [← Bool.not_eq_true]
    intro h
    rw [htu.disposed h] at halive
    cases halive
  exact RunState.counts_iff.mpr ⟨hdisposed, by omega⟩

/-- **A run that is placing its parcels goes on placing them**, whatever comes, as long as it is the
current one. -/
theorem placing_after {sent : List Parcel} {answers : List Answer} (ho : b.Orderly)
    (hp : b.currentRun.Placing b.checker.name document sent answers) (possible : b.Possible later)
    (current : (b.after later).checker.runs.counts b.token = true) :
    (b.after later).Orderly ∧ (b.after later).currentRun.Placing b.checker.name document sent
      (answers ++ Happening.answersTo b.token later) := by
  induction later generalizing b answers with
  | nil =>
    rw [show Happening.answersTo b.token [] = [] from rfl, List.append_nil]
    exact ⟨ho, hp⟩
  | cons h later ih =>
    have hcounts : (b.meet h).checker.runs.counts b.token = true :=
      counts_between (Checker.meet_later h) (after_later (b.meet h) later)
        (RunState.counts_iff.mpr ⟨ho.alive, rfl⟩) current
    have htoken : (b.meet h).token = b.token := (RunState.counts_iff.mp hcounts).2.symm
    have hname : (b.meet h).checker.name = b.checker.name := (Checker.meet_later h).name
    have hnoProcess : ∀ d, .process b.token d ∉ b.errands := by
      intro d hout
      have hmem := mem_processes hout
      rw [hp.processes] at hmem
      cases hmem
    rw [← htoken] at current
    by_cases haside : h.IsAside b.checker.runs
    · obtain ⟨horderly, hview⟩ := ho.meet_aside possible.1 haside
      rw [← hname, ← hview] at hp
      have hrest := ih horderly hp possible.2 current
      rw [htoken, hname] at hrest
      rwa [show Happening.answersTo b.token (h :: later) = Happening.answersTo b.token later by
        cases h with
        | answer t a => simp [Happening.answersTo, Happening.answer?, show t ≠ b.token from haside]
        | _ => rfl]
    · cases h with
      | trigger document => exact absurd trivial haside
      | expiry seq d =>
        -- this would start a new run
        have hnext := Checker.meet_expiry ho.alive d (Decidable.not_not.mp haside)
        unfold token at htoken
        rw [meet_checker, hnext] at htoken
        exact absurd htoken (Nat.succ_ne_self _)
      | output t d found =>
        obtain rfl : t = b.token := Decidable.not_not.mp haside
        exact absurd possible.1 (hnoProcess d)
      | failure t d cause =>
        obtain rfl : t = b.token := Decidable.not_not.mp haside
        exact absurd possible.1 (hnoProcess d)
      | death t d =>
        obtain rfl : t = b.token := Decidable.not_not.mp haside
        exact absurd possible.1 (hnoProcess d)
      | answer t a =>
        obtain rfl : t = b.token := Decidable.not_not.mp haside
        have hplacing := placing_of_answer ho hp possible.1
        rw [← hname] at hplacing
        have hrest := ih (ho.meet_answer hp possible.1) hplacing possible.2 current
        rw [htoken, hname, List.append_assoc] at hrest
        rwa [show Happening.answersTo b.token (.answer b.token a :: later)
            = [a] ++ Happening.answersTo b.token later by
          simp [Happening.answersTo, Happening.answer?]]
      | disposal => cases (RunState.counts_iff.mp hcounts).1

theorem placing_from_output (ho : b.Orderly) (hw : b.currentRun.Waiting b.checker.name document)
    (possible : (b.meet (.output b.token document printed)).Possible later)
    (current : (b.after (.output b.token document printed :: later)).checker.runs.counts b.token = true) :
    (b.after (.output b.token document printed :: later)).Orderly
      ∧ (b.after (.output b.token document printed :: later)).currentRun.Placing b.checker.name document
          (Parcel.ofPrinted b.checker.root document.uri printed) (Happening.answersTo b.token later) := by
  have hname : (b.meet (.output b.token document printed)).checker.name = b.checker.name :=
    (Checker.meet_later (.output b.token document printed)).name
  have htoken := token_of_output ho hw printed
  have hplacing := placing_of_output ho hw printed
  rw [← hname] at hplacing
  have hrest := placing_after (ho.meet_output hw printed) hplacing possible (htoken.symm ▸ current)
  rw [hname, htoken, List.nil_append] at hrest
  exact hrest

/-! ## 3. The accounts -/

/-- What a run, whose output came after `before`, has to account for when this has come `later`. -/
structure Settlement (start : Bench) (before : List Happening) (token : Nat) (document : DocumentRef)
    (printed : List Finding) (later : List Happening) (b : Bench) : Prop where
  /-- One lookup has been asked for every group whose path leads somewhere, in the order of the
  groups. -/
  asked : b.sent.filterMap (Errand.parcel? token) = Parcel.ofPrinted start.checker.root document.uri printed
  /-- Every parcel is either answered or out, as often as it was asked for. -/
  accounted : ((Happening.answersTo token later).map Answer.parcel
    ++ b.errands.filterMap (Errand.parcel? token)).Perm
      (Parcel.ofPrinted start.checker.root document.uri printed)
  /-- The counter is the number of lookups out. -/
  unwritten : b.checker.runs.unwritten = (b.errands.filterMap (Errand.parcel? token)).length
  /-- Inside the loop over the groups, the counter is the number of lookups asked for so far and of
  groups that are left, so it is not zero when one of these is passed over. -/
  loop : ∀ done left, (Findings.ofList printed).groups = done ++ left →
    (((start.after before).checker.awaiting token (Findings.ofList printed).fileCount).sendGroups token
        document.uri done).1.runs.unwritten
      = (Parcel.ofGroups start.checker.root document.uri done).length + left.length
  /-- It was not zero either when an answer came. -/
  counted : ∀ earlier a rest, later = earlier ++ .answer token a :: rest →
    0 < (start.after (before ++ .output token document printed :: earlier)).checker.runs.unwritten
  /-- Since its start, every answer has been told once, with the number of its findings; and once
  the settlement, if nothing is out any more, and only then. Before its start nothing was told of
  it. -/
  told : ∃ earlier since, b.events = earlier ++ .started token document.uri :: since
    ∧ (∀ e ∈ earlier, e.token? ≠ some token)
    ∧ since.filter (Event.concerns token)
      = (Happening.answersTo token later).map Answer.published
        ++ if b.errands.filterMap (Errand.parcel? token) = [] then [.settled token] else []
  /-- No parcel is without findings. -/
  findings : ∀ p ∈ Parcel.ofPrinted start.checker.root document.uri printed, 1 ≤ p.findings.length
  /-- A document is held with what the last answer for it brought. -/
  entries : ∀ entry, entry ∈ b.checker.collection.entries ↔
    ∃ earlier a rest, Happening.answersTo token later = earlier ++ a :: rest
      ∧ entry = (a.uri, a.diagnostics start.checker.name) ∧ ∀ x ∈ rest, x.uri ≠ a.uri
  /-- No document is held twice. -/
  keysOnce : (b.checker.collection.entries.map Prod.fst).Nodup
  /-- When nothing is out any more, the documents held are those to which the paths lead. -/
  keys : b.errands.filterMap (Errand.parcel? token) = [] →
    ∀ uri, uri ∈ b.checker.collection.entries.map Prod.fst ↔
      ∃ group ∈ (Findings.ofList printed).groups, ∃ target,
        Target.resolve start.checker.root document.uri group.1 = .ok target ∧ target.uri = uri

/-! ## 4. Accounts that agree -/

section Placing

variable {sent : List Parcel} {answers : List Answer} {source : String}
  (hp : b.currentRun.Placing source document sent answers)

include hp

theorem told_since (ho : b.Orderly) :
    ∃ earlier since, b.events = earlier ++ .started b.token document.uri :: since
      ∧ (∀ e ∈ earlier, e.token? ≠ some b.token)
      ∧ since.filter (Event.concerns b.token) = answers.map Answer.published
        ++ if b.currentRun.parcels = [] then [.settled b.token] else [] := by
  have htold : (Event.pages b.events).2.filter (Event.concerns b.token) = _ := hp.told
  have hstart : .started b.token document.uri ∈ (Event.pages b.events).2 := by
    have hmem : .started b.token document.uri ∈ b.currentRun.told := by
      rw [hp.told]
      exact List.mem_append_left _ List.mem_cons_self
    exact (List.mem_filter.mp hmem).1
  obtain ⟨since, hevents, _⟩ := Event.latest_start hstart rfl
  refine ⟨(Event.pages b.events).1, since, hevents, ?_, ?_⟩
  · intro e he htoken
    exact Nat.lt_irrefl _ (ho.earlier e he b.token htoken)
  · have hpage : (Event.pages b.events).2 = .started b.token document.uri :: since :=
      List.append_cancel_left ((Event.pages_join b.events).trans hevents)
    rw [hpage, List.filter_cons_of_pos (by simp [Event.concerns, Event.token?])] at htold
    exact List.tail_eq_of_cons_eq htold

theorem sent_of_answer {a : Answer} (ha : a ∈ answers) : a.parcel ∈ sent :=
  hp.parcels.subset (List.mem_append_left _ (List.mem_map_of_mem ha))

theorem answered_of_sent (hnone : b.currentRun.parcels = []) {parcel : Parcel} (hparcel : parcel ∈ sent) :
    ∃ a ∈ answers, a.parcel = parcel := by
  have hperm := hp.parcels
  rw [hnone, List.append_nil] at hperm
  exact List.mem_map.mp (hperm.symm.subset hparcel)

end Placing

/-- Whoever is placing parcels has accounts that agree, as far as its view shows them. What is left
over is the counter at the moments before. -/
theorem Settlement.of_placing {start b : Bench}
    (hp : b.currentRun.Placing start.checker.name document
      (Parcel.ofPrinted start.checker.root document.uri printed) (Happening.answersTo token later))
    (ho : b.Orderly) (htoken : token = b.token)
    (loop : ∀ done left, (Findings.ofList printed).groups = done ++ left →
      (((start.after before).checker.awaiting token (Findings.ofList printed).fileCount).sendGroups token
          document.uri done).1.runs.unwritten
        = (Parcel.ofGroups start.checker.root document.uri done).length + left.length)
    (counted : ∀ earlier a rest, later = earlier ++ .answer token a :: rest →
      0 < (start.after (before ++ .output token document printed :: earlier)).checker.runs.unwritten) :
    Settlement start before token document printed later b := by
  subst htoken
  have hnonempty : ∀ p ∈ Parcel.ofPrinted start.checker.root document.uri printed, p.findings ≠ [] := by
    intro p hparcel
    obtain ⟨group, hgroup, _, hfindings⟩ := Parcel.mem_ofPrinted.mp hparcel
    rw [hfindings]
    exact Findings.ofList_nonempty printed group hgroup
  have hanswered : ∀ a ∈ Happening.answersTo b.token later, a.parcel.findings ≠ [] := by
    intro a ha
    exact hnonempty a.parcel (sent_of_answer hp ha)
  have hcollection : b.checker.collection = Answer.written start.checker.name
      (Happening.answersTo b.token later) := hp.collection
  refine ⟨hp.asked, hp.parcels, hp.unwritten, loop, counted, told_since hp ho, ?_, ?_, ?_, ?_⟩
  · intro p hparcel
    exact List.length_pos_iff.mpr (hnonempty p hparcel)
  · intro entry
    rw [hcollection, Answer.mem_written]
    constructor
    · rintro ⟨earlier, a, rest, hanswers, _, hentry, hlast⟩
      exact ⟨earlier, a, rest, hanswers, hentry, hlast⟩
    · rintro ⟨earlier, a, rest, hanswers, hentry, hlast⟩
      exact ⟨earlier, a, rest, hanswers, hanswered a (by simp [hanswers]), hentry, hlast⟩
  · rw [hcollection]
    exact Answer.written_keys_nodup _ _
  · intro hnone uri
    rw [hcollection, Answer.mem_keys_written hanswered]
    constructor
    · rintro ⟨a, ha, rfl⟩
      obtain ⟨group, hgroup, htarget, _⟩ := Parcel.mem_ofPrinted.mp (sent_of_answer hp ha)
      exact ⟨group, hgroup, a.parcel.target, htarget, rfl⟩
    · rintro ⟨group, hgroup, target, htarget, rfl⟩
      have hparcel : ⟨target, group.2⟩ ∈ Parcel.ofPrinted start.checker.root document.uri printed :=
        Parcel.mem_ofPrinted.mpr ⟨group, hgroup, htarget, rfl⟩
      obtain ⟨a, ha, hof⟩ := answered_of_sent hp hnone hparcel
      refine ⟨a, ha, ?_⟩
      unfold Answer.uri
      rw [hof]

/-! ## 5. From the history -/

section Accepted

variable {profile : CheckerProfile} {root : Path} {delay : Nat}
  (possible : (opening profile root delay).Possible (before ++ .output token document printed :: later))
  (accepted : ((opening profile root delay).after before).checker.runs.counts token = true)
  (current : ((opening profile root delay).after
    (before ++ .output token document printed :: later)).checker.runs.counts token = true)

include possible accepted

theorem waiting_of_accepted :
    Live (opening profile root delay) before ((opening profile root delay).after before)
      ∧ token = ((opening profile root delay).after before).token
      ∧ ((opening profile root delay).after before).currentRun.Waiting
          ((opening profile root delay).after before).checker.name document := by
  obtain ⟨hbefore, hcan, _⟩ := possible_append.mp possible
  rcases live_or_ended hbefore with hl | he
  · obtain ⟨_, rfl⟩ := RunState.counts_iff.mp accepted
    exact ⟨hl, rfl, hl.waiting hcan⟩
  · rw [RunState.counts_iff, he.disposed] at accepted
    cases accepted.1

include current

theorem placing_of_accepted :
    ((opening profile root delay).after (before ++ .output token document printed :: later)).Orderly
      ∧ ((opening profile root delay).after
          (before ++ .output token document printed :: later)).currentRun.Placing profile.displayName
            document (Parcel.ofPrinted root document.uri printed) (Happening.answersTo token later) := by
  obtain ⟨hl, rfl, hwaiting⟩ := waiting_of_accepted possible accepted
  have hsame := after_later (opening profile root delay) before
  rw [after_append] at current ⊢
  have hplacing := placing_from_output hl.orderly hwaiting (possible_append.mp possible).2.2 current
  rw [hsame.name, hsame.root] at hplacing
  exact hplacing

/-- The counter was not zero when an answer came, since its parcel was still out. -/
theorem unwritten_pos_of_answer {earlier rest : List Happening} {a : Answer}
    (hsplit : later = earlier ++ .answer token a :: rest) :
    0 < ((opening profile root delay).after
      (before ++ .output token document printed :: earlier)).checker.runs.unwritten := by
  have hpast : before ++ .output token document printed :: later
      = (before ++ .output token document printed :: earlier) ++ .answer token a :: rest := by
    rw [hsplit, List.append_assoc, List.cons_append]
  rw [hpast] at possible current
  obtain ⟨hearlier, hcan, _⟩ := possible_append.mp possible
  have hthen : ((opening profile root delay).after
      (before ++ .output token document printed :: earlier)).checker.runs.counts token = true := by
    rw [after_append] at current
    rw [after_append] at current ⊢
    exact counts_between (after_later _ _) (after_later _ _) accepted current
  obtain ⟨_, hp⟩ := placing_of_accepted hearlier accepted hthen
  obtain ⟨_, htoken⟩ := RunState.counts_iff.mp hthen
  have hunwritten := hp.unwritten_of_mem (mem_parcels hcan htoken)
  exact Nat.lt_of_lt_of_eq (Nat.succ_pos _) hunwritten.symm

/-- **Settlement is exact.** From the moment its output is taken in, and as long as nothing newer
has come, the accounts of a run agree after every possible history. -/
theorem settlement_exact :
    Settlement (opening profile root delay) before token document printed later
      ((opening profile root delay).after (before ++ .output token document printed :: later)) := by
  obtain ⟨ho, hp⟩ := placing_of_accepted possible accepted current
  obtain ⟨_, htoken⟩ := RunState.counts_iff.mp current
  refine .of_placing hp ho htoken ?_ ?_
  · intro done left hsplit
    obtain ⟨hl, rfl, hwaiting⟩ := waiting_of_accepted possible accepted
    have hloop := Checker.unwritten_inside_loop hl.orderly.alive hwaiting.running document.uri hsplit
    rw [(after_later (opening profile root delay) before).root] at hloop
    exact hloop
  · intro earlier a rest hsplit
    exact unwritten_pos_of_answer possible accepted current hsplit

end Accepted

/-! ### A run with a path that leads nowhere -/

/-- A bench whose root is no absolute path, so that relative paths lead nowhere. -/
def adrift : Bench := opening ⟨"check", "Check", [], ["c"]⟩ (Path.ofText "w") 500

def mixed : List Finding := [sampleFinding "<stdin>", sampleFinding "b.c", sampleFinding "/w/a.c"]

def spelledParcel : Parcel := ⟨⟨sampleDocument.uri, false⟩, [sampleFinding "/w/a.c"]⟩

def beforeMixed : List Happening :=
  [.trigger sampleDocument, .expiry 1 sampleDocument, .output 1 sampleDocument [sampleFinding "<stdin>"],
    .trigger sampleDocument, .expiry 2 sampleDocument]

/-- The older run is answered in between. -/
def afterMixed : List Happening :=
  [.answer 2 ⟨spelledParcel, none⟩, .answer 1 ⟨sampleParcel, none⟩, .answer 2 ⟨sampleParcel, none⟩]

theorem settlement_exact_mixed :
    adrift.Possible (beforeMixed ++ .output 2 sampleDocument mixed :: afterMixed)
      ∧ (adrift.after beforeMixed).checker.runs.counts 2 = true
      ∧ (adrift.after (beforeMixed ++ .output 2 sampleDocument mixed :: afterMixed)).checker.runs.counts 2
          = true
      ∧ Settlement adrift beforeMixed 2 sampleDocument mixed afterMixed
          (adrift.after (beforeMixed ++ .output 2 sampleDocument mixed :: afterMixed)) :=
  ⟨by decide, by decide, by decide, settlement_exact (by decide) (by decide) (by decide)⟩

end Bench

end SyntaxWatch
