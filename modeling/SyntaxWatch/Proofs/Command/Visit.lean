import SyntaxWatch.Proofs.Command.Rounds
import SyntaxWatch.Proofs.Results.Copying
import SyntaxWatch.Proofs.Uri.FileName

/-!
# One file of a pass

A desk that is `Ready` has nothing under way: all its checkers are at rest, and all are of its present
configuration. Checking a file makes it so again. In between, every checker that handles the file's
language has run on it once and to the end, and every other one has not moved (`Ready.checkFile`).
-/

set_option autoImplicit false

namespace SyntaxWatch

/-! ## 1. The announcement -/

theorem Feed.afterBurst_one {capacity : Nat} (hroom : 0 < capacity) (document : DocumentRef) :
    afterBurst capacity [document] = [document] := by
  have hall : 1 - capacity = 0 := by omega
  show List.drop (1 - capacity) [document] = _
  rw [hall]
  rfl

/-- A call to a checker at rest starts its one timer. -/
theorem Engine.deliver_call {e : Engine} {i : Nat} {c : Checker} (hc : e.checkers[i]? = some c) (hrest : c.AtRest)
    (hnone : ∀ t ∈ e.timers, t.checker ≠ i) (document : DocumentRef) :
    (e.deliver i (.trigger document)).1
      = { e with
          checkers := e.checkers.set i c.called
          timers := e.timers
            ++ [⟨i, c.runs.armings + 1, document, e.now + Nat.min c.called.delay timerLimit⟩] } := by
  have hstep : c.step (.trigger document) = (c.called, [.startTimer (c.runs.armings + 1) document]) :=
    Checker.step_call hrest
  have hothers : e.timers.filter (fun t => t.checker ≠ i) = e.timers :=
    List.filter_eq_self.mpr fun t ht => decide_eq_true (hnone t ht)
  rw [deliver_of_some hc, hstep]
  exact congrArg (fun timers : List Timer =>
    { e with
      checkers := e.checkers.set i c.called
      timers := timers ++ [Timer.mk i (c.runs.armings + 1) document
        (e.now + Nat.min c.called.delay timerLimit)] }) hothers

namespace Desk

section Waiting

variable {base : List Checker} {who : List Nat} {document : DocumentRef} {w : Workspace} {d : Desk}
  {agenda : List (Nat × Return)} {i : Nat}

/-- Whoever has not heard the call yet stands as before, and has nothing else under way. -/
theorem Waiting.of_call (hd : Waiting base who document w d ((i, .call document) :: agenda)) :
    ∃ c, base[i]? = some c ∧ d.engine.checkers[i]? = some c ∧ c.AtRest
      ∧ jobsOf (d.underWay ((i, .call document) :: agenda)) i = [.call document] := by
  have hmem := mem_underWay d (i, .call document) agenda
  obtain ⟨b, c, hb, hc, _, hrest, hh⟩ := hd.service.of_mem hmem
  obtain ⟨rfl, hjobs⟩ := hh.of_call (mem_jobsOf.mpr hmem)
  exact ⟨c, hb, hc, hrest, hjobs⟩

/-- **A call starts a timer** and nothing else. -/
theorem Waiting.call (hd : Waiting base who document w d ((i, .call document) :: agenda)) :
    Waiting base who document w { d with engine := (d.engine.deliver i (.trigger document)).1 } agenda := by
  have hmem := mem_underWay d (i, .call document) agenda
  obtain ⟨c, _, hc, hrest, hjobs⟩ := hd.of_call
  obtain ⟨hnext, _⟩ := hd.service.step hmem hc
  have hbusy := hd.service.busy_step hmem hc
  rw [show c.step (Return.input c.name (.call document)) = (c.called, [.startTimer (c.runs.armings + 1) document])
    from Checker.step_call hrest] at hnext hbusy
  have hnone : ∀ t ∈ d.engine.timers, t.checker ≠ i := by
    rintro t ht rfl
    have htimer : Job.timer t.seq t.document
        ∈ jobsOf (d.underWay ((t.checker, .call document) :: agenda)) t.checker :=
      mem_jobsOf.mpr (List.mem_append_left _ (List.mem_append_left _ (List.mem_map_of_mem ht)))
    rw [hjobs] at htimer
    cases List.mem_singleton.mp htimer
  rw [Engine.deliver_call hc hrest hnone]
  have hperm := (erase_underWay d (i, .call document) agenda).append_right
    [(i, .timer (c.runs.armings + 1) document)]
  have hmoved : (jobsAfter (d.underWay ((i, .call document) :: agenda)) i (.call document)
      [.startTimer (c.runs.armings + 1) document]).Perm
      ((d.engine.timers ++ [Timer.mk i (c.runs.armings + 1) document
          (d.engine.now + Nat.min c.called.delay Engine.timerLimit)]).map Timer.job
        ++ d.processes.map Process.job ++ agenda.map Return.origin) := by
    refine hperm.trans ?_
    unfold underWay
    rw [List.map_append, List.append_assoc, List.append_assoc, List.append_assoc, List.append_assoc]
    refine .append_left _ ?_
    rw [← List.append_assoc]
    exact List.perm_append_comm
  refine ⟨hnext.perm hmoved, hd.sound, fun name => ?_, hd.events, hd.roll, hd.feed, hd.workspace⟩
  rw [hd.counted, ← hbusy]
  exact busyNamed_perm _ hmoved name

/-- **The announcement reaches everybody who is called**, and nobody else. -/
theorem Waiting.announce {all : List Nat}
    (called : ∀ i b, base[i]? = some b → (i ∈ who ↔ b.profile.covers document.language = true))
    (hd : Waiting base who document w d ((all.filter (· ∈ who)).map fun i => (i, .call document))) :
    Waiting base who document w { d with
      engine := all.foldl
        (fun e i => (Feed.afterBurst e.feedCapacity [document]).foldl (fun e document => e.triggerOne document i) e)
        d.engine } [] := by
  induction all generalizing d with
  | nil => exact hd
  | cons i all ih =>
    have hone : (Feed.afterBurst d.engine.feedCapacity [document]).foldl
        (fun e document => e.triggerOne document i) d.engine = d.engine.triggerOne document i := by
      rw [Feed.afterBurst_one hd.feed]
      rfl
    rw [List.foldl_cons, hone]
    unfold Engine.triggerOne
    by_cases hi : i ∈ who
    · rw [List.filter_cons_of_pos (by simpa using hi), List.map_cons] at hd
      obtain ⟨c, hb, hc, _⟩ := hd.of_call
      rw [hc]
      dsimp only
      rw [if_pos ((called i c hb).mp hi)]
      exact ih hd.call
    · rw [List.filter_cons_of_neg (by simpa using hi)] at hd
      have hsame := (hd.service.others i hi).1
      cases hc : d.engine.checkers[i]? with
      | none => exact ih hd
      | some c =>
        dsimp only
        rw [if_neg fun hcovers => hi ((called i c (hsame.symm.trans hc)).mpr hcovers)]
        exact ih hd

end Waiting

/-! ## 2. A desk at rest -/

/-- Nothing is under way, and everybody is there for the next file. -/
structure Ready (d : Desk) : Prop where
  roll : d.engine.enrolled = List.range d.engine.checkers.length
  rested : ∀ c ∈ d.engine.checkers, c.AtRest
  tidy : ∀ c ∈ d.engine.checkers, c.collection.Tidy
  timers : d.engine.timers = []
  processes : d.processes = []
  events : d.engine.events = .empty Engine.eventCapacity
  feed : 0 < d.engine.feedCapacity
  faithful : d.workspace.Faithful

variable {d e : Desk} {p : Path} {collected : Results} {i : Nat} {b : Checker}

theorem Ready.live (hd : d.Ready) : d.engine.liveCollections = d.engine.collections := by
  unfold Engine.liveCollections
  rw [List.filter_eq_self]
  intro k hk
  obtain ⟨c, hc, rfl⟩ := List.mem_map.mp hk
  rw [(hd.rested c hc).isOpen.disposed]
  rfl

/-- The checkers that an announcement calls are those that handle its language. -/
theorem Ready.mem_covering (hd : d.Ready) {language : String} (hb : d.engine.checkers[i]? = some b) :
    i ∈ d.engine.covering language ↔ b.profile.covers language = true := by
  unfold Engine.covering
  rw [List.mem_filter, hd.roll, List.mem_range, hb]
  exact and_iff_right (List.getElem?_eq_some_iff.mp hb).1

/-- Nothing is counted for a file only if no checker handles its language. -/
theorem Ready.not_covered (hd : d.Ready) {language : String} (hnone : Pending.ofCheckers d.engine.present language = [])
    (hb : d.engine.checkers[i]? = some b) : b.profile.covers language = false := by
  have hzero := (Pending.ofCheckers_sound _ _).eq_nil_iff.mp hnone b.name
  have hthere : i ∈ d.engine.enrolled := by
    rw [hd.roll, List.mem_range]
    exact (List.getElem?_eq_some_iff.mp hb).1
  have hpresent : b ∈ d.engine.present := List.mem_filterMap.mpr ⟨i, hthere, hb⟩
  rw [Pending.count_ofCheckers, List.countP_eq_zero] at hzero
  simpa using hzero b hpresent

/-- **A file that is opened is announced to everybody who handles it**, and all of them are counted. -/
theorem Ready.open? (hd : d.Ready)
    (hopen : { d with pending := Pending.ofCheckers d.engine.present (d.workspace.languageOf p) }.open? p = .ok e) :
    ∃ document next, d.workspace.Loaded p next document
      ∧ Waiting d.engine.checkers (d.engine.covering document.language) document next e [] := by
  unfold Desk.open? at hopen
  obtain ⟨⟨next, document⟩, hload, hopened⟩ : ∃ r, d.workspace.load d.files p = .ok r ∧ _ = e := by
    cases hload : d.workspace.load d.files p with
    | error cause =>
      rw [hload] at hopen
      cases hopen
    | ok r =>
      rw [hload] at hopen
      exact ⟨r, rfl, Except.ok.inj hopen⟩
  have hloaded := hd.faithful.load hload
  refine ⟨document, next, hloaded, ?_⟩
  rw [← hopened]
  have hwho : ∀ i b, d.engine.checkers[i]? = some b →
      (i ∈ d.engine.covering document.language ↔ b.profile.covers document.language = true) :=
    fun i b hb => hd.mem_covering hb
  have hcalled : d.engine.enrolled.filter (fun i => decide (i ∈ d.engine.covering document.language))
      = d.engine.covering document.language := by
    refine List.filter_congr fun i hi => ?_
    unfold Engine.covering
    simp [List.mem_filter, hi]
  have hcalls : ({ d with
      pending := Pending.ofCheckers d.engine.present (d.workspace.languageOf p)
      workspace := next } : Desk).underWay
        ((d.engine.covering document.language).map fun i => (i, .call document))
      = (d.engine.covering document.language).map fun i => (i, .call document) := by
    unfold underWay
    rw [hd.timers, hd.processes, List.map_map]
    rfl
  refine Waiting.announce (d := { d with
    pending := Pending.ofCheckers d.engine.present (d.workspace.languageOf p)
    workspace := next }) hwho ⟨?_, Pending.ofCheckers_sound _ _, fun name => ?_, hd.events, hd.roll, hd.feed, rfl⟩
  · rw [hcalled, hcalls]
    exact Service.announced hd.rested (Engine.covering_nodup hd.roll _) (Engine.lt_of_covering hd.roll)
  · rw [hcalled, hcalls, Engine.busyNamed_called hd.roll, hloaded.spoken]
    exact Pending.count_ofCheckers _ _ name

/-! ## 3. From one file to the next -/

theorem tidy_of_brought {document : DocumentRef} {collection : Collection} (hb : b.Brought document collection) :
    collection.Tidy := by
  cases hb with
  | nothing => exact Collection.tidy_new b.name
  | output found answers answered => exact Answer.written_tidy _ _

/-- What a file has made of a desk when it has been checked. -/
structure Visited (d : Desk) (p : Path) (after : Desk) : Prop where
  ready : after.Ready
  language : after.workspace.language = d.workspace.language
  length : after.engine.checkers.length = d.engine.checkers.length
  /-- Whoever handles the file's language has run on it, once and to the end, and holds what this run has
  brought. -/
  ran : ∀ (i : Nat) (b : Checker), d.engine.checkers[i]? = some b →
    b.profile.covers (d.workspace.languageOf p) = true →
      ∃ (document : DocumentRef) (collection : Collection), Uri.ofPath p = .ok document.uri
        ∧ b.Brought document collection ∧ after.engine.checkers[i]? = some (b.inRun false 0 collection)
  /-- Nobody else has moved. -/
  others : ∀ (i : Nat) (b : Checker), d.engine.checkers[i]? = some b →
    b.profile.covers (d.workspace.languageOf p) = false → after.engine.checkers[i]? = some b

section Waited

variable {document : DocumentRef} {next : Workspace}

/-- When everybody has been waited for, whoever was called has run, and nobody else has moved. -/
theorem Ready.waited (hd : d.Ready) (hloaded : d.workspace.Loaded p next document)
    (hservice : Service d.engine.checkers (d.engine.covering document.language) document e.engine.checkers [])
    (hb : d.engine.checkers[i]? = some b) :
    if b.profile.covers (d.workspace.languageOf p) then
      ∃ collection, b.Brought document collection ∧ e.engine.checkers[i]? = some (b.inRun false 0 collection)
    else e.engine.checkers[i]? = some b := by
  obtain ⟨_, hran, hothers⟩ := hservice.ended
  have hwho : i ∈ d.engine.covering document.language ↔ b.profile.covers (d.workspace.languageOf p) = true :=
    hloaded.spoken ▸ hd.mem_covering hb
  split
  · next hcovers =>
    have hi : i < e.engine.checkers.length := by
      rw [hservice.length]
      exact (List.getElem?_eq_some_iff.mp hb).1
    obtain ⟨collection, hbrought, hsame⟩ := hran i (hwho.mpr hcovers) b _ hb (List.getElem?_eq_getElem hi)
    exact ⟨collection, hbrought, (List.getElem?_eq_getElem hi).trans (congrArg some hsame)⟩
  · next hcovers =>
    rw [hothers i fun hi => hcovers (hwho.mp hi)]
    exact hb

/-- A desk that has waited for everybody is ready again. -/
theorem Ready.visited (hd : d.Ready) (hloaded : d.workspace.Loaded p next document)
    (hwaiting : Waiting d.engine.checkers (d.engine.covering document.language) document next e [])
    (hnone : e.pending = []) : d.Visited p e := by
  have hleft := hwaiting.nothing_left hnone
  have hservice := hwaiting.service
  rw [hleft] at hservice
  obtain ⟨hplaces, _⟩ := List.append_eq_nil_iff.mp hleft
  obtain ⟨htimers, hprocesses⟩ := List.append_eq_nil_iff.mp hplaces
  have htidy : ∀ c ∈ e.engine.checkers, c.collection.Tidy := by
    intro c hc
    obtain ⟨i, hi⟩ := List.mem_iff_getElem?.mp hc
    have hbase : i < d.engine.checkers.length := hservice.length ▸ (List.getElem?_eq_some_iff.mp hi).1
    have hsame := hd.waited hloaded hservice (List.getElem?_eq_getElem hbase)
    split at hsame
    · obtain ⟨collection, hbrought, hsame⟩ := hsame
      cases hi.symm.trans hsame
      exact tidy_of_brought hbrought
    · cases hi.symm.trans hsame
      exact hd.tidy _ (List.getElem_mem hbase)
  refine ⟨⟨?_, hservice.ended.1, htidy, List.map_eq_nil_iff.mp htimers, List.map_eq_nil_iff.mp hprocesses,
    hwaiting.events, hwaiting.feed, ?_⟩, ?_, hservice.length, ?_, ?_⟩
  · rw [hwaiting.roll, hservice.length]
  · rw [hwaiting.workspace]
    exact hloaded.faithful
  · rw [hwaiting.workspace]
    exact hloaded.language
  · intro i b hb hcovers
    have hran := hd.waited hloaded hservice hb
    rw [if_pos hcovers] at hran
    obtain ⟨collection, hbrought, hsame⟩ := hran
    exact ⟨document, collection, hloaded.uri, hbrought, hsame⟩
  · intro i b hb hcovers
    have hstill := hd.waited hloaded hservice hb
    rwa [if_neg (Bool.eq_false_iff.mp hcovers)] at hstill

end Waited

/-- **Checking a file leaves the desk ready**, and copies out what is held then unless nobody handles it. -/
theorem Ready.checkFile (hd : d.Ready) (hcomplete : (d.checkFile collected p).2.2 = .complete) :
    d.Visited p (d.checkFile collected p).1
      ∧ ((∀ (i : Nat) (b : Checker), d.engine.checkers[i]? = some b →
            b.profile.covers (d.workspace.languageOf p) = false)
          ∧ (d.checkFile collected p).2.1 = collected
        ∨ (d.checkFile collected p).2.1
          = collected.copyFrom (d.checkFile collected p).1.engine.liveCollections) := by
  revert hcomplete
  fun_cases Desk.checkFile d collected p with
  | case1 language pending hnone =>
    intro _
    have hnobody : ∀ (i : Nat) (b : Checker), d.engine.checkers[i]? = some b →
        b.profile.covers (d.workspace.languageOf p) = false := fun _ _ hb => hd.not_covered hnone hb
    refine ⟨⟨?_, rfl, rfl, ?_, fun _ _ hb _ => hb⟩, .inl ⟨hnobody, rfl⟩⟩
    · exact ⟨hd.roll, hd.rested, hd.tidy, hd.timers, hd.processes, hd.events, hd.feed, hd.faithful⟩
    · intro i b hb hcovers
      rw [hnobody i b hb] at hcovers
      cases hcovers
  | case2 => nofun
  | case3 language pending hsome opened hopen settled after hwait =>
    intro _
    obtain ⟨document, next, hloaded, hwaiting⟩ := hd.open? hopen
    obtain ⟨hreturned, hnone⟩ := hwaiting.settle.awaitRuns (n := settled.waitBound) (congrArg Prod.snd hwait)
    rw [show awaitRuns settled.waitBound (opened.settle count) = (after, Wait.settled) from hwait] at hreturned hnone
    exact ⟨hd.visited hloaded hreturned hnone, .inr rfl⟩
  | case4 => nofun
  | case5 => nofun

end Desk

end SyntaxWatch
