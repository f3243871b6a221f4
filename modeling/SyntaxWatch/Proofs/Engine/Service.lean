import Mathlib.Data.List.Nodup
import SyntaxWatch.Proofs.Checker.Handling
import SyntaxWatch.Proofs.Engine.Delivery

/-!
# Checkers that serve one call

A document is announced to some of the checkers of an engine, all of them at rest, and each of those
handles it. `Service` is the state of the whole engine until the last of them is at rest again: every
checker that was called stands as `Checker.Handling` says, and every other one has not moved.

What is counted is who has something under way, by name (`busyNamed`). A name stands for any number of
checkers. In each step, as many checkers of a name get done as endings are told under it, and this is
what anybody who counts endings relies on (`Service.busy_step`).

The endings pass through the queue, which may be full. `EventQueue.refused` is what is lost there.
-/

set_option autoImplicit false

namespace SyntaxWatch

/-! ## 1. The queue -/

namespace EventQueue

def offerAll (q : EventQueue) (notices : List Notice) : EventQueue := notices.foldl offer q

/-- The notices that find no room. -/
def refused (q : EventQueue) (notices : List Notice) : List Notice :=
  notices.drop (q.capacity - q.waiting.length)

theorem offerAll_eq (q : EventQueue) (notices : List Notice) :
    q.offerAll notices = { q with waiting := q.waiting ++ notices.take (q.capacity - q.waiting.length) } := by
  induction notices generalizing q with
  | nil => simp [offerAll]
  | cons n others ih =>
    have hnext : q.offerAll (n :: others) = (q.offer n).offerAll others := rfl
    rw [hnext, ih]
    unfold offer
    by_cases hroom : q.waiting.length < q.capacity
    · have hleft : q.capacity - q.waiting.length = (q.capacity - (q.waiting.length + 1)) + 1 := by omega
      rw [if_pos hroom, hleft, List.take_succ_cons]
      simp
    · have hfull : q.capacity - q.waiting.length = 0 := by omega
      rw [if_neg hroom, hfull]
      simp

/-- What is offered is taken up to some point, and refused from there on. -/
theorem offerAll_split (q : EventQueue) (notices : List Notice) :
    ∃ taken, taken ++ q.refused notices = notices ∧ (q.offerAll notices).waiting = q.waiting ++ taken
      ∧ (q.waiting.length + notices.length ≤ q.capacity → q.refused notices = []) := by
  refine ⟨_, List.take_append_drop _ notices, ?_, fun hfits => ?_⟩
  · rw [offerAll_eq]
  · unfold refused
    rw [List.drop_eq_nil_iff]
    omega

end EventQueue

namespace Notice

/-- How many endings are told under a name. -/
def endings (name : String) (notices : List Notice) : Nat :=
  notices.countP fun n => decide (n.checker = name) && n.event.isTerminal

theorem endings_append (name : String) (front back : List Notice) :
    endings name (front ++ back) = endings name front + endings name back := List.countP_append

end Notice

/-- The events among some effects, as they are told by a checker. -/
def Checker.telling (c : Checker) (effects : List Effect) : List Notice :=
  (eventsOf effects).map (Notice.mk c.name)

theorem Checker.endings_telling (c : Checker) (name : String) (effects : List Effect) :
    Notice.endings name (c.telling effects)
      = if c.name = name then (eventsOf effects).countP Event.isTerminal else 0 := by
  unfold Notice.endings telling
  rw [List.countP_map]
  by_cases hname : c.name = name
  · simp [hname, Function.comp_def]
  · simp [hname, Function.comp_def]

namespace Engine

variable {e : Engine} {i : Nat} {c : Checker}

theorem carryOutAll_events (e : Engine) (i : Nat) (c : Checker) (effects : List Effect) :
    (e.carryOutAll i c effects).1.events = e.events.offerAll (c.telling effects) := by
  induction effects generalizing e with
  | nil => rfl
  | cons effect others ih =>
    refine (ih (e.carryOut i c effect).1).trans ?_
    cases effect <;> rfl

theorem deliver_checkers_set (hc : e.checkers[i]? = some c) (input : Input) :
    (e.deliver i input).1.checkers = e.checkers.set i (c.step input).1 :=
  (deliver_checkers e i input).trans (set_eq_modify hc fun c => (c.step input).1).symm

theorem deliver_events (hc : e.checkers[i]? = some c) (input : Input) :
    (e.deliver i input).1.events
      = e.events.offerAll ((c.step input).1.telling (c.step input).2) := by
  unfold deliver
  rw [hc]
  exact carryOutAll_events _ i _ _

end Engine

/-! ## 2. The jobs of one checker -/

/-- What is under way for the checker with a number. -/
def jobsOf (jobs : List (Nat × Job)) (i : Nat) : List Job :=
  jobs.filterMap fun (j, job) => if j = i then some job else none

section Jobs

variable {jobs others : List (Nat × Job)} {i j : Nat} {job : Job}

theorem mem_jobsOf : job ∈ jobsOf jobs i ↔ (i, job) ∈ jobs := by
  unfold jobsOf
  rw [List.mem_filterMap]
  constructor
  · rintro ⟨⟨k, x⟩, hmem, hx⟩
    obtain ⟨rfl, rfl⟩ : k = i ∧ x = job := by simpa using hx
    exact hmem
  · exact fun hmem => ⟨(i, job), hmem, by simp⟩

theorem jobsOf_append (jobs others : List (Nat × Job)) (i : Nat) :
    jobsOf (jobs ++ others) i = jobsOf jobs i ++ jobsOf others i := List.filterMap_append

theorem jobsOf_perm (hperm : jobs.Perm others) (i : Nat) : (jobsOf jobs i).Perm (jobsOf others i) :=
  hperm.filterMap _

theorem jobsOf_tagged (i : Nat) (new : List Job) : jobsOf (new.map (Prod.mk i)) i = new := by
  unfold jobsOf
  rw [List.filterMap_map]
  simp

theorem jobsOf_tagged_of_ne (hne : i ≠ j) (new : List Job) : jobsOf (new.map (Prod.mk i)) j = [] := by
  unfold jobsOf
  rw [List.filterMap_map, List.filterMap_eq_nil_iff]
  intro job _
  simp [hne]

theorem jobsOf_erase (jobs : List (Nat × Job)) (i : Nat) (job : Job) :
    jobsOf (jobs.erase (i, job)) i = (jobsOf jobs i).erase job := by
  refine filterMap_erase_of_some (by simp) ?_ jobs
  rintro ⟨k, x⟩ hx
  obtain ⟨rfl, rfl⟩ : k = i ∧ x = job := by simpa using hx
  rfl

theorem jobsOf_erase_of_ne (hne : i ≠ j) (jobs : List (Nat × Job)) (job : Job) :
    jobsOf (jobs.erase (i, job)) j = jobsOf jobs j :=
  filterMap_erase_of_none (by simp [hne]) jobs

end Jobs

/-- What is under way after something has come back to the checker with a number, and has had these
effects. -/
def jobsAfter (jobs : List (Nat × Job)) (i : Nat) (r : Return) (effects : List Effect) : List (Nat × Job) :=
  jobs.erase (i, r.job) ++ (effects.filterMap Job.ofEffect?).map (Prod.mk i)

theorem jobsOf_jobsAfter (jobs : List (Nat × Job)) (i : Nat) (r : Return) (effects : List Effect) :
    jobsOf (jobsAfter jobs i r effects) i = (jobsOf jobs i).erase r.job ++ effects.filterMap Job.ofEffect? := by
  unfold jobsAfter
  rw [jobsOf_append, jobsOf_erase, jobsOf_tagged]

theorem jobsOf_jobsAfter_of_ne {i j : Nat} (hne : i ≠ j) (jobs : List (Nat × Job)) (r : Return)
    (effects : List Effect) : jobsOf (jobsAfter jobs i r effects) j = jobsOf jobs j := by
  unfold jobsAfter
  rw [jobsOf_append, jobsOf_erase_of_ne hne, jobsOf_tagged_of_ne hne, List.append_nil]

/-- What is under way when somebody has been called. -/
theorem jobsOf_calls {who : List Nat} (nodup : who.Nodup) (document : DocumentRef) (i : Nat) :
    jobsOf (who.map fun i => (i, Job.call document)) i = if i ∈ who then [.call document] else [] := by
  induction who with
  | nil => rfl
  | cons j who ih =>
    obtain ⟨hj, hrest⟩ := List.nodup_cons.mp nodup
    rw [List.map_cons, ← List.singleton_append, jobsOf_append, ih hrest]
    by_cases hij : j = i
    · subst hij
      rw [if_neg hj, if_pos List.mem_cons_self, List.append_nil]
      exact jobsOf_tagged j [.call document]
    · rw [show jobsOf [(j, Job.call document)] i = [] from jobsOf_tagged_of_ne hij [.call document]]
      simp [Ne.symm hij]

/-! ## 3. The checkers that were called -/

/-- The checkers of `base` were at rest when a document was announced to those in `who`. They have
become `checkers` since, and have these jobs under way. -/
structure Service (base : List Checker) (who : List Nat) (document : DocumentRef)
    (checkers : List Checker) (jobs : List (Nat × Job)) : Prop where
  rested : ∀ c ∈ base, c.AtRest
  length : checkers.length = base.length
  within : ∀ i ∈ who, i < base.length
  handling : ∀ i ∈ who, ∀ b c, base[i]? = some b → checkers[i]? = some c →
    b.Handling document c (jobsOf jobs i)
  others : ∀ i, i ∉ who → checkers[i]? = base[i]? ∧ jobsOf jobs i = []

namespace Service

variable {base checkers : List Checker} {who : List Nat} {document : DocumentRef}
  {jobs : List (Nat × Job)} {i : Nat} {c : Checker}

/-- The announcement is under way to everybody who is called. -/
theorem announced (rested : ∀ c ∈ base, c.AtRest) (nodup : who.Nodup) (within : ∀ i ∈ who, i < base.length) :
    Service base who document base (who.map fun i => (i, .call document)) := by
  refine ⟨rested, rfl, within, ?_, ?_⟩
  · intro i hi b c hb hc
    rw [jobsOf_calls nodup, if_pos hi]
    cases hb.symm.trans hc
    exact .call
  · intro i hi
    rw [jobsOf_calls nodup, if_neg hi]
    exact ⟨rfl, rfl⟩

/-- The order of the jobs makes no difference. -/
theorem perm {others : List (Nat × Job)} (hs : Service base who document checkers jobs)
    (hperm : jobs.Perm others) : Service base who document checkers others := by
  refine ⟨hs.rested, hs.length, hs.within, ?_, ?_⟩
  · intro i hi b c hb hc
    exact (hs.handling i hi b c hb hc).perm (jobsOf_perm hperm i)
  · intro i hi
    obtain ⟨hsame, hnone⟩ := hs.others i hi
    exact ⟨hsame, List.nil_perm.mp (hnone ▸ jobsOf_perm hperm i)⟩

/-- Whoever has something under way was called, and is there. -/
theorem of_mem (hs : Service base who document checkers jobs) {job : Job} (hjob : (i, job) ∈ jobs) :
    ∃ b c, base[i]? = some b ∧ checkers[i]? = some c ∧ i ∈ who ∧ b.AtRest
      ∧ b.Handling document c (jobsOf jobs i) := by
  have hwho : i ∈ who := by
    by_contra hout
    have hmem := mem_jobsOf.mpr hjob
    rw [(hs.others i hout).2] at hmem
    cases hmem
  have hbase := hs.within i hwho
  have hchecker : i < checkers.length := hs.length ▸ hbase
  have hb := List.getElem?_eq_getElem hbase
  have hc := List.getElem?_eq_getElem hchecker
  exact ⟨_, _, hb, hc, hwho, hs.rested _ (List.getElem_mem hbase), hs.handling i hwho _ _ hb hc⟩

theorem names (hs : Service base who document checkers jobs) (i : Nat) :
    checkers[i]?.map Checker.name = base[i]?.map Checker.name := by
  by_cases hi : i ∈ who
  · have hbase := hs.within i hi
    have hchecker : i < checkers.length := hs.length ▸ hbase
    have hb := List.getElem?_eq_getElem hbase
    have hc := List.getElem?_eq_getElem hchecker
    rw [hb, hc]
    exact congrArg some (hs.handling i hi _ _ hb hc).name
  · rw [(hs.others i hi).1]

/-- **What comes back is served.** The checker that it comes to goes on handling the document, and
the others stay as they are. -/
theorem step (hs : Service base who document checkers jobs) {r : Return} (hr : (i, r.job) ∈ jobs)
    (hc : checkers[i]? = some c) :
    Service base who document (checkers.set i (c.step (r.input c.name)).1)
        (jobsAfter jobs i r (c.step (r.input c.name)).2)
      ∧ Checker.Report (jobsOf (jobsAfter jobs i r (c.step (r.input c.name)).2) i)
          (Checker.eventsOf (c.step (r.input c.name)).2) := by
  obtain ⟨b, c', hb, hc', hwho, hrest, hh⟩ := hs.of_mem hr
  cases hc.symm.trans hc'
  have hstep := hh.step hrest (mem_jobsOf.mpr hr)
  have hi := (List.getElem?_eq_some_iff.mp hc).1
  refine ⟨⟨hs.rested, by rw [List.length_set, hs.length], hs.within, ?_, ?_⟩, ?_⟩
  · intro j hj b' d hb' hd
    by_cases hij : i = j
    · subst hij
      rw [List.getElem?_set_self hi] at hd
      cases hd
      cases hb.symm.trans hb'
      rw [jobsOf_jobsAfter]
      exact hstep.handling
    · rw [List.getElem?_set_ne hij] at hd
      rw [jobsOf_jobsAfter_of_ne hij]
      exact hs.handling j hj b' d hb' hd
  · intro j hj
    have hij : i ≠ j := fun h => hj (h ▸ hwho)
    rw [List.getElem?_set_ne hij, jobsOf_jobsAfter_of_ne hij]
    exact hs.others j hj
  · rw [jobsOf_jobsAfter]
    exact hstep.report

/-- **When nothing is under way any more, everybody is at rest again**, with what the run has
brought. -/
theorem ended (hs : Service base who document checkers []) :
    (∀ c ∈ checkers, c.AtRest)
      ∧ (∀ i ∈ who, ∀ b c, base[i]? = some b → checkers[i]? = some c →
          ∃ collection, b.Brought document collection ∧ c = b.inRun false 0 collection)
      ∧ ∀ i, i ∉ who → checkers[i]? = base[i]? := by
  have hended : ∀ i ∈ who, ∀ b c, base[i]? = some b → checkers[i]? = some c →
      ∃ collection, b.Brought document collection ∧ c = b.inRun false 0 collection := by
    intro i hi b c hb hc
    exact (hs.handling i hi b c hb hc).ended_of_nil
  refine ⟨?_, hended, fun i hi => (hs.others i hi).1⟩
  intro c hc
  obtain ⟨i, hi, rfl⟩ := List.mem_iff_getElem.mp hc
  have hget := List.getElem?_eq_getElem hi
  by_cases hwho : i ∈ who
  · have hb := List.getElem?_eq_getElem (hs.within i hwho)
    obtain ⟨collection, hbrought, hsame⟩ := hended i hwho _ _ hb hget
    rw [hsame]
    exact (hs.rested _ (List.getElem_mem _)).inRun hbrought
  · rw [(hs.others i hwho).1] at hget
    exact hs.rested _ (List.mem_of_getElem? hget)

end Service

/-! ## 4. Who is busy -/

/-- Whether the checker with a number has this name, and something under way. -/
def isBusy (checkers : List Checker) (jobs : List (Nat × Job)) (name : String) (i : Nat) : Bool :=
  decide (checkers[i]?.map Checker.name = some name) && decide (jobsOf jobs i ≠ [])

/-- How many checkers of a name have something under way. -/
def busyNamed (checkers : List Checker) (jobs : List (Nat × Job)) (name : String) : Nat :=
  (List.range checkers.length).countP (isBusy checkers jobs name)

/-- Two tests that differ in one place of a list count alike, but for that place. -/
theorem countP_of_one {p q : Nat → Bool} {l : List Nat} {i : Nat} (hnodup : l.Nodup) (hi : i ∈ l)
    (hothers : ∀ j ∈ l, j ≠ i → q j = p j) (hp : p i = true) :
    l.countP q + (if q i then 0 else 1) = l.countP p := by
  induction l with
  | nil => cases hi
  | cons j l ih =>
    obtain ⟨hj, hrest⟩ := List.nodup_cons.mp hnodup
    rw [List.countP_cons, List.countP_cons]
    by_cases hij : j = i
    · subst hij
      have hsame : l.countP q = l.countP p :=
        List.countP_congr fun k hk => by rw [hothers k (List.mem_cons_of_mem j hk) fun h => hj (h ▸ hk)]
      rw [hsame, hp, if_pos rfl]
      split <;> rfl
    · have htail := ih hrest ((List.mem_cons.mp hi).resolve_left (Ne.symm hij))
        fun k hk => hothers k (List.mem_cons_of_mem j hk)
      rw [hothers j List.mem_cons_self hij, ← htail]
      exact Nat.add_right_comm _ _ _

theorem busyNamed_nil (checkers : List Checker) (name : String) : busyNamed checkers [] name = 0 := by
  rw [busyNamed, List.countP_eq_zero]
  intro i _
  simp [isBusy, jobsOf]

theorem busyNamed_perm (checkers : List Checker) {jobs others : List (Nat × Job)} (hperm : jobs.Perm others)
    (name : String) : busyNamed checkers jobs name = busyNamed checkers others name := by
  refine List.countP_congr fun i _ => ?_
  have hnil : jobsOf jobs i ≠ [] ↔ jobsOf others i ≠ [] := by
    rw [← List.length_pos_iff, ← List.length_pos_iff, (jobsOf_perm hperm i).length_eq]
  unfold isBusy
  simp only [hnil]

theorem Service.step_name {base checkers : List Checker} {who : List Nat} {document : DocumentRef}
    {jobs : List (Nat × Job)} {i : Nat} {c : Checker} (hs : Service base who document checkers jobs)
    {r : Return} (hr : (i, r.job) ∈ jobs) (hc : checkers[i]? = some c) :
    (c.step (r.input c.name)).1.name = c.name := by
  obtain ⟨hnext, _⟩ := hs.step hr hc
  have hsame := (hnext.names i).trans (hs.names i).symm
  rw [List.getElem?_set_self (List.getElem?_eq_some_iff.mp hc).1, hc] at hsame
  exact Option.some.inj hsame

/-- **As many get done as endings are told**, under every name. -/
theorem Service.busy_step {base checkers : List Checker} {who : List Nat} {document : DocumentRef}
    {jobs : List (Nat × Job)} {i : Nat} {c : Checker} (hs : Service base who document checkers jobs)
    {r : Return} (hr : (i, r.job) ∈ jobs) (hc : checkers[i]? = some c) (name : String) :
    busyNamed (checkers.set i (c.step (r.input c.name)).1) (jobsAfter jobs i r (c.step (r.input c.name)).2) name
        + Notice.endings name ((c.step (r.input c.name)).1.telling (c.step (r.input c.name)).2)
      = busyNamed checkers jobs name := by
  obtain ⟨hnext, hreport⟩ := hs.step hr hc
  have hi := (List.getElem?_eq_some_iff.mp hc).1
  have hnames : ∀ j, (checkers.set i (c.step (r.input c.name)).1)[j]?.map Checker.name
      = checkers[j]?.map Checker.name := fun j => (hnext.names j).trans (hs.names j).symm
  have hname := hs.step_name hr hc
  have hothers : ∀ j, i ≠ j → jobsOf (jobsAfter jobs i r (c.step (r.input c.name)).2) j = jobsOf jobs j :=
    fun j hij => jobsOf_jobsAfter_of_ne hij jobs r _
  have hbusy : jobsOf jobs i ≠ [] := List.ne_nil_of_mem (mem_jobsOf.mpr hr)
  rw [Checker.endings_telling, hname, hreport.ending]
  generalize jobsAfter jobs i r (c.step (r.input c.name)).2 = left at *
  have hsame : ∀ j, i ≠ j → isBusy (checkers.set i (c.step (r.input c.name)).1) left name j
      = isBusy checkers jobs name j := by
    intro j hij
    unfold isBusy
    rw [hnames j, hothers j hij]
  unfold busyNamed
  rw [List.length_set]
  by_cases hmine : c.name = name
  · have hbefore : isBusy checkers jobs name i = true := by simp [isBusy, hc, hmine, hbusy]
    have hafter : isBusy (checkers.set i (c.step (r.input c.name)).1) left name i = decide (jobsOf left i ≠ []) := by
      unfold isBusy
      rw [hnames i]
      simp [hc, hmine]
    rw [if_pos hmine, ← countP_of_one List.nodup_range (List.mem_range.mpr hi)
      (fun j _ hij => hsame j (Ne.symm hij)) hbefore, hafter]
    by_cases hleft : jobsOf left i = []
    · simp [hleft]
    · simp [hleft]
  · rw [if_neg hmine, Nat.add_zero]
    refine List.countP_congr fun j _ => ?_
    by_cases hij : i = j
    · subst hij
      unfold isBusy
      rw [hnames i]
      simp [hc, hmine]
    · rw [hsame j hij]

/-- **Nothing is told after the ending**: whatever is told is followed by one, or the checker is still
busy. -/
theorem Service.followed_step {base checkers : List Checker} {who : List Nat} {document : DocumentRef}
    {jobs : List (Nat × Job)} {i : Nat} {c : Checker} (hs : Service base who document checkers jobs)
    {r : Return} (hr : (i, r.job) ∈ jobs) (hc : checkers[i]? = some c) {front rest : List Notice} {n : Notice}
    (htold : (c.step (r.input c.name)).1.telling (c.step (r.input c.name)).2 = front ++ n :: rest) :
    0 < busyNamed (checkers.set i (c.step (r.input c.name)).1)
          (jobsAfter jobs i r (c.step (r.input c.name)).2) n.checker
        + Notice.endings n.checker (n :: rest) := by
  obtain ⟨_, hreport⟩ := hs.step hr hc
  have hname := hs.step_name hr hc
  have hi := (List.getElem?_eq_some_iff.mp hc).1
  have hall : ∀ m ∈ front ++ n :: rest, m.checker = c.name := by
    intro m hm
    rw [← htold] at hm
    obtain ⟨e, _, rfl⟩ := List.mem_map.mp hm
    exact hname
  have hn : n.checker = c.name := hall n (by simp)
  rw [hn]
  by_cases hleft : jobsOf (jobsAfter jobs i r (c.step (r.input c.name)).2) i = []
  · obtain ⟨e, he, hending⟩ := hreport.last hleft
    refine Nat.add_pos_right _ (List.countP_pos_iff.mpr ⟨⟨c.name, e⟩, ?_, by simp [hending]⟩)
    have hlast : (front ++ n :: rest).getLast? = some ⟨c.name, e⟩ := by
      rw [← htold, Checker.telling, List.getLast?_map, he, hname]
      rfl
    rw [List.getLast?_append_of_ne_nil _ (List.cons_ne_nil n rest)] at hlast
    exact List.mem_of_getLast? hlast
  · refine Nat.add_pos_left (List.countP_pos_iff.mpr ⟨i, ?_, ?_⟩) _
    · rw [List.length_set]
      exact List.mem_range.mpr hi
    · simp [isBusy, hi, hname, hleft]

/-- Somebody is busy as long as anything is under way. -/
theorem Service.jobs_eq_nil {base checkers : List Checker} {who : List Nat} {document : DocumentRef}
    {jobs : List (Nat × Job)} (hs : Service base who document checkers jobs)
    (hnobody : ∀ name, busyNamed checkers jobs name = 0) : jobs = [] := by
  rw [List.eq_nil_iff_forall_not_mem]
  rintro ⟨i, job⟩ hmem
  obtain ⟨b, c, _, hc, _, _, _⟩ := hs.of_mem hmem
  have hjobs : jobsOf jobs i ≠ [] := List.ne_nil_of_mem (mem_jobsOf.mpr hmem)
  have hi := List.mem_range.mpr (List.getElem?_eq_some_iff.mp hc).1
  have hnot := List.countP_eq_zero.mp (hnobody c.name) i hi
  exact hnot (by simp [isBusy, hc, hjobs])

/-! ## 5. An engine that has just been started -/

/-- All checkers of the engine are of its present configuration and have not done anything yet. -/
structure Engine.Fresh (feedCapacity : Nat) (e : Engine) : Prop where
  roll : e.enrolled = List.range e.checkers.length
  rested : ∀ c ∈ e.checkers, c.AtRest
  blank : ∀ c ∈ e.checkers, c.collection = .new c.name
  timers : e.timers = []
  events : e.events = .empty Engine.eventCapacity
  feed : e.feedCapacity = feedCapacity

theorem Engine.Fresh.enroll {feedCapacity : Nat} {e : Engine} (he : e.Fresh feedCapacity)
    (profile : CheckerProfile) : (e.enroll none profile).Fresh feedCapacity := by
  refine ⟨?_, ?_, ?_, he.timers, he.events, he.feed⟩
  · show e.enrolled ++ [e.checkers.length] = List.range (e.checkers ++ [_]).length
    rw [he.roll, List.length_append, List.length_singleton, List.range_succ]
  · intro c hc
    rcases List.mem_append.mp hc with hc | hc
    · exact he.rested c hc
    · rw [List.mem_singleton.mp hc]
      exact ⟨rfl, rfl, rfl, rfl, rfl, rfl⟩
  · intro c hc
    rcases List.mem_append.mp hc with hc | hc
    · exact he.blank c hc
    · rw [List.mem_singleton.mp hc]
      rfl

/-- **An engine is fresh when it has been started** and no document was active. -/
theorem Engine.start_fresh (root : Path) (feedCapacity : Nat) (settings : Settings) :
    ((Engine.idle root feedCapacity).start none settings).Fresh feedCapacity := by
  have hall : ∀ (profiles : List CheckerProfile) (e : Engine), e.Fresh feedCapacity →
      (profiles.foldl (fun e profile => e.enroll none profile) e).Fresh feedCapacity := by
    intro profiles
    induction profiles with
    | nil => exact fun e he => he
    | cons profile profiles ih => exact fun e he => ih _ (he.enroll profile)
  exact hall settings.profiles _ ⟨rfl, nofun, nofun, rfl, rfl, rfl⟩

/-! ### Who is called -/

/-- The numbers of the checkers that an announcement in a language calls. -/
def Engine.covering (e : Engine) (language : String) : List Nat :=
  e.enrolled.filter fun i => e.checkers[i]?.any fun c => c.profile.covers language

theorem Engine.covering_nodup {e : Engine} (roll : e.enrolled = List.range e.checkers.length)
    (language : String) : (e.covering language).Nodup := by
  unfold covering
  rw [roll]
  exact List.nodup_range.filter _

theorem Engine.lt_of_covering {e : Engine} (roll : e.enrolled = List.range e.checkers.length)
    {language : String} : ∀ i ∈ e.covering language, i < e.checkers.length := by
  intro i hi
  have hroll := (List.mem_filter.mp hi).1
  rw [roll] at hroll
  exact List.mem_range.mp hroll

/-- As many are busy with a call, under every name, as cover its language. -/
theorem Engine.busyNamed_called {e : Engine} (roll : e.enrolled = List.range e.checkers.length)
    (document : DocumentRef) (name : String) :
    busyNamed e.checkers ((e.covering document.language).map fun i => (i, .call document)) name
      = e.present.countP fun c => c.profile.covers document.language && decide (c.name = name) := by
  unfold busyNamed present
  rw [List.countP_filterMap, roll]
  refine List.countP_congr fun i hi => ?_
  unfold isBusy
  rw [jobsOf_calls (e.covering_nodup roll document.language)]
  have hmem : i ∈ e.covering document.language
      ↔ (e.checkers[i]?.any fun c => c.profile.covers document.language) = true := by
    unfold covering
    rw [roll, List.mem_filter]
    exact and_iff_right hi
  cases hc : e.checkers[i]? with
  | none => simp
  | some c =>
    rw [hc] at hmem
    simp [hmem, and_comm]

end SyntaxWatch
