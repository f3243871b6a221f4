import SyntaxWatch.Proofs.Checker.Course

/-!
# What is told in a history

Events name their run, but for one kind: that a document was written is reported without a number. It
belongs to the run whose answer was written. `Bench.tale` tells a history with the run that each
report is about, and `Kept` is what holds of every tale, whatever comes in whatever order.

Reports are added one at a time, so there is one lemma for each kind of report. What they ask for is
what the courses of the runs say at that moment (`Booked`): a run that is about to get its ending has
had none so far, and a document is written only for the latest run.
-/

set_option autoImplicit false

namespace SyntaxWatch

/-! ## 1. The tale of a history -/

/-- An event, and the run that it is about. -/
structure Report where
  run : Nat
  event : Event
  deriving DecidableEq, Repr

namespace Happening

/-- The run from which a happening comes back. -/
def run : Happening → Nat
  | output token _ _ | failure token _ _ | death token _ | answer token _ => token
  | trigger _ | expiry _ _ | disposal => 0

def report (h : Happening) (e : Event) : Report := ⟨e.token?.getD h.run, e⟩

theorem report_run_of_token? {h : Happening} {e : Event} {token : Nat} (he : e.token? = some token) :
    (h.report e).run = token := by
  unfold report
  rw [he]
  rfl

end Happening

namespace Event

def start? : Event → Option Nat
  | started token _ => some token
  | published _ _ | settled _ | discarded _ | failed _ _ => none

theorem start?_of_ends {token : Nat} {e : Event} (he : e.ends token = true) : e.start? = none := by
  cases e with
  | started t uri => cases he
  | _ => rfl

end Event

namespace Report

/-- That a document was written is reported neither after the settlement of its run nor after the
start of a newer one. -/
def Inside (x r : Report) : Prop :=
  ∀ uri count, r.event = .published uri count →
    x.event ≠ .settled r.run ∧ ∀ token uri, x.event = .started token uri → token ≤ r.run

/-- Two reports are not endings of the same run. -/
def Apart (x r : Report) : Prop := ∀ token, x.event.ends token = true → r.event.ends token = false

end Report

namespace Bench

/-- All that is told in a history, in order. -/
def tale (b : Bench) : List Happening → List Report
  | [] => []
  | h :: later => (b.told h).map h.report ++ (b.meet h).tale later

variable {start b : Bench} {past later : List Happening} {h : Happening} {token : Nat}

theorem tale_append (b : Bench) (past later : List Happening) :
    b.tale (past ++ later) = b.tale past ++ (b.after past).tale later := by
  induction past generalizing b with
  | nil => rfl
  | cons h past ih =>
    rw [List.cons_append, tale, tale, ih, List.append_assoc]
    rfl

theorem tale_snoc (b : Bench) (past : List Happening) (h : Happening) :
    b.tale (past ++ [h]) = b.tale past ++ ((b.after past).told h).map h.report := by
  rw [tale_append, tale, tale, List.append_nil]

theorem events_after (b : Bench) (past : List Happening) :
    (b.after past).events = b.events ++ (b.tale past).map Report.event := by
  induction past generalizing b with
  | nil => exact (List.append_nil _).symm
  | cons h past ih =>
    have hevent : ((b.told h).map h.report).map Report.event = b.told h := by
      rw [List.map_map]
      exact List.map_id _
    have hrest := ih (b.meet h)
    rw [events_meet] at hrest
    rw [tale, List.map_append, hevent, ← List.append_assoc]
    exact hrest

theorem mem_tale {r : Report} (hr : r ∈ start.tale past) :
    ∃ before h later, past = before ++ h :: later
      ∧ ∃ e ∈ (start.after before).told h, r = h.report e := by
  induction past generalizing start with
  | nil => cases hr
  | cons h past ih =>
    rw [tale] at hr
    rcases List.mem_append.mp hr with hr | hr
    · obtain ⟨e, he, rfl⟩ := List.mem_map.mp hr
      exact ⟨[], h, past, rfl, e, he, rfl⟩
    · obtain ⟨before, h', later, rfl, he⟩ := ih hr
      exact ⟨h :: before, h', later, rfl, he⟩

theorem run_of_mem_tale {r : Report} (hr : r ∈ start.tale past) (hrun : r.event.token? = some token) :
    r.run = token := by
  obtain ⟨before, h, later, _, e, _, rfl⟩ := mem_tale hr
  exact Happening.report_run_of_token? hrun

/-! ## 2. What one happening tells -/

/-- Everything that can be told at once: nothing, a start, an ending, or that a document was written,
which may settle the run. -/
inductive Telling (b : Bench) (h : Happening) : Prop where
  | silent (token : (b.meet h).token = b.token) (told : b.told h = [])
  | start (uri : Uri) (token : (b.meet h).token = b.token + 1)
      (told : b.told h = [.started (b.token + 1) uri])
  | ending (e : Event) (token : (b.meet h).token = b.token) (told : b.told h = [e])
      (ends : e.ends h.run = true) (born : 0 < h.run) (old : h.run ≤ b.token)
      (untold : b.endingsOf h.run = [])
  | writing (a : Answer) (count : Nat) (settled : Bool) (token : (b.meet h).token = b.token)
      (met : h = .answer b.token a)
      (told : b.told h = .published a.uri count :: if settled then [.settled b.token] else [])
      (born : 0 < b.token) (untold : b.endingsOf b.token = [])

/-- What is known of a checker that has not ended. -/
structure Booked (start : Bench) (past : List Happening) (b : Bench) : Prop where
  live : Live start past b
  /-- Nothing is out for a run that never began. -/
  born : ∀ e ∈ b.errands, 0 < e.token
  course : ∀ token, 0 < token → token ≤ b.token → Course start past b token
  numbered : b.events.filterMap Event.start? = List.range' 1 b.token

section Booked

theorem Booked.course_of_mem (hb : Booked start past b) {e : Errand} (he : e ∈ b.errands) :
    Course start past b e.token :=
  hb.course e.token (hb.born e he) (hb.live.orderly.errands e he)

theorem Booked.telling (hb : Booked start past b) (houtcome : Outcome b h) : Telling b h := by
  cases houtcome with
  | quiet htoken errands told => exact .silent htoken told
  | starts document htoken errands told => exact .start document.uri htoken told
  | accepts document printed parcels met out htoken errands told =>
    subst met
    by_cases hnone : parcels = []
    · rw [if_pos hnone] at told
      exact .ending _ htoken told (decide_eq_true rfl) (hb.born _ out) (Nat.le_refl _)
        ((hb.course_of_mem out).of_process out).2
    · rw [if_neg hnone] at told
      exact .silent htoken told
  | discards run document printed met older out htoken errands told =>
    subst met
    exact .ending _ htoken told (decide_eq_true rfl) (hb.born _ out) (Nat.le_of_lt older)
      ((hb.course_of_mem out).of_process out).2
  | fails run document cause met out htoken errands told =>
    have hrun : h.run = run := by
      rcases met with rfl | ⟨_, rfl⟩ <;> rfl
    subst hrun
    exact .ending _ htoken told (decide_eq_true rfl) (hb.born _ out) (hb.live.orderly.errands _ out)
      ((hb.course_of_mem out).of_process out).2
  | places a met out htoken errands told =>
    obtain ⟨_, _, huntold, _⟩ := (hb.course_of_mem out).of_lookUp out
    refine .writing a (a.diagnostics b.checker.name).length
      (decide ((b.meet h).errandsOf b.token = [])) htoken met ?_ (hb.born _ out) huntold
    rw [told]
    simp
  | overlooks run a met older out htoken errands told => exact .silent htoken told

theorem Booked.started (hb : Booked start past b) :
    (∃ uri, .started token uri ∈ b.events) ↔ 0 < token ∧ token ≤ b.token := by
  have hmem : token ∈ b.events.filterMap Event.start? ↔ 0 < token ∧ token ≤ b.token := by
    rw [hb.numbered, List.mem_range'_1]
    omega
  rw [← hmem, List.mem_filterMap]
  constructor
  · rintro ⟨uri, huri⟩
    exact ⟨_, huri, rfl⟩
  · rintro ⟨e, he, hstart⟩
    cases e with
    | started t uri =>
      cases hstart
      exact ⟨uri, he⟩
    | _ => cases hstart

end Booked

/-! ## 3. The books after one happening -/

/-- What holds of the tale of every history. -/
structure Kept (tale : List Report) : Prop where
  /-- The runs are numbered in the order in which they start. -/
  numbered : ∃ n, (tale.map Report.event).filterMap Event.start? = List.range' 1 n
  /-- Whatever else is told is about a run that has started. -/
  begun : ∀ before r rest, tale = before ++ r :: rest → r.event.isStart = false →
    ∃ uri, ⟨r.run, .started r.run uri⟩ ∈ before
  inside : tale.Pairwise Report.Inside
  once : tale.Pairwise Report.Apart

section Kept

variable {tale : List Report} {r : Report} (hk : Kept tale)

include hk

theorem Kept.snoc (numbered : ∃ n, ((tale ++ [r]).map Report.event).filterMap Event.start? = List.range' 1 n)
    (begun : r.event.isStart = false → ∃ uri, ⟨r.run, .started r.run uri⟩ ∈ tale)
    (inside : ∀ x ∈ tale, x.Inside r) (once : ∀ x ∈ tale, x.Apart r) : Kept (tale ++ [r]) where
  numbered := numbered
  begun := by
    intro before x rest hsplit hstart
    rcases split_snoc hsplit with ⟨rfl, rfl, _⟩ | ⟨front, _, htale⟩
    · exact begun hstart
    · exact hk.begun before x front htale hstart
  inside := by
    refine List.pairwise_append.mpr ⟨hk.inside, List.pairwise_singleton _ _, ?_⟩
    intro x hx y hy
    rw [List.mem_singleton.mp hy]
    exact inside x hx
  once := by
    refine List.pairwise_append.mpr ⟨hk.once, List.pairwise_singleton _ _, ?_⟩
    intro x hx y hy
    rw [List.mem_singleton.mp hy]
    exact once x hx

theorem Kept.numbered_snoc (hnone : r.event.start? = none) :
    ∃ n, ((tale ++ [r]).map Report.event).filterMap Event.start? = List.range' 1 n := by
  obtain ⟨n, hn⟩ := hk.numbered
  refine ⟨n, ?_⟩
  rw [List.map_append, List.filterMap_append, hn]
  simp [hnone]

theorem Kept.snoc_start {n : Nat} {uri : Uri}
    (hn : (tale.map Report.event).filterMap Event.start? = List.range' 1 n)
    (hevent : r.event = .started (n + 1) uri) : Kept (tale ++ [r]) := by
  refine hk.snoc ⟨n + 1, ?_⟩ ?_ ?_ ?_
  · rw [List.map_append, List.filterMap_append, hn, List.range'_1_concat]
    simp [hevent, Event.start?, Nat.add_comm]
  · intro hstart
    rw [hevent] at hstart
    cases hstart
  · intro x _ uri' count hpublished
    rw [hevent] at hpublished
    cases hpublished
  · intro x _ token _
    rw [hevent]
    rfl

theorem Kept.snoc_ending (hends : r.event.ends r.run = true)
    (hstarted : ∃ uri, ⟨r.run, .started r.run uri⟩ ∈ tale)
    (huntold : ∀ x ∈ tale, x.event.ends r.run = false) : Kept (tale ++ [r]) := by
  refine hk.snoc (hk.numbered_snoc (Event.start?_of_ends hends)) (fun _ => hstarted) ?_ ?_
  · intro x _ uri count hpublished
    rw [hpublished] at hends
    cases hends
  · intro x hx token hbefore
    rw [← Bool.not_eq_true]
    intro hagain
    have hsame : some token = some r.run :=
      (Event.token?_of_ends hagain).symm.trans (Event.token?_of_ends hends)
    rw [Option.some.inj hsame, huntold x hx] at hbefore
    cases hbefore

theorem Kept.snoc_writing {uri : Uri} {count : Nat} (hevent : r.event = .published uri count)
    (hstarted : ∃ uri, ⟨r.run, .started r.run uri⟩ ∈ tale)
    (huntold : ∀ x ∈ tale, x.event.ends r.run = false)
    (hlatest : ∀ x ∈ tale, ∀ token uri, x.event = .started token uri → token ≤ r.run) :
    Kept (tale ++ [r]) := by
  refine hk.snoc (hk.numbered_snoc (by rw [hevent]; rfl)) (fun _ => hstarted) ?_ ?_
  · intro x hx _ _ _
    refine ⟨?_, hlatest x hx⟩
    intro hsettled
    have hnone := huntold x hx
    rw [hsettled] at hnone
    exact absurd hnone (by simp [Event.ends])
  · intro x _ token _
    rw [hevent]
    rfl

end Kept

section Step

variable {profile : CheckerProfile} {root : Path} {delay : Nat}

theorem tale_events (profile : CheckerProfile) (root : Path) (delay : Nat) (past : List Happening) :
    ((opening profile root delay).tale past).map Report.event
      = ((opening profile root delay).after past).events := by
  rw [events_after]
  rfl

theorem mem_events_of_mem_tale {x : Report} (hx : x ∈ (opening profile root delay).tale past) :
    x.event ∈ ((opening profile root delay).after past).events := by
  rw [← tale_events]
  exact List.mem_map_of_mem hx

theorem ends_of_untold (huntold : ((opening profile root delay).after past).endingsOf token = [])
    {x : Report} (hx : x ∈ (opening profile root delay).tale past) : x.event.ends token = false :=
  Bool.eq_false_iff.mpr (List.filter_eq_nil_iff.mp huntold x.event (mem_events_of_mem_tale hx))

variable (hb : Booked (opening profile root delay) past ((opening profile root delay).after past))

include hb

theorem Booked.start_mem_tale (hpos : 0 < token)
    (hle : token ≤ ((opening profile root delay).after past).token) :
    ∃ uri, ⟨token, .started token uri⟩ ∈ (opening profile root delay).tale past := by
  obtain ⟨uri, hmem⟩ := hb.started.mpr ⟨hpos, hle⟩
  rw [← tale_events] at hmem
  obtain ⟨r, hr, hevent⟩ := List.mem_map.mp hmem
  have hrun : r.run = token := run_of_mem_tale hr (by rw [hevent]; rfl)
  refine ⟨uri, ?_⟩
  rw [← hevent, ← hrun]
  exact hr

/-- **The books stay in order** with whatever is told next. -/
theorem Booked.kept (hk : Kept ((opening profile root delay).tale past))
    (htelling : Telling ((opening profile root delay).after past) h) :
    Kept ((opening profile root delay).tale (past ++ [h])) := by
  rw [tale_snoc]
  cases htelling with
  | silent token told =>
    rw [told, List.map_nil, List.append_nil]
    exact hk
  | start uri token told =>
    rw [told]
    exact hk.snoc_start ((congrArg _ (tale_events profile root delay past)).trans hb.numbered) rfl
  | ending e token told ends born old untold =>
    have hrun : (h.report e).run = h.run := Happening.report_run_of_token? (Event.token?_of_ends ends)
    rw [told]
    refine hk.snoc_ending ?_ ?_ ?_
    · rw [hrun]
      exact ends
    · rw [hrun]
      exact hb.start_mem_tale born old
    · intro x hx
      rw [hrun]
      exact ends_of_untold untold hx
  | writing a count settled token met told born untold =>
    subst met
    have hwritten := hk.snoc_writing
      (r := Happening.report (.answer ((opening profile root delay).after past).token a)
        (.published a.uri count))
      rfl (hb.start_mem_tale born (Nat.le_refl _)) (fun x hx => ends_of_untold untold hx)
      (fun x hx t uri hstarted => hb.live.orderly.events x.event (mem_events_of_mem_tale hx) t
        (by rw [hstarted]; rfl))
    rw [told]
    cases settled with
    | false => exact hwritten
    | true =>
      have hsettled := hwritten.snoc_ending
        (r := Happening.report (.answer ((opening profile root delay).after past).token a)
          (.settled ((opening profile root delay).after past).token))
        (decide_eq_true rfl) ?_ ?_
      · rw [List.append_assoc] at hsettled
        exact hsettled
      · obtain ⟨uri, hstarted⟩ := hb.start_mem_tale born (Nat.le_refl _)
        exact ⟨uri, List.mem_append_left _ hstarted⟩
      · intro x hx
        rcases List.mem_append.mp hx with hx | hx
        · exact ends_of_untold untold hx
        · rw [List.mem_singleton.mp hx]
          rfl

/-! ## 4. Every history -/

theorem Booked.born_meet (houtcome : Outcome ((opening profile root delay).after past) h) :
    ∀ e ∈ (((opening profile root delay).after past).meet h).errands, 0 < e.token := by
  intro e he
  rcases houtcome.mem_errands he with hout | ⟨document, rfl⟩ | ⟨parcel, document, rfl, hout⟩
  · exact hb.born e hout
  · exact Nat.succ_pos _
  · exact hb.born (.process _ document) hout

/-- A run that has just begun is running. -/
theorem Booked.course_start {document : DocumentRef}
    (errands : (((opening profile root delay).after past).meet h).errands
      = ((opening profile root delay).after past).errands
        ++ [.process (((opening profile root delay).after past).token + 1) document])
    (told : ((opening profile root delay).after past).told h
      = [.started (((opening profile root delay).after past).token + 1) document.uri]) :
    Course (opening profile root delay) (past ++ [h]) (((opening profile root delay).after past).meet h)
      (((opening profile root delay).after past).token + 1) := by
  refine .running document ?_ ?_
  · have hnone : ((opening profile root delay).after past).errandsOf
        (((opening profile root delay).after past).token + 1) = [] := by
      rw [errandsOf_eq_nil]
      intro e he
      have hle := hb.live.orderly.errands e he
      omega
    rw [errandsOf_append errands, hnone]
    simp [Errand.token]
  · have hnone : ((opening profile root delay).after past).endingsOf
        (((opening profile root delay).after past).token + 1) = [] := by
      unfold endingsOf
      rw [List.filter_eq_nil_iff]
      intro e he hends
      have hle := hb.live.orderly.events e he _ (Event.token?_of_ends hends)
      omega
    rw [endingsOf_meet, told, hnone]
    rfl

theorem Booked.numbered_meet (htelling : Telling ((opening profile root delay).after past) h) :
    (((opening profile root delay).after past).meet h).events.filterMap Event.start?
      = List.range' 1 (((opening profile root delay).after past).meet h).token := by
  rw [events_meet, List.filterMap_append, hb.numbered]
  cases htelling with
  | silent token told => simp [told, token]
  | start uri token told =>
    rw [told, token, List.range'_1_concat, Nat.add_comm 1]
    rfl
  | ending e token told ends born old untold => simp [told, token, Event.start?_of_ends ends]
  | writing a count settled token met told born untold =>
    cases settled <;> simp [told, token, Event.start?]

theorem Booked.meet (hcan : ((opening profile root delay).after past).CanMeet h) (hne : h ≠ .disposal) :
    Booked (opening profile root delay) (past ++ [h]) (((opening profile root delay).after past).meet h) := by
  have houtcome := hb.live.outcome hcan hne
  refine ⟨hb.live.meet hcan hne, hb.born_meet houtcome, ?_, hb.numbered_meet (hb.telling houtcome)⟩
  intro token hpos hle
  by_cases hold : token ≤ ((opening profile root delay).after past).token
  · exact (hb.course token hpos hold).meet hb.live.orderly.alive hold houtcome
  · -- only the start of a run makes its token the latest
    cases houtcome with
    | starts document htoken errands told =>
      obtain rfl : token = ((opening profile root delay).after past).token + 1 := by omega
      exact hb.course_start errands told
    | quiet htoken => omega
    | accepts _ _ _ _ _ htoken => omega
    | discards _ _ _ _ _ _ htoken => omega
    | fails _ _ _ _ _ htoken => omega
    | places _ _ _ htoken => omega
    | overlooks _ _ _ _ _ htoken => omega

end Step

theorem opening_booked (profile : CheckerProfile) (root : Path) (delay : Nat) :
    Booked (opening profile root delay) [] (opening profile root delay) where
  live := opening_live profile root delay
  born := nofun
  course := fun _ hpos hle => absurd hpos (Nat.not_lt.mpr hle)
  numbered := rfl

theorem kept_nil : Kept [] where
  numbered := ⟨0, rfl⟩
  begun := by
    intro before r rest hsplit
    exact absurd (congrArg List.length hsplit) (by simp)
  inside := .nil
  once := .nil

/-- An ended checker tells nothing, and neither does the one that is ended now. -/
theorem told_of_ended {name : String} (he : b.Ended name) : b.told h = [] := by
  have hsame := events_meet b h
  unfold events at hsame
  rw [(he.meet h).2] at hsame
  exact List.append_right_eq_self.mp hsame.symm

theorem kept_and_booked {profile : CheckerProfile} {root : Path} {delay : Nat} {past : List Happening}
    (possible : (opening profile root delay).Possible past) :
    Kept ((opening profile root delay).tale past)
      ∧ (Booked (opening profile root delay) past ((opening profile root delay).after past)
        ∨ ((opening profile root delay).after past).Ended profile.displayName) := by
  refine after_induction (P := fun past b => Kept ((opening profile root delay).tale past)
    ∧ (Booked (opening profile root delay) past b ∨ b.Ended profile.displayName))
    ⟨kept_nil, .inl (opening_booked profile root delay)⟩ ?_ possible
  intro past h _ hbefore hcan
  obtain ⟨hk, hb | he⟩ := hbefore
  · by_cases hdisposal : h = .disposal
    · subst hdisposal
      refine ⟨?_, .inr hb.live.meet_disposal⟩
      rw [tale_snoc]
      exact (List.append_nil _).symm ▸ hk
    · exact ⟨hb.kept hk (hb.telling (hb.live.outcome hcan hdisposal)), .inl (hb.meet hcan hdisposal)⟩
  · refine ⟨?_, .inr (he.meet h).1⟩
    rw [tale_snoc, told_of_ended he, List.map_nil, List.append_nil]
    exact hk

theorem booked_of_alive {profile : CheckerProfile} {root : Path} {delay : Nat} {past : List Happening}
    (possible : (opening profile root delay).Possible past)
    (alive : ((opening profile root delay).after past).checker.runs.disposed = false) :
    Booked (opening profile root delay) past ((opening profile root delay).after past) := by
  rcases (kept_and_booked possible).2 with hb | he
  · exact hb
  · rw [he.disposed] at alive
    cases alive

end Bench

end SyntaxWatch
