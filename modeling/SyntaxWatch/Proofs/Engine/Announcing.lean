import Mathlib.Data.List.Nodup
import SyntaxWatch.Proofs.Engine.Clock
import SyntaxWatch.Proofs.Engine.Roster

/-!
# Announcements and timers

A checker has one timer. Each announced document that it covers sets the timer anew, so when several have come
before the delay is over, the timer is set for the last of them and the others are forgotten (`Asked`). The
run that begins is of that one document (`checks_of_primed`).

Of a burst a listener hears what its feed has kept, and a feed keeps announcements whether or not its listener
cares for them. The timer is set for the last document of the burst that the checker covers just if one such
document is among those that were kept (`announce_asked`, `last_kept`).

## What is *not* in it

A promise that the end of a burst is never lost. Documents that a checker does not cover can push out the one
that it does, and then nothing tells the checker, as the example below `last_kept` shows.
-/

set_option autoImplicit false

namespace SyntaxWatch

/-! ## 1. What a feed keeps -/

namespace Feed

theorem foldl_push (capacity : Nat) (burst : List DocumentRef) :
    burst.foldl push (empty capacity) = ⟨capacity, burst.drop (burst.length - capacity)⟩ := by
  induction burst using List.reverseRecOn with
  | nil =>
    rw [List.drop_nil]
    rfl
  | append_singleton burst document ih =>
    have hall : burst.drop (burst.length - capacity) ++ [document]
        = (burst ++ [document]).drop (burst.length - capacity) :=
      (List.drop_append_of_le_length (Nat.sub_le _ _)).symm
    rw [List.foldl_append, ih]
    unfold push
    simp only [List.foldl_cons, List.foldl_nil]
    rw [hall, List.drop_drop, List.length_drop, List.length_append, List.length_singleton]
    congr 2
    omega

/-- A feed keeps the end of a burst. -/
theorem afterBurst_eq (capacity : Nat) (burst : List DocumentRef) :
    afterBurst capacity burst = burst.drop (burst.length - capacity) :=
  congrArg Feed.waiting (foldl_push capacity burst)

end Feed

namespace Engine

variable {e f g : Engine} {i j : Nat} {b c d : Checker}

/-! ## 2. A checker that is asked for documents -/

/-- The documents that a profile covers. -/
def covered (profile : CheckerProfile) (documents : List DocumentRef) : List DocumentRef :=
  documents.filter fun document => profile.covers document.language

theorem covered_append (profile : CheckerProfile) (front back : List DocumentRef) :
    covered profile (front ++ back) = covered profile front ++ covered profile back := List.filter_append ..

/-- Between the two engines, the checker with a number has been asked for these documents. -/
structure Asked (i : Nat) (c d : Checker) (documents : List DocumentRef) (e f : Engine) : Prop where
  checker : f.checkers[i]? = some d
  worked : c.Worked d
  now : f.now = e.now
  /-- Its timer is set for the last of them, … -/
  rearmed : ∀ document ∈ documents.getLast?,
    d.runs.armed = some d.runs.armings ∧ f.timersOf i = [⟨i, d.runs.armings, document, e.now + delayOf c⟩]
  /-- … and as it was if there are none. -/
  untouched : documents = [] → d = c ∧ f.timersOf i = e.timersOf i

theorem Asked.refl (hc : e.checkers[i]? = some c) : Asked i c c [] e e :=
  ⟨hc, .refl c, rfl, nofun, fun _ => ⟨rfl, rfl⟩⟩

theorem Asked.trans {front back : List DocumentRef} (hef : Asked i b c front e f) (hfg : Asked i c d back f g) :
    Asked i b d (front ++ back) e g := by
  have hdelay : delayOf c = delayOf b := by
    unfold delayOf
    rw [hef.worked.delay]
  refine ⟨hfg.checker, hef.worked.trans hfg.worked, hfg.now.trans hef.now, ?_, ?_⟩
  · intro document hlast
    by_cases hback : back = []
    · subst hback
      obtain ⟨rfl, htimers⟩ := hfg.untouched rfl
      rw [List.append_nil] at hlast
      rw [htimers]
      exact hef.rearmed document hlast
    · rw [List.getLast?_append_of_ne_nil _ hback] at hlast
      rw [← hdelay, ← hef.now]
      exact hfg.rearmed document hlast
  · intro hnone
    obtain ⟨hfront, hback⟩ := List.append_eq_nil_iff.mp hnone
    obtain ⟨rfl, htimers⟩ := hef.untouched hfront
    obtain ⟨rfl, htimers'⟩ := hfg.untouched hback
    exact ⟨rfl, htimers'.trans htimers⟩

theorem Asked.same {documents : List DocumentRef} (hasked : Asked i c d documents e f) (hsame : SameFor i f g) :
    Asked i c d documents e g := by
  refine ⟨hsame.checker.trans hasked.checker, hasked.worked, hsame.now.trans hasked.now, ?_, ?_⟩
  · rw [hsame.timers]
    exact hasked.rearmed
  · rw [hsame.timers]
    exact hasked.untouched

theorem Asked.after {documents : List DocumentRef} (hsame : SameFor i e f)
    (hasked : Asked i c d documents f g) : Asked i c d documents e g := by
  refine ⟨hasked.checker, hasked.worked, hasked.now.trans hsame.now, ?_, ?_⟩
  · rw [← hsame.now]
    exact hasked.rearmed
  · rw [← hsame.timers]
    exact hasked.untouched

theorem Asked.alive {documents : List DocumentRef} (hasked : Asked i c d documents e f)
    (alive : c.runs.disposed = false) : d.runs.disposed = false :=
  hasked.worked.disposed.trans alive

/-- What its timer was set for counts only if there is no document. -/
theorem Asked.primed {documents : List DocumentRef} (hasked : Asked i c d documents e f)
    {set : Option (Nat × DocumentRef)} (hp : e.Primed i c set) :
    f.Primed i d ((documents.getLast?.map (Prod.mk e.now)).or set) := by
  cases hlast : documents.getLast? with
  | none =>
    obtain ⟨rfl, htimers⟩ := hasked.untouched (List.getLast?_eq_none_iff.mp hlast)
    exact ⟨hasked.checker, hp.alive, hp.armed, htimers.trans hp.timers⟩
  | some document =>
    obtain ⟨harmed, htimers⟩ := hasked.rearmed document hlast
    have hdelay : delayOf d = delayOf c := by
      unfold delayOf
      rw [hasked.worked.delay]
    rw [← hdelay] at htimers
    exact ⟨hasked.checker, hasked.alive hp.alive, harmed, htimers⟩

/-! ### One document after the other -/

theorem triggerOne_of_ne (hne : j ≠ i) (e : Engine) (document : DocumentRef) :
    SameFor i e (e.triggerOne document j) := by
  rcases e.triggerOne_eq document j with hsame | hheard
  · rw [hsame]
    exact .refl i e
  · rw [hheard]
    exact (deliver_of_ne hne e _).1

theorem triggerOne_office (e : Engine) (document : DocumentRef) (i : Nat) :
    SameOffice e (e.triggerOne document i) := by
  rcases e.triggerOne_eq document i with hsame | hheard
  · rw [hsame]
    exact .refl e
  · rw [hheard]
    exact hear_office e i _

theorem triggerOne_asked (hc : e.checkers[i]? = some c) (alive : c.runs.disposed = false)
    (document : DocumentRef) :
    ∃ d, Asked i c d (covered c.profile [document]) e (e.triggerOne document i) := by
  unfold triggerOne
  rw [hc]
  dsimp only
  by_cases hcovers : c.profile.covers document.language = true
  · have hstep := Checker.step_trigger alive document
    rw [if_pos hcovers, show covered c.profile [document] = [document] from List.filter_cons_of_pos hcovers]
    refine ⟨(c.step (.trigger document)).1, deliver_checker hc _, Checker.step_worked _, deliver_now hc _, ?_,
      nofun⟩
    rintro x hx
    cases hx
    rw [deliver_of_some hc, hstep]
    exact ⟨rfl, carryOutAll_startTimer _ _ _ _ _⟩
  · rw [if_neg hcovers, show covered c.profile [document] = [] from List.filter_cons_of_neg hcovers]
    exact ⟨c, .refl hc⟩

/-- The checker with a number hears of documents, in their order. -/
def listen (e : Engine) (heard : List DocumentRef) (i : Nat) : Engine :=
  heard.foldl (fun e document => e.triggerOne document i) e

/-- **A listener that goes through its feed** asks its checker for whatever that one covers. -/
theorem listen_asked (hc : e.checkers[i]? = some c) (alive : c.runs.disposed = false) (heard : List DocumentRef) :
    ∃ d, Asked i c d (covered c.profile heard) e (e.listen heard i) := by
  induction heard generalizing e c with
  | nil => exact ⟨c, .refl hc⟩
  | cons document later ih =>
    obtain ⟨d, hfirst⟩ := triggerOne_asked hc alive document
    obtain ⟨d', hrest⟩ := ih hfirst.checker (hfirst.alive alive)
    rw [hfirst.worked.profile] at hrest
    refine ⟨d', ?_⟩
    rw [← List.singleton_append, covered_append]
    exact hfirst.trans hrest

theorem listen_of_ne (hne : j ≠ i) (e : Engine) (heard : List DocumentRef) : SameFor i e (e.listen heard j) := by
  unfold listen
  exact List.foldlRecOn heard _ (SameFor.refl i e) fun f hf document _ =>
    hf.trans (triggerOne_of_ne hne f document)

theorem listen_office (e : Engine) (heard : List DocumentRef) (i : Nat) : SameOffice e (e.listen heard i) := by
  unfold listen
  exact List.foldlRecOn heard _ (SameOffice.refl e) fun f hf document _ =>
    hf.trans (triggerOne_office f document i)

/-! ## 3. Announcements -/

/-- All listeners hear the same, and each of them what its feed has kept. -/
theorem announce_eq (e : Engine) (burst : List DocumentRef) :
    e.announce burst
      = e.enrolled.foldl (fun f i => f.listen (burst.drop (burst.length - e.feedCapacity)) i) e := by
  have hall : ∀ (is : List Nat) (f : Engine), f.feedCapacity = e.feedCapacity →
      is.foldl (fun f i => f.listen (Feed.afterBurst f.feedCapacity burst) i) f
        = is.foldl (fun f i => f.listen (burst.drop (burst.length - e.feedCapacity)) i) f := by
    intro is
    induction is with
    | nil => exact fun _ _ => rfl
    | cons i is ih =>
      intro f hf
      rw [List.foldl_cons, List.foldl_cons, Feed.afterBurst_eq, hf]
      exact ih _ ((f.listen_office _ i).feedCapacity.trans hf)
  exact hall e.enrolled e rfl

theorem foldl_listen_of_not_mem (heard : List DocumentRef) {is : List Nat} (hi : i ∉ is) (e : Engine) :
    SameFor i e (is.foldl (fun f j => f.listen heard j) e) := by
  refine List.foldlRecOn is (fun f j => f.listen heard j) (SameFor.refl i e) fun f hf j hj => ?_
  have hne : j ≠ i := by
    rintro rfl
    exact hi hj
  exact hf.trans (listen_of_ne hne f heard)

/-- **An announced burst**: an enrolled checker is asked for whatever it covers of what its feed has kept. -/
theorem announce_asked (nodup : e.enrolled.Nodup) (enrolled : i ∈ e.enrolled) (hc : e.checkers[i]? = some c)
    (alive : c.runs.disposed = false) (burst : List DocumentRef) :
    ∃ d, Asked i c d (covered c.profile (burst.drop (burst.length - e.feedCapacity))) e (e.announce burst) := by
  obtain ⟨front, back, hroll⟩ := List.append_of_mem enrolled
  obtain ⟨hfront, hback⟩ : i ∉ front ∧ i ∉ back := by
    rw [hroll, List.nodup_middle, List.nodup_cons, List.mem_append, not_or] at nodup
    exact nodup.1
  have hbefore := foldl_listen_of_not_mem (burst.drop (burst.length - e.feedCapacity)) hfront e
  obtain ⟨d, hasked⟩ :=
    listen_asked (hbefore.checker.trans hc) alive (burst.drop (burst.length - e.feedCapacity))
  rw [announce_eq, hroll, List.foldl_append, List.foldl_cons]
  exact ⟨d, (hasked.after hbefore).same (foldl_listen_of_not_mem _ hback _)⟩

/-- **What is kept of a burst tells its last document** that a profile covers, as soon as it has one that the
profile covers at all. A burst that is no longer than the feed is kept as a whole. -/
theorem last_kept (profile : CheckerProfile) (capacity : Nat) (burst : List DocumentRef) :
    (covered profile (burst.drop (burst.length - capacity)) ≠ [] →
        (covered profile (burst.drop (burst.length - capacity))).getLast? = (covered profile burst).getLast?)
      ∧ (burst.length ≤ capacity → burst.drop (burst.length - capacity) = burst) := by
  constructor
  · intro hkept
    rw [← List.getLast?_append_of_ne_nil (covered profile (burst.take (burst.length - capacity))) hkept,
      ← covered_append, List.take_append_drop]
  · intro hfits
    rw [Nat.sub_eq_zero_of_le hfits, List.drop_zero]

/-- Two texts push out the one document that a listener would have cared for. -/
example :
    Feed.afterBurst 2
        [⟨0, ⟨"file:///w/a.c"⟩, "c"⟩, ⟨1, ⟨"file:///w/b"⟩, "text"⟩, ⟨2, ⟨"file:///w/d"⟩, "text"⟩]
      = [⟨1, ⟨"file:///w/b"⟩, "text"⟩, ⟨2, ⟨"file:///w/d"⟩, "text"⟩] := by decide

theorem announce_office (e : Engine) (burst : List DocumentRef) : SameOffice e (e.announce burst) := by
  rw [announce_eq]
  exact List.foldlRecOn e.enrolled _ (SameOffice.refl e) fun f hf i _ => hf.trans (f.listen_office _ i)

/-- Announces documents one by one. -/
def announceEach (e : Engine) (documents : List DocumentRef) : Engine :=
  documents.foldl (fun e document => e.announce [document]) e

theorem announceEach_cons (e : Engine) (document : DocumentRef) (documents : List DocumentRef) :
    e.announceEach (document :: documents) = (e.announce [document]).announceEach documents := rfl

/-- **Announced one by one**, documents are all heard. -/
theorem announceEach_asked (room : 0 < e.feedCapacity) (nodup : e.enrolled.Nodup) (enrolled : i ∈ e.enrolled)
    (hc : e.checkers[i]? = some c) (alive : c.runs.disposed = false) (documents : List DocumentRef) :
    ∃ d, Asked i c d (covered c.profile documents) e (e.announceEach documents) := by
  induction documents generalizing e c with
  | nil => exact ⟨c, .refl hc⟩
  | cons document documents ih =>
    have hoffice := e.announce_office [document]
    obtain ⟨d, hfirst⟩ := announce_asked nodup enrolled hc alive [document]
    rw [(last_kept c.profile e.feedCapacity [document]).2 room] at hfirst
    obtain ⟨d', hrest⟩ := ih (hoffice.feedCapacity ▸ room) (hoffice.enrolled ▸ nodup)
      (hoffice.enrolled ▸ enrolled) hfirst.checker (hfirst.alive alive)
    rw [hfirst.worked.profile] at hrest
    refine ⟨d', ?_⟩
    rw [announceEach_cons, ← List.singleton_append, covered_append]
    exact hfirst.trans hrest

/-! ## 4. The run that begins -/

/-- The clock moves on, and the timer rings or goes on. -/
theorem Primed.pass {set : Option (Nat × DocumentRef)} (hp : e.Primed i c set) (ms : Nat) :
    ∃ d, (e.beat (.pass ms)).1.Primed i d (set.filter fun x => decide (e.now + ms < x.1 + delayOf c))
      ∧ delayOf d = delayOf c
      ∧ (e.beat (.pass ms)).2.filterMap (Request.launch? i)
        = (set.filter fun x => decide (x.1 + delayOf c ≤ e.now + ms)).toList.map Prod.snd
      ∧ (e.beat (.pass ms)).1.now = e.now + ms := by
  cases set with
  | none =>
    have hearly : ∀ x ∈ (none : Option (Nat × DocumentRef)), e.now + ms < x.1 + delayOf c := nofun
    obtain ⟨hnext, hquiet, hnow⟩ := hp.pass_early hearly
    exact ⟨c, hnext, rfl, hquiet, hnow⟩
  | some trigger =>
    by_cases hdue : trigger.1 + delayOf c ≤ e.now + ms
    · obtain ⟨hnext, hdelay, hlaunch, hnow⟩ := hp.pass_due hdue
      refine ⟨_, ?_, hdelay, ?_, hnow⟩
      · rw [Option.filter_some_neg (by simpa using hdue)]
        exact hnext
      · rw [Option.filter_some_pos (by simpa using hdue)]
        exact hlaunch
    · have hlate : e.now + ms < trigger.1 + delayOf c := Nat.lt_of_not_le hdue
      have hearly : ∀ x ∈ some trigger, e.now + ms < x.1 + delayOf c := by simpa using hlate
      obtain ⟨hnext, hquiet, hnow⟩ := hp.pass_early hearly
      refine ⟨c, ?_, rfl, ?_, hnow⟩
      · rw [Option.filter_some_pos (by simpa using hlate)]
        exact hnext
      · rw [Option.filter_some_neg (by simpa using hdue)]
        exact hquiet

/-- What has rung by some time, and what goes on then and rings by a later one, is what rings by the later one. -/
theorem filter_due_append {set : Option (Nat × DocumentRef)} {delay now finish : Nat} (hle : now ≤ finish) :
    (set.filter fun x => decide (x.1 + delay ≤ now)).toList.map Prod.snd
        ++ ((set.filter fun x => decide (now < x.1 + delay)).filter
            fun x => decide (x.1 + delay ≤ finish)).toList.map Prod.snd
      = (set.filter fun x => decide (x.1 + delay ≤ finish)).toList.map Prod.snd := by
  cases set with
  | none => rfl
  | some x =>
    by_cases hdue : x.1 + delay ≤ now
    · have hlater : x.1 + delay ≤ finish := Nat.le_trans hdue hle
      simp [Option.filter_some, hdue, hlater, Nat.not_lt.mpr hdue]
    · simp [Option.filter_some, hdue, Nat.lt_of_not_le hdue]

/-- The documents of the runs of a checker that begin, in their order. -/
def checks (i : Nat) (e : Engine) (beats : List Beat) : List DocumentRef := (launches i e beats).map Onset.document

theorem checks_cons (i : Nat) (e : Engine) (b : Beat) (later : List Beat) :
    checks i e (b :: later) = (e.beat b).2.filterMap (Request.launch? i) ++ checks i (e.beat b).1 later := by
  unfold checks
  rw [launches_cons, List.map_append, List.map_map]
  congr 1
  exact List.map_id _

/-- **The run that begins is of the document that the timer was set for**, as soon as the clock has moved to the
end of the delay, and there is no other one as long as nobody asks the checker for a document. -/
theorem checks_of_primed {set : Option (Nat × DocumentRef)} {beats : List Beat} {ms : Nat}
    (hp : e.Primed i c set) (hfair : AllFair i e (beats ++ [.pass ms]))
    (hnone : Beat.triggers i e.now (beats ++ [.pass ms]) = []) :
    checks i e (beats ++ [.pass ms])
      = (set.filter fun x =>
          decide (x.1 + delayOf c ≤ Beat.clock e.now (beats ++ [.pass ms]))).toList.map Prod.snd := by
  induction beats generalizing e c set with
  | nil =>
    obtain ⟨d, _, _, hlaunch, _⟩ := hp.pass ms
    rw [List.nil_append, checks_cons, hlaunch]
    exact List.append_nil _
  | cons b later ih =>
    rw [List.cons_append, checks_cons, beat_clock]
    cases b with
    | pass ms' =>
      obtain ⟨d, hnext, hdelay, hlaunch, hnow⟩ := hp.pass ms'
      have hquiet : Beat.triggers i (e.beat (.pass ms')).1.now (later ++ [.pass ms]) = [] := by
        rw [hnow]
        exact hnone
      rw [ih hnext hfair.2 hquiet, hlaunch, hdelay]
      refine filter_due_append ?_
      rw [← hnow]
      exact Beat.le_clock _ _
    | hear j input =>
      have hnow : (e.beat (.hear j input)).1.now = e.now := deliver_clock e j input
      by_cases hj : j = i
      · subst hj
        rcases isTiming_of_fair hp.checker hfair.1 with ⟨document, rfl⟩ | haside
        · rw [List.cons_append, Beat.triggers_hear_trigger] at hnone
          cases hnone
        · obtain ⟨hnext, hdelay, hquiet, _⟩ := hp.deliver_aside haside
          rw [List.cons_append, Beat.triggers_hear_of_aside haside, ← hnow] at hnone
          rw [ih (e := (e.beat (.hear j input)).1) hnext hfair.2 hnone, hdelay]
          rw [show (e.beat (.hear j input)).2.filterMap (Request.launch? j) = [] from hquiet]
          rfl
      · obtain ⟨hsame, hquiet⟩ := deliver_of_ne hj e input
        rw [List.cons_append, Beat.triggers_hear_of_ne hj, ← hnow] at hnone
        rw [ih (e := (e.beat (.hear j input)).1) (hp.same hsame) hfair.2 hnone]
        rw [show (e.beat (.hear j input)).2.filterMap (Request.launch? i) = [] from hquiet]
        rfl

end Engine

end SyntaxWatch
