import SyntaxWatch.Proofs.Checker.Freshness
import SyntaxWatch.Proofs.Engine.Lockstep

/-!
# The end of a checker

A checker may end with work in every stage: a timer that has run out already, a process whose output
is on its way, lookups half done. None of it is heard any more. `EndsForGood` says so for every
later state of the engine, reached by whatever moves: the collection stays empty and nobody has
tried to write to it, and the checker has asked for nothing and told nothing since.

A reload ends all checkers before it starts new ones. The new ones may have the same names, and work
of the old ones may still come back; it comes back to the old ones. What a new collection holds was
brought by a run that the new checker launched itself.
-/

set_option autoImplicit false

namespace SyntaxWatch

namespace Workshop

variable {w : Workshop}

/-! ## 1. Where a workshop begins -/

theorem opening_lockstep (root : Path) (feedCapacity : Nat) : (opening root feedCapacity).Lockstep :=
  ⟨nofun, fun _ _ => rfl⟩

theorem opening_coherent (root : Path) (feedCapacity : Nat) : (opening root feedCapacity).Coherent := nofun

theorem opening_retired (root : Path) (feedCapacity : Nat) : (opening root feedCapacity).Retired := nofun

/-! ## 2. After the end -/

/-- The checker with a number, which has ended in `w` as `c`, is silent in `v`. -/
structure Silent (w : Workshop) (i : Nat) (c : Checker) (v : Workshop) : Prop where
  /-- It is still there, with a collection that is empty and has not been written to, and all that
  it has ever asked for and told is what it had asked for and told at its end. -/
  stays : ∃ d, v.engine.checkers[i]? = some d ∧ d.isDisposed = true
    ∧ d.collection = ⟨c.name, [], true, 0⟩ ∧ (v.bench i d).effects = (w.bench i c).effects
  /-- Whatever is delivered to it changes nothing and asks for nothing. -/
  deaf : ∀ input, v.engine.deliver i input = (v.engine, [])

theorem ended_of_disposed (hlockstep : w.Lockstep) (hcoherent : w.Coherent) {i : Nat} {c : Checker}
    (hc : w.engine.checkers[i]? = some c) (hended : c.isDisposed = true) :
    (w.bench i c).Ended c.name := by
  rcases Bench.live_or_ended (hcoherent i c hc) with hl | he
  · have halive : (w.bench i c).checker.runs.disposed = false := hl.orderly.alive
    rw [hlockstep.checker i c hc] at halive
    have hended : c.runs.disposed = true := hended
    rw [halive] at hended
    cases hended
  · exact he

theorem bench_later {v : Workshop} {i : Nat} {c d : Checker} {more : List Happening}
    (hcd : Checker.Later c d) (hmore : v.history i = w.history i ++ more) :
    v.bench i d = (w.bench i c).after more := by
  unfold bench
  rw [hcd.profile, hcd.root, hcd.delay, hmore, Bench.after_append]

/-- **An ended checker stays silent**, whatever is done with the engine. -/
theorem silent_after (hlockstep : w.Lockstep) (hcoherent : w.Coherent) {i : Nat} {c : Checker}
    (hc : w.engine.checkers[i]? = some c) (hended : c.isDisposed = true) (moves : List Move) :
    Silent w i c (w.after moves) := by
  have hcourse := after_course w moves
  obtain ⟨d, hd, hcd⟩ := hcourse.later.checkers i c hc
  obtain ⟨more, hmore⟩ := hcourse.later.histories i
  have hbench := bench_later hcd hmore
  obtain ⟨hstill, heffects⟩ := (ended_of_disposed hlockstep hcoherent hc hended).after more
  rw [← hbench] at hstill heffects
  have hchecker := (hcourse.lockstep hlockstep).checker i d hd
  have hdisposed : d.isDisposed = true := hcd.disposed hended
  refine ⟨⟨d, hd, hdisposed, ?_, heffects⟩, Engine.deliver_of_disposed hd hdisposed⟩
  rw [← hchecker]
  exact hstill.collection

/-! ## 3. Who ends -/

theorem disposed_of_teardown (i : Nat) {c : Checker}
    (hc : (w.act (.hear i .disposal)).engine.checkers[i]? = some c) : c.isDisposed = true := by
  have hc : (w.give i .disposal).engine.checkers[i]? = some c := hc
  rw [give_self] at hc
  obtain ⟨b, _, rfl⟩ := Option.map_eq_some_iff.mp hc
  rfl

theorem disposed_of_shutdown (hretired : w.Retired) {i : Nat} {c : Checker}
    (hc : w.shutdown.engine.checkers[i]? = some c) : c.isDisposed = true := by
  have hcourse : Course (fun _ _ _ => True) w w.shutdown := shutdown_course (fun _ _ => trivial) w
  exact hcourse.retired hretired i c hc List.not_mem_nil

theorem disposed_of_reload (hretired : w.Retired) (active : Option DocumentRef) (settings : Settings)
    {i : Nat} {c : Checker} (hold : i < w.engine.checkers.length)
    (hc : (w.act (.reload active settings)).engine.checkers[i]? = some c) : c.isDisposed = true := by
  have hshutdown : Course (fun _ _ _ => True) w w.shutdown := shutdown_course (fun _ _ => trivial) w
  have henroll : Course (fun _ _ _ => True) w.shutdown (w.act (.reload active settings)) :=
    enrollAll_course (fun _ _ _ => trivial) _ active settings
  obtain ⟨a, ha, _⟩ := hshutdown.later.checkers i _ (List.getElem?_eq_getElem hold)
  obtain ⟨b, hb, hab⟩ := henroll.later.checkers i a ha
  cases hb.symm.trans hc
  exact hab.disposed (disposed_of_shutdown hretired ha)

/-! ## 4. Who comes after them -/

/-- What a collection holds was brought by a run that its own checker launched. -/
theorem explained (hlockstep : w.Lockstep) (hcoherent : w.Coherent) {i : Nat} {c : Checker}
    (hc : w.engine.checkers[i]? = some c) {entry : Uri × List Diagnostic}
    (hentry : entry ∈ c.collection.entries) :
    ∃ o : Bench.Origin, o.Explains (.opening c.profile c.root c.delay) (w.history i) entry := by
  refine Bench.explained (hcoherent i c hc) ?_
  show entry ∈ (w.bench i c).checker.collection.entries
  rw [hlockstep.checker i c hc]
  exact hentry

/-- The ends of checkers are final in an engine that is here. -/
structure EndsForGood (w : Workshop) : Prop where
  /-- Whoever has ended is silent after any moves, possible or not. -/
  silent : ∀ (i : Nat) (c : Checker), w.engine.checkers[i]? = some c → c.isDisposed = true →
    ∀ moves, Silent w i c (w.after moves)
  /-- A checker ends when it is torn down, … -/
  teardown : ∀ (i : Nat) (c : Checker),
    (w.act (.hear i .disposal)).engine.checkers[i]? = some c → c.isDisposed = true
  /-- … all of them end at a shutdown, … -/
  shutdown : ∀ (i : Nat) (c : Checker),
    (w.act .shutdown).engine.checkers[i]? = some c → c.isDisposed = true
  /-- … and all that there are at a reload. -/
  reload : ∀ active settings (i : Nat) (c : Checker), i < w.engine.checkers.length →
    (w.act (.reload active settings)).engine.checkers[i]? = some c → c.isDisposed = true
  /-- The checkers that come with a reload or later have no history yet, and whatever their
  collections will hold has its origin in their own. -/
  renewed : ∀ active settings moves, (w.act (.reload active settings)).Possible moves →
    ∀ (i : Nat) (c : Checker), w.engine.checkers.length ≤ i →
      ((w.act (.reload active settings)).after moves).engine.checkers[i]? = some c →
        w.history i = [] ∧ ∀ entry ∈ c.collection.entries, ∃ o : Bench.Origin,
          o.Explains (.opening c.profile c.root c.delay)
            (((w.act (.reload active settings)).after moves).history i) entry

/-- **The end of a checker is final**, whatever moves have led to the engine that it ended in. -/
theorem ends_for_good {root : Path} {feedCapacity : Nat} {moves : List Move}
    (possible : (opening root feedCapacity).Possible moves) :
    ((opening root feedCapacity).after moves).engine = moves.foldl Move.carryOut (.idle root feedCapacity)
      ∧ EndsForGood ((opening root feedCapacity).after moves) := by
  have hcourse := possible_course possible
  have hlockstep := hcourse.lockstep (opening_lockstep root feedCapacity)
  have hcoherent := hcourse.coherent (opening_lockstep root feedCapacity) (opening_coherent root feedCapacity)
  have hretired := hcourse.retired (opening_retired root feedCapacity)
  refine ⟨after_engine _ _, ?_, ?_, ?_, ?_, ?_⟩
  · intro i c hc hended later
    exact silent_after hlockstep hcoherent hc hended later
  · intro i c hc
    exact disposed_of_teardown i hc
  · intro i c hc
    exact disposed_of_shutdown hretired hc
  · intro active settings i c hold hc
    exact disposed_of_reload hretired active settings hold hc
  · intro active settings later hlater i c hnew hc
    have hreload : Course CanHear ((opening root feedCapacity).after moves)
        (((opening root feedCapacity).after moves).act (.reload active settings)) :=
      act_course (fun _ _ _ _ _ => trivial) (fun _ _ _ _ => trivial) nofun
    have hall := hreload.trans (possible_course hlater)
    refine ⟨hlockstep.unborn i hnew, fun entry hentry => ?_⟩
    exact explained (hall.lockstep hlockstep) (hall.coherent hlockstep hcoherent) hc hentry

def sampleSettings : Settings := ⟨500, [⟨"check", "Check", [], ["c"]⟩]⟩

/-- A reload comes while a lookup goes on. The new checker has the same name, and hears nothing of
it. -/
def reloaded : List Move :=
  [.start none sampleSettings, .trigger Bench.sampleDocument, .hear 0 (.expiry 1 Bench.sampleDocument),
    .hear 0 (.output 1 Bench.sampleDocument [Bench.sampleFinding "<stdin>"]), .reload none sampleSettings,
    .hear 1 (.trigger Bench.sampleDocument), .hear 1 (.expiry 1 Bench.sampleDocument),
    .hear 0 (.answer 1 ⟨Bench.sampleParcel, none⟩)]

theorem ends_for_good_reloaded :
    (opening (.ofText "/w") 16).Possible reloaded
      ∧ ((opening (.ofText "/w") 16).after reloaded).engine.checkers.map Checker.isDisposed = [true, false]
      ∧ EndsForGood ((opening (.ofText "/w") 16).after reloaded) :=
  ⟨by decide +kernel, by decide +kernel, (ends_for_good (by decide +kernel)).2⟩

end Workshop

end SyntaxWatch
