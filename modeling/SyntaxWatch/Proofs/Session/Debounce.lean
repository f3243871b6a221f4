import SyntaxWatch.Proofs.Engine.Clock
import SyntaxWatch.Session

/-!
# When a run begins, and on which text

What a session does with its engine is beats of the clock: a move of the clock lets the timers that
have run out be heard first, and what comes of that is heard before anything else can happen
(`advance_beats`). A trigger carries no text. The text is read when the run begins, from the documents
as they are then (`HandsOver`).

Together with the order in which runs begin on a bench, and with the times at which they begin on the
clock, this is all that there is to say about when a run begins.
-/

set_option autoImplicit false

namespace SyntaxWatch

namespace Session

variable {s t u : Session}

/-! ## 1. What is read -/

/-- From one session to the other, all that begins is handed the text that its document has. -/
structure HandsOver (s t : Session) : Prop where
  documents : t.documents = s.documents
  programs : t.programs = s.programs
  place : t.files = s.files ∧ t.directory = s.directory ∧ t.engine.root = s.engine.root
  runs : ∀ r ∈ t.openRuns, r ∈ s.openRuns
    ∨ ∃ tool, (s.programs[r.checker]?.getD default).startIn (s.files.refusal s.directory s.engine.root) = .ok tool
      ∧ r.output = tool.findings (s.documents.textOf r.document)

theorem HandsOver.refl (s : Session) : HandsOver s s := ⟨rfl, rfl, ⟨rfl, rfl, rfl⟩, fun _ hr => .inl hr⟩

theorem HandsOver.trans (hst : HandsOver s t) (htu : HandsOver t u) : HandsOver s u := by
  obtain ⟨hfiles, hdirectory, hroot⟩ := hst.place
  obtain ⟨hfiles', hdirectory', hroot'⟩ := htu.place
  refine ⟨htu.documents.trans hst.documents, htu.programs.trans hst.programs,
    ⟨hfiles'.trans hfiles, hdirectory'.trans hdirectory, hroot'.trans hroot⟩, ?_⟩
  intro r hr
  rcases htu.runs r hr with hr | hread
  · exact hst.runs r hr
  · rw [hst.programs, hst.documents, hfiles, hdirectory, hroot] at hread
    exact .inr hread

/-- Serving requests and giving inputs to checkers leaves all the rest of a session alone. -/
theorem launch_handsOver (s : Session) (checker token : Nat) (document : DocumentRef) :
    HandsOver s (s.launch checker token document).1 := by
  unfold launch
  split
  · exact ⟨rfl, rfl, ⟨rfl, rfl, rfl⟩, fun _ hr => .inl hr⟩
  · split
    · exact .refl s
    · rename_i tool hstart
      refine ⟨rfl, rfl, ⟨rfl, rfl, rfl⟩, ?_⟩
      intro r hr
      rcases List.mem_append.mp hr with hr | hr
      · exact .inl hr
      · rw [List.mem_singleton.mp hr]
        exact .inr ⟨tool, hstart, rfl⟩

theorem serve_handsOver (s : Session) (request : Request) : HandsOver s (s.serve request).1 := by
  cases request with
  | launch checker token document => exact launch_handsOver s checker token document
  | lookUp checker token target findings =>
    unfold serve beginLookup
    dsimp only
    split
    · exact ⟨rfl, rfl, ⟨rfl, rfl, rfl⟩, fun _ hr => .inl hr⟩
    · exact ⟨rfl, rfl, ⟨rfl, rfl, rfl⟩, fun _ hr => .inl hr⟩
  | warn message => exact ⟨rfl, rfl, ⟨rfl, rfl, rfl⟩, fun _ hr => .inl hr⟩

theorem serveAll_handsOver (s : Session) (requests : List Request) :
    HandsOver s (s.serveAll requests).1 := by
  induction requests generalizing s with
  | nil => exact .refl s
  | cons request others ih => exact (serve_handsOver s request).trans (ih (s.serve request).1)

theorem round_cons (s : Session) (i : Nat) (input : Input) (others : List (Nat × Input)) :
    s.round ((i, input) :: others)
      = (((({ s with engine := (s.engine.deliver i input).1 } : Session).serveAll
            (s.engine.deliver i input).2).1.round others).1,
          (({ s with engine := (s.engine.deliver i input).1 } : Session).serveAll
            (s.engine.deliver i input).2).2
          ++ ((({ s with engine := (s.engine.deliver i input).1 } : Session).serveAll
            (s.engine.deliver i input).2).1.round others).2) := rfl

theorem round_handsOver (s : Session) (inputs : List (Nat × Input)) : HandsOver s (s.round inputs).1 := by
  induction inputs generalizing s with
  | nil => exact .refl s
  | cons input others ih =>
    obtain ⟨i, input⟩ := input
    have hdelivered : HandsOver s { s with engine := (s.engine.deliver i input).1 } :=
      ⟨rfl, rfl, ⟨rfl, rfl, (s.engine.deliver_office i input).root⟩, fun _ hr => .inl hr⟩
    rw [round_cons]
    exact hdelivered.trans ((serveAll_handsOver _ _).trans (ih _))

/-- **A run is handed the text that its document has when it begins.** -/
theorem rest_handsOver (s : Session) (inputs : List (Nat × Input)) : HandsOver s (s.rest inputs) :=
  (round_handsOver s inputs).trans (round_handsOver _ _)

/-! ## 2. Beats -/

/-- Inputs that are not about time, whatever the checker waits for. -/
def AllAside (inputs : List (Nat × Input)) : Prop := ∀ x ∈ inputs, ∀ runs, x.2.isTiming runs = false

theorem AllAside.single {x : Nat × Input} (hx : ∀ runs, x.2.isTiming runs = false) : AllAside [x] := by
  intro y hy
  rw [List.mem_singleton.mp hy]
  exact hx

theorem AllAside.append {inputs others : List (Nat × Input)} (hinputs : AllAside inputs)
    (hothers : AllAside others) : AllAside (inputs ++ others) := by
  intro x hx
  rcases List.mem_append.mp hx with hx | hx
  · exact hinputs x hx
  · exact hothers x hx

theorem launch_engine (s : Session) (checker token : Nat) (document : DocumentRef) :
    (s.launch checker token document).1.engine = s.engine
      ∧ AllAside (s.launch checker token document).2 := by
  unfold launch
  split
  · exact ⟨rfl, .single fun _ => rfl⟩
  · split
    · exact ⟨rfl, .single fun _ => rfl⟩
    · exact ⟨rfl, nofun⟩

theorem beginLookup_engine (s : Session) (l : WaitingLookup) :
    (s.beginLookup l).1.engine = s.engine ∧ AllAside (s.beginLookup l).2 := by
  unfold beginLookup
  dsimp only
  split
  · exact ⟨rfl, nofun⟩
  · exact ⟨rfl, .single fun _ => rfl⟩

theorem serve_engine (s : Session) (request : Request) :
    (s.serve request).1.engine = s.engine ∧ AllAside (s.serve request).2 := by
  cases request with
  | launch checker token document => exact launch_engine s checker token document
  | lookUp checker token target findings => exact beginLookup_engine s _
  | warn message => exact ⟨rfl, nofun⟩

theorem serveAll_engine (s : Session) (requests : List Request) :
    (s.serveAll requests).1.engine = s.engine ∧ AllAside (s.serveAll requests).2 := by
  induction requests generalizing s with
  | nil => exact ⟨rfl, nofun⟩
  | cons request others ih =>
    obtain ⟨hengine, haside⟩ := serve_engine s request
    obtain ⟨hrest, hasides⟩ := ih (s.serve request).1
    exact ⟨hrest.trans hengine, haside.append hasides⟩

theorem round_engine (s : Session) (inputs : List (Nat × Input)) :
    (s.round inputs).1.engine = (s.engine.deliverAll inputs).1 ∧ AllAside (s.round inputs).2 := by
  induction inputs generalizing s with
  | nil => exact ⟨rfl, nofun⟩
  | cons input others ih =>
    obtain ⟨i, input⟩ := input
    rw [round_cons, Engine.deliverAll_cons]
    obtain ⟨hengine, haside⟩ := serveAll_engine { s with engine := (s.engine.deliver i input).1 }
      (s.engine.deliver i input).2
    obtain ⟨hrest, hasides⟩ := ih (({ s with engine := (s.engine.deliver i input).1 } : Session).serveAll
      (s.engine.deliver i input).2).1
    rw [hengine] at hrest
    exact ⟨hrest, haside.append hasides⟩

theorem rest_engine (s : Session) (inputs : List (Nat × Input)) :
    ∃ asides, AllAside asides ∧ (s.rest inputs).engine = (s.engine.deliverAll (inputs ++ asides)).1 := by
  obtain ⟨hfirst, haside⟩ := round_engine s inputs
  obtain ⟨hsecond, _⟩ := round_engine (s.round inputs).1 (s.round inputs).2
  refine ⟨(s.round inputs).2, haside, ?_⟩
  rw [Engine.deliverAll_append, ← hfirst]
  exact hsecond

/-- Runs that end bring about only what is not about time. -/
theorem endRuns_engine (s : Session) (runs : List OpenRun) :
    ∃ asides, AllAside asides ∧ (runs.foldl endRun s).engine = (s.engine.deliverAll asides).1 := by
  induction runs generalizing s with
  | nil => exact ⟨[], nofun, rfl⟩
  | cons r others ih =>
    obtain ⟨first, hfirst, hengine⟩ := rest_engine s [(r.checker, .finished r.token r.document r.output)]
    obtain ⟨later, hlater, hrest⟩ := ih (s.endRun r)
    have hended : AllAside [(r.checker, .finished r.token r.document r.output)] := .single fun _ => rfl
    refine ⟨([(r.checker, .finished r.token r.document r.output)] ++ first) ++ later,
      (hended.append hfirst).append hlater, ?_⟩
    rw [Engine.deliverAll_append, ← hengine]
    exact hrest

theorem afterBeats_hear (e : Engine) (inputs : List (Nat × Input)) :
    e.afterBeats (inputs.map fun x => .hear x.1 x.2) = (e.deliverAll inputs).1 := by
  induction inputs generalizing e with
  | nil => rfl
  | cons input others ih => exact ih (e.deliver input.1 input.2).1

theorem settle_engine (s : Session) :
    ∃ asides, AllAside asides
      ∧ s.settle.engine = (s.engine.takeDue.1.deliverAll (s.engine.takeDue.2 ++ asides)).1 := by
  obtain ⟨first, hfirst, hengine⟩ := rest_engine { s with engine := s.engine.takeDue.1 } s.engine.takeDue.2
  obtain ⟨later, hlater, hrest⟩ := endRuns_engine
    { ({ s with engine := s.engine.takeDue.1 } : Session).rest s.engine.takeDue.2 with
      openRuns := (({ s with engine := s.engine.takeDue.1 } : Session).rest
        s.engine.takeDue.2).openRuns.filter
          fun r => !(({ s with engine := s.engine.takeDue.1 } : Session).rest s.engine.takeDue.2).canEnd r }
    ((({ s with engine := s.engine.takeDue.1 } : Session).rest s.engine.takeDue.2).openRuns.filter
      (({ s with engine := s.engine.takeDue.1 } : Session).rest s.engine.takeDue.2).canEnd)
  refine ⟨first ++ later, hfirst.append hlater, ?_⟩
  rw [← List.append_assoc, Engine.deliverAll_append, ← hengine]
  exact hrest

/-- **A move of the clock is a beat**, and what comes of it is no trigger and no expiry. -/
theorem advance_beats (s : Session) (ms : Nat) :
    ∃ asides, AllAside asides
      ∧ (s.advance ms).engine = s.engine.afterBeats (.pass ms :: asides.map fun x => .hear x.1 x.2) := by
  obtain ⟨asides, hasides, hengine⟩ := settle_engine { s with engine := { s.engine with now := s.engine.now + ms } }
  refine ⟨asides, hasides, ?_⟩
  rw [Engine.deliverAll_append, ← afterBeats_hear] at hengine
  exact hengine

/-! ## 3. Together -/

/-- **When a run begins, of which document, and on which text.** On a bench it begins on the expiry of
the latest arming and is of the document of the latest trigger; it is handed the text that this
document has then; and on the clock it begins when the delay of a trigger is over that no later one has
broken, the delay being that of the checker as far as a timer can run for so long. -/
theorem debounce_exact :
    (∀ (profile : CheckerProfile) (root : Path) (delay : Nat) (past : List Happening),
        (Bench.opening profile root delay).Possible past →
          (Bench.opening profile root delay).Debounced past)
      ∧ (∀ (s : Session) (inputs : List (Nat × Input)), s.HandsOver (s.rest inputs))
      ∧ (∀ (s : Session) (ms : Nat), ∃ asides, AllAside asides
          ∧ (s.advance ms).engine = s.engine.afterBeats (.pass ms :: asides.map fun x => .hear x.1 x.2))
      ∧ ∀ (e : Engine) (i : Nat) (c : Checker) (awaited : Option (Nat × DocumentRef)) (beats : List Beat),
          e.Awaits i c awaited → 0 < c.delay → Engine.AllFair i e beats →
            List.Forall₂ (Onset.Of (Nat.min c.delay Engine.timerLimit)) (Engine.launches i e beats)
              (Beat.lasting (Nat.min c.delay Engine.timerLimit) (Beat.clock e.now beats)
                (awaited.toList ++ Beat.triggers i e.now beats)) := by
  refine ⟨fun _ _ _ _ possible => Bench.debounced possible, rest_handsOver, advance_beats, ?_⟩
  intro e i c awaited beats hawaits hpos hfair
  have hdelay : 0 < Engine.delayOf c := Nat.lt_min.mpr ⟨hpos, by decide⟩
  exact Engine.launches_of_awaits hdelay hawaits rfl hfair

/-- An engine with one checker that nobody has asked for anything. -/
def alone (delay : Nat) : Engine :=
  { Engine.idle (.ofText "/w") 16 with
    delay := delay
    checkers := [.start ⟨"check", "Check", [], ["c"]⟩ (.ofText "/w") delay]
    enrolled := [0] }

theorem alone_awaits (delay : Nat) :
    (alone delay).Awaits 0 (.start ⟨"check", "Check", [], ["c"]⟩ (.ofText "/w") delay) none :=
  ⟨rfl, rfl, rfl, rfl, nofun⟩

def otherDocument : DocumentRef := ⟨1, ⟨"file:///w/b.c"⟩, "c"⟩

/-- Two triggers of which the first is broken, its expiry late, and a third. -/
def triggered : List Beat :=
  [.hear 0 (.trigger Bench.sampleDocument), .pass 300, .hear 0 (.trigger otherDocument), .pass 200,
    .hear 0 (.expired 1 Bench.sampleDocument), .pass 300, .hear 0 (.trigger Bench.sampleDocument), .pass 600]

theorem debounce_exact_triggered :
    Bench.sample.Possible [.trigger Bench.sampleDocument, .trigger otherDocument, .expiry 1 Bench.sampleDocument,
        .expiry 2 otherDocument]
      ∧ Bench.sample.Debounced [.trigger Bench.sampleDocument, .trigger otherDocument,
        .expiry 1 Bench.sampleDocument, .expiry 2 otherDocument]
      ∧ Engine.AllFair 0 (alone 500) triggered
      ∧ Beat.lasting 500 (Beat.clock 0 triggered) (Beat.triggers 0 0 triggered)
        = [(300, otherDocument), (800, Bench.sampleDocument)]
      ∧ List.Forall₂ (Onset.Of 500) (Engine.launches 0 (alone 500) triggered)
        (Beat.lasting 500 (Beat.clock 0 triggered) (Beat.triggers 0 0 triggered)) := by
  refine ⟨by decide, debounce_exact.1 _ _ _ _ (by decide), by decide +kernel, by decide, ?_⟩
  exact debounce_exact.2.2.2 (alone 500) 0 _ none triggered (alone_awaits 500) (by decide) (by decide +kernel)

/-! ### Delays that no timer can run for -/

/-- A trigger, and a move of the clock to just before the end of a delay of many years. -/
def impatient : List Beat := [.hear 0 (.trigger Bench.sampleDocument), .pass 999999999999]

theorem exact_delay_fails :
    ¬ ∀ (e : Engine) (i : Nat) (c : Checker) (awaited : Option (Nat × DocumentRef)) (beats : List Beat),
        e.Awaits i c awaited → 0 < c.delay → Engine.AllFair i e beats →
          List.Forall₂ (Onset.Of c.delay) (Engine.launches i e beats)
            (Beat.lasting c.delay (Beat.clock e.now beats)
              (awaited.toList ++ Beat.triggers i e.now beats)) := by
  intro hexact
  have hfair : Engine.AllFair 0 (alone 1000000000000) impatient := ⟨trivial, trivial, trivial⟩
  have hawaits := alone_awaits 1000000000000
  have hclaimed := hexact _ 0 _ none impatient hawaits (by decide) hfair
  have hreal := Engine.launches_of_awaits (by decide) hawaits rfl hfair
  have hlength := hclaimed.length_eq.symm.trans hreal.length_eq
  exact absurd hlength (by decide)

end Session

end SyntaxWatch
