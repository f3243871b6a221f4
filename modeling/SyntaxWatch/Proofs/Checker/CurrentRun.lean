import SyntaxWatch.Proofs.Checker.Reaction

/-!
# The current run, as it stands on a bench

Any number of runs overlap on a bench, but only the latest one counts. `Bench.currentRun` is what
the bench shows of that one: its counters and the collection, its process and its parcels that are
still out, the lookups that it asked for, and what has been told since it began. Everything that the
other runs do leaves this view as it is (`currentRun_of_aside`); a new run replaces it by a fresh
one (`currentRun_expiry`). Four happenings move the current run itself on, and for each of them
there is one equation.

So what happens on a bench is a story about one run at a time, however many are going on.
-/

set_option autoImplicit false

namespace SyntaxWatch

/-! ## 1. Errands of one run -/

section Erase

variable {α β : Type} [BEq α] [LawfulBEq α]

theorem filterMap_erase_of_none {f : α → Option β} {a : α} (ha : f a = none) (l : List α) :
    (l.erase a).filterMap f = l.filterMap f := by
  induction l with
  | nil => rfl
  | cons x l ih =>
    rw [List.erase_cons]
    by_cases hx : x = a
    · subst hx
      simp [ha]
    · simp [hx, List.filterMap_cons, ih]

/-- Taking out one entry takes out its image, if no other entry has the same one. -/
theorem filterMap_erase_of_some [BEq β] [LawfulBEq β] {f : α → Option β} {a : α} {b : β}
    (ha : f a = some b) (hinj : ∀ x, f x = some b → x = a) (l : List α) :
    (l.erase a).filterMap f = (l.filterMap f).erase b := by
  induction l with
  | nil => rfl
  | cons x l ih =>
    rw [List.erase_cons]
    by_cases hx : x = a
    · subst hx
      simp [ha]
    · cases hfx : f x with
      | none => simp [hx, hfx, ih]
      | some y =>
        have hy : y ≠ b := fun h => hx (hinj x (h ▸ hfx))
        simp [hx, hfx, ih, hy]

end Erase

namespace Errand

theorem eq_of_process? {token : Nat} {document : DocumentRef} {e : Errand}
    (h : e.process? token = some document) : e = .process token document := by
  cases e with
  | process t d =>
    simp only [process?, Option.ite_none_right_eq_some, Option.some.injEq] at h
    rw [h.1, h.2]
  | lookUp t p => simp [process?] at h

theorem eq_of_parcel? {token : Nat} {parcel : Parcel} {e : Errand}
    (h : e.parcel? token = some parcel) : e = .lookUp token parcel := by
  cases e with
  | process t d => simp [parcel?] at h
  | lookUp t p =>
    simp only [parcel?, Option.ite_none_right_eq_some, Option.some.injEq] at h
    rw [h.1, h.2]

theorem process?_of_token_ne {token : Nat} {e : Errand} (h : e.token ≠ token) :
    e.process? token = none := by
  cases e with
  | process t d => simp [process?, show t ≠ token from h]
  | lookUp t p => rfl

theorem parcel?_of_token_ne {token : Nat} {e : Errand} (h : e.token ≠ token) :
    e.parcel? token = none := by
  cases e with
  | process t d => rfl
  | lookUp t p => simp [parcel?, show t ≠ token from h]

theorem filterMap_parcel?_map (token : Nat) (parcels : List Parcel) :
    (parcels.map (lookUp token)).filterMap (parcel? token) = parcels := by
  induction parcels with
  | nil => rfl
  | cons p parcels ih => simp [parcel?, ih]

theorem filterMap_process?_map (token current : Nat) (parcels : List Parcel) :
    (parcels.map (lookUp token)).filterMap (process? current) = [] := by
  induction parcels with
  | nil => rfl
  | cons p parcels ih => simp [process?]

end Errand

/-! ## 2. What has been told since the latest start -/

namespace Event

/-- The run that an event names. That something was published is told without a name. -/
def token? : Event → Option Nat
  | started token _ | settled token | discarded token | failed token _ => some token
  | published _ _ => none

def isStart : Event → Bool
  | started _ _ => true
  | _ => false

/-- Whether an event that comes after the start of a run can be about that run. -/
def concerns (token : Nat) (e : Event) : Bool := e.token?.all (· == token)

/-- Turns the page when a run starts. The first page is everything before, the second everything
since. -/
def turnPage (pages : List Event × List Event) (e : Event) : List Event × List Event :=
  if e.isStart then (pages.1 ++ pages.2, [e]) else (pages.1, pages.2 ++ [e])

/-- What was told before the latest start, and what since. -/
def pages (events : List Event) : List Event × List Event := events.foldl turnPage ([], [])

theorem pages_snoc (events : List Event) (e : Event) :
    pages (events ++ [e]) = turnPage (pages events) e := by
  simp [pages]

theorem pages_join (events : List Event) : (pages events).1 ++ (pages events).2 = events := by
  have hfrom : ∀ (later : List Event) (p : List Event × List Event),
      (later.foldl turnPage p).1 ++ (later.foldl turnPage p).2 = p.1 ++ p.2 ++ later := by
    intro later
    induction later with
    | nil => simp
    | cons e later ih =>
      intro p
      rw [List.foldl_cons, ih, turnPage]
      split <;> simp
  exact hfrom events ([], [])

theorem pages_append (events : List Event) {new : List Event} (hnew : ∀ e ∈ new, e.isStart = false) :
    pages (events ++ new) = ((pages events).1, (pages events).2 ++ new) := by
  induction new generalizing events with
  | nil => simp
  | cons e new ih =>
    have hrest := ih (events ++ [e]) (fun x hx => hnew x (List.mem_cons_of_mem e hx))
    rw [pages_snoc, turnPage, hnew e List.mem_cons_self] at hrest
    simpa using hrest

theorem pages_start (events : List Event) {e : Event} (he : e.isStart = true) :
    pages (events ++ [e]) = (events, [e]) := by
  rw [pages_snoc, turnPage, he, pages_join]
  rfl

theorem turnPage_tail {pages : List Event × List Event} (e : Event)
    (htail : ∀ x ∈ pages.2.tail, x.isStart = false) :
    ∀ x ∈ (turnPage pages e).2.tail, x.isStart = false := by
  intro x hx
  unfold turnPage at hx
  by_cases he : e.isStart = true
  · rw [if_pos he] at hx
    cases hx
  · rw [if_neg he] at hx
    cases hpage : pages.2 with
    | nil =>
      rw [hpage] at hx
      cases hx
    | cons first since =>
      rw [hpage] at hx htail
      rcases List.mem_append.mp hx with hx | hx
      · exact htail x hx
      · rw [List.mem_singleton.mp hx]
        exact Bool.eq_false_iff.mpr he

theorem pages_tail (events : List Event) : ∀ e ∈ (pages events).2.tail, e.isStart = false :=
  List.foldlRecOn events turnPage (motive := fun pages => ∀ e ∈ pages.2.tail, e.isStart = false)
    (fun _ he => absurd he List.not_mem_nil) fun _ htail e _ => turnPage_tail e htail

/-- A start on the second page is its first entry, and the latest start of all. -/
theorem latest_start {events : List Event} {e : Event} (he : e ∈ (pages events).2)
    (hstart : e.isStart = true) :
    ∃ since, events = (pages events).1 ++ e :: since ∧ ∀ x ∈ since, x.isStart = false := by
  have htail := pages_tail events
  have hjoin := pages_join events
  cases hpage : (pages events).2 with
  | nil =>
    rw [hpage] at he
    cases he
  | cons x since =>
    rw [hpage] at he htail hjoin
    rcases List.mem_cons.mp he with rfl | he
    · exact ⟨since, hjoin.symm, htail⟩
    · rw [htail e he] at hstart
      cases hstart

/-- The second page holds nothing from before any start. -/
theorem mem_of_mem_page {earlier since : List Event} {e : Event} (hstart : e.isStart = true) :
    ∀ x ∈ (pages (earlier ++ e :: since)).2, x ∈ e :: since := by
  have hfrom : ∀ (later : List Event) (p : List Event × List Event),
      ∀ x ∈ (later.foldl turnPage p).2, x ∈ p.2 ++ later := by
    intro later
    induction later with
    | nil =>
      intro p x hx
      simpa using hx
    | cons y later ih =>
      intro p x hx
      have hx := ih (turnPage p y) x hx
      unfold turnPage at hx
      split at hx
      · exact List.mem_append_right _ hx
      · simpa using hx
  intro x hx
  have hturn : pages (earlier ++ e :: since) = since.foldl turnPage (turnPage (pages earlier) e) := by
    simp [pages]
  rw [hturn] at hx
  have hx := hfrom since _ x hx
  unfold turnPage at hx
  rw [if_pos hstart] at hx
  exact hx

end Event

/-! ## 3. The view -/

def Effect.token? : Effect → Option Nat
  | .launch token _ | .lookUp token _ _ => some token
  | .emit event => event.token?
  | .startTimer _ _ | .warn _ => none

/-- Whether an effect leaves the current run alone: timers, warnings, and the endings of other runs.
-/
def Effect.isAside (current : Nat) : Effect → Bool
  | .startTimer _ _ | .warn _ => true
  | .emit (.discarded token) | .emit (.failed token _) => token != current
  | _ => false

structure CurrentRun where
  token : Nat
  running : Option Nat
  unwritten : Nat
  collection : Collection
  /-- Its processes that go on; there is one at most. -/
  processes : List DocumentRef
  /-- Its parcels whose lookup goes on. -/
  parcels : List Parcel
  /-- Every parcel that it asked a lookup for. -/
  asked : List Parcel
  earlier : List Event
  /-- What has been told of it. -/
  told : List Event

namespace Bench

/-- What a bench shows of its latest run. -/
def currentRun (b : Bench) : CurrentRun where
  token := b.token
  running := b.checker.runs.running
  unwritten := b.checker.runs.unwritten
  collection := b.checker.collection
  processes := b.errands.filterMap (Errand.process? b.token)
  parcels := b.errands.filterMap (Errand.parcel? b.token)
  asked := b.sent.filterMap (Errand.parcel? b.token)
  earlier := (Event.pages b.events).1
  told := (Event.pages b.events).2.filter (Event.concerns b.token)

@[simp] theorem currentRun_token (b : Bench) : b.currentRun.token = b.token := rfl

/-! ## 4. How a happening moves the view -/

variable {b : Bench}

/-- The view after a happening that starts no run, put together from the parts. -/
theorem currentRun_meet {h : Happening} {c : Checker} {new : List Effect}
    (hmeet : b.checker.meet h = (c, new)) (htoken : c.runs.token = b.token)
    (hstart : ∀ e ∈ Checker.eventsOf new, e.isStart = false) :
    (b.meet h).currentRun =
      { token := b.token
        running := c.runs.running
        unwritten := c.runs.unwritten
        collection := c.collection
        processes := (without b.errands h).filterMap (Errand.process? b.token)
          ++ (new.filterMap Errand.ofEffect?).filterMap (Errand.process? b.token)
        parcels := (without b.errands h).filterMap (Errand.parcel? b.token)
          ++ (new.filterMap Errand.ofEffect?).filterMap (Errand.parcel? b.token)
        asked := b.currentRun.asked
          ++ (new.filterMap Errand.ofEffect?).filterMap (Errand.parcel? b.token)
        earlier := b.currentRun.earlier
        told := b.currentRun.told ++ (Checker.eventsOf new).filter (Event.concerns b.token) } := by
  have htoken' : (b.meet h).token = b.token := by
    unfold token at *
    rw [meet_checker, hmeet]
    exact htoken
  have hevents : (b.meet h).events = b.events ++ Checker.eventsOf new := by
    rw [meet_events, hmeet]
  unfold currentRun
  rw [htoken', hevents, Event.pages_append b.events hstart, meet_sent]
  simp [hmeet]

/-! ### What leaves it alone -/

theorem sent_of_aside {new : List Effect} {current : Nat} (hnew : ∀ x ∈ new, x.isAside current = true) :
    new.filterMap Errand.ofEffect? = [] := by
  rw [List.filterMap_eq_nil_iff]
  intro x hx
  have haside := hnew x hx
  cases x with
  | launch t d => simp [Effect.isAside] at haside
  | lookUp t target findings => simp [Effect.isAside] at haside
  | _ => rfl

theorem mem_eventsOf {e : Event} {effects : List Effect} :
    e ∈ Checker.eventsOf effects ↔ .emit e ∈ effects := by
  unfold Checker.eventsOf
  rw [List.mem_filterMap]
  constructor
  · rintro ⟨x, hx, hxe⟩
    cases x with
    | emit e' =>
      cases hxe
      exact hx
    | _ => cases hxe
  · intro h
    exact ⟨.emit e, h, rfl⟩

theorem events_of_aside {new : List Effect} {current : Nat}
    (hnew : ∀ x ∈ new, x.isAside current = true) {e : Event} (he : e ∈ Checker.eventsOf new) :
    e.isStart = false ∧ e.concerns current = false := by
  have haside := hnew _ (mem_eventsOf.mp he)
  cases e with
  | discarded t => exact ⟨rfl, by simpa [Effect.isAside, Event.concerns, Event.token?] using haside⟩
  | failed t f => exact ⟨rfl, by simpa [Effect.isAside, Event.concerns, Event.token?] using haside⟩
  | _ => simp [Effect.isAside] at haside

/-- **What other runs do is not seen.** A happening that touches neither the counters nor the
collection, comes back from no errand of the current run and has only effects aside leaves the view
as it is. -/
theorem currentRun_of_aside {h : Happening} {c : Checker} {new : List Effect}
    (hmeet : b.checker.meet h = (c, new)) (htoken : c.runs.token = b.token)
    (hrunning : c.runs.running = b.checker.runs.running)
    (hunwritten : c.runs.unwritten = b.checker.runs.unwritten)
    (hcollection : c.collection = b.checker.collection)
    (herrand : ∀ e, h.errand? = some e → e.token ≠ b.token)
    (haside : ∀ x ∈ new, x.isAside b.token = true) :
    (b.meet h).currentRun = b.currentRun := by
  have htold : (Checker.eventsOf new).filter (Event.concerns b.token) = [] := by
    rw [List.filter_eq_nil_iff]
    intro e he
    simp [(events_of_aside haside he).2]
  have hout : ∀ {β : Type} (f : Errand → Option β), (∀ e, e.token ≠ b.token → f e = none) →
      (without b.errands h).filterMap f = b.errands.filterMap f := by
    intro β f hf
    unfold without
    cases he : h.errand? with
    | none => rfl
    | some e => exact filterMap_erase_of_none (hf e (herrand e he)) b.errands
  rw [currentRun_meet hmeet htoken (fun e he => (events_of_aside haside he).1), htold,
    sent_of_aside haside, hout _ (fun e => Errand.process?_of_token_ne),
    hout _ (fun e => Errand.parcel?_of_token_ne), hrunning, hunwritten, hcollection]
  simp [currentRun]

/-! ### What moves it on -/

variable {document : DocumentRef}

theorem sent_sending (current : Nat) (parcels : List Parcel) :
    (Checker.sending current 0 parcels).filterMap Errand.ofEffect?
      = parcels.map (Errand.lookUp current) := by
  have hending : (Checker.endingIf (decide (0 + parcels.length = 0)) current).filterMap Errand.ofEffect?
      = [] := by
    unfold Checker.endingIf
    split <;> rfl
  unfold Checker.sending
  rw [List.filterMap_append, hending, List.append_nil, List.filterMap_map, ← List.filterMap_eq_map]
  rfl

theorem eventsOf_endingIf (done : Bool) (current : Nat) :
    Checker.eventsOf (Checker.endingIf done current) = if done then [.settled current] else [] := by
  cases done <;> rfl

theorem eventsOf_sending (current : Nat) (parcels : List Parcel) :
    Checker.eventsOf (Checker.sending current 0 parcels)
      = if parcels = [] then [.settled current] else [] := by
  have hlookUps : Checker.eventsOf (parcels.map fun p => .lookUp current p.target p.findings) = [] := by
    unfold Checker.eventsOf
    rw [List.filterMap_eq_nil_iff]
    intro x hx
    obtain ⟨p, _, rfl⟩ := List.mem_map.mp hx
    rfl
  have happend : Checker.eventsOf (Checker.sending current 0 parcels)
      = Checker.eventsOf (Checker.endingIf (decide (0 + parcels.length = 0)) current) := by
    unfold Checker.sending
    unfold Checker.eventsOf at *
    rw [List.filterMap_append, hlookUps, List.nil_append]
  rw [happend, eventsOf_endingIf]
  simp

theorem mem_endingIf {done : Bool} {token : Nat} {x : Effect} (hx : x ∈ Checker.endingIf done token) :
    x = .emit (.settled token) := by
  cases done with
  | true => exact List.mem_singleton.mp hx
  | false => cases hx

theorem isStart_of_mem_sending {current toCome : Nat} {parcels : List Parcel} :
    ∀ e ∈ Checker.eventsOf (Checker.sending current toCome parcels), e.isStart = false := by
  intro e he
  rcases List.mem_append.mp (mem_eventsOf.mp he) with hx | hx
  · obtain ⟨p, _, hp⟩ := List.mem_map.mp hx
    cases hp
  · cases mem_endingIf hx
    rfl

theorem isStart_of_mem_written {uri : Uri} {count current : Nat} {done : Bool} :
    ∀ e ∈ Checker.eventsOf (.emit (.published uri count) :: Checker.endingIf done current),
      e.isStart = false := by
  intro e he
  rcases List.mem_cons.mp (mem_eventsOf.mp he) with hx | hx
  · cases hx
    rfl
  · cases mem_endingIf hx
    rfl

theorem processes_without {h : Happening} (herrand : h.errand? = some (.process b.token document)) :
    (without b.errands h).filterMap (Errand.process? b.token) = b.currentRun.processes.erase document := by
  unfold without
  rw [herrand]
  exact filterMap_erase_of_some (by simp [Errand.process?]) (fun _ => Errand.eq_of_process?) b.errands

theorem parcels_without_process {h : Happening}
    (herrand : h.errand? = some (.process b.token document)) :
    (without b.errands h).filterMap (Errand.parcel? b.token) = b.currentRun.parcels := by
  unfold without
  rw [herrand]
  exact filterMap_erase_of_none rfl b.errands

/-- **A run begins**, and nothing of an earlier one is seen any more. -/
theorem currentRun_expiry {seq : Nat} (alive : b.checker.runs.disposed = false)
    (harmed : b.checker.runs.armed = some seq) (herrands : ∀ e ∈ b.errands, e.token ≤ b.token)
    (hsent : ∀ e ∈ b.sent, e.token ≤ b.token) :
    (b.meet (.expiry seq document)).currentRun =
      { token := b.token + 1
        running := some (b.token + 1)
        unwritten := 0
        collection := b.checker.collection.clear
        processes := [document]
        parcels := []
        asked := []
        earlier := b.events
        told := [.started (b.token + 1) document.uri] } := by
  have hmeet := Checker.meet_expiry alive document harmed
  have hnew : ∀ {β : Type} (f : Errand → Option β) (l : List Errand), (∀ e ∈ l, e.token ≤ b.token) →
      (∀ e, e.token ≠ b.token + 1 → f e = none) → l.filterMap f = [] := by
    intro β f l hl hf
    rw [List.filterMap_eq_nil_iff]
    intro e he
    have hle := hl e he
    exact hf e (by omega)
  have htoken : (b.meet (.expiry seq document)).token = b.token + 1 := by
    unfold token
    rw [meet_checker, hmeet]
  have hout : (b.meet (.expiry seq document)).errands
      = b.errands ++ [.process (b.token + 1) document] := by
    rw [meet_errands, hmeet]
    rfl
  have hasked : (b.meet (.expiry seq document)).sent
      = b.sent ++ [.process (b.token + 1) document] := by
    rw [meet_sent, hmeet]
    rfl
  have hevents : (b.meet (.expiry seq document)).events
      = b.events ++ [.started (b.token + 1) document.uri] := by
    rw [meet_events, hmeet]
    rfl
  have hprocesses := hnew (Errand.process? (b.token + 1)) b.errands herrands
    (fun e => Errand.process?_of_token_ne)
  have hparcels := hnew (Errand.parcel? (b.token + 1)) b.errands herrands
    (fun e => Errand.parcel?_of_token_ne)
  have hsentParcels := hnew (Errand.parcel? (b.token + 1)) b.sent hsent
    (fun e => Errand.parcel?_of_token_ne)
  unfold currentRun
  rw [htoken, hout, hasked, hevents, Event.pages_start b.events rfl, List.filterMap_append,
    List.filterMap_append, List.filterMap_append, hprocesses, hparcels, hsentParcels]
  simp [hmeet, token, Errand.process?, Errand.parcel?, Event.concerns, Event.token?]

section Current

variable (alive : b.checker.runs.disposed = false) (hrunning : b.checker.runs.running = some b.token)

include alive hrunning

/-- **The process of the current run comes back with its output.** -/
theorem currentRun_output {printed : List Finding} {parcels : List Parcel}
    (hparcels : Parcel.ofPrinted b.checker.root document.uri printed = parcels) :
    (b.meet (.output b.token document printed)).currentRun =
      { b.currentRun with
        running := if parcels.length = 0 then none else some b.token
        unwritten := parcels.length
        processes := b.currentRun.processes.erase document
        parcels := b.currentRun.parcels ++ parcels
        asked := b.currentRun.asked ++ parcels
        told := b.currentRun.told ++ if parcels = [] then [.settled b.token] else [] } := by
  have hmeet : b.checker.meet (.output b.token document printed)
      = (b.checker.withLeft b.token parcels.length, Checker.sending b.token 0 parcels) :=
    hparcels ▸ Checker.meet_output alive hrunning document printed
  have hsettled : (Checker.eventsOf (Checker.sending b.token 0 parcels)).filter (Event.concerns b.token)
      = if parcels = [] then [.settled b.token] else [] := by
    rw [eventsOf_sending]
    split <;> simp [Event.concerns, Event.token?]
  rw [currentRun_meet hmeet rfl isStart_of_mem_sending, processes_without rfl, parcels_without_process rfl,
    hsettled, sent_sending, Errand.filterMap_parcel?_map, Errand.filterMap_process?_map, List.append_nil]
  rfl

/-- **An answer to the current run comes back.** -/
theorem currentRun_answer (a : Answer) {n : Nat} (hunwritten : b.checker.runs.unwritten = n + 1) :
    (b.meet (.answer b.token a)).currentRun =
      { b.currentRun with
        running := if n = 0 then none else some b.token
        unwritten := n
        collection := b.checker.collection.set a.uri (a.diagnostics b.checker.name)
        parcels := b.currentRun.parcels.erase a.parcel
        told := b.currentRun.told ++ .published a.uri (a.diagnostics b.checker.name).length
          :: if n = 0 then [.settled b.token] else [] } := by
  have hmeet : b.checker.meet (.answer b.token a)
      = ({ b.checker.withLeft b.token n with
            collection := b.checker.collection.set a.uri (a.diagnostics b.checker.name) },
          .emit (.published a.uri (a.diagnostics b.checker.name).length)
            :: Checker.endingIf (decide (n = 0)) b.token) :=
    Checker.meet_answer alive hrunning a hunwritten
  have hprocesses : (without b.errands (.answer b.token a)).filterMap (Errand.process? b.token)
      = b.currentRun.processes := filterMap_erase_of_none rfl b.errands
  have hparcels : (without b.errands (.answer b.token a)).filterMap (Errand.parcel? b.token)
      = b.currentRun.parcels.erase a.parcel :=
    filterMap_erase_of_some (by simp [Errand.parcel?]) (fun _ => Errand.eq_of_parcel?) b.errands
  rw [currentRun_meet hmeet rfl isStart_of_mem_written, hprocesses, hparcels]
  by_cases hlast : n = 0
  · subst hlast
    simp [Checker.endingIf, Checker.eventsOf, Errand.ofEffect?, Checker.withLeft, RunState.withLeft,
      Event.concerns, Event.token?, currentRun]
  · simp [Checker.endingIf, Checker.eventsOf, Errand.ofEffect?, Checker.withLeft, RunState.withLeft,
      Event.concerns, Event.token?, hlast, currentRun]

omit alive in
theorem giveUp_current : b.checker.runs.giveUp b.token
    = { b.checker.runs with running := none, unwritten := 0 } := by
  unfold RunState.giveUp
  rw [if_pos hrunning]

/-- **The process of the current run could not be started**, and the run is over. -/
theorem currentRun_failure (cause : RunFailure) :
    (b.meet (.failure b.token document cause)).currentRun =
      { b.currentRun with
        running := none
        unwritten := 0
        processes := b.currentRun.processes.erase document
        told := b.currentRun.told ++ [.failed b.token cause] } := by
  have hmeet := Checker.meet_failure alive b.token document cause
  rw [currentRun_meet hmeet (RunState.giveUp_token _ _)
    (by simp [Checker.eventsOf, Event.isStart]), processes_without rfl, parcels_without_process rfl,
    giveUp_current hrunning]
  simp [Checker.eventsOf, Errand.ofEffect?, Event.concerns, Event.token?, currentRun]

theorem currentRun_death :
    (b.meet (.death b.token document)).currentRun
      = (b.meet (.failure b.token document .aborted)).currentRun := by
  have hmeet := Checker.meet_death alive b.token document
  rw [currentRun_failure alive hrunning, currentRun_meet hmeet
    (RunState.giveUp_token _ _) (by simp [Checker.eventsOf, Event.isStart]),
    processes_without rfl, parcels_without_process rfl, giveUp_current hrunning]
  simp [Checker.eventsOf, Errand.ofEffect?, Event.concerns, Event.token?, currentRun]

end Current

end Bench

end SyntaxWatch
