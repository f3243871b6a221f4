import SyntaxWatch.Checker

/-!
# A checker at work

`Checker.step` reacts to any input whatever, but not every input can come. The output of a run comes
only if the run was launched and has not ended yet, and the answer to a lookup only if the lookup
was asked for and has not been answered. A `Bench` is a checker together with the *errands* that it
has sent out and not heard of again, and with everything that it has ever asked for or told. A
`Happening` is one thing that a checker meets with.

The happenings of a bench come in any order that the errands allow: `Bench.Possible` says no more
than that. Nothing is fixed about how long an errand takes, about which of several comes back first,
or about what a process prints and a lookup finds.

## What is *not* an errand

A timer. When a timer is called off, its expiry may already be on its way and is heard all the same,
so an expiry is possible for every timer that was ever started, late ones and superseded ones alike.
Nothing is lost by letting it come twice.
-/

set_option autoImplicit false

namespace SyntaxWatch

/-! ## 1. Parcels and answers -/

/-- A group of findings with the document that its path leads to. -/
structure Parcel where
  target : Target
  findings : List Finding
  deriving DecidableEq, Repr

namespace Parcel

/-- The parcel of a group; there is none where the path leads nowhere. -/
def ofGroup? (root : Path) (trigger : Uri) (group : String × List Finding) : Option Parcel :=
  match Target.resolve root trigger group.1 with
  | .ok target => some ⟨target, group.2⟩
  | .error _ => none

/-- The parcels of an output, in the order of its groups. -/
def ofGroups (root : Path) (trigger : Uri) (groups : List (String × List Finding)) : List Parcel :=
  groups.filterMap (ofGroup? root trigger)

def ofPrinted (root : Path) (trigger : Uri) (printed : List Finding) : List Parcel :=
  ofGroups root trigger (Findings.ofList printed).groups

theorem ofGroups_cons_of_ok {root : Path} {trigger : Uri} {group : String × List Finding}
    {target : Target} (others : List (String × List Finding))
    (hgoal : Target.resolve root trigger group.1 = .ok target) :
    ofGroups root trigger (group :: others) = ⟨target, group.2⟩ :: ofGroups root trigger others := by
  simp [ofGroups, ofGroup?, hgoal]

theorem ofGroups_cons_of_error {root : Path} {trigger : Uri} {group : String × List Finding}
    {cause : Uri.PathError} (others : List (String × List Finding))
    (hgoal : Target.resolve root trigger group.1 = .error cause) :
    ofGroups root trigger (group :: others) = ofGroups root trigger others := by
  simp [ofGroups, ofGroup?, hgoal]

theorem mem_ofPrinted {root : Path} {trigger : Uri} {printed : List Finding} {parcel : Parcel} :
    parcel ∈ ofPrinted root trigger printed ↔
      ∃ group ∈ (Findings.ofList printed).groups,
        Target.resolve root trigger group.1 = .ok parcel.target ∧ parcel.findings = group.2 := by
  unfold ofPrinted ofGroups
  rw [List.mem_filterMap]
  refine exists_congr fun group => and_congr_right fun _ => ?_
  unfold ofGroup?
  cases hgoal : Target.resolve root trigger group.1 with
  | ok target =>
    constructor
    · rintro ⟨⟩
      exact ⟨rfl, rfl⟩
    · rintro ⟨htarget, hfindings⟩
      cases htarget
      rw [← hfindings]
  | error cause => simp

end Parcel

/-- A parcel whose document has been looked up, with what was found. -/
structure Answer where
  parcel : Parcel
  found : Option Document
  deriving DecidableEq, Repr

namespace Answer

def uri (a : Answer) : Uri := a.parcel.target.uri

def diagnostics (source : String) (a : Answer) : List Diagnostic :=
  Diagnostic.place a.parcel.findings source a.parcel.target a.found

end Answer

/-! ## 2. Errands and happenings -/

/-- Work that goes on elsewhere and comes back as one input. -/
inductive Errand where
  | process (token : Nat) (document : DocumentRef)
  | lookUp (token : Nat) (parcel : Parcel)
  deriving DecidableEq, Repr

namespace Errand

def token : Errand → Nat
  | process token _ => token
  | lookUp token _ => token

/-- The errand on which an effect sends somebody. -/
def ofEffect? : Effect → Option Errand
  | .launch token document => some (process token document)
  | .lookUp token target findings => some (lookUp token ⟨target, findings⟩)
  | .startTimer _ _ | .emit _ | .warn _ => none

/-- The document of an errand that is the process of this run. -/
def process? (token : Nat) : Errand → Option DocumentRef
  | process t document => if t = token then some document else none
  | lookUp _ _ => none

/-- The parcel of an errand that is a lookup of this run. -/
def parcel? (token : Nat) : Errand → Option Parcel
  | process _ _ => none
  | lookUp t parcel => if t = token then some parcel else none

end Errand

inductive Happening where
  | trigger (document : DocumentRef)
  | expiry (seq : Nat) (document : DocumentRef)
  /-- A process has ended, having printed these findings. -/
  | output (token : Nat) (document : DocumentRef) (printed : List Finding)
  /-- A process could not be started, or its pipes broke. -/
  | failure (token : Nat) (document : DocumentRef) (cause : RunFailure)
  /-- The task that waits for a process died. -/
  | death (token : Nat) (document : DocumentRef)
  /-- The lookup of a parcel's document has ended. -/
  | answer (token : Nat) (a : Answer)
  | disposal
  deriving DecidableEq, Repr

namespace Happening

/-- The errand from which a happening comes back. -/
def errand? : Happening → Option Errand
  | output token document _ => some (.process token document)
  | failure token document _ => some (.process token document)
  | death token document => some (.process token document)
  | answer token a => some (.lookUp token a.parcel)
  | trigger _ | expiry _ _ | disposal => none

/-- What a checker of this name hears; its end is no input. -/
def input? (source : String) : Happening → Option Input
  | trigger document => some (.trigger document)
  | expiry seq document => some (.expired seq document)
  | output token document printed => some (.finished token document (.ofList printed))
  | failure token _ cause => some (.failed token cause)
  | death token _ => some (.aborted token)
  | answer token a => some (.placed token a.uri (a.diagnostics source))
  | disposal => none

def answer? (token : Nat) : Happening → Option Answer
  | answer t a => if t = token then some a else none
  | _ => none

def answersTo (token : Nat) (past : List Happening) : List Answer := past.filterMap (answer? token)

theorem mem_of_mem_answersTo {token : Nat} {past : List Happening} {a : Answer}
    (ha : a ∈ answersTo token past) : .answer token a ∈ past := by
  obtain ⟨h, hh, hanswer⟩ := List.mem_filterMap.mp ha
  cases h with
  | answer t a' =>
    simp only [answer?, Option.ite_none_right_eq_some, Option.some.injEq] at hanswer
    rw [hanswer.1, hanswer.2] at hh
    exact hh
  | _ => cases hanswer

end Happening

def Checker.meet (c : Checker) (h : Happening) : Checker × List Effect :=
  match h.input? c.name with
  | some input => c.step input
  | none => (c.dispose, [])

/-! ## 3. The bench -/

/-- A checker, the errands that are out for it, and all that it has asked for and told. -/
structure Bench where
  checker : Checker
  errands : List Errand
  effects : List Effect
  deriving DecidableEq, Repr

namespace Bench

def opening (profile : CheckerProfile) (root : Path) (delay : Nat) : Bench :=
  ⟨.start profile root delay, [], []⟩

/-- The errands that are still out when a happening has come back from its own. -/
def without (errands : List Errand) (h : Happening) : List Errand :=
  match h.errand? with
  | some errand => errands.erase errand
  | none => errands

def meet (b : Bench) (h : Happening) : Bench :=
  let (c, new) := b.checker.meet h
  ⟨c, without b.errands h ++ new.filterMap Errand.ofEffect?, b.effects ++ new⟩

def after (b : Bench) (past : List Happening) : Bench := past.foldl meet b

/-- Whether a happening can come now. -/
def CanMeet (b : Bench) : Happening → Prop
  | .trigger _ | .disposal => True
  | .expiry seq document => .startTimer seq document ∈ b.effects
  | .output token document _ | .failure token document _ | .death token document =>
    .process token document ∈ b.errands
  | .answer token a => .lookUp token a.parcel ∈ b.errands

instance decidableCanMeet (b : Bench) : (h : Happening) → Decidable (b.CanMeet h)
  | .trigger _ | .disposal => isTrue trivial
  | .expiry .. => inferInstanceAs (Decidable (_ ∈ b.effects))
  | .output .. | .failure .. | .death .. | .answer .. => inferInstanceAs (Decidable (_ ∈ b.errands))

/-- Whether a history can happen from here on. -/
def Possible (b : Bench) : List Happening → Prop
  | [] => True
  | h :: later => b.CanMeet h ∧ (b.meet h).Possible later

instance decidablePossible : (b : Bench) → (past : List Happening) → Decidable (b.Possible past)
  | _, [] => isTrue trivial
  | b, h :: later =>
    have := decidablePossible (b.meet h) later
    inferInstanceAs (Decidable (_ ∧ _))

/-! ### What can be seen on it -/

def token (b : Bench) : Nat := b.checker.runs.token

def events (b : Bench) : List Event := Checker.eventsOf b.effects

def sent (b : Bench) : List Errand := b.effects.filterMap Errand.ofEffect?

/-! ## 4. Histories -/

theorem after_append (b : Bench) (past later : List Happening) :
    b.after (past ++ later) = (b.after past).after later := by
  unfold after
  exact List.foldl_append

theorem after_snoc (b : Bench) (past : List Happening) (h : Happening) :
    b.after (past ++ [h]) = (b.after past).meet h := by
  rw [after_append]
  rfl

/-- What stands in a sequence that has grown at its end is what was added, or stood in it before. -/
theorem split_snoc {α : Type} {past before later : List α} {last x : α}
    (hsplit : past ++ [last] = before ++ x :: later) :
    past = before ∧ last = x ∧ later = []
      ∨ ∃ front, later = front ++ [last] ∧ past = before ++ x :: front := by
  rcases List.eq_nil_or_concat later with rfl | ⟨front, y, rfl⟩
  · obtain ⟨hpast, hlast⟩ := List.append_inj' hsplit rfl
    exact .inl ⟨hpast, List.head_eq_of_cons_eq hlast, rfl⟩
  · rw [List.concat_eq_append, ← List.cons_append, ← List.append_assoc] at hsplit
    obtain ⟨hpast, hlast⟩ := List.append_inj' hsplit rfl
    rw [List.head_eq_of_cons_eq hlast]
    exact .inr ⟨front, List.concat_eq_append, hpast⟩

theorem possible_append {b : Bench} {past later : List Happening} :
    b.Possible (past ++ later) ↔ b.Possible past ∧ (b.after past).Possible later := by
  induction past generalizing b with
  | nil => exact ⟨fun h => ⟨trivial, h⟩, fun h => h.2⟩
  | cons h past ih =>
    constructor
    · rintro ⟨hcan, hrest⟩
      obtain ⟨hpast, hlater⟩ := ih.mp hrest
      exact ⟨⟨hcan, hpast⟩, hlater⟩
    · rintro ⟨⟨hcan, hpast⟩, hlater⟩
      exact ⟨hcan, ih.mpr ⟨hpast, hlater⟩⟩

/-- **The induction over histories.** What holds at the opening and is kept by every happening that
can come holds after every possible history. -/
theorem after_induction {start : Bench} {P : List Happening → Bench → Prop} (opening : P [] start)
    (step : ∀ past h, start.Possible past → P past (start.after past) → (start.after past).CanMeet h →
      P (past ++ [h]) ((start.after past).meet h)) :
    ∀ {past : List Happening}, start.Possible past → P past (start.after past) := by
  -- what is generalized is the history before, so that the step is taken at its end
  have hfrom : ∀ later past, start.Possible past → P past (start.after past) →
      (start.after past).Possible later → P (past ++ later) (start.after (past ++ later)) := by
    intro later
    induction later with
    | nil =>
      intro past _ hP _
      simpa using hP
    | cons h later ih =>
      intro past hpast hP hlater
      have hsnoc : start.Possible (past ++ [h]) := possible_append.mpr ⟨hpast, hlater.1, trivial⟩
      have hstep := step past h hpast hP hlater.1
      rw [← after_snoc] at hstep
      have hrest : (start.after (past ++ [h])).Possible later := by
        rw [after_snoc]
        exact hlater.2
      simpa using ih (past ++ [h]) hsnoc hstep hrest
  intro past hpossible
  exact hfrom past [] trivial opening hpossible

/-! ## 5. Fields after one happening -/

@[simp] theorem meet_checker (b : Bench) (h : Happening) :
    (b.meet h).checker = (b.checker.meet h).1 := rfl

@[simp] theorem meet_effects (b : Bench) (h : Happening) :
    (b.meet h).effects = b.effects ++ (b.checker.meet h).2 := rfl

@[simp] theorem meet_errands (b : Bench) (h : Happening) :
    (b.meet h).errands
      = without b.errands h ++ (b.checker.meet h).2.filterMap Errand.ofEffect? := rfl

theorem meet_events (b : Bench) (h : Happening) :
    (b.meet h).events = b.events ++ Checker.eventsOf (b.checker.meet h).2 := by
  unfold events Checker.eventsOf
  rw [meet_effects, List.filterMap_append]

theorem meet_sent (b : Bench) (h : Happening) :
    (b.meet h).sent = b.sent ++ (b.checker.meet h).2.filterMap Errand.ofEffect? := by
  unfold sent
  rw [meet_effects, List.filterMap_append]

/-! ## 6. A bench to look at -/

/-- A checker of one language, in a workspace of its own. -/
def sample : Bench := opening ⟨"check", "Check", [], ["c"]⟩ (Path.ofText "/w") 500

def sampleDocument : DocumentRef := ⟨0, ⟨"file:///w/a.c"⟩, "c"⟩

def sampleFinding (path : String) : Finding := ⟨path, 1, 1, "error", "wrong"⟩

def sampleParcel : Parcel := ⟨⟨sampleDocument.uri, true⟩, [sampleFinding "<stdin>"]⟩

end Bench

end SyntaxWatch
