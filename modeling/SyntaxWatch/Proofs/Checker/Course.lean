import SyntaxWatch.Proofs.Checker.Outcome

/-!
# The course of a run

`Phase` follows the current run only. Here every run is followed to its end, the superseded ones
too. A run is *running* while its process goes on. When the process comes back, the run has *ended*
with one of three reports, or it has sent its parcels and is *placing* them. A placing run ends when
the last parcel is answered, unless a newer run begins before that. Then it is *overtaken*: what is
still out for it will be overlooked, and it never gets an ending.

So the errands that are out for a run and the ending that it got determine each other, but for one
case, and each ending is tied to what came of the process (`Course`). One happening moves at most one
run on, apart from the start of a run, which overtakes the one before.
-/

set_option autoImplicit false

namespace SyntaxWatch

namespace Event

/-- Whether an event is the ending of this run. -/
def ends (token : Nat) : Event → Bool
  | settled t | discarded t | failed t _ => t = token
  | started _ _ | published _ _ => false

theorem token?_of_ends {token : Nat} {e : Event} (he : e.ends token = true) : e.token? = some token := by
  cases e with
  | started t uri => cases he
  | published uri count => cases he
  | settled t => exact congrArg some (of_decide_eq_true he)
  | discarded t => exact congrArg some (of_decide_eq_true he)
  | failed t cause => exact congrArg some (of_decide_eq_true he)

end Event

namespace Bench

/-! ## 1. What can come of a process -/

section Fates

variable (start : Bench) (past : List Happening) (token : Nat)

/-- The output of the run came while it was the latest. -/
def Accepted : Prop :=
  ∃ before document printed later, past = before ++ .output token document printed :: later
    ∧ (start.after before).checker.runs.counts token = true

/-- The output of the run came when a newer one had begun. -/
def Outlived : Prop :=
  ∃ before document printed later, past = before ++ .output token document printed :: later
    ∧ token < (start.after before).token

/-- The process of the run could not be started, or its task died. -/
def Broken (past : List Happening) (token : Nat) (cause : RunFailure) : Prop :=
  (∃ document, .failure token document cause ∈ past)
    ∨ cause = .aborted ∧ ∃ document, .death token document ∈ past

/-- The output of the run was accepted, and there was a moment at which a newer run had begun and a
lookup for this one was still out. -/
def Overtaken : Prop :=
  ∃ before document printed middle later,
    past = before ++ .output token document printed :: middle ++ later
      ∧ (start.after before).checker.runs.counts token = true
      ∧ token < (start.after (before ++ .output token document printed :: middle)).token
      ∧ ∃ parcel, .lookUp token parcel
          ∈ (start.after (before ++ .output token document printed :: middle)).errands

/-- How a run comes to an ending. -/
def CameTo : Event → Prop
  | .settled _ => Accepted start past token
  | .discarded _ => Outlived start past token
  | .failed _ cause => Broken past token cause
  | .started _ _ | .published _ _ => False

variable {start past token}

theorem Accepted.snoc (ha : Accepted start past token) (h : Happening) :
    Accepted start (past ++ [h]) token := by
  obtain ⟨before, document, printed, later, rfl, hcounts⟩ := ha
  exact ⟨before, document, printed, later ++ [h], by simp, hcounts⟩

theorem Outlived.snoc (ho : Outlived start past token) (h : Happening) :
    Outlived start (past ++ [h]) token := by
  obtain ⟨before, document, printed, later, rfl, holder⟩ := ho
  exact ⟨before, document, printed, later ++ [h], by simp, holder⟩

theorem Broken.snoc {cause : RunFailure} (hb : Broken past token cause) (h : Happening) :
    Broken (past ++ [h]) token cause := by
  rcases hb with ⟨document, hmem⟩ | ⟨hcause, document, hmem⟩
  · exact .inl ⟨document, List.mem_append_left _ hmem⟩
  · exact .inr ⟨hcause, document, List.mem_append_left _ hmem⟩

theorem Overtaken.snoc (ho : Overtaken start past token) (h : Happening) :
    Overtaken start (past ++ [h]) token := by
  obtain ⟨before, document, printed, middle, later, rfl, hcounts, holder, hout⟩ := ho
  exact ⟨before, document, printed, middle, later ++ [h], by simp, hcounts, holder, hout⟩

theorem CameTo.snoc {e : Event} (hc : CameTo start past token e) (h : Happening) :
    CameTo start (past ++ [h]) token e := by
  cases e with
  | started t uri => exact hc.elim
  | published uri count => exact hc.elim
  | settled t => exact Accepted.snoc hc h
  | discarded t => exact Outlived.snoc hc h
  | failed t cause => exact Broken.snoc hc h

theorem Accepted.of_output {document : DocumentRef} {printed : List Finding}
    (hcounts : (start.after past).checker.runs.counts token = true) :
    Accepted start (past ++ [.output token document printed]) token :=
  ⟨past, document, printed, [], rfl, hcounts⟩

theorem Outlived.of_output {document : DocumentRef} {printed : List Finding}
    (holder : token < (start.after past).token) :
    Outlived start (past ++ [.output token document printed]) token :=
  ⟨past, document, printed, [], rfl, holder⟩

theorem Broken.of_fails {h : Happening} {document : DocumentRef} {cause : RunFailure}
    (hmet : h = .failure token document cause ∨ cause = .aborted ∧ h = .death token document) :
    Broken (past ++ [h]) token cause := by
  rcases hmet with rfl | ⟨hcause, rfl⟩
  · exact .inl ⟨document, by simp⟩
  · exact .inr ⟨hcause, document, by simp⟩

/-- An accepted run is overtaken by the happening that starts a newer one, if a lookup is out then. -/
theorem Overtaken.of_accepted (ha : Accepted start past token) {h : Happening} {parcel : Parcel}
    (holder : token < ((start.after past).meet h).token)
    (hout : .lookUp token parcel ∈ ((start.after past).meet h).errands) :
    Overtaken start (past ++ [h]) token := by
  obtain ⟨before, document, printed, later, hsplit, hcounts⟩ := ha
  rw [← after_snoc, hsplit, List.append_assoc, List.cons_append] at holder hout
  exact ⟨before, document, printed, later ++ [h], [], by simp [hsplit], hcounts, holder, parcel, hout⟩

end Fates

/-! ## 2. The course -/

/-- The endings that a run has been given. -/
def endingsOf (b : Bench) (token : Nat) : List Event := b.events.filter (Event.ends token)

/-- How far a run has come: what is out for it, and which endings it has got. -/
inductive Course (start : Bench) (past : List Happening) (b : Bench) (token : Nat) : Prop where
  | running (document : DocumentRef) (out : b.errandsOf token = [.process token document])
      (untold : b.endingsOf token = [])
  | placing (parcels : List Parcel) (current : token = b.token) (some : parcels ≠ [])
      (out : b.errandsOf token = parcels.map (.lookUp token)) (untold : b.endingsOf token = [])
      (cause : Accepted start past token)
  | overtaken (parcels : List Parcel) (older : token < b.token)
      (out : b.errandsOf token = parcels.map (.lookUp token)) (untold : b.endingsOf token = [])
      (cause : Overtaken start past token)
  | ended (ending : Event) (out : b.errandsOf token = []) (told : b.endingsOf token = [ending])
      (cause : CameTo start past token ending)

variable {start b : Bench} {past : List Happening} {token : Nat} {h : Happening}

theorem endingsOf_meet (b : Bench) (h : Happening) (token : Nat) :
    (b.meet h).endingsOf token = b.endingsOf token ++ (b.told h).filter (Event.ends token) := by
  unfold endingsOf
  rw [events_meet, List.filter_append]

/-- A run that does not end in what is told keeps the endings that it has. -/
theorem endingsOf_meet_of_told {told : List Event} (htold : b.told h = told)
    (hnone : told.filter (Event.ends token) = []) : (b.meet h).endingsOf token = b.endingsOf token := by
  rw [endingsOf_meet, htold, hnone, List.append_nil]

/-- A run that has no part in a happening keeps its course, as long as no newer run begins. -/
theorem Course.keep (hc : Course start past b token) (htoken : (b.meet h).token = b.token)
    (hout : (b.meet h).errandsOf token = b.errandsOf token)
    (hends : (b.meet h).endingsOf token = b.endingsOf token) :
    Course start (past ++ [h]) (b.meet h) token := by
  cases hc with
  | running document out untold => exact .running document (hout.trans out) (hends.trans untold)
  | placing parcels current some out untold cause =>
    exact .placing parcels (current.trans htoken.symm) some (hout.trans out) (hends.trans untold)
      (cause.snoc h)
  | overtaken parcels older out untold cause =>
    exact .overtaken parcels (Nat.lt_of_lt_of_eq older htoken.symm) (hout.trans out)
      (hends.trans untold) (cause.snoc h)
  | ended ending out told cause =>
    exact .ended ending (hout.trans out) (hends.trans told) (cause.snoc h)

/-- While its process is out, a run is running. -/
theorem Course.of_process (hc : Course start past b token) {document : DocumentRef}
    (hout : .process token document ∈ b.errands) :
    b.errandsOf token = [.process token document] ∧ b.endingsOf token = [] := by
  have hmem : .process token document ∈ b.errandsOf token := mem_errandsOf.mpr ⟨hout, rfl⟩
  cases hc with
  | running document' out untold =>
    rw [out] at hmem
    cases List.mem_singleton.mp hmem
    exact ⟨out, untold⟩
  | placing parcels current some out untold cause =>
    rw [out] at hmem
    obtain ⟨p, _, hp⟩ := List.mem_map.mp hmem
    cases hp
  | overtaken parcels older out untold cause =>
    rw [out] at hmem
    obtain ⟨p, _, hp⟩ := List.mem_map.mp hmem
    cases hp
  | ended ending out told cause =>
    rw [out] at hmem
    cases hmem

/-- While a lookup is out for it, a run is placing its parcels or has been overtaken. -/
theorem Course.of_lookUp (hc : Course start past b token) {parcel : Parcel}
    (hout : .lookUp token parcel ∈ b.errands) :
    ∃ parcels : List Parcel, b.errandsOf token = parcels.map (.lookUp token) ∧ b.endingsOf token = []
      ∧ (token = b.token ∧ Accepted start past token ∨ token < b.token ∧ Overtaken start past token) := by
  have hmem : .lookUp token parcel ∈ b.errandsOf token := mem_errandsOf.mpr ⟨hout, rfl⟩
  cases hc with
  | running document out untold =>
    rw [out] at hmem
    cases List.mem_singleton.mp hmem
  | placing parcels current some out untold cause => exact ⟨parcels, out, untold, .inl ⟨current, cause⟩⟩
  | overtaken parcels older out untold cause => exact ⟨parcels, out, untold, .inr ⟨older, cause⟩⟩
  | ended ending out told cause =>
    rw [out] at hmem
    cases hmem

/-! ## 3. One happening -/

section Step

variable (hc : Course start past (start.after past) token)

include hc

/-- What was running when a run begins goes on, and what was placing is overtaken. -/
theorem Course.meet_start (hle : token ≤ (start.after past).token)
    (htoken : ((start.after past).meet h).token = (start.after past).token + 1)
    (hout : ((start.after past).meet h).errandsOf token = (start.after past).errandsOf token)
    (hends : ((start.after past).meet h).endingsOf token = (start.after past).endingsOf token) :
    Course start (past ++ [h]) ((start.after past).meet h) token := by
  have holder : token < ((start.after past).meet h).token := by omega
  cases hc with
  | running document out untold => exact .running document (hout.trans out) (hends.trans untold)
  | placing parcels current some out untold cause =>
    obtain ⟨parcel, hparcel⟩ := List.exists_mem_of_ne_nil parcels some
    have hmem : .lookUp token parcel ∈ ((start.after past).meet h).errandsOf token := by
      rw [hout, out]
      exact List.mem_map_of_mem hparcel
    exact .overtaken parcels holder (hout.trans out) (hends.trans untold)
      (.of_accepted cause holder (mem_errandsOf.mp hmem).1)
  | overtaken parcels older out untold cause =>
    exact .overtaken parcels holder (hout.trans out) (hends.trans untold) (cause.snoc h)
  | ended ending out told cause =>
    exact .ended ending (hout.trans out) (hends.trans told) (cause.snoc h)

/-- A process that comes back for nothing ends its run. -/
theorem Course.meet_process {document : DocumentRef} {ending : Event}
    (hout : .process token document ∈ (start.after past).errands)
    (herrands : ((start.after past).meet h).errands
      = (start.after past).errands.erase (.process token document))
    (htold : (start.after past).told h = [ending]) (hends : ending.ends token = true)
    (hcause : CameTo start (past ++ [h]) token ending) :
    Course start (past ++ [h]) ((start.after past).meet h) token := by
  obtain ⟨hprocess, huntold⟩ := hc.of_process hout
  refine .ended ending ?_ ?_ hcause
  · rw [errandsOf_erase herrands, hprocess]
    simp
  · rw [endingsOf_meet, htold, huntold]
    simp [hends]

/-- A process whose output counts leaves its run placing parcels, or settled if there are none. -/
theorem Course.meet_accepted {document : DocumentRef} {printed : List Finding} {parcels : List Parcel}
    (hcurrent : token = (start.after past).token) (alive : (start.after past).checker.runs.disposed = false)
    (hmet : h = .output token document printed)
    (hout : .process token document ∈ (start.after past).errands)
    (htoken : ((start.after past).meet h).token = (start.after past).token)
    (herrands : ((start.after past).meet h).errands
      = (start.after past).errands.erase (.process token document) ++ parcels.map (.lookUp token))
    (htold : (start.after past).told h = if parcels = [] then [.settled token] else []) :
    Course start (past ++ [h]) ((start.after past).meet h) token := by
  obtain ⟨hprocess, huntold⟩ := hc.of_process hout
  have haccepted : Accepted start (past ++ [h]) token := by
    rw [hmet]
    exact .of_output (RunState.counts_iff.mpr ⟨alive, hcurrent⟩)
  have hleft : ((start.after past).meet h).errandsOf token = parcels.map (.lookUp token) := by
    have hfilter : ((start.after past).errands.erase (.process token document)).filter (·.token = token) = [] := by
      rw [← List.erase_filter]
      have hprocess : (start.after past).errands.filter (·.token = token) = _ := hprocess
      simp [hprocess]
    unfold errandsOf
    rw [herrands, List.filter_append, hfilter, filter_lookUp, List.nil_append]
  have hends : ((start.after past).meet h).endingsOf token = if parcels = [] then [.settled token] else [] := by
    rw [endingsOf_meet, htold, huntold]
    split <;> simp [Event.ends]
  by_cases hnone : parcels = []
  · subst hnone
    exact .ended (.settled token) hleft hends haccepted
  · rw [if_neg hnone] at hends
    exact .placing parcels (hcurrent.trans htoken.symm) hnone hleft hends haccepted

/-- An answer leaves one lookup fewer, and settles the current run if it was the last. -/
theorem Course.meet_answered {parcel : Parcel} (published : List Event)
    (hout : .lookUp token parcel ∈ (start.after past).errands)
    (htoken : ((start.after past).meet h).token = (start.after past).token)
    (herrands : ((start.after past).meet h).errands
      = (start.after past).errands.erase (.lookUp token parcel))
    (hpublished : published.filter (Event.ends token) = [])
    (htold : (start.after past).told h = published ++
      if token = (start.after past).token ∧ ((start.after past).meet h).errandsOf token = []
        then [.settled token] else []) :
    Course start (past ++ [h]) ((start.after past).meet h) token := by
  obtain ⟨parcels, hparcels, huntold, hcase⟩ := hc.of_lookUp hout
  have hleft : ((start.after past).meet h).errandsOf token = (parcels.erase parcel).map (.lookUp token) := by
    rw [errandsOf_erase herrands, hparcels, erase_lookUp]
  have hends : ((start.after past).meet h).endingsOf token
      = if token = (start.after past).token ∧ ((start.after past).meet h).errandsOf token = []
          then [.settled token] else [] := by
    rw [endingsOf_meet, htold, huntold, List.filter_append, hpublished]
    split <;> simp [Event.ends]
  rcases hcase with ⟨hcurrent, haccepted⟩ | ⟨holder, hovertaken⟩
  · by_cases hlast : ((start.after past).meet h).errandsOf token = []
    · rw [if_pos ⟨hcurrent, hlast⟩] at hends
      exact .ended (.settled token) hlast hends (haccepted.snoc h)
    · rw [if_neg fun hboth => hlast hboth.2] at hends
      refine .placing _ (hcurrent.trans htoken.symm) ?_ hleft hends (haccepted.snoc h)
      intro hnone
      rw [hnone] at hleft
      exact hlast hleft
  · rw [if_neg fun hboth => Nat.ne_of_lt holder hboth.1] at hends
    exact .overtaken _ (Nat.lt_of_lt_of_eq holder htoken.symm) hleft hends (hovertaken.snoc h)

/-- **Every run goes on with its course**, whatever happens. -/
theorem Course.meet (alive : (start.after past).checker.runs.disposed = false)
    (hle : token ≤ (start.after past).token) (houtcome : Outcome (start.after past) h) :
    Course start (past ++ [h]) ((start.after past).meet h) token := by
  cases houtcome with
  | quiet htoken errands told =>
    refine hc.keep htoken ?_ (endingsOf_meet_of_told told rfl)
    unfold errandsOf
    rw [errands]
  | starts document htoken errands told =>
    refine hc.meet_start hle htoken ?_ (endingsOf_meet_of_told told rfl)
    rw [errandsOf_append errands, List.filter_eq_nil_iff.mpr, List.append_nil]
    intro e he
    rw [List.mem_singleton.mp he]
    have hne : (start.after past).token + 1 ≠ token := by omega
    exact fun hrun => hne (of_decide_eq_true hrun)
  | accepts document printed parcels met out htoken errands told =>
    by_cases hrun : (start.after past).token = token
    · rw [hrun] at met out errands told
      exact hc.meet_accepted hrun.symm alive met out htoken errands told
    · refine hc.keep htoken ?_ (endingsOf_meet_of_told told (by split <;> simp [Event.ends, hrun]))
      unfold errandsOf
      rw [errands, List.filter_append, filter_lookUp_of_ne hrun, List.append_nil, ← List.erase_filter]
      exact List.erase_of_not_mem fun hmem => hrun (mem_errandsOf.mp hmem).2
  | discards run document printed met older out htoken errands told =>
    by_cases hrun : run = token
    · subst hrun
      refine hc.meet_process out errands told (decide_eq_true rfl) ?_
      rw [met]
      exact .of_output older
    · exact hc.keep htoken (errandsOf_erase_of_ne errands hrun)
        (endingsOf_meet_of_told told (by simp [Event.ends, hrun]))
  | fails run document cause met out htoken errands told =>
    by_cases hrun : run = token
    · subst hrun
      exact hc.meet_process out errands told (decide_eq_true rfl) (.of_fails met)
    · exact hc.keep htoken (errandsOf_erase_of_ne errands hrun)
        (endingsOf_meet_of_told told (by simp [Event.ends, hrun]))
  | places a met out htoken errands told =>
    by_cases hrun : (start.after past).token = token
    · rw [hrun] at met out errands told
      refine hc.meet_answered [.published a.uri (a.diagnostics (start.after past).checker.name).length] out
        htoken errands rfl ?_
      rw [told]
      simp [hrun]
    · exact hc.keep htoken (errandsOf_erase_of_ne errands hrun)
        (endingsOf_meet_of_told told (by split <;> simp [Event.ends, hrun]))
  | overlooks run a met older out htoken errands told =>
    by_cases hrun : run = token
    · subst hrun
      refine hc.meet_answered [] out htoken errands rfl ?_
      rw [told, if_neg fun hboth => Nat.ne_of_lt older hboth.1]
      rfl
    · exact hc.keep htoken (errandsOf_erase_of_ne errands hrun) (endingsOf_meet_of_told told rfl)

end Step

end Bench

end SyntaxWatch
