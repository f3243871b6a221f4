import SyntaxWatch.Proofs.Checker.Superseded
import SyntaxWatch.Proofs.Checker.Timing

/-!
# Calls in any order

A checker calls its `RunState` in an order that makes sense: it fires what it has armed, and counts off the
files of the run that it has started. Nothing here relies on that. The calls come in any order, with numbers
that were given out long ago or never, and what was asked and answered is written down. The state is then what
the log says (`Recorded`): what is armed and what is running, which token is the current one, whether anything
can happen any more.

Three calls add to what the log says: `arm`, `fire` and `dispose`. The four others are *asides*. They can end
the current run or change how many of its files are left, and nothing else (`Aside`), so one lemma serves them
all (`Recorded.aside`).
-/

set_option autoImplicit false

namespace SyntaxWatch.RunState

/-! ## 1. Calls and answers -/

inductive Call where
  | arm
  | fire (seq : Nat)
  | counts (token : Nat)
  | awaitFiles (token files : Nat)
  | fileWritten (token : Nat)
  | giveUp (token : Nat)
  | dispose
  deriving DecidableEq, Repr

inductive Answer where
  /-- A number that is given out; none where the call is refused. -/
  | number (n : Option Nat)
  | verdict (yes : Bool)
  | silence
  deriving DecidableEq, Repr

/-- What a call does, and what it is answered. -/
def reply (s : RunState) : Call → RunState × Answer
  | .arm => (s.arm.1, .number s.arm.2)
  | .fire seq => ((s.fire seq).1, .number (s.fire seq).2)
  | .counts token => (s, .verdict (s.counts token))
  | .awaitFiles token files => ((s.awaitFiles token files).1, .verdict (s.awaitFiles token files).2)
  | .fileWritten token => ((s.fileWritten token).1, .verdict (s.fileWritten token).2)
  | .giveUp token => (s.giveUp token, .silence)
  | .dispose => (s.dispose, .silence)

/-- A call with its answer. -/
structure Exchange where
  call : Call
  answer : Answer
  deriving DecidableEq, Repr

namespace Exchange

/-- The number of the arming that was made. -/
def arming? : Exchange → Option Nat
  | ⟨.arm, .number n⟩ => n
  | _ => none

/-- The token of the run that was started. -/
def started? : Exchange → Option Nat
  | ⟨.fire _, .number n⟩ => n
  | _ => none

/-- The number of the arming that was used up by starting a run. -/
def spent? : Exchange → Option Nat
  | ⟨.fire seq, .number (some _)⟩ => some seq
  | _ => none

end Exchange

/-- The numbers of all armings, in order. -/
def armingsOf (log : List Exchange) : List Nat := log.filterMap Exchange.arming?

/-- The tokens of all runs, in order. -/
def tokensOf (log : List Exchange) : List Nat := log.filterMap Exchange.started?

/-- The numbers of the armings that have fired. -/
def spentOf (log : List Exchange) : List Nat := log.filterMap Exchange.spent?

/-- The state has been disposed at some time. -/
def Ended (log : List Exchange) : Prop := ∃ e ∈ log, e.call = .dispose

def perform (now : List Exchange × RunState) (call : Call) : List Exchange × RunState :=
  (now.1 ++ [⟨call, (now.2.reply call).2⟩], (now.2.reply call).1)

/-- A new state on which these calls have been made, and their log. -/
def after (calls : List Call) : List Exchange × RunState := calls.foldl perform ([], fresh)

theorem after_snoc (calls : List Call) (call : Call) :
    after (calls ++ [call]) = perform (after calls) call := by
  unfold after
  rw [List.foldl_append]
  rfl

/-! ## 2. Asides -/

/-- The second state differs from the first at most in its run: that may have ended, or have other files
left. Where no run can be, no files are left either. -/
structure Aside (s t : RunState) : Prop where
  timer : SameTimer s t
  token : t.token = s.token
  running : t.running = s.running ∨ t.running = none
  unwritten : s.disposed = true → s.unwritten = 0 → t.unwritten = 0

variable {s t : RunState}

theorem Aside.refl (s : RunState) : Aside s s := ⟨.refl s, rfl, .inl rfl, fun _ h => h⟩

theorem counts_of_disposed (hgone : s.disposed = true) (token : Nat) : s.counts token = false := by
  simp [counts, hgone]

theorem awaitFiles_of_disposed (hgone : s.disposed = true) (token files : Nat) :
    s.awaitFiles token files = (s, false) := by
  unfold awaitFiles
  rw [counts_of_disposed hgone, if_neg Bool.false_ne_true]

theorem fileWritten_of_disposed (hgone : s.disposed = true) (token : Nat) :
    s.fileWritten token = (s, false) := by
  unfold fileWritten
  rw [counts_of_disposed hgone, if_neg fun h => Bool.false_ne_true h.1]

theorem awaitFiles_aside (s : RunState) (token files : Nat) : Aside s (s.awaitFiles token files).1 := by
  refine ⟨awaitFiles_sameTimer s token files, awaitFiles_token s token files, ?_, ?_⟩
  · unfold awaitFiles
    split
    · exact settleIfNoneLeft_running _
    · exact .inl rfl
  · intro hgone hnone
    rw [awaitFiles_of_disposed hgone]
    exact hnone

theorem fileWritten_aside (s : RunState) (token : Nat) : Aside s (s.fileWritten token).1 := by
  refine ⟨fileWritten_sameTimer s token, fileWritten_token s token, ?_, ?_⟩
  · unfold fileWritten
    split
    · exact settleIfNoneLeft_running _
    · exact .inl rfl
  · intro hgone hnone
    rw [fileWritten_of_disposed hgone]
    exact hnone

theorem giveUp_aside (s : RunState) (token : Nat) : Aside s (s.giveUp token) := by
  refine ⟨giveUp_sameTimer s token, giveUp_token s token, ?_, ?_⟩
  · unfold giveUp
    split
    · exact .inr rfl
    · exact .inl rfl
  · intro _ hnone
    unfold giveUp
    split
    · rfl
    · exact hnone

/-! ## 3. The log and the state -/

/-- The state is what the log says. -/
structure Recorded (log : List Exchange) (s : RunState) : Prop where
  disposed : s.disposed = true ↔ Ended log
  armings : armingsOf log = List.range' 1 s.armings
  tokens : tokensOf log = List.range' 1 (tokensOf log).length
  token : s.disposed = false → s.token = (tokensOf log).length
  spent : ∀ seq ∈ spentOf log, seq ≤ s.armings
  armed : ∀ seq, s.armed = some seq ↔
    s.disposed = false ∧ (armingsOf log).getLast? = some seq ∧ seq ∉ spentOf log
  running : ∀ token, s.running = some token → s.disposed = false ∧ token = s.token
  unwritten : s.disposed = true → s.unwritten = 0
  /-- Only a start and a disposal take a new token. -/
  token_le : s.token ≤ log.length

variable {log : List Exchange} {call : Call} {answer : Answer}

theorem ended_snoc {e : Exchange} : Ended (log ++ [e]) ↔ Ended log ∨ e.call = .dispose := by
  simp [Ended, or_and_right, exists_or]

theorem recorded_fresh : Recorded [] fresh := by
  refine ⟨by simp [fresh, Ended], rfl, rfl, fun _ => rfl, by simp [spentOf], ?_, nofun, nofun, Nat.le_refl 0⟩
  intro seq
  simp [fresh, armingsOf]

theorem Recorded.armings_le (h : Recorded log s) : s.armings ≤ log.length := by
  have hlength : (armingsOf log).length = s.armings := by rw [h.armings, List.length_range']
  rw [← hlength]
  exact List.length_filterMap_le _ _

/-- No number is given out or used up. -/
structure Exchange.Silent (e : Exchange) : Prop where
  arming : e.arming? = none
  started : e.started? = none
  spent : e.spent? = none

theorem Exchange.Silent.snoc {e : Exchange} (h : e.Silent) (log : List Exchange) :
    armingsOf (log ++ [e]) = armingsOf log ∧ tokensOf (log ++ [e]) = tokensOf log
      ∧ spentOf (log ++ [e]) = spentOf log := by
  refine ⟨?_, ?_, ?_⟩
  · simp [armingsOf, h.arming]
  · simp [tokensOf, h.started]
  · simp [spentOf, h.spent]

/-- **An aside adds nothing to what the log says.** -/
theorem Recorded.aside (h : Recorded log s) (haside : Aside s t) (hcall : call ≠ .dispose)
    (hsilent : (Exchange.mk call answer).Silent) : Recorded (log ++ [⟨call, answer⟩]) t := by
  obtain ⟨harmings, htokens, hspents⟩ := hsilent.snoc log
  obtain ⟨⟨sameArmings, sameArmed, sameDisposed⟩, sameToken, hrunning, hunwritten⟩ := haside
  refine ⟨?_, ?_, ?_, ?_, ?_, ?_, ?_, ?_, ?_⟩
  · rw [sameDisposed, h.disposed, ended_snoc, or_iff_left hcall]
  · rw [harmings, sameArmings]
    exact h.armings
  · rw [htokens]
    exact h.tokens
  · rw [htokens, sameDisposed, sameToken]
    exact h.token
  · rw [hspents, sameArmings]
    exact h.spent
  · rw [harmings, hspents, sameArmed, sameDisposed]
    exact h.armed
  · intro token htoken
    rw [sameDisposed, sameToken]
    rcases hrunning with hsame | hnone
    · exact h.running token (hsame ▸ htoken)
    · rw [hnone] at htoken
      cases htoken
  · rw [sameDisposed]
    exact fun hgone => hunwritten hgone (h.unwritten hgone)
  · rw [sameToken, List.length_append]
    exact Nat.le_add_right_of_le h.token_le

theorem arm_of_disposed (hgone : s.disposed = true) : s.arm = (s, none) := by
  unfold RunState.arm
  rw [if_pos hgone]

theorem arm_of_alive (halive : s.disposed = false) :
    s.arm = ({ s with armings := s.armings + 1, armed := some (s.armings + 1) }, some (s.armings + 1)) := by
  unfold RunState.arm
  rw [if_neg (Bool.eq_false_iff.mp halive)]

theorem fire_of_ne {seq : Nat} (hother : s.armed ≠ some seq) : s.fire seq = (s, none) := by
  unfold RunState.fire
  rw [if_pos (.inr hother)]

theorem fire_of_armed {seq : Nat} (halive : s.disposed = false) (harmed : s.armed = some seq) :
    s.fire seq
      = ({ s with armed := none, token := s.token + 1, running := some (s.token + 1), unwritten := 0 },
          some (s.token + 1)) := by
  unfold RunState.fire
  rw [if_neg (by simp [halive, harmed])]

/-- An arming has a number that no arming before it had, so it has not fired. -/
theorem Recorded.arm (h : Recorded log s) :
    Recorded (log ++ [⟨.arm, .number s.arm.2⟩]) s.arm.1 := by
  cases hdisposed : s.disposed with
  | true =>
    rw [arm_of_disposed hdisposed]
    exact h.aside (.refl s) nofun ⟨rfl, rfl, rfl⟩
  | false =>
    rw [arm_of_alive hdisposed]
    have harmings : ∀ n, armingsOf (log ++ [⟨.arm, .number (some n)⟩]) = armingsOf log ++ [n] := by
      simp [armingsOf, Exchange.arming?]
    have htokens : ∀ n, tokensOf (log ++ [⟨.arm, .number n⟩]) = tokensOf log := by
      simp [tokensOf, Exchange.started?]
    have hspents : ∀ n, spentOf (log ++ [⟨.arm, .number n⟩]) = spentOf log := by
      simp [spentOf, Exchange.spent?]
    refine ⟨?_, ?_, ?_, ?_, ?_, ?_, h.running, h.unwritten, ?_⟩
    · rw [h.disposed, ended_snoc, or_iff_left nofun]
    · rw [harmings, h.armings, List.range'_1_concat, Nat.add_comm 1]
    · rw [htokens]
      exact h.tokens
    · rw [htokens]
      exact h.token
    · rw [hspents]
      exact fun seq hseq => Nat.le_succ_of_le (h.spent seq hseq)
    · intro seq
      have hfresh : s.armings + 1 ∉ spentOf log := fun hmem => Nat.lt_irrefl _ (h.spent _ hmem)
      rw [harmings, hspents, List.getLast?_concat]
      constructor
      · intro hseq
        exact ⟨hdisposed, hseq, Option.some.inj hseq ▸ hfresh⟩
      · exact fun hseq => hseq.2.1
    · rw [List.length_append]
      exact Nat.le_add_right_of_le h.token_le

/-- What fires is the latest arming, and it is spent by it. -/
theorem Recorded.fire (h : Recorded log s) (seq : Nat) :
    Recorded (log ++ [⟨.fire seq, .number (s.fire seq).2⟩]) (s.fire seq).1 := by
  by_cases harmed : s.armed = some seq
  · obtain ⟨halive, hlast, _⟩ := (h.armed seq).mp harmed
    rw [fire_of_armed halive harmed]
    have harmings : ∀ n, armingsOf (log ++ [⟨.fire seq, .number n⟩]) = armingsOf log := by
      simp [armingsOf, Exchange.arming?]
    have htokens : ∀ n, tokensOf (log ++ [⟨.fire seq, .number (some n)⟩]) = tokensOf log ++ [n] := by
      simp [tokensOf, Exchange.started?]
    have hspents : ∀ n, spentOf (log ++ [⟨.fire seq, .number (some n)⟩]) = spentOf log ++ [seq] := by
      simp [spentOf, Exchange.spent?]
    refine ⟨?_, ?_, ?_, ?_, ?_, ?_, ?_, fun _ => rfl, ?_⟩
    · rw [h.disposed, ended_snoc, or_iff_left nofun]
    · rw [harmings]
      exact h.armings
    · rw [htokens, List.length_append, List.length_singleton, List.range'_1_concat, ← h.tokens, h.token halive,
        Nat.add_comm 1]
    · rw [htokens, List.length_append, ← h.token halive]
      exact fun _ => rfl
    · have hseq : seq ∈ armingsOf log := List.mem_of_getLast? hlast
      rw [h.armings, List.mem_range'_1, Nat.add_comm 1] at hseq
      rw [hspents]
      intro old hold
      rcases List.mem_append.mp hold with hold | hold
      · exact h.spent old hold
      · rw [List.mem_singleton.mp hold]
        exact Nat.le_of_lt_succ hseq.2
    · intro other
      rw [harmings, hspents]
      -- the latest arming is the one that has just been spent
      constructor
      · intro hother
        cases hother
      · rintro ⟨_, hother, hunspent⟩
        rw [hlast] at hother
        exact absurd (by simp [Option.some.inj hother]) hunspent
    · intro token htoken
      exact ⟨halive, (Option.some.inj htoken).symm⟩
    · rw [List.length_append]
      exact Nat.succ_le_succ h.token_le
  · rw [fire_of_ne harmed]
    exact h.aside (.refl s) nofun ⟨rfl, rfl, rfl⟩

theorem Recorded.dispose (h : Recorded log s) : Recorded (log ++ [⟨.dispose, .silence⟩]) s.dispose := by
  have hsilent : (Exchange.mk .dispose .silence).Silent := ⟨rfl, rfl, rfl⟩
  obtain ⟨harmings, htokens, hspents⟩ := hsilent.snoc log
  refine ⟨?_, ?_, ?_, nofun, ?_, ?_, nofun, fun _ => rfl, ?_⟩
  · exact ⟨fun _ => ended_snoc.mpr (.inr rfl), fun _ => rfl⟩
  · rw [harmings]
    exact h.armings
  · rw [htokens]
    exact h.tokens
  · rw [hspents]
    exact h.spent
  · intro seq
    simp [RunState.dispose]
  · rw [List.length_append]
    exact Nat.succ_le_succ h.token_le

/-- **Every call keeps the record.** -/
theorem Recorded.reply (h : Recorded log s) (call : Call) :
    Recorded (log ++ [⟨call, (s.reply call).2⟩]) (s.reply call).1 := by
  cases call with
  | arm => exact h.arm
  | fire seq => exact h.fire seq
  | counts token => exact h.aside (.refl s) nofun ⟨rfl, rfl, rfl⟩
  | awaitFiles token files => exact h.aside (awaitFiles_aside s token files) nofun ⟨rfl, rfl, rfl⟩
  | fileWritten token => exact h.aside (fileWritten_aside s token) nofun ⟨rfl, rfl, rfl⟩
  | giveUp token => exact h.aside (giveUp_aside s token) nofun ⟨rfl, rfl, rfl⟩
  | dispose => exact h.dispose

theorem after_recorded (calls : List Call) : Recorded (after calls).1 (after calls).2 := by
  induction calls using List.reverseRecOn with
  | nil => exact recorded_fresh
  | append_singleton calls call ih =>
    rw [after_snoc]
    exact ih.reply call

/-! ## 4. What can be relied on -/

/-- Nothing can happen any more: what is asked for is refused, and changes nothing. -/
structure Closed (s : RunState) : Prop where
  armed : s.armed = none
  running : s.running = none
  unwritten : s.unwritten = 0
  arm : s.arm = (s, none)
  fire : ∀ seq, s.fire seq = (s, none)
  counts : ∀ token, s.counts token = false
  awaitFiles : ∀ token files, s.awaitFiles token files = (s, false)
  fileWritten : ∀ token, s.fileWritten token = (s, false)

/-- What a state is like after what has been asked and answered. -/
structure Governed (log : List Exchange) (s : RunState) : Prop where
  /-- The latest arming is armed, unless it has fired. -/
  armed : ∀ seq, s.armed = some seq ↔
    (armingsOf log).getLast? = some seq ∧ seq ∉ spentOf log ∧ ¬ Ended log
  running : ∀ token, s.running = some token → token = s.token ∧ s.disposed = false
  /-- The runs are numbered as they start. -/
  tokens : ∀ before e later, log = before ++ e :: later → ∀ token, e.started? = some token →
    token = (tokensOf before).length + 1
  rising : (tokensOf log).Pairwise (· < ·)
  fires : ∀ seq, (∃ token, (s.fire seq).2 = some token) ↔ s.armed = some seq
  /-- A run counts until the next one starts, or the end. -/
  counts : ∀ before e later, log = before ++ e :: later → ∀ token, e.started? = some token →
    (s.counts token = true ↔ tokensOf later = [] ∧ ¬ Ended log)
  closed : Ended log → s.Closed
  /-- Otherwise a new run can always be started. -/
  ready : ¬ Ended log → ∃ seq token,
    s.arm.2 = some seq ∧ (s.arm.1.fire seq).2 = some token ∧ ∀ earlier ∈ tokensOf log, earlier < token
  /-- No number is greater than the number of calls, so 64 bits hold the numbers of fewer than 2^64 calls. -/
  fits : s.armings ≤ log.length ∧ s.token ≤ log.length

theorem Recorded.alive_iff (h : Recorded log s) : s.disposed = false ↔ ¬ Ended log := by
  rw [← Bool.not_eq_true, h.disposed]

theorem Recorded.closed (h : Recorded log s) (hgone : s.disposed = true) : s.Closed := by
  have harmed : s.armed = none := by
    rw [Option.eq_none_iff_forall_ne_some]
    intro seq hseq
    rw [((h.armed seq).mp hseq).1] at hgone
    cases hgone
  have hrunning : s.running = none := by
    rw [Option.eq_none_iff_forall_ne_some]
    intro token htoken
    rw [(h.running token htoken).1] at hgone
    cases hgone
  refine ⟨harmed, hrunning, h.unwritten hgone, arm_of_disposed hgone, fun seq => fire_of_ne ?_,
    counts_of_disposed hgone, awaitFiles_of_disposed hgone, fileWritten_of_disposed hgone⟩
  rw [harmed]
  nofun

/-- The tokens are the numbers from one on, so a token says how many runs have started before. -/
theorem Recorded.token_eq (h : Recorded log s) {before later : List Exchange} {e : Exchange}
    (hlog : log = before ++ e :: later) {token : Nat} (htoken : e.started? = some token) :
    token = (tokensOf before).length + 1
      ∧ (tokensOf log).length = token + (tokensOf later).length := by
  have hsplit : tokensOf log = tokensOf before ++ token :: tokensOf later := by
    rw [hlog]
    simp [tokensOf, htoken]
  have hat : (tokensOf log)[(tokensOf before).length]? = some token := by
    rw [hsplit, List.getElem?_append_right (Nat.le_refl _), Nat.sub_self]
    rfl
  have hlength : (tokensOf log).length = (tokensOf before).length + ((tokensOf later).length + 1) := by
    rw [hsplit, List.length_append, List.length_cons]
  rw [h.tokens, List.getElem?_range' (by omega)] at hat
  have htoken : 1 + 1 * (tokensOf before).length = token := Option.some.inj hat
  omega

theorem Recorded.fires_iff (h : Recorded log s) (seq : Nat) :
    (∃ token, (s.fire seq).2 = some token) ↔ s.armed = some seq := by
  constructor
  · rintro ⟨token, htoken⟩
    by_contra hother
    rw [fire_of_ne hother] at htoken
    cases htoken
  · intro harmed
    rw [fire_of_armed ((h.armed seq).mp harmed).1 harmed]
    exact ⟨_, rfl⟩

/-- A token that was given out is the current one just when no other one has been given out since. -/
theorem Recorded.counts_iff (h : Recorded log s) {before later : List Exchange} {e : Exchange}
    (hlog : log = before ++ e :: later) {token : Nat} (htoken : e.started? = some token) :
    s.counts token = true ↔ tokensOf later = [] ∧ ¬ Ended log := by
  obtain ⟨_, hlength⟩ := h.token_eq hlog htoken
  rw [RunState.counts_iff, ← h.alive_iff, ← List.length_eq_zero_iff, and_comm]
  refine and_congr_left fun halive => ?_
  rw [h.token halive, hlength]
  omega

theorem Recorded.ready (h : Recorded log s) (halive : s.disposed = false) : ∃ seq token,
    s.arm.2 = some seq ∧ (s.arm.1.fire seq).2 = some token ∧ ∀ earlier ∈ tokensOf log, earlier < token := by
  rw [arm_of_alive halive]
  have hfire := fire_of_armed (s := { s with armings := s.armings + 1, armed := some (s.armings + 1) }) halive rfl
  refine ⟨s.armings + 1, s.token + 1, rfl, congrArg Prod.snd hfire, ?_⟩
  · intro earlier hearlier
    rw [h.tokens, List.mem_range'_1, Nat.add_comm 1] at hearlier
    rw [h.token halive]
    exact hearlier.2

/-- **A run state can be relied on whoever calls it**, in whatever order and with whatever numbers. -/
theorem calls_governed (calls : List Call) : Governed (after calls).1 (after calls).2 := by
  have h := after_recorded calls
  refine ⟨fun seq => ?_, fun token htoken => ?_, fun before e later hlog token htoken => ?_, ?_, h.fires_iff,
    fun before e later hlog token htoken => h.counts_iff hlog htoken, fun hgone => h.closed (h.disposed.mpr hgone),
    fun halive => h.ready (h.alive_iff.mpr halive), h.armings_le, h.token_le⟩
  · rw [h.armed, h.alive_iff, and_comm, and_assoc]
  · obtain ⟨halive, hcurrent⟩ := h.running token htoken
    exact ⟨hcurrent, halive⟩
  · exact (h.token_eq hlog htoken).1
  · rw [h.tokens]
    exact List.pairwise_lt_range' 1

-- an arming that was overtaken does not fire, and a new run supersedes the one whose file is left to write
example : ((after [.arm, .arm, .fire 1, .fire 2, .awaitFiles 1 2, .arm, .fire 3, .fileWritten 1]).1.map Exchange.answer)
    = [.number (some 1), .number (some 2), .number none, .number (some 1), .verdict false, .number (some 3),
        .number (some 2), .verdict false] := by
  decide

end SyntaxWatch.RunState
