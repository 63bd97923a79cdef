import RagnorDb.Lib.Checked

/-!
# Latest reads of a leader

The gate of `read.rs`: a leader serves latest reads once a barrier of its own term is applied.
-/

namespace RagnorDb

open Checked

/-- The place of a barrier in the Raft log. -/
structure ReadBarrierPosition where
  term : Nat
  index : Nat
  deriving DecidableEq

inductive LeaderReadGateError where
  | zeroLeaderTerm
  | termRegression (previous received : Nat)
  | invalidBarrierPosition (term index : Nat)
  | barrierTermMismatch (leaderTerm barrierTerm : Nat)
  | noLeaderTerm
  | barrierAlreadyPending
  | noPendingBarrier
  | appliedPositionMismatch (expected received : ReadBarrierPosition)
  deriving DecidableEq

open LeaderReadGateError

structure LeaderReadGate where
  leaderTerm : Option Nat
  pendingBarrier : Option ReadBarrierPosition
  appliedBarrier : Option ReadBarrierPosition

/-- What a gate is told.  It has no method for the loss of leadership. -/
inductive GateEvent where
  | elected (term : Nat)
  | steppedDown
  | registered (position : ReadBarrierPosition)
  | applied (position : ReadBarrierPosition)

namespace LeaderReadGate

def new : LeaderReadGate := ⟨none, none, none⟩

variable (self : LeaderReadGate)

def onLeaderElected (term : Nat) : Except LeaderReadGateError LeaderReadGate := do
  rejectIf (term = 0) zeroLeaderTerm
  rejectIf (self.leaderTerm.any (term < ·)) (termRegression (self.leaderTerm.getD 0) term)
  return ⟨some term, none, none⟩

def registerBarrier (position : ReadBarrierPosition) :
    Except LeaderReadGateError LeaderReadGate := do
  rejectIf (position.term = 0 ∨ position.index = 0)
    (invalidBarrierPosition position.term position.index)
  let leaderTerm ← okOr self.leaderTerm noLeaderTerm
  rejectIf (position.term ≠ leaderTerm) (barrierTermMismatch leaderTerm position.term)
  rejectIf (self.pendingBarrier.isSome ∧ self.appliedBarrier = none) barrierAlreadyPending
  return { self with pendingBarrier := some position, appliedBarrier := none }

def markBarrierApplied (position : ReadBarrierPosition) :
    Except LeaderReadGateError LeaderReadGate := do
  let expected ← okOr self.pendingBarrier noPendingBarrier
  rejectIf (expected ≠ position) (appliedPositionMismatch expected position)
  return { self with appliedBarrier := some position }

def canServeLatest (observedTerm : Nat) : Bool :=
  observedTerm ≠ 0 && self.leaderTerm = some observedTerm && self.pendingBarrier.isSome &&
    self.pendingBarrier = self.appliedBarrier

def handle : GateEvent → Except LeaderReadGateError LeaderReadGate
  | .elected term => self.onLeaderElected term
  | .steppedDown => .ok self
  | .registered position => self.registerBarrier position
  | .applied position => self.markBarrierApplied position

/-- The gate after some events; a call that fails leaves it as it was. -/
def after (events : List GateEvent) : LeaderReadGate :=
  events.foldl (fun gate event => (gate.handle event).toOption.getD gate) new

/-- The gate as its events account for it: the newest election that was not refused, and
the barrier registered since. -/
def Explains (events : List GateEvent) (gate : LeaderReadGate) : Prop :=
  ∀ term, gate.leaderTerm = some term → ∃ earlier rest,
    events = earlier ++ .elected term :: rest ∧
      (∀ newer, .elected newer ∈ rest → newer = 0 ∨ newer < term) ∧
      ∀ position, gate.pendingBarrier = some position → position.term = term ∧
        ∃ middle later, rest = middle ++ .registered position :: later ∧
          (gate.appliedBarrier = some position → .applied position ∈ later)

variable {self} {gate : LeaderReadGate} {events : List GateEvent} {event : GateEvent}

/-- An event that leaves the gate's barriers alone, or applies the pending one. -/
theorem Explains.append (h : Explains events self) (hterm : gate.leaderTerm = self.leaderTerm)
    (hpending : gate.pendingBarrier = self.pendingBarrier)
    (happlied : gate.appliedBarrier = self.appliedBarrier ∨
      ∃ position, gate.appliedBarrier = some position ∧ event = .applied position)
    (hrefused : ∀ newer, event = .elected newer → ∀ term, self.leaderTerm = some term →
      newer = 0 ∨ newer < term) : Explains (events ++ [event]) gate := by
  intro term hleader
  rw [hterm] at hleader
  obtain ⟨earlier, rest, rfl, helections, hbarrier⟩ := h term hleader
  refine ⟨earlier, rest ++ [event], by simp, ?_, ?_⟩
  · intro newer hmem
    rcases List.mem_append.mp hmem with hmem | hmem
    · exact helections newer hmem
    · exact hrefused newer (List.mem_singleton.mp hmem).symm term hleader
  · intro position hposition
    obtain ⟨hpos, middle, later, rfl, hlater⟩ := hbarrier position (hpending ▸ hposition)
    refine ⟨hpos, middle, later ++ [event], by simp, fun heq => List.mem_append.mpr ?_⟩
    rcases happlied with hsame | ⟨other, hother, rfl⟩
    · exact .inl (hlater (hsame ▸ heq))
    · cases hother.symm.trans heq
      exact .inr (List.mem_singleton_self _)

theorem Explains.handle (h : Explains events self) (hok : self.handle event = .ok gate) :
    Explains (events ++ [event]) gate := by
  cases event with
  | elected =>
    simp only [handle, onLeaderElected, eq_ok] at hok
    obtain ⟨_, -, _, -, rfl⟩ := hok
    rintro _ ⟨⟩
    exact ⟨events, [], rfl, nofun, nofun⟩
  | steppedDown =>
    cases hok
    exact h.append rfl rfl (.inl rfl) nofun
  | registered position =>
    simp only [handle, registerBarrier, eq_ok] at hok
    obtain ⟨_, -, leaderTerm, hleader, _, hsame, _, -, rfl⟩ := hok
    intro term hterm
    obtain ⟨earlier, rest, rfl, helections, -⟩ := h term hterm
    refine ⟨earlier, rest ++ [.registered position], by simp, by simpa using helections, ?_⟩
    rintro _ ⟨⟩
    cases hleader.symm.trans hterm
    exact ⟨hsame, rest, [], rfl, nofun⟩
  | applied position =>
    simp only [handle, markBarrierApplied, eq_ok] at hok
    obtain ⟨_, -, _, -, rfl⟩ := hok
    exact h.append rfl rfl (.inr ⟨position, rfl, rfl⟩) nofun

theorem Explains.refused {error : LeaderReadGateError} (h : Explains events self)
    (herror : self.handle event = .error error) : Explains (events ++ [event]) self := by
  refine h.append rfl rfl (.inl rfl) ?_
  rintro newer rfl term hterm
  by_contra hnew
  obtain ⟨hzero, hle⟩ := not_or.mp hnew
  simp [LeaderReadGate.handle, onLeaderElected, hterm, hzero, hle, rejectIf] at herror

theorem explains_after (events : List GateEvent) : Explains events (after events) := by
  induction events using List.reverseRecOn with
  | nil => exact nofun
  | append_singleton events event ih =>
    rw [after, List.foldl_append]
    change Explains _ (((after events).handle event).toOption.getD (after events))
    cases hevent : (after events).handle event with
    | ok => exact ih.handle hevent
    | error => exact ih.refused hevent

/-- Latest reads are served for a term only if a barrier of that term has been registered and
applied since its election, and every election after that was refused: it was of term zero or
of an older term.  The loss of leadership does not close the gate. -/
theorem latest_reads_fenced (events : List GateEvent) (term : Nat)
    (h : (after events).canServeLatest term = true) :
    ∃ earlier middle later position,
      events = earlier ++ .elected term :: middle ++ .registered position :: later ∧
        position.term = term ∧ .applied position ∈ later ∧
        ∀ newer, .elected newer ∈ middle ++ later → newer = 0 ∨ newer < term := by
  simp only [canServeLatest, Bool.and_eq_true, decide_eq_true_eq, Option.isSome_iff_exists] at h
  obtain ⟨⟨⟨-, hterm⟩, position, hpending⟩, hsame⟩ := h
  obtain ⟨earlier, rest, heq, helections, hbarrier⟩ := explains_after events term hterm
  obtain ⟨hposition, middle, later, rfl, happlied⟩ := hbarrier position hpending
  refine ⟨earlier, middle, later, position, by simpa using heq, hposition,
    happlied (hsame ▸ hpending), fun newer hnewer => helections newer ?_⟩
  rcases List.mem_append.mp hnewer with hmem | hmem
  · exact List.mem_append_left _ hmem
  · exact List.mem_append_right _ (List.mem_cons_of_mem _ hmem)

/-- A leader of term 4 whose barrier is applied. -/
def openEvents : List GateEvent := [.elected 4, .registered ⟨4, 9⟩, .applied ⟨4, 9⟩]

/-- The gate stays open through a step-down, and through an election that it refuses. -/
theorem open_gate_survives_step_down :
    (after (openEvents ++ [.steppedDown])).canServeLatest 4 = true ∧
      (after (openEvents ++ [.elected 3])).canServeLatest 4 = true := by
  decide

theorem latest_reads_fenced_sample :
    ∃ earlier middle later position,
      openEvents = earlier ++ .elected 4 :: middle ++ .registered position :: later ∧
        position.term = 4 ∧ .applied position ∈ later ∧
        ∀ newer, .elected newer ∈ middle ++ later → newer = 0 ∨ newer < 4 :=
  latest_reads_fenced openEvents 4 (by decide)

end LeaderReadGate

end RagnorDb
