import Mathlib.Data.List.Pairwise
import RagnorDb.Catalog.MetadataEffect
import RagnorDb.Txn.TimestampOracle

/-!
# Runs of a timestamp oracle

The metadata group is an authority in the sense of `ReservationAuthority`: it grants the timestamps
right above its frontier.  Over any such authority, a run interleaves the calls of one oracle with
grants to other owners.
-/

namespace RagnorDb

open Checked
open TimestampReservationProvider ReservationAuthority

/-! ## The metadata group as the authority -/

/-- The metadata state with the intervals that it has granted, the latest first, each with whether
it went to this owner. -/
structure MetadataFrontier where
  metadata : MetadataState
  grants : List (Bool × TimestampReservation)
  reserved : ∀ grant ∈ grants, grant.2.reservedUntil ≤ metadata.timestampReservedUntil
  ordered : grants.Pairwise fun later earlier => earlier.2.reservedUntil < later.2.reservedFrom

namespace MetadataFrontier

open MetadataState

variable {requestedUntil reservedFrom reservedUntil : Timestamp} {own : Bool}
  {reservation : TimestampReservation}

theorem apply_reserveTimestamps {s s' : MetadataState}
    (h : s.apply (.reserveTimestamps requestedUntil) =
      (.timestampsReserved reservedFrom reservedUntil, s')) :
    reservedFrom = s.timestampReservedUntil + 1 ∧ s.timestampReservedUntil < reservedUntil ∧
      s'.timestampReservedUntil = reservedUntil := by
  rcases s.apply_eq (.reserveTimestamps requestedUntil) with ⟨error, -, happly⟩ |
    ⟨-, ⟨rejection, -, happly⟩ | ⟨accepted, hhandle, happly⟩⟩
  · rw [happly] at h
    cases h
  · rw [happly] at h
    cases h
  · rw [happly] at h
    subst h
    simp only [handle, applyReserveTimestamps, eq_ok, Nat.not_le] at hhandle
    obtain ⟨_, -, _, hlt, haccepted⟩ := hhandle
    cases haccepted
    exact ⟨rfl, hlt, rfl⟩

/-- Propose one reservation for this owner or another. -/
def propose (self : MetadataFrontier) (own : Bool) (requestedUntil : Timestamp) :
    MetadataApplyOutcome × MetadataFrontier :=
  match h : self.metadata.apply (.reserveTimestamps requestedUntil) with
  | (.timestampsReserved reservedFrom reservedUntil, metadata) =>
    (.timestampsReserved reservedFrom reservedUntil,
      { metadata
        grants := (own, ⟨reservedFrom, reservedUntil⟩) :: self.grants
        reserved := by
          obtain ⟨-, hlt, hfrontier⟩ := apply_reserveTimestamps h
          simp only [List.forall_mem_cons, hfrontier]
          exact ⟨Nat.le_refl _, fun grant hmem =>
            Nat.le_trans (self.reserved grant hmem) (Nat.le_of_lt hlt)⟩
        ordered := by
          obtain ⟨rfl, -, -⟩ := apply_reserveTimestamps h
          rw [List.pairwise_cons]
          exact ⟨fun grant hmem => Nat.lt_succ_of_le (self.reserved grant hmem), self.ordered⟩ })
  | (outcome, _) => (outcome, self)

/-- What the client makes of an outcome: an interval, or the request to try next. -/
def settle : MetadataApplyOutcome → Except Error (TimestampReservation ⊕ Timestamp)
  | .timestampsReserved reservedFrom reservedUntil => .ok (.inl ⟨reservedFrom, reservedUntil⟩)
  | .rejected (.timestampReservationRegressed current _) =>
    .inr <$> okOr (checkedAdd current 1)
      (Error.configuration "timestamp reservation frontier is exhausted")
  | .rejected rejection => .error (Error.constraintViolation rejection.display)
  | _ => .error (Error.corruptData "timestamp reservation returned unexpected metadata outcome")

/-- `MetadataTimestampReservationClient::reserve_timestamps`, which moves its request above the
frontier when others have reserved in between. -/
def reserveTimestamps : Nat → Timestamp → EStateM Error MetadataFrontier TimestampReservation
  | 0, _ =>
    throw (.proposalUnavailable
      "timestamp reservation conflicted repeatedly with concurrent owners")
  | attempts + 1, requestedUntil => do
    let outcome ← modifyGet (propose · true requestedUntil)
    match ← (settle outcome : Except Error _) with
    | .inl reservation => return reservation
    | .inr next => reserveTimestamps attempts next

/-- The intervals granted to this owner, or to others. -/
def grantedTo (own : Bool) (self : MetadataFrontier) : List TimestampReservation :=
  (self.grants.filter (·.1 = own)).map (·.2)

variable {self self' : MetadataFrontier}

theorem mem_grantedTo :
    reservation ∈ self.grantedTo own ↔ (own, reservation) ∈ self.grants := by
  simp only [grantedTo, List.mem_map, List.mem_filter, decide_eq_true_eq]
  constructor
  · rintro ⟨⟨_, _⟩, ⟨hmem, rfl⟩, rfl⟩
    exact hmem
  · exact fun hmem => ⟨(own, reservation), ⟨hmem, rfl⟩, rfl⟩

theorem grantedTo_subset (h : self.grants ⊆ self'.grants) :
    self.grantedTo own ⊆ self'.grantedTo own := by
  intro reservation hmem
  rw [mem_grantedTo] at hmem ⊢
  exact h hmem

theorem grants_subset_propose (self : MetadataFrontier) (own : Bool) (requestedUntil : Timestamp) :
    self.grants ⊆ (self.propose own requestedUntil).2.grants := by
  unfold propose
  split
  · exact List.subset_cons_self _ _
  · exact List.Subset.refl _

theorem mem_grants_of_propose
    (h : (self.propose own requestedUntil).1 = .timestampsReserved reservedFrom reservedUntil) :
    (own, ⟨reservedFrom, reservedUntil⟩) ∈ (self.propose own requestedUntil).2.grants := by
  unfold propose at h ⊢
  split at h
  · cases h
    exact List.mem_cons_self
  · next hother _ => exact absurd h (hother _ _)

theorem settle_eq_inl {outcome : MetadataApplyOutcome}
    (h : settle outcome = .ok (.inl reservation)) :
    outcome = .timestampsReserved reservation.reservedFrom reservation.reservedUntil := by
  unfold settle at h
  split at h
  · cases h
    rfl
  · simp at h
  · cases h
  · cases h

theorem reserve_succ_run (attempts : Nat) (requestedUntil : Timestamp) (self : MetadataFrontier) :
    (reserveTimestamps (attempts + 1) requestedUntil).run self =
      match settle (self.propose true requestedUntil).1 with
      | .ok (.inl reservation) => .ok reservation (self.propose true requestedUntil).2
      | .ok (.inr next) =>
        (reserveTimestamps attempts next).run (self.propose true requestedUntil).2
      | .error e => .error e (self.propose true requestedUntil).2 := by
  have hmodify : (modifyGet (propose · true requestedUntil) :
      EStateM Error MetadataFrontier MetadataApplyOutcome).run self =
        .ok (self.propose true requestedUntil).1 (self.propose true requestedUntil).2 := rfl
  rw [reserveTimestamps, EStateM.run_bind, hmodify]
  dsimp only
  generalize settle (self.propose true requestedUntil).1 = settled
  cases settled with
  | error => rfl
  | ok settled => cases settled <;> rfl

theorem ends_reserve (attempts : Nat) (requestedUntil : Timestamp) (self : MetadataFrontier) :
    Ends (fun reservation self' => self.grants ⊆ self'.grants ∧ (true, reservation) ∈ self'.grants)
      (self.grants ⊆ ·.grants) ((reserveTimestamps attempts requestedUntil).run self) := by
  induction attempts generalizing requestedUntil self with
  | zero => exact List.Subset.refl _
  | succ attempts ih =>
    have hproposed := self.grants_subset_propose true requestedUntil
    rw [reserve_succ_run]
    cases hsettle : settle (self.propose true requestedUntil).1 with
    | error => exact hproposed
    | ok settled =>
      cases settled with
      | inl => exact ⟨hproposed, mem_grants_of_propose (settle_eq_inl hsettle)⟩
      | inr next =>
        refine (ih next (self.propose true requestedUntil).2).imp ?_ fun _ =>
          List.Subset.trans hproposed
        exact fun _ _ ⟨hsub, hmem⟩ => ⟨List.Subset.trans hproposed hsub, hmem⟩

theorem apart_of_grants {own other : TimestampReservation} {timestamp : Timestamp}
    (hown : own ∈ self.grantedTo true) (hother : other ∈ self.grantedTo false)
    (hcovers : own.Covers timestamp) : ¬other.Covers timestamp := by
  have hapart : own.reservedUntil < other.reservedFrom ∨
      other.reservedUntil < own.reservedFrom := by
    let R (grant grant' : Bool × TimestampReservation) : Prop :=
      grant.2.reservedUntil < grant'.2.reservedFrom ∨ grant'.2.reservedUntil < grant.2.reservedFrom
    have hsymm : Std.Symm R := ⟨fun _ _ => Or.symm⟩
    have hgrants : self.grants.Pairwise R := self.ordered.imp Or.inr
    rw [mem_grantedTo] at hown hother
    exact hgrants.forall hown hother (by simp)
  rintro ⟨hfrom, huntil⟩
  rcases hapart with hbefore | hafter
  · exact Nat.lt_irrefl _ (Nat.lt_of_le_of_lt hcovers.2 (Nat.lt_of_lt_of_le hbefore hfrom))
  · exact Nat.lt_irrefl _ (Nat.lt_of_le_of_lt huntil (Nat.lt_of_lt_of_le hafter hcovers.1))

instance : ReservationAuthority MetadataFrontier where
  reserveTimestamps := reserveTimestamps 8
  granted := grantedTo true
  others := grantedTo false
  mem_granted h := mem_grantedTo.mpr ((ends_reserve 8 _ _).of_ok h).2
  granted_subset requestedUntil self :=
    grantedTo_subset ((ends_reserve 8 requestedUntil self).after fun _ _ => And.left)
  apart _ _ hown _ hother _ := apart_of_grants hown hother

end MetadataFrontier

/-! ## Runs -/

/-- The calls that allocate timestamps or move the cursor. -/
inductive OracleCall where
  | allocateTimestamp
  | allocateCommitTimestamp (startTs : Timestamp)
  | observeReplicatedHighWater (timestamp : Timestamp)
  | resetAfterFailover (durableFrontier : Timestamp)
  deriving DecidableEq

/-- An oracle and the timestamps that it has returned, each with the start timestamp if it is a
commit timestamp. -/
structure OracleRun (P : Type) where
  oracle : TimestampOracle P
  returned : List (Option Timestamp × Timestamp)

namespace OracleRun

variable {P : Type}
variable {run : OracleRun P} {oracle : TimestampOracle P} {provider : P} {size threshold : Nat}

/-- The run after an allocation. -/
def record (returned : List (Option Timestamp × Timestamp)) (startTs : Option Timestamp) :
    EStateM.Result Error (TimestampOracle P) Timestamp → OracleRun P
  | .ok timestamp oracle => { oracle, returned := returned ++ [(startTs, timestamp)] }
  | .error _ oracle => { oracle, returned }

def exec [TimestampReservationProvider P] (self : OracleRun P) : OracleCall → OracleRun P
  | .allocateTimestamp =>
    record self.returned none (TimestampOracle.allocateTimestamp.run self.oracle)
  | .allocateCommitTimestamp startTs =>
    record self.returned (some startTs)
      ((TimestampOracle.allocateCommitTimestamp startTs).run self.oracle)
  | .observeReplicatedHighWater timestamp =>
    { self with oracle := self.oracle.observeReplicatedHighWater timestamp }
  | .resetAfterFailover durableFrontier =>
    { self with
      oracle := after (TimestampOracle.resetAfterFailover durableFrontier) self.oracle }

/-- A call of the oracle, or a change of its authority in between, such as a grant to another
owner. -/
inductive Event (P : Type) where
  | call (call : OracleCall)
  | elsewhere (provider : P)

/-- The runs of an oracle from either of its constructors. -/
def oracleRuns (P : Type) [ReservationAuthority P] : Lts (OracleRun P) (Event P) where
  init run := run.returned = [] ∧
    ((∃ provider size threshold,
        TimestampOracle.new provider size threshold = .ok run.oracle) ∨
      ∃ provider frontier size threshold,
        TimestampOracle.fromDurableFrontier provider frontier size threshold = .ok run.oracle)
  step run event run' :=
    match event with
    | .call call => run.exec call = run'
    | .elsewhere provider =>
      granted run.oracle.provider ⊆
          granted provider ∧
        run' = { run with oracle := { run.oracle with provider } }

variable [ReservationAuthority P]

/-- Every returned timestamp is above the ones before it and its start timestamp, is not 0, and is
in no interval that is granted to another owner. -/
structure Sound (run : OracleRun P) : Prop where
  ascending : (run.returned.map (·.2)).Pairwise (· < ·)
  above_start : ∀ startTs timestamp, (some startTs, timestamp) ∈ run.returned →
    startTs < timestamp
  ne_zero : ∀ allocated ∈ run.returned, allocated.2 ≠ 0
  apart : ∀ allocated ∈ run.returned,
    ∀ other ∈ others run.oracle.provider, ¬other.Covers allocated.2

/-- The calls that keep an oracle within its own intervals.  A cursor of 0 stays, and an interval
that is reserved ahead starts right above the frontier, or above what this owner has. -/
def Keeps (run : OracleRun P) : Event P → Prop
  | .call .allocateTimestamp => run.oracle.Prefetches → run.oracle.GrantsWithoutGap
  | .call (.allocateCommitTimestamp startTs) =>
    (run.oracle.nextTimestamp = 0 → startTs = 0 ∨ u64Max ≤ startTs) ∧
      ((run.oracle.skipTo (startTs + 1)).Prefetches → run.oracle.GrantsWithoutGap)
  | .call (.observeReplicatedHighWater timestamp) =>
    run.oracle.nextTimestamp = 0 → u64Max ≤ timestamp
  | .call (.resetAfterFailover _) | .elsewhere _ => True

/-- What every run keeps. -/
structure Inv (run : OracleRun P) : Prop where
  safe : run.oracle.Safe (run.returned.map (·.2))
  above_start : ∀ startTs timestamp, (some startTs, timestamp) ∈ run.returned →
    startTs < timestamp

theorem Inv.sound (h : run.Inv) : run.Sound where
  ascending := h.safe.ascending
  above_start := h.above_start
  ne_zero allocated hmem := h.safe.ne_zero allocated.2 (List.mem_map_of_mem hmem)
  apart allocated hmem other hother := by
    obtain ⟨own, hown, hcovers⟩ := h.safe.owned allocated.2 (List.mem_map_of_mem hmem)
    exact apart run.oracle.provider own hown other hother allocated.2 hcovers

theorem safe_of_frontier
    (h : oracle.nextTimestamp = oracle.reservedUntil + 1) : oracle.Safe [] where
  ascending := .nil
  ne_zero := by simp
  owned := by simp
  reserved := by simp
  behind := by simp
  interval _ timestamp hfrom huntil := by
    rw [h] at hfrom
    exact absurd (Nat.lt_of_lt_of_le hfrom huntil) (Nat.lt_irrefl _)

theorem safe_of_new
    (h : TimestampOracle.new provider size threshold = .ok oracle) : oracle.Safe [] := by
  simp only [TimestampOracle.new, eq_ok] at h
  obtain ⟨_, -, h⟩ := h
  split at h
  · next oracle' hrun =>
      cases h
      refine (Ends.of_ok (TimestampOracle.Safe.ensureReservedThrough ?_ ?_ ?_ ?_) hrun).1
      · exact safe_of_frontier rfl
      · exact Nat.one_ne_zero
      · exact fun hle => absurd hle (Nat.not_succ_le_zero 0)
      · exact Nat.le_refl 1
  · cases h

theorem safe_of_fromDurableFrontier {frontier : Timestamp}
    (h : TimestampOracle.fromDurableFrontier provider frontier size threshold = .ok oracle) :
    oracle.Safe [] := by
  simp only [TimestampOracle.fromDurableFrontier, eq_ok, checkedAdd_eq_some] at h
  obtain ⟨_, -, _, ⟨-, rfl⟩, rfl⟩ := h
  exact safe_of_frontier rfl

theorem inv_of_init (h : (oracleRuns P).init run) : run.Inv := by
  obtain ⟨hreturned, ⟨provider, size, threshold, hnew⟩ |
    ⟨provider, frontier, size, threshold, hfrom⟩⟩ := h
  · refine ⟨?_, by simp [hreturned]⟩
    rw [hreturned]
    exact safe_of_new hnew
  · refine ⟨?_, by simp [hreturned]⟩
    rw [hreturned]
    exact safe_of_fromDurableFrontier hfrom

theorem Inv.record (h : run.Inv) {startTs : Option Timestamp}
    {result : EStateM.Result Error (TimestampOracle P) Timestamp}
    (hends : Ends (fun timestamp oracle => oracle.Safe (run.returned.map (·.2) ++ [timestamp]) ∧
      ∀ start ∈ startTs, start < timestamp) (·.Safe (run.returned.map (·.2))) result) :
    (record run.returned startTs result).Inv := by
  cases result with
  | error e oracle => exact ⟨hends, h.above_start⟩
  | ok timestamp oracle =>
    obtain ⟨hsafe, habove⟩ := hends
    refine ⟨by simpa [OracleRun.record] using hsafe, fun start allocated hmem => ?_⟩
    simp only [OracleRun.record, List.mem_append, List.mem_singleton, Prod.mk.injEq] at hmem
    rcases hmem with hold | ⟨hstart, rfl⟩
    · exact h.above_start start allocated hold
    · exact habove start hstart.symm

theorem Inv.exec (h : run.Inv) {call : OracleCall}
    (hkeeps : run.Keeps (.call call)) : (run.exec call).Inv := by
  cases call with
  | allocateTimestamp =>
    refine h.record ((h.safe.allocateTimestamp hkeeps).imp ?_ fun _ => id)
    exact fun _ _ hafter => ⟨hafter.1, by simp⟩
  | allocateCommitTimestamp startTs =>
    obtain ⟨hend, hgap⟩ := hkeeps
    refine h.record (.lift_bind h.safe fun _ hne => .lift_bind h.safe fun minimum hminimum => ?_)
    simp only [eq_ok, checkedAdd_eq_some] at hne hminimum
    obtain ⟨hmax, rfl⟩ := hminimum
    have hskip : (run.oracle.skipTo (startTs + 1)).Safe (run.returned.map (·.2)) := by
      refine h.safe.skipTo (fun hzero => ?_) _
      rcases hend hzero with hstart | hstart
      · exact hne hstart
      · exact absurd hmax (by omega)
    refine (hskip.allocateTimestamp hgap).imp (fun timestamp _ hafter => ?_) fun _ => id
    refine ⟨hafter.1, fun start hstart => ?_⟩
    cases hstart
    exact Nat.le_trans (Nat.le_max_right _ _) hafter.2
  | observeReplicatedHighWater => exact ⟨h.safe.observe hkeeps, h.above_start⟩
  | resetAfterFailover durableFrontier =>
    refine ⟨Ends.after (R := fun _ => (·.Safe (run.returned.map (·.2)))) ?_ fun _ _ => id,
      h.above_start⟩
    refine .lift_bind h.safe fun _ hle => .lift_bind h.safe fun _ hnext => ?_
    simp only [eq_ok, checkedAdd_eq_some, Nat.not_lt] at hle hnext
    obtain ⟨-, rfl⟩ := hnext
    exact h.safe.reset hle

theorem Inv.step {run' : OracleRun P} {event : Event P} (h : run.Inv)
    (hkeeps : run.Keeps event) (hstep : (oracleRuns P).step run event run') : run'.Inv := by
  cases event with
  | call call =>
    have hexec : run.exec call = run' := hstep
    rw [← hexec]
    exact h.exec hkeeps
  | elsewhere =>
    obtain ⟨hsub, rfl⟩ := hstep
    exact ⟨h.safe.withProvider hsub, h.above_start⟩

/-- In every run whose events all keep the oracle within its own intervals, the timestamps ascend,
exceed their start timestamps, are not 0 and belong to no other owner. -/
theorem allocations_sound {run : OracleRun P}
    (h : ((oracleRuns P).restrict Keeps).Reachable run) : run.Sound := by
  have hinv : run.Inv := by
    refine Lts.Reachable.invariant ?_ ?_ h
    · exact fun hinit => inv_of_init hinit
    · exact fun _ hinv hstep => hinv.step hstep.1 hstep.2
  exact hinv.sound

/-! ### Samples -/

/-- An initialised cluster that has reserved no timestamps. -/
def sampleFrontier : MetadataFrontier where
  metadata := MetadataState.new.afterLog [(none, .clusterInitialized "c")]
  grants := []
  reserved := by simp
  ordered := .nil

/-- An oracle at the frontier 0 that reserves two timestamps at a time. -/
def sampleStart (prefetchThreshold : Nat) : OracleRun MetadataFrontier where
  oracle :=
    { provider := sampleFrontier, nextTimestamp := 1, lastAllocated := 0, reservedUntil := 0,
      reservationSize := 2, prefetchThreshold }
  returned := []

/-- Another owner reserves timestamps. -/
def elsewhere (run : OracleRun MetadataFrontier) (requestedUntil : Timestamp) :
    OracleRun MetadataFrontier :=
  { run with
    oracle :=
      { run.oracle with provider := (run.oracle.provider.propose false requestedUntil).2 } }

theorem init_sampleStart {prefetchThreshold : Nat} (h : prefetchThreshold < 2) :
    (oracleRuns MetadataFrontier).init (sampleStart prefetchThreshold) := by
  refine ⟨rfl, .inr ⟨sampleFrontier, 0, 2, prefetchThreshold, ?_⟩⟩
  have hpolicy : TimestampOracle.validateReservationPolicy 2 prefetchThreshold = .ok () := by
    simp [TimestampOracle.validateReservationPolicy, h]
  simp [TimestampOracle.fromDurableFrontier, hpolicy, sampleStart, okOr, checkedAdd, u64Max]

theorem step_exec (run : OracleRun P) (call : OracleCall) :
    (oracleRuns P).step run (.call call) (run.exec call) := rfl

theorem keeps_exec (call : OracleCall) (h : run.Keeps (.call call)) :
    ((oracleRuns P).restrict Keeps).step run (.call call) (run.exec call) := ⟨h, rfl⟩

theorem step_elsewhere (run : OracleRun MetadataFrontier) (requestedUntil : Timestamp) :
    (oracleRuns MetadataFrontier).step run
      (.elsewhere (run.oracle.provider.propose false requestedUntil).2)
      (elsewhere run requestedUntil) :=
  ⟨MetadataFrontier.grantedTo_subset (run.oracle.provider.grants_subset_propose false _), rfl⟩

theorem keeps_elsewhere (run : OracleRun MetadataFrontier) (requestedUntil : Timestamp) :
    ((oracleRuns MetadataFrontier).restrict Keeps).step run
      (.elsewhere (run.oracle.provider.propose false requestedUntil).2)
      (elsewhere run requestedUntil) :=
  ⟨trivial, step_elsewhere run requestedUntil⟩

/-- Another owner reserves 3 and 4; the next allocation above the frontier moves past them. -/
def sampleRun : OracleRun MetadataFrontier :=
  ((elsewhere ((sampleStart 0).exec .allocateTimestamp) 4).exec (.allocateCommitTimestamp 1)).exec
    .allocateTimestamp

theorem allocations_sound_sample :
    sampleRun.returned = [(none, 1), (some 1, 2), (none, 5)] ∧ sampleRun.Sound := by
  have hstart : ((oracleRuns MetadataFrontier).restrict Keeps).Reachable (sampleStart 0) :=
    .of_init (init_sampleStart (by decide))
  have hfirst := hstart.step (keeps_exec .allocateTimestamp fun h => absurd h (by decide +kernel))
  have hother := hfirst.step (keeps_elsewhere _ 4)
  have hcommit := hother.step (keeps_exec (.allocateCommitTimestamp 1)
    ⟨fun h => absurd h (by decide +kernel), fun h => absurd h (by decide +kernel)⟩)
  have hlast := hcommit.step (keeps_exec .allocateTimestamp fun h => absurd h (by decide +kernel))
  exact ⟨by decide +kernel, allocations_sound hlast⟩

/-- A prefetch that another owner got ahead of walks into its interval, and a cursor at the end of
the timestamps is set back by a commit. -/
theorem allocations_leave_intervals :
    (∃ run, (oracleRuns MetadataFrontier).Reachable run ∧
      run.returned = [(none, 1), (none, 2), (none, 3)] ∧
      ∃ other ∈ others run.oracle.provider, other.Covers 3) ∧
    ∃ run, (oracleRuns MetadataFrontier).Reachable run ∧
      run.returned = [(none, 1), (none, 2), (some 1, 2)] := by
  constructor
  · have hstart : (oracleRuns MetadataFrontier).Reachable (sampleStart 1) :=
      .of_init (init_sampleStart (by decide))
    have hother := (hstart.step (step_exec _ .allocateTimestamp)).step (step_elsewhere _ 4)
    refine ⟨_, (hother.step (step_exec _ .allocateTimestamp)).step (step_exec _ .allocateTimestamp),
      by decide +kernel, ⟨3, 4⟩, ?_, by decide⟩
    decide +kernel
  · have hstart : (oracleRuns MetadataFrontier).Reachable (sampleStart 0) :=
      .of_init (init_sampleStart (by decide))
    have hsecond := (hstart.step (step_exec _ .allocateTimestamp)).step
      (step_exec _ .allocateTimestamp)
    exact ⟨_, (hsecond.step (step_exec _ (.observeReplicatedHighWater u64Max))).step
      (step_exec _ (.allocateCommitTimestamp 1)), by decide +kernel⟩

end OracleRun

end RagnorDb
