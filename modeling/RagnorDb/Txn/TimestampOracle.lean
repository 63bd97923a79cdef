import RagnorDb.Common.Basic

/-!
# The timestamp oracle

`TimestampOracle` of `manager.rs` hands out timestamps of intervals that a durable authority has
granted to it.  It keeps a cursor and the frontier of its last interval, reserves the next interval
before this one is used up, and may be moved by a replicated commit or a failover.  The authority is
any provider whose grants to this owner do not overlap the grants to others; in the repository it is
the metadata group.
-/

namespace RagnorDb

open Checked

/-- One interval returned by the durable reservation authority. -/
structure TimestampReservation where
  reservedFrom : Timestamp
  reservedUntil : Timestamp
  deriving DecidableEq

/-- Whether a timestamp lies in the interval. -/
def TimestampReservation.Covers (self : TimestampReservation) (timestamp : Timestamp) : Prop :=
  self.reservedFrom ≤ timestamp ∧ timestamp ≤ self.reservedUntil

instance (reservation : TimestampReservation) (timestamp : Timestamp) :
    Decidable (reservation.Covers timestamp) :=
  inferInstanceAs (Decidable (_ ∧ _))

/-- Durable reservation boundary used by the live timestamp oracle. -/
class TimestampReservationProvider (P : Type) where
  reserveTimestamps : Timestamp → EStateM Error P TimestampReservation

open TimestampReservationProvider

/-- A provider with the intervals that its authority has granted to this owner and to others. What
it returns is granted to this owner, a grant is never taken back, and the two kinds of grants never
overlap. -/
class ReservationAuthority (P : Type) extends TimestampReservationProvider P where
  granted : P → List TimestampReservation
  others : P → List TimestampReservation
  mem_granted : ∀ {requestedUntil p reservation p'},
    (reserveTimestamps requestedUntil).run p = .ok reservation p' → reservation ∈ granted p'
  granted_subset : ∀ requestedUntil p,
    granted p ⊆ granted (after (reserveTimestamps requestedUntil) p)
  apart : ∀ p, ∀ own ∈ granted p, ∀ other ∈ others p, ∀ timestamp,
    own.Covers timestamp → ¬other.Covers timestamp

open ReservationAuthority

/-- In-memory allocator over a metadata-owned durable timestamp frontier. -/
structure TimestampOracle (P : Type) where
  provider : P
  nextTimestamp : Nat
  lastAllocated : Timestamp
  reservedUntil : Timestamp
  reservationSize : Nat
  prefetchThreshold : Nat

namespace TimestampOracle

variable {P : Type}

def spaceExhausted : Error :=
  .configuration "timestamp oracle has exhausted the u64 timestamp space"

def validateReservationPolicy (reservationSize prefetchThreshold : Nat) : Except Error Unit := do
  rejectIf (reservationSize = 0)
    (Error.invalidArgument "timestamp reservation size must be nonzero")
  rejectIf (reservationSize ≤ prefetchThreshold)
    (Error.invalidArgument "timestamp prefetch threshold must be below reservation size")

def remaining (self : TimestampOracle P) : Nat :=
  saturatingAdd (self.reservedUntil - self.nextTimestamp) 1

/-- Call the provider. -/
def withProvider {α : Type} (m : EStateM Error P α) : EStateM Error (TimestampOracle P) α :=
  fun self =>
    match m.run self.provider with
    | .ok a provider => .ok a { self with provider }
    | .error e provider => .error e { self with provider }

/-- What the oracle requires of a granted interval. -/
def checkReservation (previousFrontier requestedUntil : Timestamp)
    (reservation : TimestampReservation) : Except Error Unit :=
  rejectIf (reservation.reservedFrom ≤ previousFrontier ∨
      reservation.reservedUntil < requestedUntil ∨
      reservation.reservedUntil < reservation.reservedFrom)
    (Error.configuration
      (s!"timestamp reservation provider returned invalid interval {reservation.reservedFrom}" ++
        s!"..={reservation.reservedUntil} for requested {requestedUntil}"))

/-- Take over a granted interval.  A cursor above the old frontier moves into it. -/
def extend (reservation : TimestampReservation) (self : TimestampOracle P) : TimestampOracle P :=
  { self with
    nextTimestamp :=
      if self.reservedUntil < self.nextTimestamp then
        max self.nextTimestamp reservation.reservedFrom
      else self.nextTimestamp
    reservedUntil := reservation.reservedUntil }

section Methods

variable [TimestampReservationProvider P]

def ensureReservedThrough (target : Timestamp) : EStateM Error (TimestampOracle P) Unit := do
  let self ← get
  if target ≤ self.reservedUntil then
    return ()
  else
    let extension := max self.reservationSize (target - self.reservedUntil)
    let requestedUntil ← okOr (checkedAdd self.reservedUntil extension) spaceExhausted
    let reservation ← withProvider (reserveTimestamps requestedUntil)
    checkReservation self.reservedUntil requestedUntil reservation
    modify (extend reservation)

/-- Create an oracle and durably reserve its first interval. -/
def new (provider : P) (reservationSize prefetchThreshold : Nat) :
    Except Error (TimestampOracle P) := do
  validateReservationPolicy reservationSize prefetchThreshold
  match (ensureReservedThrough 1).run
      { provider, nextTimestamp := 1, lastAllocated := 0, reservedUntil := 0, reservationSize,
        prefetchThreshold } with
  | .ok _ oracle => return oracle
  | .error e _ => .error e

/-- Recreate an oracle from a metadata snapshot or a committed failover read. -/
def fromDurableFrontier (provider : P) (durableFrontier : Timestamp)
    (reservationSize prefetchThreshold : Nat) : Except Error (TimestampOracle P) := do
  validateReservationPolicy reservationSize prefetchThreshold
  let nextTimestamp ← okOr (checkedAdd durableFrontier 1) spaceExhausted
  return { provider, nextTimestamp, lastAllocated := durableFrontier,
           reservedUntil := durableFrontier, reservationSize, prefetchThreshold }

/-- Reserve ahead of an allocation: at the cursor when it is above the frontier, above the frontier
when few timestamps remain. -/
def refill : EStateM Error (TimestampOracle P) Unit := do
  let self ← get
  if self.reservedUntil < self.nextTimestamp then
    ensureReservedThrough self.nextTimestamp
  else if self.remaining ≤ self.prefetchThreshold then
    let nextFrontier ← okOr (checkedAdd self.reservedUntil 1) spaceExhausted
    ensureReservedThrough nextFrontier

/-- Allocate one timestamp from the committed local interval. -/
def allocateTimestamp : EStateM Error (TimestampOracle P) Timestamp := do
  let self ← get
  rejectIf (self.nextTimestamp = 0)
    (Error.configuration "timestamp oracle generated the reserved zero timestamp")
  refill
  let self ← get
  let allocated := self.nextTimestamp
  let nextTimestamp ← okOr (checkedAdd allocated 1) spaceExhausted
  set { self with nextTimestamp, lastAllocated := allocated }
  return allocated

/-- Move the cursor up to a timestamp. -/
def skipTo (self : TimestampOracle P) (minimum : Timestamp) : TimestampOracle P :=
  { self with nextTimestamp := max self.nextTimestamp minimum }

/-- Allocate a commit timestamp strictly newer than the transaction start. -/
def allocateCommitTimestamp (startTs : Timestamp) :
    EStateM Error (TimestampOracle P) Timestamp := do
  rejectIf (startTs = 0) (Error.invalidArgument "transaction start timestamp 0 is reserved")
  let minimum ← okOr (checkedAdd startTs 1)
    (Error.configuration "commit timestamp cannot be newer than u64::MAX")
  modify (skipTo · minimum)
  allocateTimestamp

/-- Discard the interval after leadership loss and begin above the durable frontier. -/
def resetAfterFailover (durableFrontier : Timestamp) : EStateM Error (TimestampOracle P) Unit := do
  let self ← get
  rejectIf (durableFrontier < self.reservedUntil)
    (Error.configuration
      (s!"failover frontier {durableFrontier} is below the local durable reservation " ++
        s!"{self.reservedUntil}"))
  let nextTimestamp ← okOr (checkedAdd durableFrontier 1) spaceExhausted
  set { self with
        nextTimestamp, lastAllocated := durableFrontier, reservedUntil := durableFrontier }

end Methods

/-- Advance the cursor past a replicated commit.  Behind the last timestamp it becomes 0. -/
def observeReplicatedHighWater (timestamp : Timestamp) (self : TimestampOracle P) :
    TimestampOracle P :=
  { self with
    lastAllocated := max self.lastAllocated timestamp
    nextTimestamp :=
      if self.nextTimestamp ≤ timestamp then (checkedAdd timestamp 1).getD 0
      else self.nextTimestamp
    reservedUntil := max self.reservedUntil timestamp }

/-! ## What the methods do -/

variable {s s' : TimestampOracle P}

theorem withProvider_run {α : Type} {m : EStateM Error P α} :
    (withProvider m).run s =
      match m.run s.provider with
      | .ok a provider => .ok a { s with provider }
      | .error e provider => .error e { s with provider } := rfl

theorem le_nextTimestamp_extend {reservation : TimestampReservation} (s : TimestampOracle P) :
    s.nextTimestamp ≤ (extend reservation s).nextTimestamp := by
  unfold extend
  split
  · exact Nat.le_max_left _ _
  · exact Nat.le_refl _

/-- The provider after one call. -/
def Served [TimestampReservationProvider P] (p p' : P) : Prop :=
  p' = p ∨ ∃ requestedUntil, after (reserveTimestamps requestedUntil) p = p'

/-! ## Ownership -/

section Ownership

variable [ReservationAuthority P] {returned : List Timestamp}
variable {p p' : P} {timestamp target : Timestamp}

/-- Whether a timestamp is granted to this owner. -/
def Owned (p : P) (timestamp : Timestamp) : Prop :=
  ∃ reservation ∈ granted p, reservation.Covers timestamp

theorem Owned.mono (h : Owned p timestamp)
    (hsub : granted p ⊆ granted p') : Owned p' timestamp := by
  obtain ⟨reservation, hmem, hcovers⟩ := h
  exact ⟨reservation, hsub hmem, hcovers⟩

theorem Served.subset (h : Served p p') : granted p ⊆ granted p' := by
  rcases h with rfl | ⟨requestedUntil, rfl⟩
  · exact List.Subset.refl _
  · exact granted_subset requestedUntil p

/-- The oracle owns what it has returned and what lies between its cursor and its frontier, and
what it has returned lies behind both.  A cursor of 0 stands for the end of the timestamps. -/
structure Safe (returned : List Timestamp) (s : TimestampOracle P) : Prop where
  ascending : returned.Pairwise (· < ·)
  ne_zero : ∀ timestamp ∈ returned, timestamp ≠ 0
  owned : ∀ timestamp ∈ returned, Owned s.provider timestamp
  reserved : ∀ timestamp ∈ returned, timestamp ≤ s.reservedUntil
  behind : s.nextTimestamp ≠ 0 → ∀ timestamp ∈ returned, timestamp < s.nextTimestamp
  interval : s.nextTimestamp ≠ 0 → ∀ timestamp, s.nextTimestamp ≤ timestamp →
    timestamp ≤ s.reservedUntil → Owned s.provider timestamp

namespace Safe

section

variable (h : Safe returned s)
include h

theorem withProvider {provider : P} (hsub : granted s.provider ⊆ granted provider) :
    Safe returned { s with provider } :=
  { h with
    owned timestamp hmem := (h.owned timestamp hmem).mono hsub
    interval hne timestamp hfrom huntil := (h.interval hne timestamp hfrom huntil).mono hsub }

/-- Taking over an interval is safe when the cursor moves into it, or when this owner has
everything in between. -/
theorem extend {reservation : TimestampReservation} (hmem : reservation ∈ granted s.provider)
    (habove : s.reservedUntil < reservation.reservedFrom)
    (hvalid : reservation.reservedFrom ≤ reservation.reservedUntil) (hne : s.nextTimestamp ≠ 0)
    (hgap : s.nextTimestamp ≤ s.reservedUntil → ∀ timestamp, s.reservedUntil < timestamp →
      timestamp < reservation.reservedFrom → Owned s.provider timestamp) :
    Safe returned (extend reservation s) :=
  { h with
    reserved timestamp hreturned :=
      Nat.le_of_lt <|
        Nat.lt_of_le_of_lt (h.reserved timestamp hreturned) (Nat.lt_of_lt_of_le habove hvalid)
    behind _ timestamp hreturned :=
      Nat.lt_of_lt_of_le (h.behind hne timestamp hreturned) (le_nextTimestamp_extend s)
    interval _ timestamp hfrom huntil := by
      simp only [TimestampOracle.extend] at hfrom huntil
      by_cases hcovered : reservation.reservedFrom ≤ timestamp
      · exact ⟨reservation, hmem, hcovered, huntil⟩
      · split at hfrom
        · exact absurd (Nat.le_trans (Nat.le_max_right _ _) hfrom) hcovered
        · next hcursor =>
            by_cases hold : timestamp ≤ s.reservedUntil
            · exact h.interval hne timestamp hfrom hold
            · exact hgap (Nat.not_lt.mp hcursor) timestamp (Nat.not_le.mp hold)
                (Nat.not_le.mp hcovered) }

/-- The cursor and the frontier move up. -/
theorem move {cursor : Nat} {last frontier : Timestamp} (hfrontier : s.reservedUntil ≤ frontier)
    (hbehind : cursor ≠ 0 →
      s.nextTimestamp ≠ 0 ∧ s.nextTimestamp ≤ cursor ∨ s.reservedUntil < cursor)
    (hinterval : cursor ≠ 0 → ∀ timestamp, cursor ≤ timestamp → timestamp ≤ frontier →
      s.nextTimestamp ≠ 0 ∧ s.nextTimestamp ≤ timestamp ∧ timestamp ≤ s.reservedUntil) :
    Safe returned
      { s with nextTimestamp := cursor, lastAllocated := last, reservedUntil := frontier } :=
  { h with
    reserved timestamp hreturned := Nat.le_trans (h.reserved timestamp hreturned) hfrontier
    behind hcursor timestamp hreturned := by
      rcases hbehind hcursor with ⟨hne, hle⟩ | hlt
      · exact Nat.lt_of_lt_of_le (h.behind hne timestamp hreturned) hle
      · exact Nat.lt_of_le_of_lt (h.reserved timestamp hreturned) hlt
    interval hcursor timestamp hfrom huntil := by
      obtain ⟨hne, hfrom, huntil⟩ := hinterval hcursor timestamp hfrom huntil
      exact h.interval hne timestamp hfrom huntil }

theorem skipTo (hne : s.nextTimestamp ≠ 0) (minimum : Timestamp) :
    Safe returned (s.skipTo minimum) :=
  h.move (Nat.le_refl _) (fun _ => .inl ⟨hne, by omega⟩)
    fun _ _ hfrom huntil => ⟨hne, by omega, huntil⟩

theorem observe (hend : s.nextTimestamp = 0 → u64Max ≤ timestamp) :
    Safe returned (observeReplicatedHighWater timestamp s) := by
  -- The cursor moves past the observed timestamp, or to the end.
  have hmoved : ∀ cursor, (if s.nextTimestamp ≤ timestamp then (checkedAdd timestamp 1).getD 0
      else s.nextTimestamp) = cursor → cursor ≠ 0 →
        s.nextTimestamp ≠ 0 ∧ s.nextTimestamp ≤ cursor ∧ timestamp < cursor := by
    rintro cursor rfl hcursor
    split at hcursor
    · next hle =>
        rw [if_pos hle]
        cases hnext : checkedAdd timestamp 1 with
        | none => simp [hnext] at hcursor
        | some =>
          obtain ⟨hmax, rfl⟩ := checkedAdd_eq_some.mp hnext
          exact ⟨fun hzero => by have := hend hzero; omega, Nat.le_succ_of_le hle,
            Nat.lt_succ_self _⟩
    · next hlt =>
        rw [if_neg hlt]
        exact ⟨hcursor, Nat.le_refl _, Nat.not_le.mp hlt⟩
  refine h.move (Nat.le_max_left _ _) (fun hcursor => ?_) fun hcursor later hfrom huntil => ?_
  · obtain ⟨hne, hle, -⟩ := hmoved _ rfl hcursor
    exact .inl ⟨hne, hle⟩
  · obtain ⟨hne, hle, hlt⟩ := hmoved _ rfl hcursor
    have hlater := Nat.lt_of_lt_of_le hlt hfrom
    exact ⟨hne, by omega, by omega⟩

theorem reset {frontier : Timestamp} (hle : s.reservedUntil ≤ frontier) :
    Safe returned { s with
      nextTimestamp := frontier + 1, lastAllocated := frontier, reservedUntil := frontier } :=
  h.move hle (fun _ => .inr (Nat.lt_succ_of_le hle))
    fun _ _ hfrom huntil => absurd (Nat.lt_of_lt_of_le hfrom huntil) (Nat.lt_irrefl _)

theorem allocate (hne : s.nextTimestamp ≠ 0) (hle : s.nextTimestamp ≤ s.reservedUntil) :
    Safe (returned ++ [s.nextTimestamp])
      { s with nextTimestamp := s.nextTimestamp + 1, lastAllocated := s.nextTimestamp } where
  ascending := by
    rw [List.pairwise_append]
    refine ⟨h.ascending, List.pairwise_singleton _ _, fun old hold new hnew => ?_⟩
    rw [List.mem_singleton.mp hnew]
    exact h.behind hne old hold
  ne_zero := by simpa [or_imp, forall_and] using ⟨h.ne_zero, hne⟩
  owned := by
    simpa [or_imp, forall_and] using ⟨h.owned, h.interval hne _ (Nat.le_refl _) hle⟩
  reserved := by simpa [or_imp, forall_and] using ⟨h.reserved, hle⟩
  behind _ := by
    have hbehind := h.behind hne
    simp only [List.mem_append, List.mem_singleton, or_imp, forall_and, forall_eq]
    exact ⟨fun old hold => Nat.lt_succ_of_lt (hbehind old hold), Nat.lt_succ_self _⟩
  interval _ timestamp hfrom huntil := h.interval hne timestamp (Nat.le_of_succ_le hfrom) huntil

end

end Safe

/-! ## Calls -/

/-- Whether an allocation reserves ahead although the cursor is within the reserved interval. -/
def Prefetches (s : TimestampOracle P) : Prop :=
  s.nextTimestamp ≤ s.reservedUntil ∧ s.remaining ≤ s.prefetchThreshold

instance (s : TimestampOracle P) : Decidable s.Prefetches :=
  inferInstanceAs (Decidable (_ ∧ _))

/-- Whatever the provider grants now, this owner has everything between the frontier and the
granted interval. -/
def GrantsWithoutGap (s : TimestampOracle P) : Prop :=
  ∀ requestedUntil reservation provider,
    (reserveTimestamps requestedUntil).run s.provider = .ok reservation provider →
      ∀ timestamp, s.reservedUntil < timestamp → timestamp < reservation.reservedFrom →
        Owned provider timestamp

section

variable (h : Safe returned s)
include h

theorem Safe.reserve (requestedUntil : Timestamp) :
    Ends (fun reservation s' => Safe returned s' ∧ ∃ provider,
        (reserveTimestamps requestedUntil).run s.provider = .ok reservation provider ∧
          s' = { s with provider })
      (Safe returned)
      ((TimestampOracle.withProvider (reserveTimestamps requestedUntil)).run s) := by
  have hserved := h.withProvider (Served.subset (.inr ⟨requestedUntil, rfl⟩))
  rw [withProvider_run]
  cases hreserve : (reserveTimestamps requestedUntil).run s.provider with
  | ok reservation provider =>
    rw [after_of_ok hreserve] at hserved
    exact ⟨hserved, provider, rfl, rfl⟩
  | error e provider => rwa [after_of_error hreserve] at hserved

theorem Safe.ensureReservedThrough (hne : s.nextTimestamp ≠ 0)
    (hgap : s.nextTimestamp ≤ s.reservedUntil → s.GrantsWithoutGap)
    (htarget : s.nextTimestamp ≤ target) :
    Ends (fun _ s' => Safe returned s' ∧ s.nextTimestamp ≤ s'.nextTimestamp ∧
        s'.nextTimestamp ≤ s'.reservedUntil)
      (Safe returned) ((ensureReservedThrough target).run s) := by
  rw [TimestampOracle.ensureReservedThrough, get_bind_run]
  split
  · next hreserved => exact ⟨h, Nat.le_refl _, Nat.le_trans htarget hreserved⟩
  · refine .lift_bind h fun requestedUntil hrequested => (h.reserve requestedUntil).bind ?_
    rintro reservation _ ⟨hsafe, provider, hreserve, rfl⟩
    refine .lift_bind hsafe fun _ hcheck => ?_
    simp only [checkReservation, eq_ok, checkedAdd_eq_some, Nat.not_le, Nat.not_lt]
      at hrequested hcheck
    have hreaches : target ≤ reservation.reservedUntil := Nat.le_trans (by omega) hcheck.2.1
    refine ⟨hsafe.extend (mem_granted hreserve) hcheck.1 hcheck.2.2 hne
      (fun hcursor => hgap hcursor requestedUntil reservation provider hreserve),
      le_nextTimestamp_extend _, ?_⟩
    · simp only [TimestampOracle.extend]
      split
      · omega
      · omega

/-- After a refill the cursor is within the reserved interval. -/
theorem Safe.refill (hne : s.nextTimestamp ≠ 0) (hgap : s.Prefetches → s.GrantsWithoutGap) :
    Ends (fun _ s' => Safe returned s' ∧ s.nextTimestamp ≤ s'.nextTimestamp ∧
        s'.nextTimestamp ≤ s'.reservedUntil)
      (Safe returned) (refill.run s) := by
  rw [TimestampOracle.refill, get_bind_run]
  split
  · next hcursor =>
      exact h.ensureReservedThrough hne (fun hle => absurd hcursor (Nat.not_lt.mpr hle))
        (Nat.le_refl _)
  · next hcursor =>
      have hwithin := Nat.not_lt.mp hcursor
      split
      · next hfew =>
          refine .lift_bind h fun nextFrontier hnext => ?_
          simp only [eq_ok, checkedAdd_eq_some] at hnext
          exact h.ensureReservedThrough hne (fun _ => hgap ⟨hwithin, hfew⟩) (by omega)
      · exact ⟨h, Nat.le_refl _, hwithin⟩

theorem Safe.allocateTimestamp (hgap : s.Prefetches → s.GrantsWithoutGap) :
    Ends (fun timestamp s' => Safe (returned ++ [timestamp]) s' ∧ s.nextTimestamp ≤ timestamp)
      (Safe returned) (allocateTimestamp.run s) := by
  refine .lift_bind h fun _ hzero => ?_
  have hne := rejectIf_eq_ok.mp hzero
  refine (h.refill hne hgap).bind fun _ s' ⟨hsafe, hcursor, hwithin⟩ => ?_
  refine .lift_bind hsafe fun _ hnext => ?_
  simp only [eq_ok, checkedAdd_eq_some] at hnext
  obtain ⟨-, rfl⟩ := hnext
  refine ⟨hsafe.allocate ?_ hwithin, hcursor⟩
  omega

end

end Ownership

end TimestampOracle

end RagnorDb
