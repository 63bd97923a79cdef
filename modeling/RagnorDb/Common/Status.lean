import RagnorDb.Common.Basic

/-!
# Transaction status records

The durable decision record of `codec.rs`, kept by the tablet that owns a transaction's
primary key, and the protobuf messages of the durable records.
-/

namespace RagnorDb

open Checked

inductive TxnStatus where
  | pending
  | committed
  | aborted
  deriving DecidableEq

/-- The durable transaction status.  The first participant is the status tablet. -/
structure TxnStatusRecord where
  txnId : TxnId
  startTimestamp : Timestamp
  commitTimestamp : Option Timestamp
  status : TxnStatus
  primaryKey : Bytes
  participantTabletIds : List TabletId
  lastHeartbeatTimestamp : Option Timestamp
  leaseDeadlineMs : Option Nat
  deriving DecidableEq

namespace TxnStatusRecord

variable {self : TxnStatusRecord} {u : Unit}

variable (self : TxnStatusRecord)

/-- The commit timestamp that goes with each status. -/
def validateDecision : Except String Unit :=
  match self.status, self.commitTimestamp with
  | .committed, some commitTimestamp =>
    rejectIf (commitTimestamp ≤ self.startTimestamp)
      "commit_timestamp must be greater than start_timestamp"
  | .committed, none => .error "committed transaction requires commit_timestamp"
  | .pending, none | .aborted, none => .ok ()
  | .pending, some _ => .error "pending transaction must not contain commit_timestamp"
  | .aborted, some _ => .error "aborted transaction must not contain commit_timestamp"

/-- Validate the durable status state and its deterministic participant list. -/
def validate : Except String Unit := do
  rejectIf (self.txnId = 0) "transaction status requires a non-zero transaction ID"
  rejectIf (self.startTimestamp = 0) "transaction status requires a non-zero start timestamp"
  rejectIf (self.primaryKey = []) "transaction status requires a non-empty primary key"
  rejectIf (self.participantTabletIds = [])
    "transaction status requires a primary participant tablet"
  let primary := self.participantTabletIds.headD 0
  let others := self.participantTabletIds.tail
  rejectIf (primary = 0) "transaction status requires a non-zero primary tablet ID"
  rejectIf ((others.zip others.tail).any fun pair => pair.1 ≥ pair.2)
    "participant tablet IDs after the primary must be strictly increasing"
  rejectIf (others.contains primary) "primary tablet ID must not be repeated in participants"
  rejectIf (self.lastHeartbeatTimestamp.any (· < self.startTimestamp))
    "last heartbeat timestamp must not precede start timestamp"
  rejectIf (self.leaseDeadlineMs.any (· = 0)) "lease deadline must be non-zero when present"
  self.validateDecision

/-- Return the status tablet encoded by the first participant entry. -/
def primaryTabletId : Except String TabletId := do
  self.validate
  return self.participantTabletIds.headD 0

/-- The fields that no decision changes. -/
structure IdentityOk (record : TxnStatusRecord) : Prop where
  txnId : record.txnId ≠ 0
  start : record.startTimestamp ≠ 0
  primaryKey : record.primaryKey ≠ []
  participants : record.participantTabletIds ≠ []
  primary : record.participantTabletIds.headD 0 ≠ 0
  sorted : (record.participantTabletIds.tail.zip record.participantTabletIds.tail.tail).any
    (fun pair => decide (pair.1 ≥ pair.2)) = false
  distinct : record.participantTabletIds.tail.contains (record.participantTabletIds.headD 0) = false
  heartbeat : record.lastHeartbeatTimestamp.any (· < record.startTimestamp) = false
  lease : record.leaseDeadlineMs.any (· = 0) = false

/-- The commit timestamp belongs to the status. -/
def DecisionOk : Prop :=
  match self.status, self.commitTimestamp with
  | .committed, some commitTimestamp => self.startTimestamp < commitTimestamp
  | .pending, none | .aborted, none => True
  | _, _ => False

variable {self}

theorem validateDecision_eq_ok :
    self.validateDecision = .ok u ↔ self.DecisionOk := by
  unfold validateDecision DecisionOk
  cases self.status <;> cases self.commitTimestamp <;> simp

theorem validate_eq_ok :
    self.validate = .ok u ↔ self.IdentityOk ∧ self.DecisionOk := by
  simp only [validate, eq_ok', validateDecision_eq_ok, Bool.not_eq_true]
  constructor
  · rintro ⟨h1, h2, h3, h4, h5, h6, h7, h8, h9, hd⟩
    exact ⟨⟨h1, h2, h3, h4, h5, h6, h7, h8, h9⟩, hd⟩
  · rintro ⟨⟨h1, h2, h3, h4, h5, h6, h7, h8, h9⟩, hd⟩
    exact ⟨h1, h2, h3, h4, h5, h6, h7, h8, h9, hd⟩

theorem primaryTabletId_eq_ok {tabletId : TabletId} :
    self.primaryTabletId = .ok tabletId ↔
      (self.IdentityOk ∧ self.DecisionOk) ∧ self.participantTabletIds.headD 0 = tabletId := by
  simp [primaryTabletId, validate_eq_ok]

end TxnStatusRecord

/-! ## Protobuf messages -/

namespace WriteKind

def toProto : WriteKind → Nat
  | put => 1
  | delete => 2
  | rollback => 3

def fromProto : Nat → Except String WriteKind
  | 0 => .error "unspecified write kind"
  | 1 => .ok put
  | 2 => .ok delete
  | 3 => .ok rollback
  | _ => .error "inv"

theorem fromProto_toProto (kind : WriteKind) : fromProto kind.toProto = .ok kind := by
  cases kind <;> rfl

end WriteKind

namespace TxnStatus

def toProto : TxnStatus → Nat
  | pending => 1
  | committed => 2
  | aborted => 3

def fromProto : Nat → Except String TxnStatus
  | 0 => .error "unspecified txn status"
  | 1 => .ok pending
  | 2 => .ok committed
  | 3 => .ok aborted
  | _ => .error "invalid transaction status"

theorem fromProto_toProto (status : TxnStatus) : fromProto status.toProto = .ok status := by
  cases status <;> rfl

end TxnStatus

namespace LockRecord

structure Proto where
  txnId : Option TxnId
  primaryKey : Bytes
  startTimestamp : Option Timestamp
  ttlMs : Nat
  op : Nat

def toProto (self : LockRecord) : Except String Proto := do
  self.validate
  return { txnId := some self.txnId, primaryKey := self.primaryKey,
           startTimestamp := some self.startTimestamp, ttlMs := self.ttlMs,
           op := self.op.toProto }

def fromProto (proto : Proto) : Except String LockRecord := do
  let txnId ← okOr proto.txnId "missing txn_id"
  let startTimestamp ← okOr proto.startTimestamp "missing start_ts"
  let op ← WriteKind.fromProto proto.op
  let record : LockRecord := ⟨txnId, proto.primaryKey, startTimestamp, proto.ttlMs, op⟩
  record.validate
  return record

theorem exists_toProto {self : LockRecord} (h : self.validate = .ok ()) :
    ∃ proto, self.toProto = .ok proto ∧ fromProto proto = .ok self := by
  refine ⟨_, by rw [toProto, h]; rfl, ?_⟩
  simp [fromProto, okOr, WriteKind.fromProto_toProto, h]

end LockRecord

namespace WriteRecord

structure Proto where
  startTimestamp : Option Timestamp
  commitTimestamp : Option Timestamp
  op : Nat

def toProto (self : WriteRecord) : Except String Proto := do
  self.validate
  return { startTimestamp := some self.startTimestamp,
           commitTimestamp := some self.commitTimestamp, op := self.op.toProto }

def fromProto (proto : Proto) : Except String WriteRecord := do
  let startTimestamp ← okOr proto.startTimestamp "missing start_ts"
  let commitTimestamp ← okOr proto.commitTimestamp "missing commit_ts"
  let op ← WriteKind.fromProto proto.op
  let record : WriteRecord := ⟨startTimestamp, commitTimestamp, op⟩
  record.validate
  return record

theorem exists_toProto {self : WriteRecord} (h : self.validate = .ok ()) :
    ∃ proto, self.toProto = .ok proto ∧ fromProto proto = .ok self := by
  refine ⟨_, by rw [toProto, h]; rfl, ?_⟩
  simp [fromProto, okOr, WriteKind.fromProto_toProto, h]

end WriteRecord

namespace TxnStatusRecord

structure Proto where
  txnId : Option TxnId
  startTimestamp : Option Timestamp
  commitTimestamp : Option Timestamp
  status : Nat
  primaryKey : Bytes
  participantTabletIds : List TabletId
  lastHeartbeatTimestamp : Option Timestamp
  leaseDeadlineMs : Nat

/-- A missing lease deadline is the protobuf default 0. -/
def toProto (self : TxnStatusRecord) : Except String Proto := do
  self.validate
  return { txnId := some self.txnId, startTimestamp := some self.startTimestamp,
           commitTimestamp := self.commitTimestamp, status := self.status.toProto,
           primaryKey := self.primaryKey, participantTabletIds := self.participantTabletIds,
           lastHeartbeatTimestamp := self.lastHeartbeatTimestamp,
           leaseDeadlineMs := self.leaseDeadlineMs.getD 0 }

def fromProto (proto : Proto) : Except String TxnStatusRecord := do
  let txnId ← okOr proto.txnId "missing txn_id"
  let startTimestamp ← okOr proto.startTimestamp "missing start_timestamp"
  let status ← TxnStatus.fromProto proto.status
  let record : TxnStatusRecord :=
    { txnId, startTimestamp, commitTimestamp := proto.commitTimestamp, status,
      primaryKey := proto.primaryKey, participantTabletIds := proto.participantTabletIds,
      lastHeartbeatTimestamp := proto.lastHeartbeatTimestamp,
      leaseDeadlineMs := if proto.leaseDeadlineMs ≠ 0 then some proto.leaseDeadlineMs else none }
  record.validate
  return record

theorem exists_toProto {self : TxnStatusRecord} (h : self.validate = .ok ()) :
    ∃ proto, self.toProto = .ok proto ∧ fromProto proto = .ok self := by
  have hlease : (if self.leaseDeadlineMs.getD 0 ≠ 0 then some (self.leaseDeadlineMs.getD 0)
      else none) = self.leaseDeadlineMs := by
    have hne := (validate_eq_ok.mp h).1.lease
    cases hl : self.leaseDeadlineMs with
    | none => simp
    | some => simpa [hl] using hne
  refine ⟨_, by rw [toProto, h]; rfl, ?_⟩
  simp only [fromProto, okOr, ok_bind, TxnStatus.fromProto_toProto, hlease, h]
  rfl

end TxnStatusRecord

end RagnorDb
