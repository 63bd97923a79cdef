import RagnorDb.Common.Basic
import RagnorDb.Lib.ByteOrder
import RagnorDb.Lib.OrderedMap

/-!
# Request and command identities

The identities of `ids.rs` by which a tablet recognises a repeated command, with their
order, their validation and their protobuf messages.  A protobuf message with one `u64`
field is the number itself.
-/

namespace RagnorDb

open Std Checked ByteOrder OrderedMap

/-- `u128`. -/
abbrev ClientId := Fin (2 ^ 128)

instance ClientId.neZero : NeZero (2 ^ 128) := inferInstance

instance ClientId.transOrd : TransOrd ClientId := inferInstance

/-- `u128::from_le_bytes`, for 16 bytes. -/
def ClientId.fromLeBytes (bytes : Bytes) : ClientId :=
  Fin.ofNat (2 ^ 128) (ByteOrder.fromLeBytes bytes)

def ClientId.toLeBytes (clientId : ClientId) : Bytes :=
  ByteOrder.toLeBytes 16 clientId.val

@[simp] theorem ClientId.fromLeBytes_toLeBytes (clientId : ClientId) :
    fromLeBytes (toLeBytes clientId) = clientId := by
  apply Fin.ext
  simp only [fromLeBytes, toLeBytes, ByteOrder.fromLeBytes_toLeBytes, Fin.val_ofNat]
  omega

@[simp] theorem ClientId.length_toLeBytes (clientId : ClientId) :
    (toLeBytes clientId).length = 16 :=
  ByteOrder.length_toLeBytes 16 clientId.val

/-! ## Legacy request identity -/

/-- A client request in the sequence namespace of one Raft group. -/
structure RequestId where
  clientId : ClientId
  sequence : Nat
  raftGroupId : RaftGroupId
  deriving DecidableEq

structure RequestIdProto where
  clientId : Bytes
  sequence : Nat
  raftGroupId : Option RaftGroupId

def RequestId.toProto (self : RequestId) : RequestIdProto where
  clientId := self.clientId.toLeBytes
  sequence := self.sequence
  raftGroupId := some self.raftGroupId

def RequestId.fromProto (proto : RequestIdProto) : Except String RequestId := do
  rejectIf (proto.clientId.length ≠ 16) "invalid client_id length"
  let raftGroupId ← okOr proto.raftGroupId "missing raft_group_id"
  return ⟨.fromLeBytes proto.clientId, proto.sequence, raftGroupId⟩

theorem RequestId.fromProto_toProto (self : RequestId) : fromProto self.toProto = .ok self := by
  simp [fromProto, toProto, rejectIf, okOr]

/-! ## Logical command identity -/

/-- A request identity that is independent of any one Raft group. -/
structure ClientRequestId where
  clientId : ClientId
  sessionEpoch : Nat
  requestSequence : Nat
  deriving DecidableEq

namespace ClientRequestId

def validate (self : ClientRequestId) : Except String Unit := do
  rejectIf (self.clientId = 0) "client ID must be non-zero"
  rejectIf (self.sessionEpoch = 0) "client session epoch must be non-zero"
  rejectIf (self.requestSequence = 0) "client request sequence must be non-zero"

structure Proto where
  clientId : Bytes
  sessionEpoch : Nat
  requestSequence : Nat

def toProto (self : ClientRequestId) : Proto where
  clientId := self.clientId.toLeBytes
  sessionEpoch := self.sessionEpoch
  requestSequence := self.requestSequence

def fromProto (proto : Proto) : Except String ClientRequestId := do
  rejectIf (proto.clientId.length ≠ 16) "invalid client_id length"
  let identity : ClientRequestId :=
    ⟨.fromLeBytes proto.clientId, proto.sessionEpoch, proto.requestSequence⟩
  identity.validate
  return identity

theorem fromProto_toProto {self : ClientRequestId} (h : self.validate = .ok ()) :
    fromProto self.toProto = .ok self := by
  simp [fromProto, toProto, rejectIf, h]

end ClientRequestId

/-- Stable semantic kind carried by a logical command identity. -/
inductive CommandKind where
  | read
  | prewrite
  | commit
  | rollback
  | resolveIntent
  | singleShardCommit
  | catalog
  | noop
  deriving DecidableEq

namespace CommandKind

/-- The protobuf value, which is also the `repr(u8)` discriminant. -/
def toProto : CommandKind → Nat
  | read => 1
  | prewrite => 2
  | commit => 3
  | rollback => 4
  | resolveIntent => 5
  | singleShardCommit => 6
  | catalog => 7
  | noop => 8

def fromProto : Nat → Except String CommandKind
  | 0 => .error "command kind is unspecified"
  | 1 => .ok read
  | 2 => .ok prewrite
  | 3 => .ok commit
  | 4 => .ok rollback
  | 5 => .ok resolveIntent
  | 6 => .ok singleShardCommit
  | 7 => .ok catalog
  | 8 => .ok noop
  | _ => .error "invalid command kind"

theorem fromProto_toProto (kind : CommandKind) : fromProto kind.toProto = .ok kind := by
  cases kind <;> rfl

theorem toProto_injective : Function.Injective toProto := by
  intro a b h
  have := congrArg fromProto h
  rw [fromProto_toProto, fromProto_toProto] at this
  exact Except.ok.inj this

end CommandKind

/-- Identity of one logical command, independent of routing. -/
structure LogicalCommandId where
  clientRequestId : ClientRequestId
  commandOrdinal : Nat
  kind : CommandKind
  deriving DecidableEq

namespace LogicalCommandId

variable (self : LogicalCommandId)

def validate : Except String Unit := do
  self.clientRequestId.validate
  rejectIf (self.commandOrdinal = 0) "logical command ordinal must be non-zero"

structure Proto where
  clientRequestId : Option ClientRequestId.Proto
  commandOrdinal : Nat
  kind : Nat

def toProto : Proto where
  clientRequestId := some self.clientRequestId.toProto
  commandOrdinal := self.commandOrdinal
  kind := self.kind.toProto

def fromProto (proto : Proto) : Except String LogicalCommandId := do
  let request ← okOr proto.clientRequestId "missing logical command client request ID"
  let clientRequestId ← ClientRequestId.fromProto request
  let kind ← CommandKind.fromProto proto.kind
  let identity : LogicalCommandId := ⟨clientRequestId, proto.commandOrdinal, kind⟩
  identity.validate
  return identity

theorem fromProto_toProto {self : LogicalCommandId} (h : self.validate = .ok ()) :
    fromProto self.toProto = .ok self := by
  have hrequest : self.clientRequestId.validate = .ok () := by
    obtain ⟨_, hr, -⟩ := bind_eq_ok.mp h
    exact hr
  simp [fromProto, toProto, okOr, ClientRequestId.fromProto_toProto hrequest,
    CommandKind.fromProto_toProto, h]

/-- The fields in the order of the derived comparison. -/
def key : List Nat :=
  [self.clientRequestId.clientId, self.clientRequestId.sessionEpoch,
    self.clientRequestId.requestSequence, self.commandOrdinal, self.kind.toProto]

theorem key_injective : Function.Injective key := by
  rintro ⟨⟨c, s, r⟩, o, k⟩ ⟨⟨c', s', r'⟩, o', k'⟩ h
  simp only [key, List.cons.injEq, and_true] at h
  obtain ⟨hc, rfl, rfl, rfl, hk⟩ := h
  rw [Fin.ext hc, CommandKind.toProto_injective hk]

instance : Ord LogicalCommandId := ⟨compareOn key⟩

instance : TransOrd LogicalCommandId := inferInstanceAs (TransCmp (compareOn key))

instance : LawfulEqOrd LogicalCommandId := lawfulEqCmp_compareOn key_injective

end LogicalCommandId

/-- The `(client_id, session_epoch)` pair that names a client session. -/
structure SessionKey where
  clientId : ClientId
  sessionEpoch : Nat
  deriving DecidableEq

namespace SessionKey

def key (self : SessionKey) : List Nat :=
  [self.clientId, self.sessionEpoch]

theorem key_injective : Function.Injective key := by
  rintro ⟨c, s⟩ ⟨c', s'⟩ h
  simp only [key, List.cons.injEq, and_true] at h
  obtain ⟨hc, rfl⟩ := h
  rw [Fin.ext hc]

instance : Ord SessionKey := ⟨compareOn key⟩

instance : TransOrd SessionKey := inferInstanceAs (TransCmp (compareOn key))

instance : LawfulEqOrd SessionKey := lawfulEqCmp_compareOn key_injective

end SessionKey

/-- The session of a logical command. -/
def LogicalCommandId.sessionKey (self : LogicalCommandId) : SessionKey :=
  ⟨self.clientRequestId.clientId, self.clientRequestId.sessionEpoch⟩

end RagnorDb
