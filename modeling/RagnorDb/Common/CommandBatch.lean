import Mathlib.Data.Countable.Basic
import Mathlib.Data.FinEnum
import Mathlib.Data.Set.Finite.List
import Mathlib.Logic.Equiv.List
import Mathlib.Tactic.DeriveCountable
import RagnorDb.Common.CommandCodec

/-!
# Batches of tablet commands

`TabletCommandBatchEnvelope` of `command_codec.rs` puts several complete envelopes for one tablet
into one Raft entry.  Its encoding is bounded, so of the batches that pass their checks only those
within the bound are encoded; these decode to themselves, and whatever decodes passes its checks.
-/

namespace RagnorDb

open Std Checked

variable {key : Bytes}

def tabletCommandBatchEnvelopeVersion : Nat := 1

def maxTabletCommandBatchCommands : Nat := 32

def maxTabletCommandBatchBytes : Nat := 1024 * 1024

/-- A batch of complete tablet command envelopes. -/
structure TabletCommandBatchEnvelope where
  formatVersion : Nat
  commands : List TabletCommandEnvelope
  deriving DecidableEq

namespace TabletCommandBatchEnvelope

variable {self : TabletCommandBatchEnvelope}

/-- `TabletCommandBatchEnvelopeError`, and the panic of `to_proto`, which `exists_toProto` shows is
never reached. -/
inductive Error where
  | unsupportedVersion (version : Nat)
  | tooFewCommands (commands : Nat)
  | tooManyCommands (commands : Nat)
  | invalidEnvelope (index : Nat) (reason : String)
  | mismatchedTablet (expected received : TabletId)
  | mismatchedEpoch (expected received : Nat)
  | mismatchedRaftGroup (expected received : RaftGroupId)
  | nonBatchableCommand (index : Nat) (command : String)
  | duplicateRequestId (requestId : RequestId)
  | duplicateLogicalCommandId (logicalCommandId : LogicalCommandId)
  | tooLarge (encodedBytes maxBytes : Nat)
  | decode (reason : String)
  | panicked (message : String)
  deriving DecidableEq

/-- The identities met so far in a batch. -/
structure Seen where
  requestIds : List RequestId
  logicalCommandIds : List LogicalCommandId

/-- Check the command at an index against the first command and the identities before it. -/
def validateCommand (first : TabletCommandEnvelope) (seen : Seen)
    (command : TabletCommandEnvelope × Nat) : Except Error Seen := do
  let (envelope, index) := command
  envelope.validate.mapError fun source => Error.invalidEnvelope index source.display
  rejectIf (envelope.tabletId ≠ first.tabletId)
    (.mismatchedTablet first.tabletId envelope.tabletId)
  rejectIf (envelope.expectedEpoch ≠ first.expectedEpoch)
    (.mismatchedEpoch first.expectedEpoch envelope.expectedEpoch)
  rejectIf (envelope.requestId.raftGroupId ≠ first.requestId.raftGroupId)
    (.mismatchedRaftGroup first.requestId.raftGroupId envelope.requestId.raftGroupId)
  rejectIf (¬ envelope.command.isBatchable)
    (.nonBatchableCommand index envelope.command.kindName)
  rejectIf (envelope.requestId ∈ seen.requestIds) (.duplicateRequestId envelope.requestId)
  let requestIds := envelope.requestId :: seen.requestIds
  match envelope.logicalCommandId with
  | none => return { seen with requestIds }
  | some logicalCommandId =>
    rejectIf (logicalCommandId ∈ seen.logicalCommandIds)
      (.duplicateLogicalCommandId logicalCommandId)
    return { requestIds, logicalCommandIds := logicalCommandId :: seen.logicalCommandIds }

/-- Validate all structural invariants before a batch enters Raft. -/
def validate (self : TabletCommandBatchEnvelope) : Except Error Unit := do
  rejectIf (self.formatVersion ≠ tabletCommandBatchEnvelopeVersion)
    (.unsupportedVersion self.formatVersion)
  match self.commands with
  | first :: _ :: _ => do
    rejectIf (maxTabletCommandBatchCommands < self.commands.length)
      (.tooManyCommands self.commands.length)
    let _ ← self.commands.zipIdx.foldlM (validateCommand first) ⟨[], []⟩
  | _ => .error (.tooFewCommands self.commands.length)

structure Proto where
  formatVersion : Nat
  commands : List TabletCommandEnvelope.Proto

/-- The commands are expected to have messages. -/
def toProto (self : TabletCommandBatchEnvelope) : Except Error Proto := do
  let commands ← (self.commands.mapM TabletCommandEnvelope.toProto).mapError fun _ =>
    Error.panicked "validated batch contains valid command envelopes"
  return { formatVersion := self.formatVersion, commands }

def commandFromProto (command : TabletCommandEnvelope.Proto × Nat) :
    Except Error TabletCommandEnvelope :=
  (TabletCommandEnvelope.fromProto command.1).mapError fun source =>
    .invalidEnvelope command.2 source.display

def fromProto (proto : Proto) : Except Error TabletCommandBatchEnvelope := do
  let commands ← proto.commands.zipIdx.mapM commandFromProto
  let batch : TabletCommandBatchEnvelope := { formatVersion := proto.formatVersion, commands }
  batch.validate
  return batch

/-! ## Valid batches -/

/-- A valid batch is within the limit, and its commands are valid. -/
theorem commands_of_validate {u : Unit} (h : self.validate = .ok u) :
    self.commands.length ≤ maxTabletCommandBatchCommands ∧
      ∀ envelope ∈ self.commands, envelope.validate = .ok () := by
  obtain ⟨_, -, hcommands⟩ := bind_eq_ok.mp h
  split at hcommands
  · next first _ _ hlist =>
      simp only [eq_ok', Nat.not_lt] at hcommands
      obtain ⟨hlength, seen, hfold, -⟩ := hcommands
      refine ⟨hlength, fun envelope hmem => ?_⟩
      have hstep {done : List (TabletCommandEnvelope × Nat)} {command} {s s' : Seen}
          (hdone : ∀ other ∈ done, other.1.validate = .ok ())
          (h : validateCommand first s command = .ok s') :
          ∀ other ∈ done ++ [command], other.1.validate = .ok () := by
        intro other hother
        rcases List.mem_append.mp hother with hother | hother
        · exact hdone other hother
        · rw [List.mem_singleton.mp hother]
          obtain ⟨_, hvalid, -⟩ := bind_eq_ok.mp h
          exact mapError_eq_ok.mp hvalid
      have hall := foldlM_ok (P := fun done _ => ∀ other ∈ done, other.1.validate = .ok ())
        hstep (by simp) hfold
      obtain ⟨index, hindex⟩ := List.mem_iff_getElem?.mp hmem
      exact hall (envelope, index) (List.mk_mem_zipIdx_iff_getElem?.mpr hindex)
  · cases hcommands

theorem forall₂_zipIdx {α β : Type} {R : α → β → Prop} {S : α × Nat → β → Prop} {l : List α}
    {l' : List β} (h : List.Forall₂ R l l') (hS : ∀ a n b, R a b → S (a, n) b) :
    ∀ {n : Nat}, List.Forall₂ S (l.zipIdx n) l' := by
  induction h with
  | nil => exact .nil
  | cons hab _ ih => exact .cons (hS _ _ _ hab) ih

theorem exists_toProto (h : self.validate = .ok ()) :
    ∃ proto, self.toProto = .ok proto ∧ proto.commands.length = self.commands.length ∧
      fromProto proto = .ok self := by
  obtain ⟨protos, hprotos, hback⟩ := exists_mapM_of_inverse fun envelope hmem =>
    TabletCommandEnvelope.exists_toProto ((commands_of_validate h).2 envelope hmem)
  refine ⟨⟨self.formatVersion, protos⟩, by simp [toProto, hprotos, Except.mapError], ?_, ?_⟩
  · exact hback.length_eq
  · have hcommands : protos.zipIdx.mapM commandFromProto = .ok self.commands :=
      mapM_eq_ok.mpr (forall₂_zipIdx hback fun _ _ _ hcommand => mapError_eq_ok.mpr hcommand)
    simp only [fromProto, hcommands, ok_bind, h]
    rfl

variable [Message Proto]

def encode (self : TabletCommandBatchEnvelope) : Except Error Bytes := do
  self.validate
  let encoded := Message.encodeToVec (← self.toProto)
  rejectIf (maxTabletCommandBatchBytes < encoded.length)
    (.tooLarge encoded.length maxTabletCommandBatchBytes)
  return encoded

def decode (bytes : Bytes) : Except Error TabletCommandBatchEnvelope := do
  rejectIf (maxTabletCommandBatchBytes < bytes.length)
    (.tooLarge bytes.length maxTabletCommandBatchBytes)
  let proto ← (Message.decode bytes).mapError Error.decode
  rejectIf (maxTabletCommandBatchCommands < (proto : Proto).commands.length)
    (.tooManyCommands proto.commands.length)
  fromProto proto

theorem encode_of_validate (h : self.validate = .ok ()) :
    ∃ proto, self.toProto = .ok proto ∧ proto.commands.length = self.commands.length ∧
      fromProto proto = .ok self ∧ self.encode =
        if maxTabletCommandBatchBytes < (Message.encodeToVec proto).length then
          .error (.tooLarge (Message.encodeToVec proto).length maxTabletCommandBatchBytes)
        else .ok (Message.encodeToVec proto) := by
  obtain ⟨proto, hproto, hlength, hback⟩ := exists_toProto h
  refine ⟨proto, hproto, hlength, hback, ?_⟩
  simp only [encode, h, hproto, ok_bind, rejectIf]
  split <;> rfl

theorem decode_encodeToVec {proto : Proto}
    (hbytes : ¬maxTabletCommandBatchBytes < (Message.encodeToVec proto).length)
    (hcommands : proto.commands.length ≤ maxTabletCommandBatchCommands) :
    decode (Message.encodeToVec proto) = fromProto proto := by
  simp only [decode, rejectIf, hbytes, ↓reduceIte, ok_bind, Message.decode_encodeToVec,
    Except.mapError, Nat.not_lt.mpr hcommands]

theorem validate_of_decode {bytes : Bytes}
    (h : decode bytes = .ok self) : self.validate = .ok () := by
  simp only [decode, fromProto, eq_ok] at h
  obtain ⟨_, -, proto, -, _, -, commands, -, _, hvalid, rfl⟩ := h
  exact hvalid

end TabletCommandBatchEnvelope

theorem TabletCommandEnvelope.validate_of_decode [Message TabletCommandEnvelope.Proto]
    {bytes : Bytes} {self : TabletCommandEnvelope} (h : decode bytes = .ok self) :
    self.validate = .ok () := by
  simp only [decode, fromProto, eq_ok] at h
  obtain ⟨proto, -, _, -, _, -, _, -, _, -, _, -, _, -, _, hvalid, rfl⟩ := h
  exact hvalid

/-! ## Round trips -/

section RoundTrip

variable [Message TabletCommandEnvelope.Proto] [Message TabletCommandBatchEnvelope.Proto]

/-- A valid envelope decodes from its encoding, and so does a valid batch unless its encoding is
too large; and everything that decodes is valid, so its commands are well formed. -/
theorem command_envelopes_round_trip :
    (∀ envelope : TabletCommandEnvelope, envelope.validate = .ok () →
      ∃ bytes, envelope.encode = .ok bytes ∧ TabletCommandEnvelope.decode bytes = .ok envelope) ∧
    (∀ batch : TabletCommandBatchEnvelope, batch.validate = .ok () →
      (∃ bytes, batch.encode = .ok bytes ∧ TabletCommandBatchEnvelope.decode bytes = .ok batch) ∨
      ∃ proto, batch.toProto = .ok proto ∧
        maxTabletCommandBatchBytes < (Message.encodeToVec proto).length ∧
        batch.encode =
          .error (.tooLarge (Message.encodeToVec proto).length maxTabletCommandBatchBytes)) ∧
    (∀ bytes envelope, TabletCommandEnvelope.decode bytes = .ok envelope →
      envelope.validate = .ok () ∧ envelope.WellFormed) ∧
    ∀ bytes batch, TabletCommandBatchEnvelope.decode bytes = .ok batch →
      batch.validate = .ok () ∧ ∀ envelope ∈ batch.commands, envelope.WellFormed := by
  refine ⟨fun envelope hvalid => ?_, fun batch hvalid => ?_, fun bytes envelope hdecode => ?_,
    fun bytes batch hdecode => ?_⟩
  · obtain ⟨proto, hproto, hback⟩ := TabletCommandEnvelope.exists_toProto hvalid
    refine ⟨Message.encodeToVec proto, by rw [TabletCommandEnvelope.encode, hproto]; rfl, ?_⟩
    rw [TabletCommandEnvelope.decode_encodeToVec, hback]
  · obtain ⟨proto, hproto, hlength, hback, hencode⟩ :=
      TabletCommandBatchEnvelope.encode_of_validate hvalid
    by_cases hbytes : maxTabletCommandBatchBytes < (Message.encodeToVec proto).length
    · rw [if_pos hbytes] at hencode
      exact .inr ⟨proto, hproto, hbytes, hencode⟩
    · rw [if_neg hbytes] at hencode
      have hlimit := (TabletCommandBatchEnvelope.commands_of_validate hvalid).1
      refine .inl ⟨_, hencode, ?_⟩
      rw [TabletCommandBatchEnvelope.decode_encodeToVec hbytes (hlength ▸ hlimit), hback]
  · have hvalid := TabletCommandEnvelope.validate_of_decode hdecode
    exact ⟨hvalid, TabletCommandEnvelope.wellFormed_of_validate hvalid⟩
  · have hvalid := TabletCommandBatchEnvelope.validate_of_decode hdecode
    refine ⟨hvalid, fun envelope hmem => ?_⟩
    exact TabletCommandEnvelope.wellFormed_of_validate
      ((TabletCommandBatchEnvelope.commands_of_validate hvalid).2 envelope hmem)

end RoundTrip

/-! ## A wire format

Every message is a finite tree of numbers and strings, so there is a format for it. -/

/-- The length of the encoding is the number of the message. -/
@[reducible] def Message.ofEncodable (M : Type) [Encodable M] : Message M where
  encodeToVec message := List.replicate (Encodable.encode message) 0
  decode bytes := okOr (Encodable.decode bytes.length) "invalid wire format"
  decode_encodeToVec message := by
    rw [List.length_replicate, Encodable.encodek]
    rfl

instance countableChar : Countable Char := ⟨⟨Char.toNat, fun _ _ h => Char.toNat_inj.mp h⟩⟩

instance countableString : Countable String := by
  obtain ⟨number, hnumber⟩ := exists_injective_nat (List Char)
  exact ⟨fun text => number text.toList, fun _ _ h => String.toList_injective (hnumber h)⟩

deriving instance Countable for Value.Kind, Value.Proto, Row.Proto, WriteEntry.Proto,
  TxnStatusRecord.Proto, PrewriteCommand.Proto, CommitCommand.Proto, RollbackCommand.Proto,
  SingleShardCommitCommand.Proto, ResolveIntentCommand.Proto,
  PublishAbortedTransactionStatus.Proto, HeartbeatTransactionStatus.Proto,
  ExpirePendingTransactionStatus.Proto, ColumnDefinition.Proto, TableDefinition.Proto,
  CatalogCommand.CreateTableProto, CatalogCommand.OperationProto, CatalogCommand.Proto,
  TabletCommand.Kind, TabletCommand.Proto, RequestIdProto, ClientRequestId.Proto,
  LogicalCommandId.Proto, TabletCommandEnvelope.Proto, TabletCommandBatchEnvelope.Proto

/-- A rollback of one row key, as the request with this sequence. -/
def rollbackEnvelope (key : Bytes) (sequence : Nat) : TabletCommandEnvelope where
  formatVersion := tabletCommandEnvelopeVersion
  requestId := ⟨1, sequence, 1⟩
  tabletId := 1
  expectedEpoch := 1
  logicalCommandId := none
  acknowledgedThrough := none
  command := .rollback ⟨1, 1, [key]⟩

/-- Two rollbacks of one row key. -/
def rollbackBatch (key : Bytes) : TabletCommandBatchEnvelope :=
  ⟨tabletCommandBatchEnvelopeVersion, [rollbackEnvelope key 1, rollbackEnvelope key 2]⟩

theorem validate_rollbackEnvelope {sequence : Nat} (hkey : key ≠ [])
    (hsequence : sequence ≠ 0) : (rollbackEnvelope key sequence).validate = .ok () := by
  have hkeys : validateKeys [key] = .ok () := by
    rw [validateKeys_eq_ok]
    simpa using hkey.symm
  simp [rollbackEnvelope, TabletCommandEnvelope.validate, TabletCommandEnvelope.validateMetadata,
    TabletCommand.validate, RollbackCommand.validate, validateTxnStart, rejectIf, hsequence, hkeys,
    Except.mapError]

theorem validate_rollbackBatch (hkey : key ≠ []) : (rollbackBatch key).validate = .ok () := by
  have hfirst := validate_rollbackEnvelope hkey Nat.one_ne_zero
  have hsecond := validate_rollbackEnvelope hkey (Nat.succ_ne_zero 1)
  simp [rollbackBatch, TabletCommandBatchEnvelope.validate, rejectIf, maxTabletCommandBatchCommands,
    TabletCommandBatchEnvelope.validateCommand, hfirst, hsecond, Except.mapError]
  simp [rollbackEnvelope, TabletCommand.isBatchable]

@[reducible] noncomputable def envelopeFormat : Message TabletCommandEnvelope.Proto :=
  letI := Encodable.ofCountable TabletCommandEnvelope.Proto
  .ofEncodable _

@[reducible] noncomputable def batchFormat : Message TabletCommandBatchEnvelope.Proto :=
  letI := Encodable.ofCountable TabletCommandBatchEnvelope.Proto
  .ofEncodable _

theorem command_envelopes_round_trip_sample :
    (rollbackEnvelope [7] 1).validate = .ok () ∧
      ∃ bytes, @TabletCommandEnvelope.encode envelopeFormat (rollbackEnvelope [7] 1) = .ok bytes ∧
        @TabletCommandEnvelope.decode envelopeFormat bytes = .ok (rollbackEnvelope [7] 1) := by
  have hvalid : (rollbackEnvelope [7] 1).validate = .ok () := by decide +kernel
  exact ⟨hvalid,
    (@command_envelopes_round_trip envelopeFormat batchFormat).1 (rollbackEnvelope [7] 1) hvalid⟩

/-- Among the rollbacks of longer and longer row keys, all of them valid, every wire format meets
one that is too large to be encoded. -/
theorem valid_batch_without_encoding :
    ∃ batch : Nat → TabletCommandBatchEnvelope, (∀ n, (batch n).validate = .ok ()) ∧
      ∀ _ : Message TabletCommandBatchEnvelope.Proto,
        ∃ n error, (batch n).encode = .error error := by
  have hvalid (n : Nat) : (rollbackBatch (List.replicate (n + 1) 0)).validate = .ok () :=
    validate_rollbackBatch (by simp [List.replicate_succ])
  refine ⟨fun n => rollbackBatch (List.replicate (n + 1) 0), hvalid, fun _ => ?_⟩
  by_contra hnone
  push Not at hnone
  -- Otherwise every batch has its own encoding among finitely many byte strings.
  have hencoding (n : Nat) : ∃ bytes : Bytes, bytes.length ≤ maxTabletCommandBatchBytes ∧
      TabletCommandBatchEnvelope.decode bytes =
        .ok (rollbackBatch (List.replicate (n + 1) 0)) := by
    obtain ⟨proto, -, hlength, hback, hencode⟩ :=
      TabletCommandBatchEnvelope.encode_of_validate (hvalid n)
    by_cases hbytes : maxTabletCommandBatchBytes < (Message.encodeToVec proto).length
    · rw [if_pos hbytes] at hencode
      exact absurd hencode (hnone n _)
    · have hlimit := (TabletCommandBatchEnvelope.commands_of_validate (hvalid n)).1
      refine ⟨Message.encodeToVec proto, by omega, ?_⟩
      rw [TabletCommandBatchEnvelope.decode_encodeToVec hbytes (hlength ▸ hlimit), hback]
  choose bytes hlength hdecode using hencoding
  have hinjective : Function.Injective bytes := by
    intro m n hmn
    have hbatch := (hdecode m).symm.trans (hmn ▸ hdecode n)
    simp only [rollbackBatch, rollbackEnvelope, Except.ok.injEq,
      TabletCommandBatchEnvelope.mk.injEq, List.cons.injEq, TabletCommandEnvelope.mk.injEq,
      TabletCommand.rollback.injEq, RollbackCommand.mk.injEq, true_and, and_true] at hbatch
    have hkeys := congrArg List.length hbatch.1
    simpa using hkeys
  exact Set.infinite_of_injective_forall_mem hinjective hlength
    (List.finite_length_le UInt8 maxTabletCommandBatchBytes)

end RagnorDb
