import RagnorDb.Lib.VersionMap
import RagnorDb.Storage.Key

/-!
# In-memory multi version concurrency control

The model of `InMemoryMvcc` in `mvcc.rs`: three ordered maps

* `default/{row_key}/{start_ts}`: the encoded row,
* `lock/{row_key}`: the uncommitted lock,
* `write/{row_key}/{write_ts}`: committed writes and rollback markers,

and the seven operations that change them.  An operation is an `EStateM` method: like a
`&mut self` method it would keep what it changed before failing.  That it changes nothing
when it fails is a fact about the code, and is proved (`MvccOp.exec_error`).
-/

namespace RagnorDb

open Std Checked

/-- A transaction-local mutation waiting to be committed. -/
inductive Mutation where
  | put (row : Bytes)
  | delete
  deriving DecidableEq

def Mutation.writeKind : Mutation → WriteKind
  | .put _ => .put
  | .delete => .delete

/-- `BTreeMap<Vec<u8>, Mutation>`. -/
abbrev Mutations := ExtTreeMap Bytes Mutation compare

/-- `BTreeSet<Vec<u8>>`. -/
abbrev KeySet := ExtTreeSet Bytes compare

/-- The three MVCC maps. -/
structure InMemoryMvcc where
  default : VersionMap Bytes Timestamp Bytes
  locks : ExtTreeMap Bytes LockRecord compare
  writes : VersionMap Bytes Timestamp WriteRecord
  deriving DecidableEq

/-- A validated prewrite delta. -/
structure PreparedPrewrite where
  key : Bytes
  defaultValue : Option Bytes
  lock : LockRecord

/-- A validated committed write delta for one intent key. -/
structure PreparedIntentCommit where
  key : Bytes
  write : WriteRecord

/-- A validated rollback delta for one intent key. -/
structure PreparedIntentRollback where
  key : Bytes
  removeDefaultValue : Bool

/-! ## Validation -/

def validateCommitPreflightMetadata (txnId : TxnId) (startTs : Timestamp) : Except Error Unit := do
  rejectIf (txnId = 0) (.invalidArgument "transaction ID 0 is reserved")
  rejectIf (startTs = 0) (.invalidArgument "transaction start timestamp 0 is reserved")

def validateCommitMetadata (txnId : TxnId) (startTs commitTs : Timestamp) : Except Error Unit := do
  validateCommitPreflightMetadata txnId startTs
  rejectIf (commitTs = 0) (.invalidArgument "transaction commit timestamp 0 is reserved")
  rejectIf (commitTs ≤ startTs) (.invalidArgument
    s!"commit timestamp {commitTs} must be greater than start timestamp {startTs}")

/-- Validate one record against the timestamp used as its write-map key. -/
def validateWriteRecord (storedWriteTs : Timestamp) (write : WriteRecord) : Except Error Unit := do
  rejectIf (write.commitTimestamp ≠ storedWriteTs) (.corruptData
    (s!"write-map timestamp {storedWriteTs} does not match record timestamp " ++
      s!"{write.commitTimestamp}"))
  rejectIf (write.startTimestamp = 0)
    (.corruptData "write record contains reserved start timestamp 0")
  match write.op with
  | .put | .delete =>
    rejectIf (write.commitTimestamp ≤ write.startTimestamp) (.corruptData
      (s!"committed write timestamp {write.commitTimestamp} does not follow start " ++
        s!"timestamp {write.startTimestamp}"))
  | .rollback =>
    rejectIf (write.commitTimestamp ≠ write.startTimestamp) (.corruptData
      (s!"rollback record timestamp {write.commitTimestamp} must equal start timestamp " ++
        s!"{write.startTimestamp}"))

def validateEncodedKeyArgument (key : Bytes) (context : String) : Except Error Unit := do
  let _ ← (decodeRowKey key).mapError fun error =>
    .invalidArgument s!"{context} is not a canonical encoded row key: {error.display}"

/-- A replayed Put must find the row it stored the first time. -/
def checkReplayedRow (stored : Option Bytes) (mutation : Mutation) (missing different : Error) :
    Except Error Unit :=
  match mutation with
  | .put expectedRow => do
    let storedRow ← okOr stored missing
    rejectIf (storedRow ≠ expectedRow) different
  | .delete => .ok ()

/-- The default value kept for an intent or a committed write must fit its kind. -/
def checkPayload (value : Option Bytes) (op : WriteKind) (missing retained invalid : Error) :
    Except Error Unit :=
  match op with
  | .put => do
    let row ← okOr value missing
    let _ ← decodeRow row
  | .delete => rejectIf value.isSome retained
  | .rollback => .error invalid

/-- The conflict with the holder of a row's lock. -/
def lockConflict (lock : LockRecord) : Error :=
  .writeConflict (s!"row is locked by transaction {lock.txnId} at start timestamp " ++
    s!"{lock.startTimestamp}")

namespace InMemoryMvcc

/-- An empty in-memory MVCC engine. -/
def new : InMemoryMvcc := ⟨∅, ∅, ∅⟩

variable (self : InMemoryMvcc)

def validateMutation (key : Bytes) (mutation : Mutation) (startTs : Timestamp) :
    Except Error Unit := do
  validateEncodedKeyArgument key "mutation key"
  match mutation with
  | .put row =>
    let _ ← (decodeRow row).mapError fun error => .invalidArgument
      s!"Put mutation does not contain a canonical encoded row: {error.display}"
    match self.default.lookup key startTs with
    | some existing =>
      rejectIf (existing ≠ row) (.corruptData
        s!"start timestamp {startTs} already has a different default value")
    | none => pure ()
  | .delete =>
    rejectIf (self.default.lookup key startTs).isSome (.corruptData
      (s!"Delete at start timestamp {startTs} conflicts with an existing " ++
        "default value for the same transaction"))

def validateLock (key : Bytes) (mutation : Mutation) (txnId : TxnId) (startTs : Timestamp) :
    Except Error Unit :=
  match self.locks[key]? with
  | none => .ok ()
  | some lock => do
    rejectIf (lock.txnId ≠ txnId ∨ lock.startTimestamp ≠ startTs) (lockConflict lock)
    rejectIf (lock.op ≠ mutation.writeKind) (.corruptData
      s!"transaction {txnId} has a lock operation inconsistent with its mutation")

def validateWriteHistory (key : Bytes) (startTs : Timestamp) : Except Error Unit :=
  match self.writes[key]? with
  | none => .ok ()
  | some writeVersions => do
    -- This transaction's own rollback witness.
    (match writeVersions[startTs]? with
      | none => .ok ()
      | some write => do
        validateWriteRecord startTs write
        rejectIf (write.op = .rollback ∧ write.startTimestamp = startTs) (.writeConflict
          s!"transaction starting at timestamp {startTs} was already rolled back"))
    -- The newest committed write above the transaction's snapshot.
    match (writeVersions.toList.filter fun e => startTs < e.1).reverse.find?
        fun e => e.2.op ≠ .rollback with
    | none => .ok ()
    | some (conflictingWriteTs, conflictingWrite) => do
      validateWriteRecord conflictingWriteTs conflictingWrite
      throw (.writeConflict
        (s!"row was modified at timestamp {conflictingWriteTs} after transaction start " ++
          s!"timestamp {startTs}"))

/-- A loop over the write records of a key, in timestamp order. -/
def forEachWrite (key : Bytes) (check : Timestamp → WriteRecord → Except Error Unit) :
    Except Error Unit :=
  match self.writes[key]? with
  | none => .ok ()
  | some versions => versions.toList.forM fun e => check e.1 e.2

/-- The finalized commit timestamp must come after every existing write map entry. -/
def validateCommitTimestamp (key : Bytes) (commitTs : Timestamp) : Except Error Unit :=
  match self.writes[key]?.bind OrderedMap.lastKeyValue? with
  | none => .ok ()
  | some (latestWriteTs, _) =>
    rejectIf (latestWriteTs ≥ commitTs) (.writeConflict
      (s!"commit timestamp {commitTs} does not advance the row's latest write " ++
        s!"timestamp {latestWriteTs}"))

def isExactlyApplied (key : Bytes) (mutation : Mutation) (startTs commitTs : Timestamp) :
    Except Error Bool :=
  match self.writes.lookup key commitTs with
  | none => .ok false
  | some write => do
    validateWriteRecord commitTs write
    rejectIf (write.startTimestamp ≠ startTs ∨ write.op ≠ mutation.writeKind) (.corruptData
      s!"write timestamp {commitTs} is already occupied by a different write")
    checkReplayedRow (self.default.lookup key startTs) mutation
      (.corruptData s!"replayed Put at timestamp {commitTs} has no default value")
      (.corruptData s!"replayed Put at timestamp {commitTs} references different row bytes")
    return true

def validateBatchReplay (mutations : Mutations) (startTs commitTs : Timestamp) :
    Except Error Bool := do
  let flags ← mutations.toList.mapM fun e => self.isExactlyApplied e.1 e.2 startTs commitTs
  let applied := flags.count true
  if applied = 0 then
    return false
  else if applied = mutations.size then
    return true
  else
    throw (.corruptData (s!"transaction at start timestamp {startTs} is only partially " ++
      s!"present at write timestamp {commitTs}"))

/-! ## Prewrite -/

variable (txnId : TxnId)

/-- Validate one prewrite and return its delta, unless it is an exact replay. -/
def preparePrewrite (startTs : Timestamp) (key : Bytes) (mutation : Mutation)
    (primaryKey : Bytes) (ttlMs : Nat) : Except Error (Option PreparedPrewrite) := do
  self.validateMutation key mutation startTs
  self.validateWriteHistory key startTs
  let expectedLock : LockRecord :=
    { txnId, primaryKey, startTimestamp := startTs, ttlMs, op := mutation.writeKind }
  match self.locks[key]? with
  | some existingLock =>
    rejectIf (existingLock.txnId ≠ txnId ∨ existingLock.startTimestamp ≠ startTs)
      (lockConflict existingLock)
    rejectIf (existingLock ≠ expectedLock) (.corruptData
      s!"transaction {txnId} replayed prewrite with different lock metadata")
    checkReplayedRow (self.default.lookup key startTs) mutation
      (.corruptData s!"transaction {txnId} has a Put lock without its default value")
      (.corruptData s!"transaction {txnId} replayed prewrite with different row bytes")
    return none
  | none =>
    rejectIf (self.default.lookup key startTs).isSome (.corruptData
      s!"transaction {txnId} has a default value without its prewrite lock")
    return some {
      key
      defaultValue := match mutation with
        | .put row => some row
        | .delete => none
      lock := expectedLock }

/-- Publish a prevalidated prewrite delta. -/
def applyPrewrite (prepared : PreparedPrewrite) : InMemoryMvcc :=
  { self with
    default := match prepared.defaultValue with
      | some row => self.default.insertVersion prepared.key prepared.lock.startTimestamp row
      | none => self.default
    locks := self.locks.insert prepared.key prepared.lock }

/-! ## Intent commit -/

/-- Validate one intent commit.  An exact replay returns no delta because its committed
write record is already present. -/
def prepareIntentCommit (startTs commitTs : Timestamp) (key : Bytes) :
    Except Error (Option PreparedIntentCommit) := do
  validateEncodedKeyArgument key "intent commit key"
  match self.writes.lookup key commitTs with
  | some write =>
    validateWriteRecord commitTs write
    self.forEachWrite key fun otherWriteTs other => do
      validateWriteRecord otherWriteTs other
      rejectIf (otherWriteTs ≠ commitTs ∧ other.startTimestamp = startTs) (.corruptData
        (s!"transaction starting at timestamp {startTs} has multiple durable outcomes " ++
          s!"at write timestamps {commitTs} and {otherWriteTs}"))
    rejectIf (write.startTimestamp ≠ startTs ∨ write.op = .rollback) (.corruptData
      s!"write timestamp {commitTs} is occupied by another transaction outcome")
    rejectIf (self.locks[key]?.any fun lock => lock.startTimestamp = startTs) (.corruptData
      s!"committed transaction at timestamp {commitTs} still has an intent lock")
    checkPayload (self.default.lookup key startTs) write.op
      (.corruptData s!"committed Put at timestamp {commitTs} has no default value")
      (.corruptData s!"committed Delete at timestamp {commitTs} retains a default value")
      (.corruptData "handled above")
    return none
  | none =>
    let lock ← okOr self.locks[key]? (.writeConflict
      s!"transaction {txnId} has no intent to commit at start timestamp {startTs}")
    rejectIf (lock.txnId ≠ txnId ∨ lock.startTimestamp ≠ startTs) (lockConflict lock)
    checkPayload (self.default.lookup key startTs) lock.op
      (.corruptData s!"transaction {txnId} has a Put lock without its default value")
      (.corruptData s!"transaction {txnId} has a Delete lock with a default value")
      (.corruptData s!"transaction {txnId} has an invalid Rollback intent lock")
    self.validateWriteHistory key startTs
    self.validateCommitTimestamp key commitTs
    return some {
      key
      write := { startTimestamp := startTs, commitTimestamp := commitTs, op := lock.op } }

/-- Publish a prevalidated intent commit delta. -/
def applyIntentCommit (prepared : PreparedIntentCommit) : InMemoryMvcc :=
  { self with
    writes := self.writes.insertVersion prepared.key prepared.write.commitTimestamp
      prepared.write
    locks := self.locks.erase prepared.key }

/-! ## Intent rollback -/

/-- Validate one rollback.  An existing rollback witness is an exact replay. -/
def prepareIntentRollback (startTs : Timestamp) (key : Bytes) :
    Except Error (Option PreparedIntentRollback) := do
  validateEncodedKeyArgument key "intent rollback key"
  self.forEachWrite key fun storedWriteTs write => do
    validateWriteRecord storedWriteTs write
    rejectIf (write.startTimestamp = startTs ∧ write.op ≠ .rollback)
      (.writeConflict s!"transaction starting at timestamp {startTs} is already committed")
  match self.writes.lookup key startTs with
  | some rollback =>
    rejectIf (rollback.startTimestamp ≠ startTs ∨ rollback.op ≠ .rollback) (.corruptData
      s!"write timestamp {startTs} is occupied by a non-rollback outcome")
    rejectIf ((self.locks[key]?.any fun lock => lock.startTimestamp = startTs) ∨
        (self.default.lookup key startTs).isSome)
      (.corruptData
        s!"rolled-back transaction at timestamp {startTs} retains intent state")
    return none
  | none =>
    let lockedOp ← (match self.locks[key]? with
      | some lock => do
        rejectIf (lock.txnId ≠ txnId ∨ lock.startTimestamp ≠ startTs) (lockConflict lock)
        return some lock.op
      | none => .ok none)
    -- Without a lock the row must be absent, as for a Delete lock.
    checkPayload (self.default.lookup key startTs) (lockedOp.getD .delete)
      (.corruptData s!"transaction {txnId} has a Put lock without its default value")
      (.corruptData s!"transaction {txnId} has a default value without a matching Put lock")
      (.corruptData s!"transaction {txnId} has an invalid Rollback intent lock")
    return some { key, removeDefaultValue := lockedOp = some .put }

/-- Publish a prevalidated rollback delta and its replay witness. -/
def applyIntentRollback (startTs : Timestamp) (prepared : PreparedIntentRollback) :
    InMemoryMvcc where
  default :=
    if prepared.removeDefaultValue then
      self.default.eraseVersion prepared.key startTs
    else
      self.default
  locks := self.locks.erase prepared.key
  writes := self.writes.insertVersion prepared.key startTs
    { startTimestamp := startTs, commitTimestamp := startTs, op := .rollback }

/-! ## Direct batch commit -/

/-- Validate a complete mutation set without changing MVCC state. -/
def validateCommitBatch (startTs : Timestamp) (mutations : Mutations) : Except Error Unit := do
  validateCommitPreflightMetadata txnId startTs
  mutations.toList.forM fun e => self.validateMutation e.1 e.2 startTs
  mutations.toList.forM fun e => do
    self.validateLock e.1 e.2 txnId startTs
    self.validateWriteHistory e.1 startTs

/-- One key of the infallible section of `commit_batch`. -/
def applyCommitBatchKey (startTs commitTs : Timestamp) (e : Bytes × Mutation) : InMemoryMvcc where
  default := match e.2 with
    | .put row => self.default.insertVersion e.1 startTs row
    | .delete => self.default
  writes := self.writes.insertVersion e.1 commitTs
    { startTimestamp := startTs, commitTimestamp := commitTs, op := e.2.writeKind }
  locks :=
    if self.locks[e.1]?.any fun lock => lock.txnId = txnId ∧ lock.startTimestamp = startTs then
      self.locks.erase e.1
    else
      self.locks

end InMemoryMvcc

/-! ## The operations of `MvccStorage` -/

/-- A `&mut self` method of the engine. -/
abbrev MvccM := EStateM Error InMemoryMvcc

namespace InMemoryMvcc

variable (txnId : TxnId)

def prewrite (startTs : Timestamp) (key : Bytes) (mutation : Mutation)
    (primaryKey : Bytes) (ttlMs : Nat) : MvccM Unit := do
  validateCommitPreflightMetadata txnId startTs
  validateEncodedKeyArgument primaryKey "prewrite primary key"
  rejectIf (ttlMs = 0) (Error.invalidArgument "prewrite lock TTL must be non-zero")
  let self ← get
  let prepared ← self.preparePrewrite txnId startTs key mutation primaryKey ttlMs
  publish applyPrewrite prepared

def prewriteBatch (startTs : Timestamp) (mutations : Mutations)
    (primaryKey : Bytes) (ttlMs : Nat) : MvccM Unit := do
  rejectIf mutations.isEmpty (Error.invalidArgument
    "distributed prewrite batch must contain at least one mutation")
  validateCommitPreflightMetadata txnId startTs
  validateEncodedKeyArgument primaryKey "prewrite primary key"
  rejectIf (ttlMs = 0) (Error.invalidArgument "prewrite lock TTL must be non-zero")
  let self ← get
  let prepared ← (mutations.toList.filterMapM fun e =>
    self.preparePrewrite txnId startTs e.1 e.2 primaryKey ttlMs : Except Error _)
  modify fun self => prepared.foldl applyPrewrite self

variable (startTs commitTs : Timestamp)

def commitIntent (key : Bytes) : MvccM Unit := do
  validateCommitMetadata txnId startTs commitTs
  let self ← get
  let prepared ← self.prepareIntentCommit txnId startTs commitTs key
  publish applyIntentCommit prepared

def commitIntentsBatch (keys : KeySet) : MvccM Unit := do
  rejectIf keys.isEmpty (Error.invalidArgument
    "distributed commit batch must contain at least one key")
  validateCommitMetadata txnId startTs commitTs
  let self ← get
  let prepared ← (keys.toList.filterMapM fun key =>
    self.prepareIntentCommit txnId startTs commitTs key : Except Error _)
  modify fun self => prepared.foldl applyIntentCommit self

def rollbackIntent (startTs : Timestamp) (key : Bytes) : MvccM Unit := do
  validateCommitPreflightMetadata txnId startTs
  let self ← get
  let prepared ← self.prepareIntentRollback txnId startTs key
  publish (fun self delta => self.applyIntentRollback startTs delta) prepared

def rollbackIntentsBatch (startTs : Timestamp) (keys : KeySet) : MvccM Unit := do
  rejectIf keys.isEmpty (Error.invalidArgument
    "distributed rollback batch must contain at least one key")
  validateCommitPreflightMetadata txnId startTs
  let self ← get
  let prepared ← (keys.toList.filterMapM fun key =>
    self.prepareIntentRollback txnId startTs key : Except Error _)
  modify fun self => prepared.foldl (fun self delta => self.applyIntentRollback startTs delta) self

/-- Atomically validate and commit a transaction's complete mutation set. -/
def commitBatch (mutations : Mutations) : MvccM Nat := do
  validateCommitMetadata txnId startTs commitTs
  let self ← get
  (mutations.toList.forM fun e => self.validateMutation e.1 e.2 startTs : Except Error _)
  if mutations.isEmpty then
    return 0
  else if ← self.validateBatchReplay mutations startTs commitTs then
    return mutations.size
  else
    self.validateCommitBatch txnId startTs mutations
    (mutations.toList.forM fun e => self.validateCommitTimestamp e.1 commitTs : Except Error _)
    modify fun self =>
      mutations.toList.foldl (fun self e => self.applyCommitBatchKey txnId startTs commitTs e) self
    return mutations.size

/-! ## Reads -/

variable (self : InMemoryMvcc)

/-- The newest-first walk of `read_visible_version` over a key's write records. -/
def visibleVersion (key : Bytes) : List (Timestamp × WriteRecord) → Except Error (Option Bytes)
  | [] => .ok none
  | (storedWriteTs, write) :: older => do
    validateWriteRecord storedWriteTs write
    match write.op with
    | .put =>
      let row ← okOr (self.default.lookup key write.startTimestamp) (.corruptData
        (s!"Put at write timestamp {storedWriteTs} references missing default " ++
          s!"value at start timestamp {write.startTimestamp}"))
      let _ ← decodeRow row
      return some row
    | .delete => return none
    | .rollback => visibleVersion key older

def readVisibleVersion (key : Bytes) (readTs : Timestamp) : Except Error (Option Bytes) := do
  (match self.locks[key]? with
    | some lock => rejectIf (lock.startTimestamp ≤ readTs) (lockConflict lock)
    | none => .ok ())
  match self.writes[key]? with
  | none => return none
  | some writeVersions =>
    self.visibleVersion key (writeVersions.toList.filter fun e => e.1 ≤ readTs).reverse

/-- Read the row version visible at `readTs`. -/
def read (key : Bytes) (readTs : Timestamp) : Except Error (Option Bytes) := do
  validateEncodedKeyArgument key "read key"
  self.readVisibleVersion key readTs

end InMemoryMvcc

/-! ## Operations as data -/

/-- One call of an operation that may change the store. -/
inductive MvccOp where
  | commitBatch (txnId : TxnId) (startTs commitTs : Timestamp) (mutations : Mutations)
  | prewrite (txnId : TxnId) (startTs : Timestamp) (key : Bytes) (mutation : Mutation)
      (primaryKey : Bytes) (ttlMs : Nat)
  | prewriteBatch (txnId : TxnId) (startTs : Timestamp) (mutations : Mutations)
      (primaryKey : Bytes) (ttlMs : Nat)
  | commitIntent (txnId : TxnId) (startTs commitTs : Timestamp) (key : Bytes)
  | commitIntentsBatch (txnId : TxnId) (startTs commitTs : Timestamp) (keys : KeySet)
  | rollbackIntent (txnId : TxnId) (startTs : Timestamp) (key : Bytes)
  | rollbackIntentsBatch (txnId : TxnId) (startTs : Timestamp) (keys : KeySet)

/-- The method a call runs; `commit_batch` also returns the number of mutations. -/
def MvccOp.exec : MvccOp → MvccM Unit
  | .commitBatch t s c ms => do let _ ← InMemoryMvcc.commitBatch t s c ms
  | .prewrite t s k m pk ttl => InMemoryMvcc.prewrite t s k m pk ttl
  | .prewriteBatch t s ms pk ttl => InMemoryMvcc.prewriteBatch t s ms pk ttl
  | .commitIntent t s c k => InMemoryMvcc.commitIntent t s c k
  | .commitIntentsBatch t s c ks => InMemoryMvcc.commitIntentsBatch t s c ks
  | .rollbackIntent t s k => InMemoryMvcc.rollbackIntent t s k
  | .rollbackIntentsBatch t s ks => InMemoryMvcc.rollbackIntentsBatch t s ks

end RagnorDb
