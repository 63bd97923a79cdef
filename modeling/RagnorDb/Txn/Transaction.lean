import RagnorDb.Lib.OrderedRows
import RagnorDb.Storage.Mvcc

/-!
# Transaction-local state

The write buffer of `Transaction` of `ragnordb-txn`: an ordered write set and the limits on it.
Each method checks everything before it changes the transaction, so it is given as the changed
transaction or an error.  The clock reading of a method is its argument.
-/

namespace RagnorDb

open Std Checked OrderedMap

/-- The limits of a transaction. -/
structure TransactionFootprintPolicy where
  maxAgeMs : Nat := 60000
  maxWriteBytes : Nat := 64 * 1024 * 1024
  maxWriteKeys : Nat := 100000
  maxReadSpans : Nat := 4096
  maxParticipantTablets : Nat := 256
  maxIntentAccountingBytes : Nat := 64 * 1024 * 1024
  maxParticipantCommandBytes : Nat := 1024 * 1024
  deriving DecidableEq

def TransactionFootprintPolicy.validate (self : TransactionFootprintPolicy) : Except Error Unit :=
  rejectIf (self.maxAgeMs = 0 ∨ self.maxWriteBytes = 0 ∨ self.maxWriteKeys = 0 ∨
      self.maxReadSpans = 0 ∨ self.maxParticipantTablets = 0 ∨
      self.maxIntentAccountingBytes = 0 ∨ self.maxParticipantCommandBytes = 0)
    (.invalidArgument "transaction footprint limits must all be non-zero")

def footprintLimitError (name : String) (limit actual : Nat) : Error :=
  .invalidArgument s!"transaction {name} footprint {actual} exceeds configured limit {limit}"

def checkLimit (name : String) (limit actual : Nat) : Except Error Unit :=
  rejectIf (limit < actual) (footprintLimitError name limit actual)

/-- Client-side state of one active transaction; `createdAt` is in nanoseconds. -/
structure Transaction where
  id : TxnId
  startTs : Timestamp
  createdAt : Nat
  footprintPolicy : TransactionFootprintPolicy := {}
  writes : Mutations := ∅

def intentAccountingOverheadBytes : Nat := 64

/-- The charged bytes of one mutation: its payload, and its intent. -/
def mutationFootprint (key : Bytes) (mutation : Mutation) : Nat × Nat :=
  let rowBytes := match mutation with
    | .put row => row.length
    | .delete => 0
  let payloadBytes := saturatingAdd key.length rowBytes
  (payloadBytes, saturatingAdd payloadBytes intentAccountingOverheadBytes)

def writeFootprint (writes : Mutations) : Nat × Nat :=
  writes.toList.foldl (fun (writeBytes, intentBytes) (key, mutation) =>
    let (payloadBytes, mutationIntentBytes) := mutationFootprint key mutation
    (saturatingAdd writeBytes payloadBytes, saturatingAdd intentBytes mutationIntentBytes)) (0, 0)

def validateBufferedMutation (key : Bytes) (mutation : Mutation) : Except Error Unit := do
  let _ ← (decodeRowKey key).mapError fun error => .invalidArgument
    s!"transaction mutation key is not a canonical encoded row key: {error.display}"
  match mutation with
  | .put row =>
    let _ ← (decodeRow row).mapError fun error => .invalidArgument
      s!"transaction Put does not contain a canonical encoded row: {error.display}"
    return ()
  | .delete => return ()

namespace Transaction

/-- `Transaction::new_with_policy`, at clock reading `now`. -/
def newWithPolicy (now : Nat) (id : TxnId) (startTs : Timestamp)
    (footprintPolicy : TransactionFootprintPolicy) : Except Error Transaction := do
  rejectIf (id = 0) (.invalidArgument "transaction ID 0 is reserved")
  rejectIf (startTs = 0) (.invalidArgument "transaction start timestamp 0 is reserved")
  footprintPolicy.validate
  return { id, startTs, createdAt := now, footprintPolicy }

variable (self : Transaction)

def validateAge (now : Nat) : Except Error Unit :=
  let elapsed := now - self.createdAt
  rejectIf (self.footprintPolicy.maxAgeMs * 1000000 < elapsed)
    (footprintLimitError "age milliseconds" self.footprintPolicy.maxAgeMs
      (min (elapsed / 1000000) u64Max))

variable (additions : List (Bytes × Mutation))

/-- The write bytes, keys and intent bytes if some mutations were buffered. -/
def projectedWrites : Nat × Nat × Nat :=
  let (writeBytes, intentBytes) := writeFootprint self.writes
  additions.foldl (fun (projectedBytes, projectedKeys, projectedIntentBytes) (key, mutation) =>
    let (bytes, intent) := mutationFootprint key mutation
    match self.writes[key]? with
    | some previous =>
      let (oldBytes, oldIntent) := mutationFootprint key previous
      (saturatingAdd (projectedBytes - oldBytes) bytes, projectedKeys,
        saturatingAdd (projectedIntentBytes - oldIntent) intent)
    | none =>
      (saturatingAdd projectedBytes bytes, saturatingAdd projectedKeys 1,
        saturatingAdd projectedIntentBytes intent))
    (writeBytes, self.writes.size, intentBytes)

def checkProjectedWrites (now : Nat) (additions : List (Bytes × Mutation)) : Except Error Unit := do
  self.validateAge now
  let (projectedBytes, projectedKeys, projectedIntentBytes) := self.projectedWrites additions
  checkLimit "write bytes" self.footprintPolicy.maxWriteBytes projectedBytes
  checkLimit "write keys" self.footprintPolicy.maxWriteKeys projectedKeys
  checkLimit "intent/accounting bytes" self.footprintPolicy.maxIntentAccountingBytes
    projectedIntentBytes

/-- Atomically merge one validated mutation batch into the write set. -/
def bufferBatch (now : Nat) (writes : Mutations) : Except Error Transaction := do
  writes.toList.forM fun (key, mutation) => validateBufferedMutation key mutation
  self.checkProjectedWrites now writes.toList
  return { self with
    writes := writes.toList.foldl (fun writes (key, mutation) => writes.insert key mutation)
      self.writes }

/-- Buffer one mutation, as `buffer_put` and `buffer_delete` do. -/
def bufferMutation (now : Nat) (key : Bytes) (mutation : Mutation) : Except Error Transaction := do
  validateBufferedMutation key mutation
  self.checkProjectedWrites now [(key, mutation)]
  return { self with writes := self.writes.insert key mutation }

def bufferPut (now : Nat) (key row : Bytes) : Except Error Transaction :=
  self.bufferMutation now key (.put row)

def bufferDelete (now : Nat) (key : Bytes) : Except Error Transaction :=
  self.bufferMutation now key .delete

/-- A call that buffers mutations, with its clock reading. -/
inductive Call where
  | put (now : Nat) (key row : Bytes)
  | delete (now : Nat) (key : Bytes)
  | batch (now : Nat) (writes : Mutations)

def Call.mutations : Call → List (Bytes × Mutation)
  | .put _ key row => [(key, .put row)]
  | .delete _ key => [(key, .delete)]
  | .batch _ writes => writes.toList

def call : Call → Except Error Transaction
  | .put now key row => self.bufferPut now key row
  | .delete now key => self.bufferDelete now key
  | .batch now writes => self.bufferBatch now writes

/-- The transaction after a call; a refused call leaves it as it is. -/
def after (next : Call) : Transaction :=
  (self.call next).toOption.getD self

/-! ## What the accounting counts -/

def overwritten : Mutations :=
  additions.foldl (fun writes (key, mutation) => writes.insert key mutation) self.writes

/-- The bytes, keys and intent bytes of a write set. -/
def counts (writes : Mutations) : Nat × Nat × Nat :=
  ((writeFootprint writes).1, writes.size, (writeFootprint writes).2)

/-- While the additions are buffered no count reaches the end of the machine's integers, as they
are all in memory. -/
def Fits : Prop :=
  ∀ init, init <+: additions → (counts (self.overwritten init)).1 < u64Max ∧
    (counts (self.overwritten init)).2.1 < u64Max ∧ (counts (self.overwritten init)).2.2 < u64Max

variable {additions}

variable {self} {writes rest : Mutations} {mutation : Mutation}
  {additions : List (Bytes × Mutation)} {key : Bytes}

/-- One mutation is charged on top of the rest. -/
theorem writeFootprint_eq (h : writes[key]? = some mutation) (hkey : rest[key]? = none)
    (hrest : ∀ other, key ≠ other → writes[other]? = rest[other]?) : writeFootprint writes =
      (saturatingAdd (writeFootprint rest).1 (mutationFootprint key mutation).1,
        saturatingAdd (writeFootprint rest).2 (mutationFootprint key mutation).2) := by
  unfold writeFootprint
  rw [List.Perm.foldl_eq' (toList_perm h hkey hrest), List.foldl_append]
  · rfl
  · intro e _ e' _ acc
    simp only [saturatingAdd, Prod.mk.injEq]
    omega

theorem getElem?_overwritten (self : Transaction) (hnodup : (additions.map Prod.fst).Nodup)
    (key : Bytes) :
    (∀ mutation, (key, mutation) ∈ additions → (self.overwritten additions)[key]? = some mutation) ∧
      (key ∉ additions.map Prod.fst → (self.overwritten additions)[key]? = self.writes[key]?) := by
  rw [overwritten, ← ExtTreeMap.insertMany_list_eq_foldl]
  constructor
  · intro mutation hmem
    refine ExtTreeMap.getElem?_insertMany_list_of_mem ReflCmp.compare_self ?_ hmem
    rw [List.Nodup, List.pairwise_map] at hnodup
    exact hnodup.imp fun hne heq => hne (LawfulEqCmp.eq_of_compare heq)
  · intro hnot
    exact ExtTreeMap.getElem?_insertMany_list_of_contains_eq_false (by simpa using hnot)

/-- The projection counts the write set that the additions leave. -/
theorem projectedWrites_eq (hfits : self.Fits additions) (hnodup : (additions.map Prod.fst).Nodup) :
    self.projectedWrites additions = counts (self.overwritten additions) := by
  induction additions using List.reverseRecOn with
  | nil => rfl
  | append_singleton init e ih =>
    obtain ⟨key, mutation⟩ := e
    rw [List.map_append, List.nodup_append] at hnodup
    have hinit := ih (fun l hl => hfits l (hl.trans (List.prefix_append ..))) hnodup.1
    have hfresh := (getElem?_overwritten self hnodup.1 key).2 fun hmem =>
      hnodup.2.2 key hmem key (by simp) rfl
    obtain ⟨hbytes, hkeys, hintents⟩ := hfits init (List.prefix_append ..)
    have hlast : self.overwritten (init ++ [(key, mutation)]) =
        (self.overwritten init).insert key mutation := by
      simp [overwritten]
    unfold projectedWrites at hinit ⊢
    simp only [List.foldl_append, hinit, List.foldl_cons, List.foldl_nil, ← hfresh, hlast, counts,
      ExtTreeMap.size_insert, ExtTreeMap.contains_eq_isSome_getElem?] at hbytes hkeys hintents ⊢
    cases hold : (self.overwritten init)[key]? with
    | none =>
      rw [writeFootprint_eq ExtTreeMap.getElem?_insert_self hold fun other hne => by
        simp [ExtTreeMap.getElem?_insert, hne]]
      simp [saturatingAdd, Nat.succ_le_of_lt hkeys]
    | some =>
      have herase := ExtTreeMap.getElem?_erase_self (t := self.overwritten init) (k := key)
      rw [writeFootprint_eq ExtTreeMap.getElem?_insert_self herase fun other hne => by
        simp [ExtTreeMap.getElem?_insert, ExtTreeMap.getElem?_erase, hne]]
      rw [writeFootprint_eq hold herase fun other hne => by
        simp [ExtTreeMap.getElem?_erase, hne]] at hbytes hintents ⊢
      simp only [saturatingAdd, Option.isSome_some, if_true, true_and,
        Prod.mk.injEq] at hbytes hintents ⊢
      omega

theorem Call.nodup_mutations : (next : Call) → (next.mutations.map Prod.fst).Nodup
  | .put .. | .delete .. => List.nodup_singleton _
  | .batch _ writes => nodup_keys writes

theorem call_eq_ok {next : Call} {transaction : Transaction}
    (h : self.call next = .ok transaction) :
    transaction = { self with writes := self.overwritten next.mutations } ∧
      ∃ now, self.checkProjectedWrites now next.mutations = .ok () := by
  cases next <;>
    simp only [call, bufferPut, bufferDelete, bufferMutation, bufferBatch, eq_ok] at h <;>
    obtain ⟨_, -, ⟨⟩, hchecked, rfl⟩ := h <;> exact ⟨rfl, _, hchecked⟩

/-- The write set is within the limits. -/
def Within (self : Transaction) : Prop :=
  (counts self.writes).1 ≤ self.footprintPolicy.maxWriteBytes ∧
    (counts self.writes).2.1 ≤ self.footprintPolicy.maxWriteKeys ∧
    (counts self.writes).2.2 ≤ self.footprintPolicy.maxIntentAccountingBytes

/-- Each of the calls fits the transaction it is made on. -/
def FitAll : Transaction → List Call → Prop
  | _, [] => True
  | self, next :: calls => self.Fits next.mutations ∧ FitAll (self.after next) calls

theorem Within.after {next : Call} (h : self.Within) (hfits : self.Fits next.mutations) :
    (self.after next).Within := by
  unfold Transaction.after
  cases hcall : self.call next with
  | error => exact h
  | ok =>
    obtain ⟨rfl, now, hchecked⟩ := call_eq_ok hcall
    simp only [checkProjectedWrites, projectedWrites_eq hfits next.nodup_mutations, checkLimit,
      eq_ok', Nat.not_lt] at hchecked
    obtain ⟨_, -, hlimits⟩ := hchecked
    exact hlimits

theorem Within.afterAll {calls : List Call} (h : self.Within) (hfits : self.FitAll calls) :
    (calls.foldl Transaction.after self).Within := by
  induction calls generalizing self with
  | nil => exact h
  | cons next calls ih => exact ih (h.after hfits.1) hfits.2

/-- A buffering call applies all of its mutations or leaves the transaction as it is; it is admitted
by the counts of the write set it leaves; and the write set of a transaction stays within the
limits. -/
theorem write_buffer_accounts_exactly :
    (∀ (self : Transaction) (next : Call),
      (∃ error, self.call next = .error error ∧ self.after next = self) ∨
        ∃ writes : Mutations, self.call next = .ok { self with writes } ∧
          (∀ e ∈ next.mutations, writes[e.1]? = some e.2) ∧
          ∀ key ∉ next.mutations.map Prod.fst, writes[key]? = self.writes[key]?) ∧
    (∀ (self : Transaction) (next : Call), self.Fits next.mutations →
      self.projectedWrites next.mutations = counts (self.overwritten next.mutations)) ∧
    ∀ now id startTs policy transaction calls,
      newWithPolicy now id startTs policy = .ok transaction →
      transaction.FitAll calls → (calls.foldl after transaction).Within := by
  refine ⟨fun self next => ?_,
    fun self next hfits => projectedWrites_eq hfits next.nodup_mutations, ?_⟩
  · cases hcall : self.call next with
    | error error => exact .inl ⟨error, rfl, by rw [after, hcall]; rfl⟩
    | ok =>
      have hlookup := getElem?_overwritten self next.nodup_mutations
      obtain ⟨rfl, -⟩ := call_eq_ok hcall
      exact .inr ⟨_, rfl, fun e he => (hlookup e.1).1 e.2 he, fun key => (hlookup key).2⟩
  · intro now id startTs policy transaction calls hnew hfits
    simp only [newWithPolicy, eq_ok'] at hnew
    obtain ⟨-, -, _, -, rfl⟩ := hnew
    exact Within.afterAll ⟨Nat.zero_le _, Nat.zero_le _, Nat.zero_le _⟩ hfits

/-- A transaction of at most one key: the second call is refused, the third overwrites. -/
theorem write_buffer_accounts_exactly_sample :
    let key : Bytes := [1, 0, 0, 0, 0, 0, 0, 0, 1, 0x30, 0]
    let calls : List Call := [.put 0 key [1, 0, 0, 0, 0],
      .delete 0 [1, 0, 0, 0, 0, 0, 0, 0, 1, 0x30, 1], .batch 0 ((∅ : Mutations).insert key .delete)]
    ∃ transaction, newWithPolicy 0 1 1 { maxWriteKeys := 1 } = .ok transaction ∧
      (calls.foldl after transaction).writes.toList = [(key, .delete)] ∧
      (calls.foldl after transaction).Within := by
  intro key calls
  refine ⟨_, rfl, by decide +kernel,
    write_buffer_accounts_exactly.2.2 0 1 1 { maxWriteKeys := 1 } _ _ rfl ?_⟩
  simp only [calls, FitAll, Fits, ← List.mem_inits]
  decide +kernel

end Transaction

end RagnorDb
