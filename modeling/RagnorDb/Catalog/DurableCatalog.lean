import RagnorDb.Catalog.Schema
import RagnorDb.Common.Command
import RagnorDb.Lib.IndexedMap

/-!
# The durable catalog

The catalog in memory (`ragnordb-catalog/src/lib.rs`) and its durable writer
(`ragnordb-catalog/src/durable.rs`): a table is validated, appended to the durable log and only
then published.  A run makes creates and replicated installs in any order, over a log that answers
as it likes.  What is durable is read off the answers of the log and of the installs.
-/

namespace RagnorDb

open Std Checked OrderedMap

/-- The schemas by name and identifier.  No identifier at or above the next one is taken. -/
structure MemoryCatalog where
  tableIdsByName : ExtTreeMap String TableId compare
  tablesById : ExtTreeMap TableId TableSchema compare
  /-- `none` once the identifiers are exhausted. -/
  nextTableId : Option Nat
  bounded : ∀ next ∈ nextTableId, ∀ id : Nat, id ∈ tablesById → id < next

namespace MemoryCatalog

variable {self next : MemoryCatalog} {schema published : TableSchema}
  {definition : TableDefinition} {definitions : List TableDefinition}

def new : MemoryCatalog := ⟨∅, ∅, some 1, by simp⟩

/-- Construct and validate the next local table without publishing it. -/
def prepareTable (self : MemoryCatalog) (name : String) (columns : List ColumnSchema)
    (primaryKeyColumnIds : List ColumnId) : Except Error TableSchema := do
  rejectIf (name ∈ self.tableIdsByName)
    (Error.constraintViolation s!"table already exists: {name}")
  let id ← okOr self.nextTableId (Error.constraintViolation "table ID space has been exhausted")
  let schema : TableSchema := ⟨id, name, columns, primaryKeyColumnIds, 1, 1⟩
  validateTableSchema schema
  return schema

/-- The catalog with a table under a free name and identifier. -/
def insert (self : MemoryCatalog) (schema : TableSchema) : MemoryCatalog where
  tableIdsByName := self.tableIdsByName.insert schema.name schema.id
  tablesById := self.tablesById.insert schema.id schema
  nextTableId := do return max (← self.nextTableId) (← checkedAdd schema.id 1)
  bounded := by
    intro next hnext id hid
    simp only [Option.bind_eq_bind, Option.mem_def, eq_some] at hnext
    obtain ⟨current, hcurrent, candidate, hcandidate, hmax⟩ := hnext
    have hcandidate : candidate = schema.id + 1 := eq_of_checkedAdd hcandidate
    have hmax : max current candidate = next := Option.some.inj hmax
    rcases ExtTreeMap.mem_insert.mp hid with heq | hid
    · have heq : id = schema.id := (Nat.compare_eq_eq.mp heq).symm
      omega
    · have hlt := self.bounded current hcurrent id hid
      omega

/-- Install a fully assigned schema.  Reinstalling an identical one changes nothing. -/
def installTable (self : MemoryCatalog) (schema : TableSchema) :
    Except Error (TableSchema × MemoryCatalog) := do
  validateTableSchema schema
  match self.tablesById[schema.id]?, self.tableIdsByName[schema.name]? with
  | some existing, _ =>
    rejectIf (existing ≠ schema) (Error.constraintViolation
      s!"table ID {schema.id} is already assigned to table {existing.name}")
    return (existing, self)
  | none, some existingId => throw (Error.constraintViolation
      s!"table name {schema.name} is already assigned to table ID {existingId}")
  | none, none => return (schema, self.insert schema)

def installDefinition (self : MemoryCatalog) (definition : TableDefinition) :
    Except Error (TableSchema × MemoryCatalog) := do
  self.installTable (← TableSchema.fromDefinition definition)

/-- Publish the exact schema previously returned by `prepareTable`. -/
def publishPreparedTable (self : MemoryCatalog) (schema : TableSchema) :
    Except Error (TableSchema × MemoryCatalog) := do
  let expectedTableId ← okOr self.nextTableId (Error.corruptData
    "catalog table-ID allocator was exhausted between validation and publication")
  rejectIf (schema.id ≠ expectedTableId) (Error.corruptData
    (s!"prepared table ID {schema.id} does not match the next publishable table ID " ++
      s!"{expectedTableId}"))
  rejectIf (schema.name ∈ self.tableIdsByName ∨ schema.id ∈ self.tablesById) (Error.corruptData
    s!"prepared table {schema.name} became occupied before publication")
  self.installTable schema

/-- Install definitions, oldest first. -/
def replay (self : MemoryCatalog) (definitions : List TableDefinition) :
    Except Error MemoryCatalog :=
  definitions.foldlM (fun catalog definition => Prod.snd <$> catalog.installDefinition definition)
    self

/-- A table is never replaced. -/
theorem sub_of_installDefinition (h : self.installDefinition definition = .ok (published, next)) :
    Sub self.tablesById next.tablesById := by
  simp only [installDefinition, installTable, bind_eq_ok] at h
  obtain ⟨schema, -, _, -, h⟩ := h
  split at h
  · simp only [eq_ok'] at h
    cases h.2
    exact fun _ _ => id
  · cases h
  · next hfree _ =>
    cases h
    exact Sub.insert_new hfree _

/-- What is installed is in the catalog. -/
theorem getElem?_of_installDefinition
    (h : self.installDefinition definition = .ok (published, next)) :
    next.tablesById[published.id]? = some published := by
  simp only [installDefinition, installTable, bind_eq_ok] at h
  obtain ⟨schema, -, _, -, h⟩ := h
  split at h
  · next hexisting =>
    simp only [eq_ok'] at h
    obtain ⟨rfl, h⟩ := h
    cases h
    exact hexisting
  · cases h
  · cases h
    simp [insert]

theorem installTable_of_free (hvalid : validateTableSchema schema = .ok ())
    (hid : schema.id ∉ self.tablesById) (hname : schema.name ∉ self.tableIdsByName) :
    self.installTable schema = .ok (schema, self.insert schema) := by
  simp only [installTable, hvalid, ExtTreeMap.getElem?_eq_none hid,
    ExtTreeMap.getElem?_eq_none hname]
  rfl

/-- Publication cannot fail after preparation: the catalog did not change in between. -/
theorem publish_of_prepareTable {name : String} {columns : List ColumnSchema}
    {primaryKeyColumnIds : List ColumnId}
    (h : self.prepareTable name columns primaryKeyColumnIds = .ok schema) :
    ∃ next, self.publishPreparedTable schema = .ok (schema, next) ∧
      self.installDefinition schema.toDefinition = .ok (schema, next) := by
  simp only [prepareTable, eq_ok'] at h
  obtain ⟨hname, id, hid, ⟨⟩, hvalid, rfl⟩ := h
  have hfree : id ∉ self.tablesById := fun hmem => Nat.lt_irrefl id (self.bounded id hid id hmem)
  have hinstall := installTable_of_free hvalid hfree hname
  refine ⟨_, ?_, bind_eq_ok.mpr ⟨_, TableSchema.fromDefinition_eq_ok.mpr ⟨rfl, hvalid⟩, hinstall⟩⟩
  simp [publishPreparedTable, hid, hname, hfree, hinstall]

end MemoryCatalog

structure CatalogLogExtent where
  startLsn : Nat
  endLsn : Nat

/-- Semantic catalog record supplied to the storage adapter. -/
structure CatalogLogRecord where
  tableId : TableId
  updateTimestamp : Timestamp
  command : CatalogCommand

structure CatalogCreateOutcome where
  schema : TableSchema
  updateTimestamp : Timestamp
  walExtent : CatalogLogExtent

def CatalogLogRecord.definition (self : CatalogLogRecord) : TableDefinition :=
  match self.command.operation with
  | .createTable operation => operation.tableDef

/-- A durable log: what it answers to its next append, and the appends so far with the answers. -/
structure CatalogLog where
  answers : Nat → CatalogLogRecord → Except Error CatalogLogExtent
  appends : List (CatalogLogRecord × Except Error CatalogLogExtent) := []

namespace CatalogLog

def answer (self : CatalogLog) (update : CatalogLogRecord) : Except Error CatalogLogExtent :=
  self.answers self.appends.length update

def appendCatalogUpdate (self : CatalogLog) (update : CatalogLogRecord) : CatalogLog :=
  { self with appends := self.appends ++ [(update, self.answer update)] }

/-- The definitions that the log has taken since its first `count` appends. -/
def takenSince (self : CatalogLog) (count : Nat) : List TableDefinition :=
  (self.appends.drop count).filterMap fun append => append.2.toOption.map fun _ =>
    append.1.definition

def EndedUnknown (self : CatalogLog) : Prop :=
  ∃ update startLsn endLsn reason,
    (update, .error (.catalogOutcomeUnknown startLsn endLsn reason)) ∈ self.appends

variable {self : CatalogLog} {update : CatalogLogRecord}

@[simp] theorem takenSince_self : self.takenSince self.appends.length = [] := by
  simp [takenSince]

theorem takenSince_append : (self.appendCatalogUpdate update).takenSince self.appends.length =
    (self.answer update).toOption.toList.map fun _ => update.definition := by
  cases h : self.answer update <;> simp [takenSince, appendCatalogUpdate, h, Except.toOption]

theorem endedUnknown_append : (self.appendCatalogUpdate update).EndedUnknown ↔
    self.EndedUnknown ∨ ∃ startLsn endLsn reason,
      self.answer update = .error (.catalogOutcomeUnknown startLsn endLsn reason) := by
  simp only [EndedUnknown, appendCatalogUpdate, List.mem_append, List.mem_singleton, Prod.mk.injEq,
    exists_or, exists_and_left, exists_eq_left]
  simp only [eq_comm]

end CatalogLog

/-- The arguments of one `create_table`. -/
structure CreateTable where
  name : String
  columns : List ColumnSchema
  primaryKeyColumnIds : List ColumnId
  allocateTimestamp : Except Error Timestamp

/-- Serialized single-node catalog writer. -/
structure DurableCatalog where
  catalog : MemoryCatalog
  durableLog : CatalogLog
  recoveryRequiredReason : Option String

namespace DurableCatalog

def fromRecovered (catalog : MemoryCatalog) (durableLog : CatalogLog) : DurableCatalog :=
  ⟨catalog, durableLog, none⟩

def ensureWritePathAvailable (self : DurableCatalog) : Except Error Unit :=
  match self.recoveryRequiredReason with
  | some reason => .error (.recoveryRequired reason)
  | none => .ok ()

/-- The first reason stays. -/
def stopForRecovery {α : Type} (reason : String) : EStateM Error DurableCatalog α := fun self =>
  let reason := self.recoveryRequiredReason.getD reason
  .error (.recoveryRequired reason) { self with recoveryRequiredReason := some reason }

/-- Install a definition that is already authoritative in Raft. -/
def installReplicatedDefinition (definition : TableDefinition) :
    EStateM Error DurableCatalog TableSchema := do
  let self ← get
  self.ensureWritePathAvailable
  let (schema, catalog) ← self.catalog.installDefinition definition
  set { self with catalog }
  return schema

/-- An append with an unknown outcome demands recovery. -/
def noteFailure (self : DurableCatalog) (error : Error) : DurableCatalog :=
  match error with
  | .catalogOutcomeUnknown .. =>
    { self with
      recoveryRequiredReason := some (self.recoveryRequiredReason.getD error.display) }
  | _ => self

def append (record : CatalogLogRecord) : EStateM Error DurableCatalog CatalogLogExtent :=
    fun self =>
  let appended := { self with durableLog := self.durableLog.appendCatalogUpdate record }
  match self.durableLog.answer record with
  | .ok extent => .ok extent appended
  | .error error => .error error (appended.noteFailure error)

/-- Publish a durable table; a failure stops the write path. -/
def publishDurable (record : CatalogLogRecord) (prepared : TableSchema) :
    EStateM Error DurableCatalog TableSchema := fun self =>
  match self.catalog.publishPreparedTable prepared with
  | .ok (schema, catalog) => .ok schema { self with catalog }
  | .error source => (stopForRecovery
      (s!"durable catalog update for table {record.tableId} at timestamp " ++
        s!"{record.updateTimestamp} failed during publication: {source.display}")).run self

/-- Validate, durably append, and publish one local table definition. -/
def createTable (call : CreateTable) : EStateM Error DurableCatalog CatalogCreateOutcome := do
  let self ← get
  self.ensureWritePathAvailable
  let prepared ← self.catalog.prepareTable call.name call.columns call.primaryKeyColumnIds
  let updateTimestamp ← call.allocateTimestamp
  rejectIf (updateTimestamp = 0)
    (Error.configuration "catalog timestamp allocator returned reserved timestamp 0")
  let record := ⟨prepared.id, updateTimestamp, ⟨.createTable ⟨prepared.toDefinition⟩⟩⟩
  let walExtent ← append record
  let schema ← publishDurable record prepared
  return ⟨schema, updateTimestamp, walExtent⟩

/-! ## What a create does -/

/-- A create that returns has its record in the log and its table in the catalog. -/
structure Created (writer : DurableCatalog) (outcome : CatalogCreateOutcome)
    (next : DurableCatalog) (record : CatalogLogRecord) : Prop where
  appended : writer.durableLog.answer record = .ok outcome.walExtent
  log : next.durableLog = writer.durableLog.appendCatalogUpdate record
  installed : writer.catalog.installDefinition record.definition =
    .ok (outcome.schema, next.catalog)
  reason : next.recoveryRequiredReason = writer.recoveryRequiredReason

/-- A create that fails was refused, or its append failed. -/
def Failed (self next : DurableCatalog) : Prop :=
  next = self ∨ ∃ record error, self.durableLog.answer record = .error error ∧
    next = { self with durableLog := self.durableLog.appendCatalogUpdate record }.noteFailure error

variable {self : DurableCatalog} {error : Error}

@[simp] theorem noteFailure_catalog : (self.noteFailure error).catalog = self.catalog := by
  unfold noteFailure
  split <;> rfl

@[simp] theorem noteFailure_durableLog : (self.noteFailure error).durableLog = self.durableLog := by
  unfold noteFailure
  split <;> rfl

theorem ends_createTable (self : DurableCatalog) (call : CreateTable) :
    Ends (fun outcome next => ∃ record, Created self outcome next record) (Failed self)
      ((createTable call).run self) := by
  have hrefused : Failed self self := .inl rfl
  refine .lift_bind hrefused fun _ _ => .lift_bind hrefused fun prepared hprepared =>
    .lift_bind hrefused fun updateTimestamp _ => .lift_bind hrefused fun _ _ => ?_
  obtain ⟨next, hpublish, hinstall⟩ := MemoryCatalog.publish_of_prepareTable hprepared
  cases hanswer : self.durableLog.answer
    ⟨prepared.id, updateTimestamp, ⟨.createTable ⟨prepared.toDefinition⟩⟩⟩ with
  | ok extent =>
    simp only [append, publishDurable, EStateM.run, EStateM.bind, bind, hanswer, hpublish]
    exact ⟨_, hanswer, rfl, hinstall, rfl⟩
  | error error =>
    simp only [append, EStateM.run, EStateM.bind, bind, hanswer]
    exact .inr ⟨_, error, hanswer, rfl⟩

theorem ends_installReplicatedDefinition (self : DurableCatalog) (definition : TableDefinition) :
    Ends (fun schema next => self.catalog.installDefinition definition =
        .ok (schema, next.catalog) ∧ next = { self with catalog := next.catalog }) (· = self)
      ((installReplicatedDefinition definition).run self) :=
  .lift_bind rfl fun _ _ => .lift_bind rfl fun _ hinstall => ⟨hinstall, rfl⟩

theorem Failed.catalog {next : DurableCatalog} (h : Failed self next) :
    next.catalog = self.catalog := by
  rcases h with rfl | ⟨record, error, _, rfl⟩
  · rfl
  · exact noteFailure_catalog

end DurableCatalog

/-! ## Runs -/

inductive CatalogCall where
  | createTable (call : CreateTable)
  | installReplicatedDefinition (definition : TableDefinition)

/-- A catalog writer and the definitions that became durable so far, oldest first: those whose
append the log answered with an extent, and those whose install was answered with a schema. -/
structure CatalogRun where
  writer : DurableCatalog
  durable : List TableDefinition

namespace CatalogRun

open DurableCatalog

def start (catalog : MemoryCatalog) (durableLog : CatalogLog) : CatalogRun :=
  ⟨fromRecovered catalog durableLog, []⟩

def exec (self : CatalogRun) : CatalogCall → CatalogRun
  | .createTable call =>
    let next := after (createTable call) self.writer
    ⟨next, self.durable ++ next.durableLog.takenSince self.writer.durableLog.appends.length⟩
  | .installReplicatedDefinition definition =>
    let install := installReplicatedDefinition definition
    ⟨after install self.writer,
      self.durable ++ ((answer install self.writer).toOption.toList.map fun _ => definition)⟩

/-- The catalog is the replay of what is durable, and an unknown append demanded recovery. -/
structure Inv (catalog : MemoryCatalog) (run : CatalogRun) : Prop where
  replayed : catalog.replay run.durable = .ok run.writer.catalog
  stopped : run.writer.recoveryRequiredReason = none → ¬ run.writer.durableLog.EndedUnknown

variable {catalog : MemoryCatalog} {run : CatalogRun} {next : DurableCatalog}
  {definition : TableDefinition} {published : TableSchema}

/-- The invariant holds next, and no table is lost. -/
def Kept (catalog : MemoryCatalog) (run next : CatalogRun) : Prop :=
  Inv catalog next ∧ Sub run.writer.catalog.tablesById next.writer.catalog.tablesById

theorem Inv.publish (h : Inv catalog run)
    (hinstall : run.writer.catalog.installDefinition definition = .ok (published, next.catalog))
    (hstopped : next.recoveryRequiredReason = none → ¬ next.durableLog.EndedUnknown) :
    Kept catalog run ⟨next, run.durable ++ [definition]⟩ := by
  refine ⟨⟨?_, hstopped⟩, MemoryCatalog.sub_of_installDefinition hinstall⟩
  rw [MemoryCatalog.replay, List.foldlM_append]
  exact bind_eq_ok.mpr ⟨_, h.replayed, by simp [hinstall]⟩

theorem Inv.created {record : CatalogLogRecord} {outcome : CatalogCreateOutcome}
    (h : Inv catalog run) (hcreated : Created run.writer outcome next record) :
    Kept catalog run
      ⟨next, run.durable ++ next.durableLog.takenSince run.writer.durableLog.appends.length⟩ := by
  rw [hcreated.log, CatalogLog.takenSince_append, hcreated.appended]
  refine h.publish hcreated.installed fun hnone => ?_
  rw [hcreated.log, CatalogLog.endedUnknown_append, hcreated.appended]
  simpa using h.stopped (hcreated.reason.symm.trans hnone)

/-- A failed create leaves the catalog, and the log has taken nothing. -/
theorem Inv.failed (h : Inv catalog run) (hfailed : Failed run.writer next) :
    Kept catalog run
      ⟨next, run.durable ++ next.durableLog.takenSince run.writer.durableLog.appends.length⟩ := by
  have hsub : Sub run.writer.catalog.tablesById next.catalog.tablesById :=
    hfailed.catalog ▸ fun _ _ => id
  rcases hfailed with rfl | ⟨record, error, hanswer, rfl⟩
  · refine ⟨⟨?_, h.stopped⟩, hsub⟩
    simpa using h.replayed
  · refine ⟨⟨?_, fun hnone hunknown => ?_⟩, hsub⟩
    · rw [noteFailure_durableLog, noteFailure_catalog, CatalogLog.takenSince_append, hanswer]
      simpa [Except.toOption] using h.replayed
    · rw [noteFailure_durableLog, CatalogLog.endedUnknown_append, hanswer] at hunknown
      cases error with
      | catalogOutcomeUnknown => cases hnone
      | _ => simp [h.stopped hnone] at hunknown

theorem Inv.exec (h : Inv catalog run) (call : CatalogCall) : Kept catalog run (run.exec call) := by
  cases call with
  | createTable call =>
    have hends := ends_createTable run.writer call
    cases hrun : (createTable call).run run.writer with
    | ok outcome next =>
      rw [hrun] at hends
      obtain ⟨record, hcreated⟩ := hends
      simpa only [CatalogRun.exec, after_of_ok hrun] using h.created hcreated
    | error error next =>
      rw [hrun] at hends
      simpa only [CatalogRun.exec, after_of_error hrun] using h.failed hends
  | installReplicatedDefinition definition =>
    have hends := ends_installReplicatedDefinition run.writer definition
    cases hrun : (DurableCatalog.installReplicatedDefinition definition).run run.writer with
    | ok schema next =>
      rw [hrun] at hends
      obtain ⟨hinstall, hnext⟩ := hends
      simp only [CatalogRun.exec, after_of_ok hrun, answer, hrun]
      refine h.publish hinstall fun hnone => ?_
      rw [hnext] at hnone ⊢
      exact h.stopped hnone
    | error error next =>
      rw [hrun] at hends
      cases hends
      simp only [CatalogRun.exec, after_of_error hrun, answer, hrun]
      exact ⟨⟨by simpa [Except.toOption] using h.replayed, h.stopped⟩, fun _ _ => id⟩

/-- A run keeps what every call keeps. -/
theorem Inv.foldl (h : Inv catalog run) (calls : List CatalogCall) :
    Kept catalog run (calls.foldl CatalogRun.exec run) := by
  induction calls generalizing run with
  | nil => exact ⟨h, fun _ _ => id⟩
  | cons call calls ih =>
    obtain ⟨hnext, hkept⟩ := h.exec call
    obtain ⟨hinv, hsub⟩ := ih hnext
    exact ⟨hinv, fun id schema htable => hsub id schema (hkept id schema htable)⟩

/-- In every run the published catalog is the replay of what became durable, a create that returns
has published its table, and an identifier names one table for good.  After an unknown append every
create is refused, and a failed create changes nothing that is published. -/
theorem catalog_durable_before_visible (catalog : MemoryCatalog)
    (answers : Nat → CatalogLogRecord → Except Error CatalogLogExtent) (calls : List CatalogCall) :
    let run := calls.foldl exec (start catalog ⟨answers, []⟩)
    catalog.replay run.durable = .ok run.writer.catalog ∧
      (run.writer.durableLog.EndedUnknown → ∀ call, ∃ reason,
        (createTable call).run run.writer = .error (.recoveryRequired reason) run.writer) ∧
      (∀ call e next, (createTable call).run run.writer = .error e next →
        next.catalog = run.writer.catalog) ∧
      (∀ call outcome next, (createTable call).run run.writer = .ok outcome next →
        next.catalog.tablesById[outcome.schema.id]? = some outcome.schema) ∧
      ∀ later : List CatalogCall, Sub run.writer.catalog.tablesById
        (later.foldl exec run).writer.catalog.tablesById := by
  intro run
  have hstart : Inv catalog (start catalog ⟨answers, []⟩) :=
    ⟨rfl, fun _ => by simp [start, fromRecovered, CatalogLog.EndedUnknown]⟩
  have hrun : Inv catalog run := (hstart.foldl calls).1
  refine ⟨hrun.replayed, fun hunknown call => ?_, fun call e next hcreate => ?_,
    fun call outcome next hcreate => ?_, fun later => (hrun.foldl later).2⟩
  · cases hreason : run.writer.recoveryRequiredReason with
    | none => exact absurd hunknown (hrun.stopped hreason)
    | some reason =>
      exact ⟨reason, lift_bind_run_of_error (by rw [ensureWritePathAvailable, hreason])⟩
  · have hends := ends_createTable run.writer call
    rw [hcreate] at hends
    exact hends.catalog
  · have hends := ends_createTable run.writer call
    rw [hcreate] at hends
    obtain ⟨record, hcreated⟩ := hends
    exact MemoryCatalog.getElem?_of_installDefinition hcreated.installed

end CatalogRun

end RagnorDb
