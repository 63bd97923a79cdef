import RagnorDb.Common.ScanRpc
import RagnorDb.Exec.Executor
import RagnorDb.Tablet.ScanSpan

/-!
# Distributed scans

`distributed_scan_rows` of `ragnordb-exec`.  The scan works off fragments of the table, one page at
a time.  When an owner answers that the epoch of a route is stale, the fragment is replaced by the
current routes of its span, resumed behind the last key that was delivered.  What the gateway and
the request context answer is the environment of a run, given by the number of the call.
-/

namespace RagnorDb

open Std Checked OrderedMap

structure TabletScanRoute where
  route : TabletRoute
  span : ScanSpan
  deriving DecidableEq

/-- A fragment that still has to be read, behind the last key that was delivered. -/
structure PendingScanFragment where
  route : TabletScanRoute
  resumeAfter : Option Bytes
  topologyRefreshes : Nat
  deriving DecidableEq

def maxScanTopologyRefreshes : Nat := 3
def maxForegroundScanIntentResolutions : Nat := 256

/-- The gateway, as far as scans use it. -/
structure ScanGateway where
  lookupScanRoutes : Nat → TableId → ScanSpan → Except Error (List TabletScanRoute)
  scanPage : Nat → TabletRoute → RequestId → ScanSpan → Option Bytes → Timestamp → Nat → Nat →
    Except Error TabletScanBatch
  /-- How `resolve_foreground_intent` ends for a blocking lock. -/
  resolveForegroundIntent : Nat → RowKey → Bytes → LockRecord → Except Error Unit
  /-- The length of a lock on the wire. -/
  lockLen : LockRecord → Nat

/-- The request context of a scan. -/
structure ScanContext where
  checkActive : Nat → Except Error Unit
  nextReadRequestId : Nat → RaftGroupId → Except Error RequestId
  remainingTimeout : Nat → Except Error Unit

def Error.isStaleTabletEpoch : Error → Bool
  | .staleTabletEpoch .. => true
  | _ => false

/-- Failures of one tablet; transaction conflicts keep their own meaning. -/
def scanFailure (tabletId : TabletId) (error : Error) : Error :=
  match error with
  | .distributedScanFailed .. | .writeConflict _ => error
  | _ => .distributedScanFailed tabletId (error.retryAction = .retrySameRequest) error.display

/-! ## Route covers -/

/-- One iteration of the loop that checks the routes of a cover one by one. -/
def collectScanRoute (tabletIds : ExtTreeSet TabletId compare) (route : TabletScanRoute) :
    Except Error (ExtTreeSet TabletId compare) := do
  route.route.validate.mapError fun error => .corruptData error.display
  route.span.validate
  rejectIf (route.route.tabletId ∈ tabletIds) (.corruptData
    s!"metadata returned tablet {route.route.tabletId} more than once for one scan span")
  return tabletIds.insert route.route.tabletId

/-- The loop over adjacent routes; it returns where the last one ends. -/
def followScanRoutes : Option Bytes → List TabletScanRoute → Except Error (Option Bytes)
  | nextStart, [] => .ok nextStart
  | nextStart, route :: routes => do
    rejectIf (route.span.startKey ≠ nextStart)
      (.corruptData "metadata scan routes contain a gap, overlap, or are out of order")
    rejectIf (route.span.endKey = none ∧ routes ≠ [])
      (.corruptData "an unbounded scan fragment was followed by another route")
    followScanRoutes route.span.endKey routes

def validateScanRouteCover (span : ScanSpan) (routes : List TabletScanRoute) :
    Except Error Unit := do
  rejectIf (routes = [])
    (.corruptData "metadata returned no owners for a non-empty logical scan span")
  let _ ← routes.foldlM collectScanRoute ∅
  if ∀ route ∈ routes, route.span = span then return ()
  else do
    let nextStart ← followScanRoutes span.startKey routes
    rejectIf (nextStart ≠ span.endKey)
      (.corruptData "metadata scan routes do not cover the complete requested span")

/-- A route is finished if it ends at or before the last key that was delivered. -/
def TabletScanRoute.isFinished (resumeAfter : Option Bytes) (route : TabletScanRoute) : Bool :=
  resumeAfter.any fun resumeAfter => route.span.endKey.any fun endKey =>
    (compare endKey resumeAfter).isLE

/-- The routes that are left of a refreshed cover, each behind the last delivered key. -/
def resumeScanRoutes (routes : List TabletScanRoute) (resumeAfter : Option Bytes)
    (topologyRefreshes : Nat) : List PendingScanFragment :=
  routes.filterMap fun route =>
    if route.isFinished resumeAfter then none
    else
      some
        { route
          resumeAfter := resumeAfter.filter fun resumeAfter =>
            route.span.startKey.all fun startKey => (compare startKey resumeAfter).isLE
          topologyRefreshes }

/-! ## The scan -/

/-- What one call of `distributed_scan_rows` works with. -/
structure DistributedScan where
  executor : Executor
  gateway : ScanGateway
  context : ScanContext
  transaction : Transaction
  tableId : TableId

/-- The variables of the loop, and how many calls the environment has answered. -/
structure ScanState where
  work : List PendingScanFragment
  progress : ScanProgress
  committedRows : ExtTreeMap Bytes Row compare
  resolvedIntents : Nat
  calls : Nat

namespace DistributedScan

variable (scan : DistributedScan)

def localScanBatch (span : ScanSpan) (resumeAfter : Option Bytes) (maxRows maxBytes : Nat) :
    Except Error TabletScanBatch := do
  let tablet ← scan.executor.localTabletForRoute scan.tableId scan.tableId
  let page ← tablet.scanPage scan.transaction (span.startKey.map (RowKey.mk scan.tableId))
    (span.endKey.map (RowKey.mk scan.tableId)) (resumeAfter.map (RowKey.mk scan.tableId)) maxRows
    maxBytes
  let rows ← page.rows.mapM fun (key, row) => do
    return TabletScanRow.mk key.primaryKeyBytes (← encodeRow row)
  return {
    rows
    intents := []
    nextResumeAfter := if page.hasMore then rows.getLast?.map (·.key) else none
    exhausted := !page.hasMore }

/-- The answer to one page request.  A timeout ends the scan before the request is made. -/
def requestPage (calls : Nat) (requestId : RequestId) (pending : PendingScanFragment)
    (readTs : Timestamp) : Except Error (Except Error TabletScanBatch) :=
  let route := pending.route.route
  if scan.executor.isLocalCompatibilityRoute scan.tableId route.tabletId then
    return scan.localScanBatch pending.route.span pending.resumeAfter tabletScanPageRows
      tabletScanPageBytes
  else do
    scan.context.remainingTimeout calls
    return scan.gateway.scanPage calls route requestId pending.route.span pending.resumeAfter readTs
      tabletScanPageRows tabletScanPageBytes

/-- The fragments that take the place of one whose epoch is stale. -/
def refreshFragment (calls : Nat) (pending : PendingScanFragment) :
    Except Error (List PendingScanFragment) := do
  let tabletId := pending.route.route.tabletId
  scan.context.checkActive calls
  let refreshed ← (scan.gateway.lookupScanRoutes calls scan.tableId pending.route.span).mapError
    (scanFailure tabletId)
  scan.context.checkActive (calls + 1)
  (validateScanRouteCover pending.route.span refreshed).mapError (scanFailure tabletId)
  return resumeScanRoutes refreshed pending.resumeAfter (pending.topologyRefreshes + 1)

def validationRequest (requestId : RequestId) (pending : PendingScanFragment)
    (readTs : Timestamp) : TabletScanRequest where
  requestId
  tabletId := pending.route.route.tabletId
  tabletEpoch := pending.route.route.tabletEpoch
  startKey := pending.route.span.startKey
  endKey := pending.route.span.endKey
  resumeAfter := pending.resumeAfter
  readTimestamp := readTs
  maxRows := tabletScanPageRows
  maxBytes := tabletScanPageBytes
  rpcAttemptId := none
  deadlineRemainingMs := none
  intentOnly := false

/-- One iteration of the loop over the intents of a batch. -/
def resolveIntent (tabletId : TabletId) (calls : Nat) (intent : TabletScanIntent) :
    Except Error Nat := do
  let rowKey : RowKey := ⟨scan.tableId, intent.key⟩
  let encodedKey ← encodeRowKey rowKey
  (scan.gateway.resolveForegroundIntent calls rowKey encodedKey intent.lock).mapError
    (scanFailure tabletId)
  return calls + 1

/-- One iteration of the loop over the rows of a batch. -/
def collectRow (tabletId : TabletId) (committedRows : ExtTreeMap Bytes Row compare)
    (scanRow : TabletScanRow) : Except Error (ExtTreeMap Bytes Row compare) := do
  let encodedKey ← encodeRowKey ⟨scan.tableId, scanRow.key⟩
  let row ← decodeRow scanRow.row
  rejectIf (encodedKey ∈ committedRows) (scanFailure tabletId
    (.corruptData "distributed scan returned the same logical row more than once"))
  return committedRows.insert encodedKey row

/-- The intents of a batch are resolved, and its fragment is read again. -/
def resolveIntents (pending : PendingScanFragment) (batch : TabletScanBatch) (state : ScanState) :
    Except Error ScanState := do
  let tabletId := pending.route.route.tabletId
  let resolvedIntents := saturatingAdd state.resolvedIntents batch.intents.length
  rejectIf (maxForegroundScanIntentResolutions < resolvedIntents) (scanFailure tabletId
    (.tabletUnavailable "foreground scan exceeded its bounded intent-resolution budget"))
  let calls ← batch.intents.foldlM (scan.resolveIntent tabletId) state.calls
  return { state with work := pending :: state.work, resolvedIntents, calls }

/-- The rows of a batch are collected; the fragment is completed, or resumed behind them. -/
def collectBatch (identicalHashSpans : Bool) (pending : PendingScanFragment)
    (batch : TabletScanBatch) (state : ScanState) : Except Error ScanState := do
  let tabletId := pending.route.route.tabletId
  rejectIf (batch.rows = [] ∧ batch.exhausted = false) (scanFailure tabletId
    (.corruptData "tablet returned a non-progressing distributed scan page"))
  let committedRows ← batch.rows.foldlM (scan.collectRow tabletId) state.committedRows
  if batch.exhausted ∧ identicalHashSpans = false then do
    let progress ← state.progress.marked pending.route.span
    return { state with committedRows, progress }
  else if batch.exhausted then return { state with committedRows }
  else
    let resumed := { pending with resumeAfter := batch.nextResumeAfter }
    return { state with committedRows, work := resumed :: state.work }

/-- A page that was answered; `state.work` no longer holds the fragment. -/
def acceptBatch (identicalHashSpans : Bool) (requestId : RequestId) (pending : PendingScanFragment)
    (batch : TabletScanBatch) (state : ScanState) : Except Error ScanState := do
  scan.context.checkActive (state.calls + 1)
  let request := validationRequest requestId pending state.progress.readTs
  (batch.validateFor scan.gateway.lockLen request).mapError fun error =>
    scanFailure pending.route.route.tabletId (.corruptData error)
  let state := { state with calls := state.calls + 2 }
  if batch.intents ≠ [] then scan.resolveIntents pending batch state
  else scan.collectBatch identicalHashSpans pending batch state

/-- One iteration of the loop over the fragments. -/
def scanStep (identicalHashSpans : Bool) (state : ScanState) :
    Except Error (ScanState ⊕ ScanState) :=
  match state.work with
  | [] => .ok (.inr state)
  | pending :: work => do
    let route := pending.route.route
    scan.context.checkActive state.calls
    let requestId ← scan.context.nextReadRequestId state.calls route.raftGroupId
    match ← scan.requestPage state.calls requestId pending state.progress.readTs with
    | .ok batch =>
      return .inl (← scan.acceptBatch identicalHashSpans requestId pending batch
        { state with work })
    | .error error =>
      if error.isStaleTabletEpoch ∧ pending.topologyRefreshes < maxScanTopologyRefreshes then do
        let refreshed ← scan.refreshFragment (state.calls + 1) pending
        return .inl { state with work := refreshed ++ work, calls := state.calls + 3 }
      else .error (scanFailure route.tabletId error)

/-- The routes of the whole table, before the first page. -/
def initialRoutes (calls : Nat) : Except Error (List TabletScanRoute) := do
  scan.context.checkActive calls
  let routes ← scan.gateway.lookupScanRoutes calls scan.tableId .unbounded
  scan.context.checkActive (calls + 1)
  validateScanRouteCover .unbounded routes
  return routes

/-- Hash buckets all own the complete span, so no one of them completes it. -/
def identicalHashSpans (routes : List TabletScanRoute) : Bool :=
  1 < routes.length && routes.all fun route => route.span = .unbounded

def initialState (calls : Nat) (routes : List TabletScanRoute) : ScanState where
  work := routes.map fun route => ⟨route, none, 0⟩
  progress := .new scan.transaction.startTs .unbounded
  committedRows := ∅
  resolvedIntents := 0
  calls := calls + 2

/-- The progress behind the loop; all buckets together complete their span. -/
def finalProgress (identicalHashSpans : Bool) (progress : ScanProgress) :
    Except Error ScanProgress :=
  if identicalHashSpans then progress.marked .unbounded else return progress

/-- Behind the loop every span must be complete; then the pending writes are put over the rows. -/
def finishScan (identicalHashSpans : Bool) (state : ScanState) : Except Error (List KeyedRow) := do
  let progress ← finalProgress identicalHashSpans state.progress
  rejectIf (progress.remaining.isEmpty = false) (.corruptData
    "distributed scan exhausted its route work with logical spans remaining")
  overlayRows scan.transaction scan.tableId state.committedRows

/-- `distributed_scan_rows` behind its checks, with at most `fuel` iterations. -/
def scanRows (calls fuel : Nat) : Option (Except Error (List KeyedRow)) :=
  match scan.initialRoutes calls with
  | .error error => some (.error error)
  | .ok routes =>
    let identicalHashSpans := identicalHashSpans routes
    (Loop.iterate (scan.scanStep identicalHashSpans) fuel (scan.initialState calls routes)).map
      (· >>= scan.finishScan identicalHashSpans)

end DistributedScan

/-- `distributed_scan_rows`, with at most `fuel` iterations of its loop. -/
def Executor.distributedScan (self : Executor) (gateway : Option ScanGateway)
    (context : Option ScanContext) (transaction : Transaction) (tableId : TableId)
    (calls fuel : Nat) : Option (Except Error (List KeyedRow)) :=
  match gateway, context with
  | none, _ => some (.error (.unsupportedSql
      s!"metadata table {tableId} has no installed tablet gateway"))
  | some _, none => some (.error (.invalidArgument
      "distributed scans require a tablet request context"))
  | some gateway, some context =>
    DistributedScan.scanRows ⟨self, gateway, context, transaction, tableId⟩ calls fuel

end RagnorDb
