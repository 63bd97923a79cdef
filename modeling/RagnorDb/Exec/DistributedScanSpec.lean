import Mathlib.Data.Multiset.DershowitzManna
import RagnorDb.Exec.ScanPages

/-!
# Distributed scans under topology changes

A scan is followed through its run against a gateway that describes the current owners and answers
pages truthfully.  Two things are counted in every state: how many copies of a row the scan has
collected or will still ask for, and how many fragments account for a position of the key space.
A stale epoch can add copies of rows of other buckets, and can drop fragments that the progress of
the scan still waits for.  Nothing ever repairs either, so a scan succeeds if and only if no stale
epoch did one of them, and then its rows are those of the snapshot.
-/

namespace RagnorDb

open Std Checked OrderedMap OrderedRows

namespace DistributedScan

variable (scan : DistributedScan) (partitioning : Partitioning) (content : TableContent)

/-! ## Truthful gateways -/

/-- A route that the gateway describes at some time. -/
def Described (route : TabletScanRoute) : Prop :=
  ∃ call span routes, span.lower < span.upper ∧
    scan.gateway.lookupScanRoutes call scan.tableId span = .ok routes ∧ route ∈ routes

/-- The gateway describes the current owners of every span, none of them by a local compatibility
route, and the owners answer each request with a stale epoch or with the next rows of the
snapshot. -/
structure Truthful : Prop where
  routes : ∀ call (span : ScanSpan), span.lower < span.upper →
    ∃ routes, scan.gateway.lookupScanRoutes call scan.tableId span = .ok routes ∧
      partitioning.CurrentOwners span routes
  pages : ∀ call (pending : PendingScanFragment) requestId, scan.Described pending.route →
    pending.Valid →
    ∃ answer, scan.gateway.scanPage call pending.route.route requestId pending.route.span
        pending.resumeAfter scan.transaction.startTs tabletScanPageRows tabletScanPageBytes =
          answer ∧
      ((∃ currentEpoch expectedEpoch,
          answer = .error (.staleTabletEpoch currentEpoch expectedEpoch)) ∨
        ∃ batch, answer = .ok batch ∧ batch.Answers content (pending.Owes partitioning))
  remote : ∀ route, scan.Described route →
    ¬ scan.executor.isLocalCompatibilityRoute scan.tableId route.route.tabletId

/-- A request that stays active, for a table and a transaction with canonical identities and
pending writes. -/
structure Admissible : Prop where
  checkActive : ∀ call, scan.context.checkActive call = .ok ()
  remainingTimeout : ∀ call, scan.context.remainingTimeout call = .ok ()
  requestId : ∀ call raftGroupId, raftGroupId ≠ 0 → ∃ requestId,
    scan.context.nextReadRequestId call raftGroupId = .ok requestId ∧ requestId.Usable
  startTs_ne_zero : scan.transaction.startTs ≠ 0
  tableId_ne_zero : scan.tableId ≠ 0
  tableId_le : scan.tableId ≤ u64Max
  writes : ∀ entry ∈ scan.transaction.writes.toList, ∃ key, decodeRowKey entry.1 = .ok key ∧
    (key.tableId = scan.tableId → ∃ row, entry.2.row?.mapM decodeRow = .ok row)

/-- The fragment whose page is answered with a stale epoch in a state. -/
def staleFragment (state : ScanState) : Option PendingScanFragment :=
  state.work.head?.filter fun pending =>
    match scan.context.nextReadRequestId state.calls pending.route.route.raftGroupId with
    | .error _ => false
    | .ok requestId =>
      match scan.requestPage state.calls requestId pending state.progress.readTs with
      | .ok (.error error) => error.isStaleTabletEpoch
      | _ => false

/-- If the page of a state is answered with a stale epoch, no current route of the fragment's span
ends at or before the last delivered key, and no other tablet has a row of the span behind that
key. -/
def Harmless (state : ScanState) : Prop :=
  ∀ pending ∈ scan.staleFragment state,
    (∀ routes, scan.gateway.lookupScanRoutes (state.calls + 1) scan.tableId pending.route.span =
        .ok routes → ∀ route ∈ routes, route.isFinished pending.resumeAfter = false) ∧
    ∀ key ∈ content.rows, .key key ∈ pending.route.span.points → Behind pending.resumeAfter key →
      partitioning.Owns pending.route.route.tabletId key

/-! ## What a state accounts for -/

/-- How often a row was collected or is still to be asked for. -/
def copies (state : ScanState) (key : Bytes) : Nat :=
  (if storedKey scan.tableId key ∈ state.committedRows then 1 else 0) +
    state.work.countP fun pending => pending.Owes partitioning key

end DistributedScan

/-- How many fragments account for a position. -/
def ScanState.spansAt (state : ScanState)
    (p : Position (compare : Bytes → Bytes → Ordering)) : Nat :=
  state.work.countP fun pending => p ∈ pending.route.span.points

/-- Fragments of ranges account for outstanding positions, each for its own; buckets leave the
progress as it was. -/
def Partitioning.Tracks (state : ScanState) : Partitioning → Prop
  | .range => ∀ p, state.spansAt p ≤ 1 ∧ (0 < state.spansAt p → state.progress.Outstanding p)
  | .hash _ => (∀ pending ∈ state.work, pending.route.span = .unbounded) ∧
      ∀ p, state.progress.Outstanding p ↔ p ∈ ScanSpan.unbounded.points

namespace DistributedScan

variable (scan : DistributedScan) (partitioning : Partitioning) (content : TableContent)

/-- What holds in every state of a scan. -/
structure Inv (state : ScanState) : Prop where
  readTs_eq : state.progress.readTs = scan.transaction.startTs
  described : ∀ pending ∈ state.work, scan.Described pending.route
  valid : ∀ pending ∈ state.work, pending.Valid
  collected : ∀ (bytes : Bytes) (row : Row), state.committedRows[bytes]? = some row →
    ∃ key stored, bytes = storedKey scan.tableId key ∧ content.rows[key]? = some stored ∧
      decodeRow stored = .ok row
  one_le_copies : ∀ key ∈ content.rows, 1 ≤ scan.copies partitioning state key
  wellFormed : state.progress.WellFormed
  tracks : partitioning.Tracks state

/-- No row has a second copy, and no outstanding position is without a fragment. -/
structure Unharmed (state : ScanState) : Prop where
  copies_le : ∀ key ∈ content.rows, scan.copies partitioning state key ≤ 1
  spans : partitioning.isHash = false → ∀ p, state.progress.Outstanding p → 0 < state.spansAt p

variable {scan partitioning content} {state : ScanState} {pending : PendingScanFragment}
  {work : List PendingScanFragment}

/-- An iteration asks for a page, and either refreshes the fragment or collects the page. -/
theorem scanStep_cons (truthful : scan.Truthful partitioning content) (request : scan.Admissible)
    (inv : scan.Inv partitioning content state) (hwork : state.work = pending :: work)
    (identicalHashSpans : Bool) :
    (scan.staleFragment state = some pending ∧
      (pending.topologyRefreshes < maxScanTopologyRefreshes → ∃ routes,
        scan.gateway.lookupScanRoutes (state.calls + 1) scan.tableId pending.route.span =
          .ok routes ∧
        partitioning.CurrentOwners pending.route.span routes ∧
        scan.scanStep identicalHashSpans state = .ok (.inl { state with
          work := resumeScanRoutes routes pending.resumeAfter
            (pending.topologyRefreshes + 1) ++ work
          calls := state.calls + 3 }))) ∨
    (scan.staleFragment state = none ∧ ∃ batch,
      batch.Answers content (pending.Owes partitioning) ∧
      scan.scanStep identicalHashSpans state = (scan.collectBatch identicalHashSpans pending batch
        { state with work, calls := state.calls + 2 }).map .inl) := by
  have hmem : pending ∈ state.work := hwork ▸ List.mem_cons_self
  have hvalid := inv.valid pending hmem
  have hdescribed := inv.described pending hmem
  obtain ⟨hgroup, _, _⟩ := TabletRoute.ids_of_validate hvalid.route
  obtain ⟨requestId, hrequestId, husable⟩ :=
    request.requestId state.calls pending.route.route.raftGroupId hgroup
  obtain ⟨answer, hanswer, hkind⟩ := truthful.pages state.calls pending requestId hdescribed hvalid
  have hpage : scan.requestPage state.calls requestId pending state.progress.readTs =
      .ok answer := by
    simp only [requestPage, truthful.remote _ hdescribed, if_false, request.remainingTimeout,
      inv.readTs_eq, hanswer, ok_bind]
    rfl
  rcases hkind with ⟨currentEpoch, expectedEpoch, rfl⟩ | ⟨batch, rfl, hbatch⟩
  · refine .inl ⟨?_, ?_⟩
    · simp [staleFragment, hwork, hrequestId, hpage, Error.isStaleTabletEpoch]
    · intro hlt
      obtain ⟨routes, hroutes, howners⟩ :=
        truthful.routes (state.calls + 1) pending.route.span hvalid.span
      refine ⟨routes, hroutes, howners, ?_⟩
      simp [scanStep, hwork, request.checkActive, hrequestId, hpage, Error.isStaleTabletEpoch, hlt,
        refreshFragment, hroutes, howners.validateScanRouteCover_eq_ok, Except.mapError]
  · refine .inr ⟨?_, batch, hbatch, ?_⟩
    · simp [staleFragment, hwork, hrequestId, hpage]
    · have hts : state.progress.readTs ≠ 0 := inv.readTs_eq ▸ request.startTs_ne_zero
      simp only [scanStep, hwork, request.checkActive, hrequestId, hpage, acceptBatch,
        hbatch.validateFor_eq_ok hvalid husable hts, Except.mapError, ok_bind, hbatch.intents_eq,
        ne_eq, not_true_eq_false, if_false]
      generalize scan.collectBatch identicalHashSpans pending batch _ = collected
      cases collected <;> rfl

/-! ## A stale epoch -/

section Stale

variable {routes : List TabletScanRoute}

/-- The state behind a refresh of the first fragment. -/
def refreshed (routes : List TabletScanRoute) (pending : PendingScanFragment)
    (work : List PendingScanFragment) (state : ScanState) : ScanState :=
  { state with
    work := resumeScanRoutes routes pending.resumeAfter (pending.topologyRefreshes + 1) ++ work
    calls := state.calls + 3 }

theorem copies_refreshed (owners : partitioning.CurrentOwners pending.route.span routes)
    (hwork : state.work = pending :: work) (key : Bytes) :
    scan.copies partitioning (refreshed routes pending work state) key =
      scan.copies partitioning state key +
        if .key key ∈ pending.route.span.points ∧ Behind pending.resumeAfter key ∧
          ¬ partitioning.Owns pending.route.route.tabletId key then 1 else 0 := by
  have hsplit : (if .key key ∈ pending.route.span.points ∧ Behind pending.resumeAfter key
      then 1 else 0) =
      (if pending.Owes partitioning key then 1 else 0) +
        if .key key ∈ pending.route.span.points ∧ Behind pending.resumeAfter key ∧
          ¬ partitioning.Owns pending.route.route.tabletId key then 1 else 0 := by
    by_cases hkey : .key key ∈ pending.route.span.points <;>
      by_cases howns : partitioning.Owns pending.route.route.tabletId key <;>
      simp [PendingScanFragment.Owes, TabletScanRoute.Holds, hkey, howns]
  rw [copies, copies, hwork, List.countP_cons]
  show (if storedKey scan.tableId key ∈ state.committedRows then 1 else 0) +
    List.countP _ (_ ++ _) = _
  rw [List.countP_append, owners.countP_owes, hsplit]
  simp only [decide_eq_true_eq]
  omega

theorem spansAt_refreshed (routes : List TabletScanRoute) (hwork : state.work = pending :: work)
    (p : Position (compare : Bytes → Bytes → Ordering)) :
    (refreshed routes pending work state).spansAt p +
      (if p ∈ pending.route.span.points then 1 else 0) =
      state.spansAt p + routes.countP fun route =>
        p ∈ route.span.points ∧ route.isFinished pending.resumeAfter = false := by
  simp only [ScanState.spansAt, refreshed, hwork, List.countP_append, List.countP_cons,
    countP_points_resumeScanRoutes, decide_eq_true_eq]
  omega

theorem countP_kept_le (routes : List TabletScanRoute) (resumeAfter : Option Bytes)
    (p : Position (compare : Bytes → Bytes → Ordering)) :
    (routes.countP fun route => p ∈ route.span.points ∧ route.isFinished resumeAfter = false) ≤
      routes.countP fun route => p ∈ route.span.points := by
  refine List.countP_mono_left fun route _ => ?_
  simp only [decide_eq_true_eq]
  exact And.left

/-- A refresh keeps what holds in every state. -/
theorem Inv.refreshed (inv : scan.Inv partitioning content state)
    (hwork : state.work = pending :: work)
    (hroutes : scan.gateway.lookupScanRoutes (state.calls + 1) scan.tableId pending.route.span =
      .ok routes) (owners : partitioning.CurrentOwners pending.route.span routes) :
    scan.Inv partitioning content (refreshed routes pending work state) := by
  have hpending : pending ∈ state.work := hwork ▸ List.mem_cons_self
  have hrest : ∀ other ∈ work, other ∈ state.work := fun other hother =>
    hwork ▸ List.mem_cons_of_mem _ hother
  refine ⟨inv.readTs_eq, ?_, ?_, inv.collected, ?_, inv.wellFormed, ?_⟩
  · intro other hother
    rcases List.mem_append.mp hother with hother | hother
    · obtain ⟨route, hroute, _, rfl⟩ := mem_resumeScanRoutes.mp hother
      exact ⟨_, _, routes, (inv.valid pending hpending).span, hroutes, hroute⟩
    · exact inv.described other (hrest other hother)
  · intro other hother
    rcases List.mem_append.mp hother with hother | hother
    · obtain ⟨route, hroute, hfinished, rfl⟩ := mem_resumeScanRoutes.mp hother
      exact ⟨owners.valid route hroute, owners.nonempty route hroute, fun last hlast =>
        TabletScanRoute.key_mem_points_of_resume hfinished hlast⟩
    · exact inv.valid other (hrest other hother)
  · intro key hkey
    rw [copies_refreshed owners hwork]
    exact Nat.le_add_right_of_le (inv.one_le_copies key hkey)
  · have htracks := inv.tracks
    cases partitioning with
    | range =>
      intro p
      have hspans := spansAt_refreshed routes hwork p
      have hkept := countP_kept_le routes pending.resumeAfter p
      rw [owners.countP_points] at hkept
      have hle : (refreshed routes pending work state).spansAt p ≤
          state.spansAt p := by omega
      exact ⟨hle.trans (htracks p).1, fun hpos => (htracks p).2 (hpos.trans_le hle)⟩
    | hash =>
      refine ⟨fun other hother => ?_, htracks.2⟩
      rcases List.mem_append.mp hother with hother | hother
      · obtain ⟨route, hroute, _, rfl⟩ := mem_resumeScanRoutes.mp hother
        exact (owners.divides.1 route hroute).trans (htracks.1 pending hpending)
      · exact htracks.1 other (hrest other hother)

/-- A refresh of ranges loses the positions of finished routes, and only those. -/
theorem spans_refreshed_iff (inv : scan.Inv .range content state)
    (hwork : state.work = pending :: work)
    (owners : Partitioning.range.CurrentOwners pending.route.span routes) :
    (∀ p, state.progress.Outstanding p → 0 < (refreshed routes pending work state).spansAt p) ↔
      (∀ p, state.progress.Outstanding p → 0 < state.spansAt p) ∧
        ∀ route ∈ routes, route.isFinished pending.resumeAfter = false := by
  have hspans := spansAt_refreshed routes hwork
  have hcount := fun p => owners.countP_points (p := p)
  constructor
  · intro h
    constructor
    · intro p hp
      have hkept := countP_kept_le routes pending.resumeAfter p
      have := h p hp
      have := hspans p
      rw [hcount] at hkept
      omega
    · -- The first position of a finished route would be outstanding without a fragment.
      intro route hroute
      rw [Bool.eq_false_iff]
      intro hfinished
      have hmem : route.span.lower ∈ route.span.points := ⟨le_rfl, owners.nonempty route hroute⟩
      generalize route.span.lower = p at hmem
      have hone : 0 < routes.countP fun route =>
          p ∈ route.span.points ∧ route.isFinished pending.resumeAfter = true :=
        List.countP_pos_iff.mpr ⟨route, hroute, by simp [hmem, hfinished]⟩
      have hsplit : (routes.countP fun route => p ∈ route.span.points) =
          (routes.countP fun route =>
            p ∈ route.span.points ∧ route.isFinished pending.resumeAfter = true) +
          routes.countP fun route =>
            p ∈ route.span.points ∧ route.isFinished pending.resumeAfter = false := by
        rw [List.countP_eq_countP_filter_add _ _ (·.isFinished pending.resumeAfter),
          List.countP_filter, List.countP_filter]
        simp
      have hle := (inv.tracks p).1
      have hstep := hspans p
      rw [hcount] at hsplit
      have hinside : p ∈ pending.route.span.points := by
        by_contra houtside
        rw [if_neg houtside] at hsplit
        omega
      have hheld : 0 < state.spansAt p := List.countP_pos_iff.mpr
        ⟨pending, hwork ▸ List.mem_cons_self, by simp [hinside]⟩
      have := h p ((inv.tracks p).2 hheld)
      omega
  · rintro ⟨h, hkeeps⟩ p hp
    have hall : (routes.countP fun route =>
        p ∈ route.span.points ∧ route.isFinished pending.resumeAfter = false) =
        routes.countP fun route => p ∈ route.span.points := by
      refine List.countP_congr fun route hroute => ?_
      simp [hkeeps route hroute]
    have := h p hp
    have := hspans p
    rw [hcount] at hall
    omega

/-- A refresh does no harm if and only if it is harmless. -/
theorem unharmed_refreshed (inv : scan.Inv partitioning content state)
    (hwork : state.work = pending :: work)
    (hroutes : scan.gateway.lookupScanRoutes (state.calls + 1) scan.tableId pending.route.span =
      .ok routes) (owners : partitioning.CurrentOwners pending.route.span routes)
    (hstale : scan.staleFragment state = some pending) :
    scan.Unharmed partitioning content (refreshed routes pending work state) ↔
      scan.Unharmed partitioning content state ∧ scan.Harmless partitioning content state := by
  have hcopies : (∀ key ∈ content.rows,
      scan.copies partitioning (refreshed routes pending work state) key ≤ 1) ↔
      (∀ key ∈ content.rows, scan.copies partitioning state key ≤ 1) ∧
        ∀ key ∈ content.rows, .key key ∈ pending.route.span.points →
          Behind pending.resumeAfter key → partitioning.Owns pending.route.route.tabletId key := by
    rw [← forall₂_and]
    refine forall₂_congr fun key hkey => ?_
    have hone := inv.one_le_copies key hkey
    rw [copies_refreshed owners hwork]
    split
    · rename_i hother
      refine iff_of_false (by omega) fun h => hother.2.2 (h.2 hother.1 hother.2.1)
    · rename_i hother
      refine (and_iff_left fun hspan hbehind => ?_).symm
      by_contra howns
      exact hother ⟨hspan, hbehind, howns⟩
  have hspans : (partitioning.isHash = false → ∀ p, state.progress.Outstanding p →
      0 < (refreshed routes pending work state).spansAt p) ↔
      (partitioning.isHash = false → ∀ p, state.progress.Outstanding p → 0 < state.spansAt p) ∧
        ∀ route ∈ routes, route.isFinished pending.resumeAfter = false := by
    cases partitioning with
    | range => simpa [Partitioning.isHash] using spans_refreshed_iff inv hwork owners
    | hash =>
      -- Buckets have no upper bound, so they are never finished.
      simp only [Partitioning.isHash, Bool.true_eq_false, false_imp_iff, true_and, true_iff]
      intro route hroute
      have hspan : route.span = .unbounded := (owners.divides.1 route hroute).trans
        (inv.tracks.1 pending (hwork ▸ List.mem_cons_self))
      cases pending.resumeAfter <;> simp [TabletScanRoute.isFinished, hspan, ScanSpan.unbounded]
  constructor
  · intro h
    obtain ⟨hle, howns⟩ := hcopies.mp h.copies_le
    obtain ⟨hpos, hkeeps⟩ := hspans.mp h.spans
    refine ⟨⟨hle, hpos⟩, ?_⟩
    intro other hother
    cases hstale.symm.trans hother
    refine ⟨fun routes' hroutes' => ?_, howns⟩
    cases hroutes.symm.trans hroutes'
    exact hkeeps
  · rintro ⟨h, hharmless⟩
    obtain ⟨hkeeps, howns⟩ := hharmless pending hstale
    exact ⟨hcopies.mpr ⟨h.copies_le, howns⟩, hspans.mpr ⟨h.spans, hkeeps routes hroutes⟩⟩

end Stale

/-! ## A page -/

section Page

variable {batch : TabletScanBatch} {state' : ScanState} {key : Bytes}

theorem mem_rows_iff (answers : batch.Answers content (pending.Owes partitioning))
    (hkey : key ∈ content.rows) : (∃ row ∈ batch.rows, row.key = key) ↔
      pending.Owes partitioning key ∧ batch.Covers key := by
  constructor
  · rintro ⟨row, hrow, rfl⟩
    exact ((answers.reads.mem row.key row.row).mp (List.mem_map.mpr ⟨row, hrow, rfl⟩)).1
  · intro howes
    obtain ⟨stored, hstored⟩ := exists_of_mem hkey
    obtain ⟨row, hrow, hentry⟩ :=
      List.mem_map.mp ((answers.reads.mem key stored).mpr ⟨howes, hstored⟩)
    exact ⟨row, hrow, congrArg Prod.fst hentry⟩

/-- Behind the page, the fragment owes what the page did not cover. -/
theorem owes_resumed (answers : batch.Answers content (pending.Owes partitioning))
    (hexhausted : batch.exhausted = false) :
    PendingScanFragment.Owes partitioning
      { pending with resumeAfter := batch.nextResumeAfter } key ↔
      pending.Owes partitioning key ∧ ¬ batch.Covers key := by
  obtain ⟨last, hlast⟩ : ∃ last, batch.rows.getLast? = some last :=
    ⟨_, List.getLast?_eq_some_getLast (answers.rows_ne_nil hexhausted)⟩
  have hcursor : batch.nextResumeAfter = some last.key := by
    simp [answers.cursor, hexhausted, hlast]
  obtain ⟨⟨_, hbehind⟩, _⟩ := answers.owes (List.mem_of_getLast? hlast)
  have hcovers : ¬ batch.Covers key ↔ compare last.key key = .lt := by
    simp only [TabletScanBatch.Covers, hexhausted, hlast, Option.mem_def, eq_some, forall_const,
      forall_eq', Ordering.isLE_iff_ne_gt, not_not]
    exact OrientedCmp.gt_iff_lt
  rw [hcovers, hcursor, PendingScanFragment.Owes, PendingScanFragment.Owes, and_assoc]
  refine and_congr_right fun _ => ?_
  constructor
  · intro h
    have hlt := h last.key rfl
    exact ⟨fun cursor hmem => TransCmp.lt_trans (hbehind cursor hmem) hlt, hlt⟩
  · rintro ⟨_, hlt⟩ _ ⟨⟩
    exact hlt

/-- Collecting rows that were owed leaves the number of copies as it is. -/
theorem copies_of_collected (hcollected : storedKey scan.tableId key ∈ state'.committedRows ↔
      storedKey scan.tableId key ∈ state.committedRows ∨ ∃ row ∈ batch.rows, row.key = key)
    (hnew : ∀ row ∈ batch.rows, storedKey scan.tableId row.key ∉ state.committedRows)
    (howed : (state'.work.countP fun pending => pending.Owes partitioning key) +
      (if ∃ row ∈ batch.rows, row.key = key then 1 else 0) =
      state.work.countP fun pending => pending.Owes partitioning key) :
    scan.copies partitioning state' key = scan.copies partitioning state key := by
  rw [copies, copies, ← howed]
  by_cases hrow : ∃ row ∈ batch.rows, row.key = key
  · have habsent : storedKey scan.tableId key ∉ state.committedRows := by
      obtain ⟨row, hmem, rfl⟩ := hrow
      exact hnew row hmem
    rw [if_pos (hcollected.mpr (.inr hrow)), if_neg habsent, if_pos hrow]
    omega
  · rw [if_neg hrow]
    by_cases hstored : storedKey scan.tableId key ∈ state.committedRows
    · rw [if_pos (hcollected.mpr (.inl hstored)), if_pos hstored]
      omega
    · rw [if_neg (fun h => (hcollected.mp h).elim hstored hrow), if_neg hstored]
      omega

/-- The progress behind a completed fragment; one bucket does not complete the span of all. -/
structure Completes (partitioning : Partitioning) (span : ScanSpan)
    (progress progress' : ScanProgress) : Prop where
  readTs_eq : progress'.readTs = progress.readTs
  wellFormed : progress'.WellFormed
  outstanding : ∀ p, progress'.Outstanding p ↔
    progress.Outstanding p ∧ (partitioning.isHash = false → p ∉ span.points)

/-- The state behind a page that was collected: its rows are new, and the fragment is completed or
resumed behind them. -/
structure Collects (scan : DistributedScan) (partitioning : Partitioning)
    (pending : PendingScanFragment) (work : List PendingScanFragment) (batch : TabletScanBatch)
    (state state' : ScanState) : Prop where
  rows_new : ∀ row ∈ batch.rows, storedKey scan.tableId row.key ∉ state.committedRows
  getElem? : ∀ (bytes : Bytes) (decoded : Row), state'.committedRows[bytes]? = some decoded ↔
    state.committedRows[bytes]? = some decoded ∨
      ∃ row ∈ batch.rows, bytes = storedKey scan.tableId row.key ∧ decodeRow row.row = .ok decoded
  outcome :
    (batch.exhausted = false ∧ state'.progress = state.progress ∧
      state'.work = { pending with resumeAfter := batch.nextResumeAfter } :: work) ∨
    (batch.exhausted = true ∧ state'.work = work ∧
      Completes partitioning pending.route.span state.progress state'.progress)

/-- A page is collected, unless one of its rows was collected before. -/
theorem collectBatch_spec (request : scan.Admissible) (inv : scan.Inv partitioning content state)
    (hwork : state.work = pending :: work)
    (answers : batch.Answers content (pending.Owes partitioning)) (calls : Nat) :
    ((∃ row ∈ batch.rows, storedKey scan.tableId row.key ∈ state.committedRows) ∧ ∃ error,
      scan.collectBatch partitioning.isHash pending batch { state with work, calls } =
        .error error) ∨
    ∃ state', scan.collectBatch partitioning.isHash pending batch { state with work, calls } =
        .ok state' ∧ Collects scan partitioning pending work batch state state' := by
  have hprogress : ¬ (batch.rows = [] ∧ batch.exhausted = false) := fun h =>
    answers.rows_ne_nil h.2 h.1
  have hnodup : (batch.rows.map (·.key)).Nodup := by
    have := answers.reads.nodup
    rwa [List.map_map] at this
  have hpending : pending ∈ state.work := hwork ▸ List.mem_cons_self
  rcases foldlM_collectRow pending.route.route.tabletId state.committedRows
      request.tableId_ne_zero (fun row hrow => (answers.owes hrow).2) hnodup with
    ⟨hold, error, herror⟩ | ⟨hnew, next, hnext, hread⟩
  · refine .inl ⟨hold, error, ?_⟩
    simp [collectBatch, rejectIf, hprogress, herror]
  · right
    cases hexhausted : batch.exhausted with
    | false =>
      refine ⟨{ state with
        committedRows := next, calls
        work := { pending with resumeAfter := batch.nextResumeAfter } :: work }, ?_,
        hnew, hread, .inl ⟨hexhausted, rfl, rfl⟩⟩
      simp [collectBatch, rejectIf, answers.rows_ne_nil hexhausted, hnext, hexhausted]
    | true =>
      cases hhash : partitioning.isHash with
      | true =>
        refine ⟨{ state with committedRows := next, calls, work }, ?_, hnew, hread,
          .inr ⟨hexhausted, rfl, rfl, inv.wellFormed, by simp [hhash]⟩⟩
        simp [collectBatch, rejectIf, hnext, hexhausted]
      | false =>
        have houtstanding : ∀ p ∈ pending.route.span.points, state.progress.Outstanding p := by
          have htracks := inv.tracks
          cases partitioning with
          | range =>
            intro p hp
            exact (htracks p).2 (List.countP_pos_iff.mpr ⟨pending, hpending, by simp [hp]⟩)
          | hash => cases hhash
        obtain ⟨progress, hmarked, hts, hwf, hleft⟩ := ScanProgress.exists_marked
          inv.wellFormed (inv.valid pending hpending).span houtstanding
        refine ⟨{ state with committedRows := next, calls, work, progress }, ?_, hnew, hread,
          .inr ⟨hexhausted, rfl, hts, hwf, by simpa [hhash] using hleft⟩⟩
        simp [collectBatch, rejectIf, hnext, hexhausted, hmarked]

namespace Collects

variable (collects : Collects scan partitioning pending work batch state state')
  (answers : batch.Answers content (pending.Owes partitioning))
  (hwork : state.work = pending :: work)

include collects answers

theorem mem_committedRows : storedKey scan.tableId key ∈ state'.committedRows ↔
    storedKey scan.tableId key ∈ state.committedRows ∨ ∃ row ∈ batch.rows, row.key = key := by
  simp only [ExtTreeMap.mem_iff_isSome_getElem?, Option.isSome_iff_exists, collects.getElem?,
    storedKey_inj, exists_or]
  refine or_congr_right ?_
  constructor
  · rintro ⟨_, row, hrow, rfl, _⟩
    exact ⟨row, hrow, rfl⟩
  · rintro ⟨row, hrow, rfl⟩
    obtain ⟨decoded, hdecoded⟩ := content.decode_row _ _ (answers.owes hrow).2
    exact ⟨decoded, row, hrow, rfl, hdecoded⟩

include hwork

theorem copies_eq (hkey : key ∈ content.rows) :
    scan.copies partitioning state' key = scan.copies partitioning state key := by
  refine copies_of_collected (collects.mem_committedRows answers) collects.rows_new ?_
  have hdelivered := mem_rows_iff answers hkey
  rw [hwork, List.countP_cons]
  rcases collects.outcome with ⟨hexhausted, _, hnext⟩ | ⟨hexhausted, hnext, _⟩
  · have hresumed : PendingScanFragment.Owes partitioning
        { pending with resumeAfter := batch.nextResumeAfter } key ↔ _ :=
      owes_resumed answers hexhausted
    rw [hnext, List.countP_cons]
    by_cases howes : pending.Owes partitioning key <;> by_cases hcovers : batch.Covers key <;>
      simp [hdelivered, hresumed, howes, hcovers]
  · have hcovers : batch.Covers key := by simp [TabletScanBatch.Covers, hexhausted]
    by_cases howes : pending.Owes partitioning key <;> simp [hnext, hdelivered, howes, hcovers]

omit collects answers in
theorem spansAt_completed (hnext : state'.work = work)
    (p : Position (compare : Bytes → Bytes → Ordering)) :
    state.spansAt p = state'.spansAt p + if p ∈ pending.route.span.points then 1 else 0 := by
  rw [ScanState.spansAt, ScanState.spansAt, hwork, hnext, List.countP_cons]
  simp

omit collects answers in
theorem spansAt_resumed (hnext : state'.work =
      { pending with resumeAfter := batch.nextResumeAfter } :: work)
    (p : Position (compare : Bytes → Bytes → Ordering)) : state'.spansAt p = state.spansAt p := by
  rw [ScanState.spansAt, ScanState.spansAt, hwork, hnext, List.countP_cons, List.countP_cons]

theorem unharmed_iff :
    scan.Unharmed partitioning content state' ↔ scan.Unharmed partitioning content state := by
  have hcopies : (∀ key ∈ content.rows, scan.copies partitioning state' key ≤ 1) ↔
      ∀ key ∈ content.rows, scan.copies partitioning state key ≤ 1 :=
    forall₂_congr fun key hkey => by rw [collects.copies_eq answers hwork hkey]
  have hspans : (partitioning.isHash = false → ∀ p, state'.progress.Outstanding p →
      0 < state'.spansAt p) ↔
      (partitioning.isHash = false → ∀ p, state.progress.Outstanding p → 0 < state.spansAt p) := by
    refine imp_congr_right fun hhash => forall_congr' fun p => ?_
    rcases collects.outcome with ⟨_, hprogress, hnext⟩ | ⟨_, hnext, completes⟩
    · rw [hprogress, spansAt_resumed hwork hnext]
    · have hspan := spansAt_completed hwork hnext p
      rw [completes.outstanding, hspan]
      by_cases hp : p ∈ pending.route.span.points
      · simp [hhash, hp]
      · simp [hp]
  exact ⟨fun h => ⟨hcopies.mp h.copies_le, hspans.mp h.spans⟩,
    fun h => ⟨hcopies.mpr h.copies_le, hspans.mpr h.spans⟩⟩

/-- A page keeps what holds in every state. -/
theorem inv (inv : scan.Inv partitioning content state) : scan.Inv partitioning content state' := by
  have hpending : pending ∈ state.work := hwork ▸ List.mem_cons_self
  have hrest : ∀ other ∈ work, other ∈ state.work := fun other hother =>
    hwork ▸ List.mem_cons_of_mem _ hother
  have hcollected : ∀ (bytes : Bytes) (row : Row), state'.committedRows[bytes]? = some row →
      ∃ key stored, bytes = storedKey scan.tableId key ∧ content.rows[key]? = some stored ∧
        decodeRow stored = .ok row := by
    intro bytes decoded hdecoded
    rcases (collects.getElem? bytes decoded).mp hdecoded with hold | ⟨row, hrow, hbytes, hrow'⟩
    · exact inv.collected bytes decoded hold
    · exact ⟨row.key, row.row, hbytes, (answers.owes hrow).2, hrow'⟩
  have hcopies : ∀ key ∈ content.rows, 1 ≤ scan.copies partitioning state' key := by
    intro key hkey
    rw [collects.copies_eq answers hwork hkey]
    exact inv.one_le_copies key hkey
  have htracks := inv.tracks
  rcases collects.outcome with ⟨hexhausted, hprogress, hnext⟩ | ⟨_, hnext, completes⟩
  · refine ⟨hprogress ▸ inv.readTs_eq, ?_, ?_, hcollected, hcopies, hprogress ▸ inv.wellFormed, ?_⟩
    · rw [hnext]
      exact List.forall_mem_cons.mpr ⟨inv.described pending hpending,
        fun other hother => inv.described other (hrest other hother)⟩
    · rw [hnext]
      refine List.forall_mem_cons.mpr ⟨⟨(inv.valid pending hpending).route,
        (inv.valid pending hpending).span, ?_⟩,
        fun other hother => inv.valid other (hrest other hother)⟩
      intro last hlast
      have hcursor : batch.nextResumeAfter = some last := hlast
      rw [answers.cursor, hexhausted] at hcursor
      obtain ⟨row, hrow, rfl⟩ := Option.map_eq_some_iff.mp hcursor
      exact (answers.owes (List.mem_of_getLast? hrow)).1.1.1
    · cases partitioning with
      | range =>
        intro p
        rw [spansAt_resumed hwork hnext, hprogress]
        exact htracks p
      | hash =>
        refine ⟨?_, hprogress ▸ htracks.2⟩
        rw [hnext]
        exact List.forall_mem_cons.mpr ⟨htracks.1 pending hpending,
          fun other hother => htracks.1 other (hrest other hother)⟩
  · refine ⟨completes.readTs_eq.trans inv.readTs_eq, ?_, ?_, hcollected, hcopies,
      completes.wellFormed, ?_⟩
    · rw [hnext]
      exact fun other hother => inv.described other (hrest other hother)
    · rw [hnext]
      exact fun other hother => inv.valid other (hrest other hother)
    · cases partitioning with
      | range =>
        intro p
        have hspan := spansAt_completed hwork hnext p
        obtain ⟨hle, hpos⟩ := htracks p
        refine ⟨by omega, fun hheld => (completes.outstanding p).mpr ⟨hpos (by omega), ?_⟩⟩
        intro _ hp
        rw [if_pos hp] at hspan
        omega
      | hash =>
        refine ⟨fun other hother => htracks.1 other (hrest other (hnext ▸ hother)), fun p => ?_⟩
        rw [completes.outstanding, ← htracks.2]
        simp [Partitioning.isHash]

end Collects

end Page

/-! ## Every scan ends -/

section Descent

variable {state' : ScanState} {routes : List TabletScanRoute} {batch : TabletScanBatch}

/-- The rows that are still to be collected. -/
def uncollected (scan : DistributedScan) (content : TableContent) (state : ScanState) : Nat :=
  (content.rows.keys.filter fun key => storedKey scan.tableId key ∉ state.committedRows).length

/-- The refreshes that the fragments have left. -/
def budget (state : ScanState) : Multiset Nat :=
  state.work.map fun pending => maxScanTopologyRefreshes - pending.topologyRefreshes

/-- A later state has fewer rows to collect, or fragments with fewer refreshes left. -/
def Later : Nat × Multiset Nat → Nat × Multiset Nat → Prop :=
  Prod.Lex (· < ·) Multiset.IsDershowitzMannaLT

theorem wellFounded_later : WellFounded Later :=
  WellFounded.prod_lex wellFounded_lt Multiset.wellFounded_isDershowitzMannaLT

theorem later_refreshed (hwork : state.work = pending :: work)
    (hlt : pending.topologyRefreshes < maxScanTopologyRefreshes) :
    Later (scan.uncollected content (refreshed routes pending work state),
        budget (refreshed routes pending work state))
      (scan.uncollected content state, budget state) := by
  refine Prod.Lex.right' _ le_rfl ?_
  refine ⟨work.map fun pending => maxScanTopologyRefreshes - pending.topologyRefreshes,
    (resumeScanRoutes routes pending.resumeAfter (pending.topologyRefreshes + 1)).map fun pending =>
      maxScanTopologyRefreshes - pending.topologyRefreshes,
    {maxScanTopologyRefreshes - pending.topologyRefreshes}, by simp, ?_, ?_, ?_⟩
  · rw [budget, refreshed, List.map_append, ← Multiset.coe_add, add_comm]
  · rw [budget, hwork, List.map_cons, ← Multiset.cons_coe, ← Multiset.singleton_add, add_comm]
  · intro level hlevel
    obtain ⟨other, hother, rfl⟩ := List.mem_map.mp (Multiset.mem_coe.mp hlevel)
    obtain ⟨route, _, _, rfl⟩ := mem_resumeScanRoutes.mp hother
    refine ⟨_, Multiset.mem_singleton_self _, ?_⟩
    show maxScanTopologyRefreshes - (pending.topologyRefreshes + 1) < _
    omega

/-- A page collects rows, or completes its fragment. -/
theorem Collects.later (collects : Collects scan partitioning pending work batch state state')
    (answers : batch.Answers content (pending.Owes partitioning))
    (hwork : state.work = pending :: work) :
    Later (scan.uncollected content state', budget state')
      (scan.uncollected content state, budget state) := by
  have hmono : ∀ key, storedKey scan.tableId key ∈ state.committedRows →
      storedKey scan.tableId key ∈ state'.committedRows := fun key hkey =>
    (collects.mem_committedRows answers).mpr (.inl hkey)
  rcases collects.outcome with ⟨hexhausted, _, _⟩ | ⟨_, hnext, _⟩
  · obtain ⟨row, hrow⟩ := List.exists_mem_of_ne_nil _ (answers.rows_ne_nil hexhausted)
    refine Prod.Lex.left _ _ (Loop.length_filter_lt (a := row.key) ?_ ?_ ?_ ?_)
    · intro key hkey
      simp only [decide_eq_true_eq] at hkey ⊢
      exact fun h => hkey (hmono key h)
    · exact ExtTreeMap.mem_keys.mpr (mem_of_getElem? (answers.owes hrow).2)
    · simpa using collects.rows_new row hrow
    · simpa using (collects.mem_committedRows answers).mpr (.inr ⟨row, hrow, rfl⟩)
  · refine Prod.Lex.right' _ ?_ ?_
    · refine List.Sublist.length_le (List.monotone_filter_right _ fun key hkey => ?_)
      simp only [decide_eq_true_eq] at hkey ⊢
      exact fun h => hkey (hmono key h)
    · refine ⟨work.map fun pending => maxScanTopologyRefreshes - pending.topologyRefreshes, 0,
        {maxScanTopologyRefreshes - pending.topologyRefreshes}, by simp, ?_, ?_, by simp⟩
      · rw [budget, hnext, add_zero]
      · rw [budget, hwork, List.map_cons, ← Multiset.cons_coe, ← Multiset.singleton_add, add_comm]

end Descent

end DistributedScan

end RagnorDb
