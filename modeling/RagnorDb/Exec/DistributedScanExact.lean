import RagnorDb.Exec.DistributedScanSpec

/-!
# Exactness of distributed scans

A scan against a truthful gateway always ends.  It returns the rows of the snapshot under the
pending writes if and only if every stale epoch on its way was harmless.
-/

namespace RagnorDb

open Std Checked OrderedMap OrderedRows

/-- What the store holds for a table with this content. -/
def TableContent.committed (content : TableContent) (tableId : TableId) (bytes : Bytes) :
    Option Bytes :=
  (decodeRowKey bytes).toOption.bind fun key =>
    if key.tableId = tableId then content.rows[key.primaryKeyBytes]? else none

namespace DistributedScan

variable {scan : DistributedScan} {partitioning : Partitioning} {content : TableContent}
  {state : ScanState} {calls : Nat} {routes : List TabletScanRoute}

/-! ## One iteration -/

/-- The cases of one iteration: the scan is over, goes on, or finds a row twice. -/
theorem scanStep_spec (truthful : scan.Truthful partitioning content) (request : scan.Admissible)
    (inv : scan.Inv partitioning content state) (hbounded : ∀ pending ∈ scan.staleFragment state,
      pending.topologyRefreshes < maxScanTopologyRefreshes) :
    (state.work = [] ∧ scan.scanStep partitioning.isHash state = .ok (.inr state)) ∨
    (∃ error, scan.scanStep partitioning.isHash state = .error error ∧
      ¬ scan.Unharmed partitioning content state) ∨
    ∃ next, scan.scanStep partitioning.isHash state = .ok (.inl next) ∧
      scan.Inv partitioning content next ∧
      Later (scan.uncollected content next, budget next)
        (scan.uncollected content state, budget state) ∧
      (scan.Unharmed partitioning content next ↔
        scan.Unharmed partitioning content state ∧ scan.Harmless partitioning content state) := by
  cases hwork : state.work with
  | nil => exact .inl ⟨rfl, by rw [scanStep, hwork]⟩
  | cons pending =>
    right
    rcases scanStep_cons truthful request inv hwork partitioning.isHash with
      ⟨hstale, hrefresh⟩ | ⟨hfresh, batch, answers, hstep⟩
    · obtain ⟨routes, hroutes, owners, hstep⟩ := hrefresh (hbounded pending hstale)
      exact .inr ⟨_, hstep, inv.refreshed hwork hroutes owners,
        later_refreshed hwork (hbounded pending hstale),
        unharmed_refreshed inv hwork hroutes owners hstale⟩
    · have hharmless : scan.Harmless partitioning content state := by
        intro other hother
        rw [hfresh] at hother
        cases hother
      rcases collectBatch_spec request inv hwork answers (state.calls + 2) with
        ⟨⟨row, hrow, hcollected⟩, error, herror⟩ | ⟨next, hnext, collects⟩
      · refine .inl ⟨error, by rw [hstep, herror]; rfl, fun unharmed => ?_⟩
        -- The row is collected, and the fragment owes it.
        obtain ⟨howes, hcontent⟩ := answers.owes hrow
        have hcopies := unharmed.copies_le row.key (mem_of_getElem? hcontent)
        rw [copies, if_pos hcollected, hwork, List.countP_cons, if_pos (by simpa using howes)]
          at hcopies
        omega
      · refine .inr ⟨next, by rw [hstep, hnext]; rfl, collects.inv answers hwork inv,
          collects.later answers hwork, ?_⟩
        rw [collects.unharmed_iff answers hwork]
        exact (and_iff_left hharmless).symm

/-! ## The first state -/

theorem initialRoutes_eq_ok (truthful : scan.Truthful partitioning content)
    (request : scan.Admissible) (calls : Nat) : ∃ routes,
    scan.initialRoutes calls = .ok routes ∧ partitioning.CurrentOwners .unbounded routes ∧
      scan.gateway.lookupScanRoutes calls scan.tableId .unbounded = .ok routes := by
  obtain ⟨routes, hroutes, owners⟩ :=
    truthful.routes calls .unbounded Position.bottom_lt_top
  refine ⟨routes, ?_, owners, hroutes⟩
  simp [initialRoutes, request.checkActive, hroutes, owners.validateScanRouteCover_eq_ok]

theorem copies_initialState (owners : partitioning.CurrentOwners .unbounded routes) (key : Bytes) :
    scan.copies partitioning (scan.initialState calls routes) key = 1 := by
  have howed : ((routes.map fun route => PendingScanFragment.mk route none 0).countP fun pending =>
      pending.Owes partitioning key) = routes.countP fun route => route.Holds partitioning key := by
    rw [List.countP_map]
    refine List.countP_congr fun route _ => ?_
    simp [PendingScanFragment.Owes, Behind]
  have hkey : (.key key : Position (compare : Bytes → Bytes → Ordering)) ∈
      ScanSpan.unbounded.points := ⟨Position.bottom_le, Position.key_lt_top⟩
  rw [copies, initialState, howed, owners.countP_holds, if_pos hkey,
    if_neg ExtTreeMap.not_mem_empty]

theorem spansAt_initialState (owners : Partitioning.range.CurrentOwners .unbounded routes)
    (p : Position (compare : Bytes → Bytes → Ordering)) :
    (scan.initialState calls routes).spansAt p =
      if p ∈ ScanSpan.unbounded.points then 1 else 0 := by
  rw [← owners.countP_points, ScanState.spansAt, initialState, List.countP_map]
  rfl

theorem inv_initialState (owners : partitioning.CurrentOwners .unbounded routes)
    (hroutes : scan.gateway.lookupScanRoutes calls scan.tableId .unbounded = .ok routes) :
    scan.Inv partitioning content (scan.initialState calls routes) := by
  have hwork : ∀ pending ∈ (scan.initialState calls routes).work, ∃ route ∈ routes,
      ⟨route, none, 0⟩ = pending := fun pending hpending => List.mem_map.mp hpending
  refine ⟨rfl, ?_, ?_, ?_, fun key _ => (copies_initialState owners key).ge,
    ScanProgress.wellFormed_new Position.bottom_lt_top, ?_⟩
  · intro pending hpending
    obtain ⟨route, hroute, rfl⟩ := hwork pending hpending
    exact ⟨calls, .unbounded, routes, Position.bottom_lt_top, hroutes, hroute⟩
  · intro pending hpending
    obtain ⟨route, hroute, rfl⟩ := hwork pending hpending
    exact ⟨owners.valid route hroute, owners.nonempty route hroute, by simp⟩
  · intro bytes row hrow
    simp [initialState] at hrow
  · cases partitioning with
    | range =>
      intro p
      rw [spansAt_initialState owners]
      refine ⟨by split <;> omega, fun hpos => ScanProgress.outstanding_new.mpr ?_⟩
      by_contra houtside
      rw [if_neg houtside] at hpos
      omega
    | hash =>
      refine ⟨fun pending hpending => ?_, fun p => ScanProgress.outstanding_new⟩
      obtain ⟨route, hroute, rfl⟩ := hwork pending hpending
      exact owners.divides.1 route hroute

theorem unharmed_initialState (owners : partitioning.CurrentOwners .unbounded routes) :
    scan.Unharmed partitioning content (scan.initialState calls routes) := by
  refine ⟨fun key _ => (copies_initialState owners key).le, fun hhash p hp => ?_⟩
  cases partitioning with
  | range =>
    rw [spansAt_initialState owners, if_pos (ScanProgress.outstanding_new.mp hp)]
    exact Nat.one_pos
  | hash => cases hhash

/-! ## Behind the loop -/

/-- The rows that the transaction sees in its snapshot, each once and in key order. -/
structure IsSnapshot (scan : DistributedScan) (content : TableContent) (rows : List KeyedRow) :
    Prop where
  lists : Lists (visibleTable scan.tableId
    (overlay scan.transaction.writes (content.committed scan.tableId))) rows
  sorted : rows.Pairwise fun a b => a.1.cmp b.1 = .lt

theorem decodeRowKey_storedKey (request : scan.Admissible) {key : Bytes}
    (hkey : key ∈ content.rows) :
    decodeRowKey (storedKey scan.tableId key) = .ok ⟨scan.tableId, key⟩ :=
  RowKey.decodeRowKey_of_encodeRowKey (content.encodeRowKey_eq_ok request.tableId_ne_zero hkey)
    request.tableId_le

/-- The collected rows of a scan without work are those of the table. -/
theorem Inv.committedRows_eq (request : scan.Admissible) (inv : scan.Inv partitioning content state)
    (hwork : state.work = []) {key : RowKey} {bytes : Bytes} (hid : key.tableId = scan.tableId)
    (hbytes : encodeRowKey key = .ok bytes) :
    (content.committed scan.tableId bytes).mapM decodeRow = .ok state.committedRows[bytes]? := by
  have hdecode := RowKey.decodeRowKey_of_encodeRowKey hbytes (hid ▸ request.tableId_le)
  obtain ⟨_, _, rfl⟩ := RowKey.encodeRowKey_eq_ok.mp hbytes
  have hcommitted : content.committed scan.tableId
      (rowKeyNamespace :: toBeBytes 8 key.tableId ++ key.primaryKeyBytes) =
      content.rows[key.primaryKeyBytes]? := by
    rw [TableContent.committed, hdecode, Except.toOption, Option.bind_some, if_pos hid]
  have hfound : ∀ row, state.committedRows[storedKey scan.tableId key.primaryKeyBytes]? = some row →
      ∃ stored, content.rows[key.primaryKeyBytes]? = some stored ∧ decodeRow stored = .ok row := by
    intro row hrow
    obtain ⟨found, stored, hsame, hstored, hdecoded⟩ := inv.collected _ row hrow
    exact ⟨stored, storedKey_inj.mp hsame ▸ hstored, hdecoded⟩
  rw [hcommitted, hid]
  show _ = Except.ok state.committedRows[storedKey scan.tableId key.primaryKeyBytes]?
  cases hcontent : content.rows[key.primaryKeyBytes]? with
  | none =>
    cases hrow : state.committedRows[storedKey scan.tableId key.primaryKeyBytes]? with
    | none => rfl
    | some row =>
      obtain ⟨stored, hstored, _⟩ := hfound row hrow
      rw [hcontent] at hstored
      cases hstored
  | some =>
    have hone := inv.one_le_copies _ (mem_of_getElem? hcontent)
    rw [copies, hwork, List.countP_nil] at hone
    split at hone
    · rename_i hmem
      obtain ⟨row, hrow⟩ := exists_of_mem hmem
      obtain ⟨stored', hstored', hdecoded⟩ := hfound row hrow
      cases hcontent.symm.trans hstored'
      simp [hrow, hdecoded]
    · omega

theorem finishScan_of_progress {identicalHashSpans : Bool} {progress : ScanProgress}
    (h : finalProgress identicalHashSpans state.progress = .ok progress) :
    scan.finishScan identicalHashSpans state =
      if progress.remaining.isEmpty then
        overlayRows scan.transaction scan.tableId state.committedRows
      else .error (.corruptData
        "distributed scan exhausted its route work with logical spans remaining") := by
  rw [finishScan, h, ok_bind, rejectIf]
  cases progress.remaining.isEmpty <;> rfl

/-- The progress behind the loop is complete exactly if nothing was lost. -/
theorem finishScan_eq (inv : scan.Inv partitioning content state) (hwork : state.work = []) :
    (scan.Unharmed partitioning content state ∧ scan.finishScan partitioning.isHash state =
      overlayRows scan.transaction scan.tableId state.committedRows) ∨
    (¬ scan.Unharmed partitioning content state ∧ ∃ error,
      scan.finishScan partitioning.isHash state = .error error) := by
  have hcopies : ∀ key ∈ content.rows, scan.copies partitioning state key ≤ 1 := by
    intro key _
    rw [copies, hwork, List.countP_nil]
    split <;> omega
  have htracks := inv.tracks
  cases partitioning with
  | range =>
    have hfinal : finalProgress false state.progress = .ok state.progress := rfl
    have hfinish : scan.finishScan _ state = _ := finishScan_of_progress hfinal
    cases hempty : state.progress.remaining.isEmpty with
    | true =>
      have hnone := (ScanProgress.isEmpty_remaining inv.wellFormed).mp hempty
      refine .inl ⟨⟨hcopies, fun _ p hp => absurd hp (hnone p)⟩, ?_⟩
      exact hfinish.trans (if_pos hempty)
    | false =>
      refine .inr ⟨fun unharmed => ?_, _, hfinish.trans (if_neg (by simp [hempty]))⟩
      rw [Bool.eq_false_iff, Ne, ScanProgress.isEmpty_remaining inv.wellFormed] at hempty
      refine hempty fun p hp => ?_
      have hpos := unharmed.spans rfl p hp
      rw [ScanState.spansAt, hwork] at hpos
      cases hpos
  | hash =>
    have hspan : ScanSpan.unbounded.lower < ScanSpan.unbounded.upper := Position.bottom_lt_top
    obtain ⟨progress, hmarked, _, hwf, hleft⟩ := ScanProgress.exists_marked inv.wellFormed
      hspan fun p hp => (htracks.2 p).mpr hp
    have hempty : progress.remaining.isEmpty = true :=
      (ScanProgress.isEmpty_remaining hwf).mpr fun p hp =>
        ((hleft p).mp hp).2 ((htracks.2 p).mp ((hleft p).mp hp).1)
    refine .inl ⟨⟨hcopies, fun hhash => ?_⟩, ?_⟩
    · cases hhash
    · have hfinal : finalProgress true state.progress = .ok progress := hmarked
      exact (finishScan_of_progress hfinal).trans (if_pos hempty)

theorem exists_overlayRows_isSnapshot (request : scan.Admissible)
    (inv : scan.Inv partitioning content state) (hwork : state.work = []) :
    ∃ rows, overlayRows scan.transaction scan.tableId state.committedRows = .ok rows ∧
      scan.IsSnapshot content rows := by
  have hkeys : ∀ bytes ∈ state.committedRows, ∃ key, decodeRowKey bytes = .ok key ∧
      key.tableId = scan.tableId := by
    intro bytes hbytes
    obtain ⟨row, hrow⟩ := exists_of_mem hbytes
    obtain ⟨key, stored, rfl, hstored, _⟩ := inv.collected bytes row hrow
    exact ⟨_, decodeRowKey_storedKey request (mem_of_getElem? hstored), rfl⟩
  obtain ⟨rows, hrows⟩ := exists_overlayRows
    (fun bytes hbytes => (hkeys bytes hbytes).imp fun _ h => h.1) request.writes
  exact ⟨rows, hrows, lists_overlayRows request.tableId_le hkeys
    (fun key bytes hid hbytes _ => inv.committedRows_eq request hwork hid hbytes) hrows,
    sorted_overlayRows hrows⟩

/-! ## Whole scans -/

/-- The states that a scan visits. -/
def Visits (scan : DistributedScan) (calls : Nat) (state : ScanState) : Prop :=
  ∃ routes, scan.initialRoutes calls = .ok routes ∧
    Loop.Visits (scan.scanStep (identicalHashSpans routes)) (scan.initialState calls routes) state

/-- No fragment is answered with a stale epoch more often than it may be refreshed. -/
def Bounded (scan : DistributedScan) (calls : Nat) : Prop :=
  ∀ state, scan.Visits calls state → ∀ pending ∈ scan.staleFragment state,
    pending.topologyRefreshes < maxScanTopologyRefreshes

section Runs

variable (truthful : scan.Truthful partitioning content) (request : scan.Admissible)
  (hbounded : scan.Bounded calls)

include truthful request

theorem visits_iff (hroutes : scan.initialRoutes calls = .ok routes) :
    scan.Visits calls state ↔
      Loop.Visits (scan.scanStep partitioning.isHash) (scan.initialState calls routes) state := by
  obtain ⟨described, hdescribed, owners, _⟩ := initialRoutes_eq_ok truthful request calls
  cases hroutes.symm.trans hdescribed
  rw [Visits, ← owners.identicalHashSpans_eq]
  constructor
  · rintro ⟨others, hothers, hvisits⟩
    cases hroutes.symm.trans hothers
    exact hvisits
  · exact fun hvisits => ⟨routes, hroutes, hvisits⟩

include hbounded

theorem inv_of_visits (hvisits : scan.Visits calls state) :
    scan.Inv partitioning content state := by
  obtain ⟨routes, hroutes, owners, hlookup⟩ := initialRoutes_eq_ok truthful request calls
  have hrun := (visits_iff truthful request hroutes).mp hvisits
  induction hrun with
  | refl => exact inv_initialState owners hlookup
  | tail hrun hstep ih =>
    have hvisited := (visits_iff truthful request hroutes).mpr hrun
    rcases scanStep_spec truthful request (ih hvisited) (hbounded _ hvisited) with
      ⟨_, hover⟩ | ⟨_, hfails, _⟩ | ⟨next, hnext, inv, _⟩
    · cases hover.symm.trans hstep
    · cases hfails.symm.trans hstep
    · cases hnext.symm.trans hstep
      exact inv

theorem unharmed_next (hvisits : scan.Visits calls state) {next : ScanState}
    (hstep : scan.scanStep partitioning.isHash state = .ok (.inl next)) :
    scan.Unharmed partitioning content next ↔
      scan.Unharmed partitioning content state ∧ scan.Harmless partitioning content state := by
  rcases scanStep_spec truthful request (inv_of_visits truthful request hbounded hvisits)
    (hbounded _ hvisits) with ⟨_, hover⟩ | ⟨_, hfails, _⟩ | ⟨other, hnext, _, _, hiff⟩
  · cases hover.symm.trans hstep
  · cases hfails.symm.trans hstep
  · cases hnext.symm.trans hstep
    exact hiff

/-- Every scan ends, in a state without work or with a row found twice. -/
theorem exists_last (hroutes : scan.initialRoutes calls = .ok routes) : ∃ last,
    scan.Visits calls last ∧
      ((last.work = [] ∧ scan.scanStep partitioning.isHash last = .ok (.inr last)) ∨
        ∃ error, scan.scanStep partitioning.isHash last = .error error ∧
          ¬ scan.Unharmed partitioning content last) := by
  have hiff : ∀ state, _ ↔ _ := fun state => @visits_iff _ _ _ state _ _ truthful request hroutes
  have hnext : ∀ state next, scan.Visits calls state →
      scan.scanStep partitioning.isHash state = .ok (.inl next) → scan.Visits calls next ∧
        Later (scan.uncollected content next, budget next)
          (scan.uncollected content state, budget state) := by
    intro state next hvisits hstep
    refine ⟨(hiff next).mpr (((hiff state).mp hvisits).tail hstep), ?_⟩
    rcases scanStep_spec truthful request (inv_of_visits truthful request hbounded hvisits)
      (hbounded _ hvisits) with ⟨_, hover⟩ | ⟨_, hfails, _⟩ | ⟨other, hother, _, hlater, _⟩
    · cases hover.symm.trans hstep
    · cases hfails.symm.trans hstep
    · cases hother.symm.trans hstep
      exact hlater
  obtain ⟨result, hends⟩ := Loop.exists_ends wellFounded_later _ hnext ((hiff _).mpr .refl)
  obtain ⟨last, hrun, hexits⟩ := Loop.ends_iff.mp hends
  have hvisits := (hiff last).mpr hrun
  refine ⟨last, hvisits, ?_⟩
  rcases scanStep_spec truthful request (inv_of_visits truthful request hbounded hvisits)
    (hbounded _ hvisits) with hover | hfails | ⟨next, hnext, _⟩
  · exact .inl hover
  · exact .inr hfails
  · cases result <;> cases hnext.symm.trans hexits

theorem harmless_of_unharmed {last : ScanState} (hvisits : scan.Visits calls state)
    (hrun : Loop.Visits (scan.scanStep partitioning.isHash) state last) (hwork : last.work = [])
    (hlast : scan.Unharmed partitioning content last) :
    scan.Unharmed partitioning content state ∧ scan.Harmless partitioning content state := by
  obtain ⟨routes, hroutes, _⟩ := initialRoutes_eq_ok truthful request calls
  induction hrun using Relation.ReflTransGen.head_induction_on with
  | refl =>
    refine ⟨hlast, fun pending hpending => ?_⟩
    rw [staleFragment, hwork] at hpending
    cases hpending
  | head hstep _ ih =>
    have hrun := (visits_iff truthful request hroutes).mp hvisits
    obtain ⟨hnext, _⟩ := ih ((visits_iff truthful request hroutes).mpr (hrun.tail hstep))
    exact (unharmed_next truthful request hbounded hvisits hstep).mp hnext

theorem unharmed_of_harmless
    (hharmless : ∀ state, scan.Visits calls state → scan.Harmless partitioning content state)
    (hvisits : scan.Visits calls state) : scan.Unharmed partitioning content state := by
  obtain ⟨routes, hroutes, owners, _⟩ := initialRoutes_eq_ok truthful request calls
  have hrun := (visits_iff truthful request hroutes).mp hvisits
  induction hrun with
  | refl => exact unharmed_initialState owners
  | tail hrun hstep ih =>
    have hvisited := (visits_iff truthful request hroutes).mpr hrun
    exact (unharmed_next truthful request hbounded hvisited hstep).mpr
      ⟨ih hvisited, hharmless _ hvisited⟩

/-- A scan against a truthful gateway returns the rows of its snapshot if and only if every stale
epoch on its way is harmless. -/
theorem distributedScan_isSnapshot_iff :
    (∃ rows fuel, scan.IsSnapshot content rows ∧
      scan.executor.distributedScan (some scan.gateway) (some scan.context) scan.transaction
        scan.tableId calls fuel = some (.ok rows)) ↔
      ∀ state, scan.Visits calls state → scan.Harmless partitioning content state := by
  obtain ⟨routes, hroutes, owners, _⟩ := initialRoutes_eq_ok truthful request calls
  have hiff := fun state => @visits_iff _ _ _ state _ _ truthful request hroutes
  have hscan : ∀ fuel, scan.executor.distributedScan (some scan.gateway) (some scan.context)
      scan.transaction scan.tableId calls fuel =
      (Loop.iterate (scan.scanStep partitioning.isHash) fuel
        (scan.initialState calls routes)).map (· >>= scan.finishScan partitioning.isHash) := by
    intro fuel
    rw [← owners.identicalHashSpans_eq, Executor.distributedScan, scanRows, hroutes]
  obtain ⟨last, hvisits, hlast⟩ := exists_last truthful request hbounded hroutes
  have inv := inv_of_visits truthful request hbounded hvisits
  constructor
  · rintro ⟨rows, fuel, _, hrows⟩ state hstate
    rw [hscan, Option.map_eq_some_iff] at hrows
    obtain ⟨result, hfuel, hresult⟩ := hrows
    -- The result stems from the last state, which every visited state leads to.
    obtain ⟨stopped, hrun, hexits⟩ := Loop.ends_iff.mp ⟨fuel, hfuel⟩
    rw [bind_eq_ok] at hresult
    obtain ⟨final, rfl, hfinish⟩ := hresult
    have hvisits := (hiff stopped).mpr hrun
    have inv := inv_of_visits truthful request hbounded hvisits
    obtain ⟨hwork, rfl⟩ : stopped.work = [] ∧ stopped = final := by
      rcases scanStep_spec truthful request inv (hbounded _ hvisits) with
        ⟨hwork, hover⟩ | ⟨_, hfails, _⟩ | ⟨_, hnext, _⟩
      · cases hover.symm.trans hexits
        exact ⟨hwork, rfl⟩
      · cases hfails.symm.trans hexits
      · cases hnext.symm.trans hexits
    have hunharmed : scan.Unharmed partitioning content stopped := by
      rcases finishScan_eq inv hwork with ⟨hunharmed, _⟩ | ⟨_, error, herror⟩
      · exact hunharmed
      · cases herror.symm.trans hfinish
    have hreach : Loop.Visits (scan.scanStep partitioning.isHash) state stopped := by
      rcases Relation.ReflTransGen.total_of_right_unique
        (fun _ _ _ h h' => by cases h.symm.trans h'; rfl) ((hiff state).mp hstate) hrun with h | h
      · exact h
      · rcases h.cases_head with rfl | ⟨_, hnext, _⟩
        · exact .refl
        · cases hnext.symm.trans hexits
    exact (harmless_of_unharmed truthful request hbounded hstate hreach hwork hunharmed).2
  · intro hharmless
    have hunharmed := unharmed_of_harmless truthful request hbounded hharmless hvisits
    rcases hlast with ⟨hwork, hover⟩ | ⟨_, _, hharmed⟩
    · have hexits : Loop.Exits (scan.scanStep partitioning.isHash) last (.ok last) := hover
      obtain ⟨fuel, hfuel⟩ := Loop.ends_iff.mpr ⟨last, (hiff last).mp hvisits, hexits⟩
      rcases finishScan_eq inv hwork with ⟨_, hfinish⟩ | ⟨hharmed, _⟩
      · obtain ⟨rows, hrows, hsnapshot⟩ := exists_overlayRows_isSnapshot request inv hwork
        refine ⟨rows, fuel, hsnapshot, ?_⟩
        rw [hscan, hfuel, Option.map_some, ok_bind, hfinish, hrows]
      · exact absurd hunharmed hharmed
    · exact absurd hunharmed hharmed

end Runs

/-! ## Two buckets and one row

The row belongs to the first bucket.  A stale epoch of that bucket is harmless; one of the other
bucket has the row read again.
-/

def sampleBuckets : HashBuckets where
  buckets := [1, 2]
  bucketOf _ := 1
  nodup := by decide
  two_le := by decide
  mem_buckets _ := by decide

theorem sample_getElem? {key row : Bytes} :
    ((∅ : ExtTreeMap Bytes Bytes compare).insert [0x30, 0] [1, 0, 0, 0, 0])[key]? = some row ↔
      key = [0x30, 0] ∧ row = [1, 0, 0, 0, 0] := by
  rw [ExtTreeMap.getElem?_insert]
  by_cases hkey : [0x30, 0] = key
  · simp [← hkey, eq_comm]
  · rw [if_neg (mt LawfulEqCmp.compare_eq_iff_eq.mp hkey)]
    simp [Ne.symm hkey]

def sampleContent : TableContent where
  rows := (∅ : ExtTreeMap Bytes Bytes compare).insert [0x30, 0] [1, 0, 0, 0, 0]
  decode_key key hkey := by
    obtain ⟨_, hrow⟩ := exists_of_mem hkey
    exact ⟨[.bool false], (sample_getElem?.mp hrow).1 ▸ by decide +kernel⟩
  decode_row key row hrow := ⟨⟨[]⟩, (sample_getElem?.mp hrow).2 ▸ by decide +kernel⟩

def sampleScanRoute (span : ScanSpan) (tabletId : TabletId) : TabletScanRoute :=
  ⟨⟨tabletId, tabletId, 1, 1, [⟨1, 1⟩]⟩, span⟩

def sampleBatch (owed : Bool) : TabletScanBatch :=
  ⟨if owed then [⟨[0x30, 0], [1, 0, 0, 0, 0]⟩] else [], [], none, true⟩

variable (staleCall : Nat)

/-- Both buckets own every span, and the page of one call meets a stale epoch. -/
def sampleGateway : ScanGateway where
  lookupScanRoutes _ _ span := .ok [sampleScanRoute span 1, sampleScanRoute span 2]
  scanPage call route _ span resumeAfter _ _ _ :=
    if call = staleCall then .error (.staleTabletEpoch 2 1)
    else .ok (sampleBatch (PendingScanFragment.Owes (.hash sampleBuckets)
      ⟨⟨route, span⟩, resumeAfter, 0⟩ [0x30, 0]))
  resolveForegroundIntent _ _ _ _ := .ok ()
  lockLen _ := 0

def sampleScan : DistributedScan where
  executor := ⟨∅⟩
  gateway := sampleGateway staleCall
  context := ⟨fun _ => .ok (), fun _ raftGroupId => .ok ⟨1, 1, raftGroupId⟩, fun _ => .ok ()⟩
  transaction := { id := 1, startTs := 1, createdAt := 0 }
  tableId := 1

theorem sampleBatch_answers (pending : PendingScanFragment) :
    (sampleBatch (pending.Owes (.hash sampleBuckets) [0x30, 0])).Answers sampleContent
    (pending.Owes (.hash sampleBuckets)) := by
  have hcovers : ∀ owed key, (sampleBatch owed).Covers key := fun _ _ h => by cases h
  by_cases howes : pending.Owes (.hash sampleBuckets) [0x30, 0]
  · rw [decide_eq_true howes]
    refine ⟨rfl, ⟨List.pairwise_singleton _ _, fun key row => ?_⟩, fun h => (by cases h), rfl,
      by decide, by decide⟩
    rw [sampleContent, sample_getElem?, and_iff_left (hcovers _ key)]
    constructor
    · intro h
      cases List.mem_singleton.mp h
      exact ⟨howes, rfl, rfl⟩
    · rintro ⟨_, rfl, rfl⟩
      exact List.mem_singleton_self _
  · rw [decide_eq_false howes]
    refine ⟨rfl, ⟨.nil, fun key row => ?_⟩, fun h => (by cases h), rfl, by decide, by decide⟩
    rw [sampleContent, sample_getElem?, and_iff_left (hcovers _ key)]
    refine ⟨fun h => (by cases h), ?_⟩
    rintro ⟨h, rfl, _⟩
    exact absurd h howes

theorem sample_truthful :
    (sampleScan staleCall).Truthful (.hash sampleBuckets) sampleContent where
  routes call span hspan := by
    refine ⟨_, rfl, ?_, ?_, List.nodup_iff_pairwise_ne.mpr ?_, ?_⟩
    · have hvalid : ∀ tabletId ∈ [1, 2],
          (sampleScanRoute .unbounded tabletId).route.validate = .ok () := by decide +kernel
      intro route hroute
      rw [List.mem_cons, List.mem_singleton] at hroute
      rcases hroute with rfl | rfl
      · exact hvalid 1 (by decide)
      · exact hvalid 2 (by decide)
    · simp [sampleScanRoute, hspan]
    · simp [sampleScanRoute]
    · exact ⟨by simp [sampleScanRoute], .refl _⟩
  pages call pending requestId _ _ := by
    refine ⟨_, rfl, ?_⟩
    by_cases hcall : call = staleCall
    · exact .inl ⟨2, 1, if_pos hcall⟩
    · exact .inr ⟨_, if_neg hcall, sampleBatch_answers pending⟩
  remote route _ := by simp [sampleScan, Executor.isLocalCompatibilityRoute]

theorem sample_admissible : (sampleScan staleCall).Admissible where
  checkActive _ := rfl
  remainingTimeout _ := rfl
  requestId _ raftGroupId hgroup := ⟨_, rfl, one_ne_zero, one_ne_zero, hgroup⟩
  startTs_ne_zero := one_ne_zero
  tableId_ne_zero := one_ne_zero
  tableId_le := by simp [sampleScan, u64Max]
  writes entry hentry := by
    have hempty : (∅ : Mutations).toList = [] := by decide +kernel
    cases hentry

/-- A stale fragment with refreshes left, nothing delivered, and one of the tablets. -/
def sampleTest (tabletIds : List TabletId) (state : ScanState) : Bool :=
  ((sampleScan staleCall).staleFragment state).all fun pending =>
    pending.resumeAfter = none ∧ pending.topologyRefreshes < maxScanTopologyRefreshes ∧
      pending.route.route.tabletId ∈ tabletIds

theorem sampleTest_of_visits {staleCall : Nat} (tabletIds : List TabletId)
    (h : Loop.passes ((sampleScan staleCall).scanStep true) (sampleTest staleCall tabletIds) 8
    ((sampleScan staleCall).initialState 0 [sampleScanRoute .unbounded 1,
        sampleScanRoute .unbounded 2]) = true) (hroutes : (sampleScan staleCall).initialRoutes 0 =
      .ok [sampleScanRoute .unbounded 1, sampleScanRoute .unbounded 2])
    (hvisits : (sampleScan staleCall).Visits 0 state)
    {pending : PendingScanFragment}
    (hpending : pending ∈ (sampleScan staleCall).staleFragment state) :
    pending.resumeAfter = none ∧ pending.topologyRefreshes < maxScanTopologyRefreshes ∧
      pending.route.route.tabletId ∈ tabletIds := by
  have hrun := (visits_iff (sample_truthful staleCall) (sample_admissible staleCall)
    hroutes).mp hvisits
  have htest := Loop.test_of_passes h hrun
  rw [sampleTest, Option.all_eq_true] at htest
  exact of_decide_eq_true (htest pending hpending)

theorem distributedScan_isSnapshot_sample : ∃ rows fuel,
    (sampleScan 2).IsSnapshot sampleContent rows ∧
    (sampleScan 2).executor.distributedScan (some (sampleScan 2).gateway)
    (some (sampleScan 2).context) (sampleScan 2).transaction 1 0 fuel = some (.ok rows) := by
  have htest : ∀ state, (sampleScan 2).Visits 0 state →
      ∀ pending ∈ (sampleScan 2).staleFragment state,
      _ := fun state hvisits pending => sampleTest_of_visits [1]
    (by decide +kernel) (by decide +kernel) hvisits
  refine (distributedScan_isSnapshot_iff (sample_truthful 2) (sample_admissible 2)
    fun state hvisits pending hpending => (htest state hvisits pending hpending).2.1).mpr ?_
  intro state hvisits pending hpending
  obtain ⟨hresume, _, htablet⟩ := htest state hvisits pending hpending
  refine ⟨fun routes _ route _ => by rw [TabletScanRoute.isFinished, hresume]; rfl,
    fun key _ _ _ => ?_⟩
  exact (List.mem_singleton.mp htablet).symm

/-- The other bucket meets a stale epoch once, and the scan fails. -/
theorem distributedScan_reads_bucket_again :
    (sampleScan 4).Truthful (.hash sampleBuckets) sampleContent ∧ (sampleScan 4).Admissible ∧
    (sampleScan 4).Bounded 0 ∧
    (sampleScan 4).executor.distributedScan (some (sampleScan 4).gateway)
    (some (sampleScan 4).context) (sampleScan 4).transaction 1 0 8 =
      some (.error (.distributedScanFailed 1 false
        "corrupt data: distributed scan returned the same logical row more than once")) := by
  refine ⟨sample_truthful 4, sample_admissible 4, fun state hvisits pending hpending => ?_, ?_⟩
  · exact (sampleTest_of_visits [1, 2] (by decide +kernel) (by decide +kernel)
      hvisits hpending).2.1
  · decide +kernel

end DistributedScan

end RagnorDb
