import RagnorDb.Exec.DistributedScan

/-!
# The owners of a table

How the rows of a table are spread over tablets, by key ranges or by hash buckets, and what it
means that routes describe the current owners of a span.  Every key of the span then has exactly
one owner, also among the fragments that a refreshed cover leaves behind a cursor.
-/

namespace RagnorDb

open Std Checked OrderedMap

/-- The buckets of a hash partitioned table; a table with a single bucket is one range. -/
structure HashBuckets where
  buckets : List TabletId
  bucketOf : Bytes → TabletId
  nodup : buckets.Nodup
  two_le : 2 ≤ buckets.length
  mem_buckets : ∀ key, bucketOf key ∈ buckets

inductive Partitioning where
  | range
  | hash (buckets : HashBuckets)

namespace Partitioning

def isHash : Partitioning → Bool
  | .range => false
  | .hash _ => true

/-- The keys of a route's span that its tablet holds. -/
def Owns : Partitioning → TabletId → Bytes → Prop
  | .range, _, _ => True
  | .hash buckets, tabletId, key => buckets.bucketOf key = tabletId

instance (partitioning : Partitioning) (tabletId : TabletId) (key : Bytes) :
    Decidable (partitioning.Owns tabletId key) :=
  match partitioning with
  | .range => inferInstanceAs (Decidable True)
  | .hash _ => inferInstanceAs (Decidable (_ = _))

/-- The routes divide the span as the table is partitioned. -/
def Divides (span : ScanSpan) (routes : List TabletScanRoute) : Partitioning → Prop
  | .range => ScanSpan.Adjacent span.endKey span.startKey (routes.map (·.span))
  | .hash buckets => (∀ route ∈ routes, route.span = span) ∧
      (routes.map (·.route.tabletId)).Perm buckets.buckets

/-- The routes are the owners of a span: valid, of different tablets, and dividing the span. -/
structure CurrentOwners (partitioning : Partitioning) (span : ScanSpan)
    (routes : List TabletScanRoute) : Prop where
  valid : ∀ route ∈ routes, route.route.validate = .ok ()
  nonempty : ∀ route ∈ routes, route.span.lower < route.span.upper
  nodup : (routes.map (·.route.tabletId)).Nodup
  divides : partitioning.Divides span routes

end Partitioning

/-- A key of the route's span that its tablet holds. -/
def TabletScanRoute.Holds (partitioning : Partitioning) (route : TabletScanRoute) (key : Bytes) :
    Prop :=
  .key key ∈ route.span.points ∧ partitioning.Owns route.route.tabletId key

instance (partitioning : Partitioning) (route : TabletScanRoute) (key : Bytes) :
    Decidable (route.Holds partitioning key) :=
  inferInstanceAs (Decidable (_ ∧ _))

/-- Whether a key lies behind the last one that was delivered. -/
def Behind (resumeAfter : Option Bytes) (key : Bytes) : Prop :=
  ∀ last ∈ resumeAfter, compare last key = .lt

instance (resumeAfter : Option Bytes) (key : Bytes) : Decidable (Behind resumeAfter key) :=
  inferInstanceAs (Decidable (∀ last ∈ resumeAfter, _))

/-- A key that a fragment still has to deliver, if it has a row. -/
def PendingScanFragment.Owes (partitioning : Partitioning) (pending : PendingScanFragment)
    (key : Bytes) : Prop :=
  pending.route.Holds partitioning key ∧ Behind pending.resumeAfter key

instance (partitioning : Partitioning) (pending : PendingScanFragment) (key : Bytes) :
    Decidable (pending.Owes partitioning key) :=
  inferInstanceAs (Decidable (_ ∧ _))

namespace Partitioning.CurrentOwners

variable {partitioning : Partitioning} {span : ScanSpan} {routes : List TabletScanRoute}
  {key : Bytes}

theorem ne_nil (owners : partitioning.CurrentOwners span routes) : routes ≠ [] := by
  rintro rfl
  have hdivides := owners.divides
  cases partitioning with
  | range => cases hdivides
  | hash buckets =>
    have hlength := hdivides.2.length_eq
    have htwo := buckets.two_le
    simp at hlength
    omega

/-- Every key of the span has exactly one owner. -/
theorem countP_holds (owners : partitioning.CurrentOwners span routes) :
    routes.countP (fun route => route.Holds partitioning key) =
      if .key key ∈ span.points then 1 else 0 := by
  have hdivides := owners.divides
  cases partitioning with
  | range =>
    have hcount := ScanSpan.Adjacent.countP_mem (p := .key key) hdivides
      (by simpa using owners.nonempty)
    rw [List.countP_map] at hcount
    rw [← hcount]
    refine List.countP_congr fun route _ => ?_
    simp [TabletScanRoute.Holds, Owns]
  | hash buckets =>
    obtain ⟨hspans, hperm⟩ := hdivides
    by_cases hkey : .key key ∈ span.points
    · have hcount : routes.countP (fun route => route.Holds (.hash buckets) key) =
          (routes.map (·.route.tabletId)).count (buckets.bucketOf key) := by
        rw [List.count, List.countP_map]
        refine List.countP_congr fun route hroute => ?_
        simp only [TabletScanRoute.Holds, Owns, hspans route hroute, hkey, true_and,
          decide_eq_true_eq, Function.comp_apply, beq_iff_eq]
        exact eq_comm
      rw [hcount, hperm.count_eq, if_pos hkey]
      exact List.count_eq_one_of_mem buckets.nodup (buckets.mem_buckets key)
    · rw [if_neg hkey, List.countP_eq_zero]
      intro route hroute
      simp [TabletScanRoute.Holds, hspans route hroute, hkey]

theorem exists_foldlM_collectScanRoute (seen : ExtTreeSet TabletId compare)
    (hvalid : ∀ route ∈ routes, route.route.validate = .ok ())
    (hspan : ∀ route ∈ routes, route.span.lower < route.span.upper)
    (hnodup : (routes.map (·.route.tabletId)).Nodup)
    (hnew : ∀ route ∈ routes, route.route.tabletId ∉ seen) :
    ∃ all, routes.foldlM collectScanRoute seen = .ok all := by
  induction routes generalizing seen with
  | nil => exact ⟨seen, rfl⟩
  | cons route routes ih =>
    rw [List.map_cons, List.nodup_cons] at hnodup
    obtain ⟨hvalid, hvalids⟩ := List.forall_mem_cons.mp hvalid
    obtain ⟨hspan, hspans⟩ := List.forall_mem_cons.mp hspan
    obtain ⟨hnew, hnews⟩ := List.forall_mem_cons.mp hnew
    have hstep : collectScanRoute seen route = .ok (seen.insert route.route.tabletId) := by
      simp [collectScanRoute, hvalid, ScanSpan.validate_eq_ok.mpr hspan, hnew, Except.mapError]
    rw [List.foldlM_cons, hstep]
    refine ih _ hvalids hspans hnodup.2 fun other hother => ?_
    rw [ExtTreeSet.mem_insert, LawfulEqCmp.compare_eq_iff_eq, not_or]
    refine ⟨fun heq => hnodup.1 ?_, hnews other hother⟩
    rw [heq]
    exact List.mem_map_of_mem hother

theorem followScanRoutes_of_adjacent {start stop : Option Bytes}
    (h : ScanSpan.Adjacent stop start (routes.map (·.span))) :
    followScanRoutes start routes = .ok stop := by
  generalize hspans : routes.map (·.span) = spans at h
  induction h generalizing routes with
  | last =>
    obtain ⟨route, rfl, hspan⟩ := List.map_eq_singleton_iff.mp hspans
    simp [followScanRoutes, hspan]
  | @cons start k spans hadjacent ih =>
    obtain ⟨route, rest, rfl, hspan, hrest⟩ := List.map_eq_cons_iff.mp hspans
    simp [followScanRoutes, hspan, ih hrest]

theorem validateScanRouteCover_eq_ok (owners : partitioning.CurrentOwners span routes) :
    validateScanRouteCover span routes = .ok () := by
  obtain ⟨all, hall⟩ := exists_foldlM_collectScanRoute ∅ owners.valid owners.nonempty
    owners.nodup (fun _ _ => ExtTreeSet.not_mem_empty)
  simp only [validateScanRouteCover, rejectIf, owners.ne_nil, if_false, hall, ok_bind]
  split
  · rfl
  · rename_i hdifferent
    have hdivides := owners.divides
    cases partitioning with
    | range => simp [followScanRoutes_of_adjacent hdivides]
    | hash => exact absurd hdivides.1 hdifferent

/-- Several buckets own the complete span, and ranges never do. -/
theorem identicalHashSpans_eq (owners : partitioning.CurrentOwners .unbounded routes) :
    DistributedScan.identicalHashSpans routes = partitioning.isHash := by
  have hdivides := owners.divides
  cases partitioning with
  | range =>
    have hspans : ScanSpan.Adjacent none none (routes.map (·.span)) := hdivides
    generalize hmap : routes.map (·.span) = spans at hspans
    cases hspans with
    | last =>
      obtain ⟨route, rfl, _⟩ := List.map_eq_singleton_iff.mp hmap
      rfl
    | cons =>
      obtain ⟨route, rest, rfl, hspan, _⟩ := List.map_eq_cons_iff.mp hmap
      simp [DistributedScan.identicalHashSpans, isHash, hspan, ScanSpan.unbounded]
  | hash buckets =>
    have hlength := hdivides.2.length_eq
    rw [List.length_map] at hlength
    have htwo := buckets.two_le
    simp only [DistributedScan.identicalHashSpans, isHash, Bool.and_eq_true,
      decide_eq_true_eq, List.all_eq_true]
    exact ⟨by omega, hdivides.1⟩

end Partitioning.CurrentOwners

/-! ## Refreshed covers -/

section Resume

variable {partitioning : Partitioning} {span : ScanSpan} {routes : List TabletScanRoute}
  {route : TabletScanRoute} {resumeAfter : Option Bytes} {key : Bytes} {refreshes : Nat}
  {p : Position (compare : Bytes → Bytes → Ordering)}

theorem TabletScanRoute.isFinished_iff : route.isFinished resumeAfter = true ↔
    ∃ last, resumeAfter = some last ∧ route.span.upper ≤ .key last := by
  cases resumeAfter with
  | none => simp [isFinished]
  | some =>
    cases hend : route.span.endKey <;>
      simp [isFinished, hend, ScanSpan.upper, Position.upper]

/-- The fragment of a refreshed route that is not finished. -/
def TabletScanRoute.resume (resumeAfter : Option Bytes) (refreshes : Nat)
    (route : TabletScanRoute) : PendingScanFragment where
  route
  resumeAfter := resumeAfter.filter fun resumeAfter =>
    route.span.startKey.all fun startKey => (compare startKey resumeAfter).isLE
  topologyRefreshes := refreshes

theorem resumeScanRoutes_eq : resumeScanRoutes routes resumeAfter refreshes =
    (routes.filter fun route => !route.isFinished resumeAfter).map
      (·.resume resumeAfter refreshes) := by
  induction routes with
  | nil => rfl
  | cons route routes ih =>
    rw [resumeScanRoutes] at ih ⊢
    rw [List.filterMap_cons, List.filter_cons, ih]
    cases hfinished : route.isFinished resumeAfter <;> simp [TabletScanRoute.resume]

theorem mem_resumeScanRoutes {pending : PendingScanFragment} :
    pending ∈ resumeScanRoutes routes resumeAfter refreshes ↔
      ∃ route ∈ routes, route.isFinished resumeAfter = false ∧
        route.resume resumeAfter refreshes = pending := by
  simp [resumeScanRoutes_eq, and_assoc]

theorem TabletScanRoute.owes_resume : (route.resume resumeAfter refreshes).Owes partitioning key ↔
    route.Holds partitioning key ∧ Behind resumeAfter key := by
  refine and_congr_right fun hholds => ?_
  cases resumeAfter with
  | none => rfl
  | some last =>
    simp only [resume, Option.filter_some]
    split
    · rfl
    · -- The route starts behind the cursor, and so do all of its keys.
      rename_i hstart
      refine iff_of_true (by simp [Behind]) ?_
      rintro _ ⟨⟩
      obtain ⟨start, hspan, hlt⟩ : ∃ start, route.span.startKey = some start ∧
          compare start last = .gt := by
        cases hspan : route.span.startKey with
        | none => simp [hspan] at hstart
        | some => simpa [hspan] using hstart
      have hle : (Position.key start : Position (compare : Bytes → Bytes → Ordering)) ≤ .key key :=
        ScanSpan.lower_of_startKey hspan ▸ hholds.1.1
      exact TransCmp.lt_of_lt_of_isLE (OrientedCmp.lt_of_gt hlt) hle

theorem TabletScanRoute.not_behind_of_isFinished (h : route.isFinished resumeAfter = true)
    (hkey : .key key ∈ route.span.points) : ¬ Behind resumeAfter key := by
  obtain ⟨last, rfl, hle⟩ := isFinished_iff.mp h
  intro hbehind
  have hlt : (Position.key last : Position (compare : Bytes → Bytes → Ordering)) < .key key :=
    Position.key_lt_key.mpr (hbehind last rfl)
  exact absurd (hlt.trans hkey.2) hle.not_gt

theorem TabletScanRoute.key_mem_points_of_resume {last : Bytes}
    (h : route.isFinished resumeAfter = false)
    (hlast : last ∈ (route.resume resumeAfter refreshes).resumeAfter) :
    .key last ∈ route.span.points := by
  obtain ⟨hresume, hstart⟩ := Option.filter_eq_some_iff.mp hlast
  constructor
  · cases hstartKey : route.span.startKey with
    | none =>
      rw [ScanSpan.lower, hstartKey]
      exact Position.bottom_le
    | some =>
      rw [ScanSpan.lower_of_startKey hstartKey]
      simpa [hstartKey] using hstart
  · refine lt_of_not_ge fun hle => ?_
    rw [isFinished_iff.mpr ⟨last, hresume, hle⟩] at h
    cases h

theorem Partitioning.CurrentOwners.countP_owes (owners : partitioning.CurrentOwners span routes) :
    (resumeScanRoutes routes resumeAfter refreshes).countP (fun pending =>
      pending.Owes partitioning key) =
      if .key key ∈ span.points ∧ Behind resumeAfter key then 1 else 0 := by
  rw [resumeScanRoutes_eq, List.countP_map, List.countP_filter]
  by_cases hbehind : Behind resumeAfter key
  · simp only [hbehind, and_true]
    rw [← owners.countP_holds]
    refine List.countP_congr fun route _ => ?_
    simp only [Function.comp_apply, Bool.and_eq_true, decide_eq_true_eq,
      TabletScanRoute.owes_resume, hbehind, and_true, Bool.not_eq_true', and_iff_left_iff_imp]
    intro hholds
    rw [Bool.eq_false_iff]
    exact fun hfinished => TabletScanRoute.not_behind_of_isFinished hfinished hholds.1 hbehind
  · rw [if_neg (fun h => hbehind h.2), List.countP_eq_zero]
    intro route _
    simp [TabletScanRoute.owes_resume, hbehind]

theorem countP_points_resumeScanRoutes :
    (resumeScanRoutes routes resumeAfter refreshes).countP (fun pending =>
      p ∈ pending.route.span.points) =
      routes.countP fun route => p ∈ route.span.points ∧ route.isFinished resumeAfter = false := by
  rw [resumeScanRoutes_eq, List.countP_map, List.countP_filter]
  refine List.countP_congr fun route _ => ?_
  simp [TabletScanRoute.resume]

theorem Partitioning.CurrentOwners.countP_points
    (owners : Partitioning.range.CurrentOwners span routes) :
    routes.countP (fun route => p ∈ route.span.points) = if p ∈ span.points then 1 else 0 := by
  have hdivides : ScanSpan.Adjacent span.endKey span.startKey (routes.map (·.span)) :=
    owners.divides
  rw [← hdivides.countP_mem (by simpa using owners.nonempty), List.countP_map]
  rfl

end Resume

end RagnorDb
