import RagnorDb.Lib.OrderedRows
import RagnorDb.Storage.Mvcc

/-!
# Ordered scans of the store

`scan_page` of `mvcc.rs`.  The keys with write records and the keys with locks are visited
together, in order, so that a lock without committed history still stops a reader.  A page that
says that there is more ends with the last row it could take.
-/

namespace RagnorDb

open Std Checked OrderedRows

/-- The lower end of a scan. -/
inductive ScanBound where
  | unbounded
  | included (key : Bytes)
  | excluded (key : Bytes)
  deriving DecidableEq

/-- Whether a key lies above the lower end. -/
def ScanBound.admits : ScanBound → Bytes → Bool
  | .unbounded, _ => true
  | .included bound, key => (compare bound key).isLE
  | .excluded bound, key => compare bound key == .lt

/-- Whether a key lies before the exclusive upper end. -/
def beforeEnd (stop : Option Bytes) (key : Bytes) : Bool :=
  stop.all fun stop => compare key stop == .lt

/-- `scan_lower_bound`, and `tablet_scan_lower_bound`. -/
def scanLowerBound (start resumeAfter : Option Bytes) : ScanBound :=
  match start, resumeAfter with
  | none, none => .unbounded
  | some start, none => .included start
  | none, some resumeAfter => .excluded resumeAfter
  | some start, some resumeAfter =>
    if compare resumeAfter start = .lt then .included start else .excluded resumeAfter

/-- Whether a scan visits a key. -/
def scanAdmits (start stop resumeAfter : Option Bytes) (key : Bytes) : Bool :=
  (scanLowerBound start resumeAfter).admits key && beforeEnd stop key

structure MvccScanPage where
  rows : List (Bytes × Bytes)
  hasMore : Bool
  deriving DecidableEq

def validateScanPageLimits (maxRows maxBytes : Nat) : Except Error Unit := do
  rejectIf (maxRows = 0) (.invalidArgument "scan page max_rows must be greater than zero")
  rejectIf (maxBytes = 0) (.invalidArgument "scan page max_bytes must be greater than zero")

def validateScanOrder (start stop : Option Bytes) : Except Error Unit :=
  match start, stop with
  | some start, some stop =>
    rejectIf (compare start stop ≠ .lt)
      (.invalidArgument "scan start key must be less than scan end key")
  | _, _ => .ok ()

/-- `encoded_scan_bounds`. -/
def validateEncodedScanBounds (start stop : Option Bytes) : Except Error Unit := do
  start.toList.forM (validateEncodedKeyArgument · "scan start key")
  stop.toList.forM (validateEncodedKeyArgument · "scan end key")
  validateScanOrder start stop

def scanBytesOverflowed : Error :=
  .invalidArgument "scan page encoded byte count overflowed"

def scanRowTooLarge : Error :=
  .invalidArgument "scan page byte budget is smaller than the first encoded row"

namespace InMemoryMvcc

variable (self : InMemoryMvcc)

/-- The keys that the two merged cursors visit, in order. -/
def scanKeys (start stop resumeAfter : Option Bytes) : List Bytes :=
  (ExtTreeSet.ofList (self.writes.keys ++ self.locks.keys) compare).toList.filter
    (scanAdmits start stop resumeAfter)

/-- The loop of `scan_page` over the keys. -/
def scanLoop (readTs : Timestamp) (maxRows maxBytes : Nat) :
    List Bytes → List (Bytes × Bytes) → Nat → Except Error MvccScanPage
  | [], rows, _ => .ok ⟨rows, false⟩
  | key :: keys, rows, encodedBytes => do
    match ← self.readVisibleVersion key readTs with
    | none => scanLoop readTs maxRows maxBytes keys rows encodedBytes
    | some row =>
      if maxRows ≤ rows.length then
        return ⟨rows, true⟩
      else do
        let rowBytes ← okOr (checkedAdd key.length row.length) scanBytesOverflowed
        let nextBytes ← okOr (checkedAdd encodedBytes rowBytes) scanBytesOverflowed
        if maxBytes < nextBytes then do
          rejectIf (rows = []) scanRowTooLarge
          return ⟨rows, true⟩
        else
          scanLoop readTs maxRows maxBytes keys (rows ++ [(key, row)]) nextBytes

def scanPage (start stop resumeAfter : Option Bytes) (readTs : Timestamp)
    (maxRows maxBytes : Nat) : Except Error MvccScanPage := do
  validateScanPageLimits maxRows maxBytes
  validateEncodedScanBounds start stop
  resumeAfter.toList.forM (validateEncodedKeyArgument · "scan resume key")
  if resumeAfter.any fun resumeAfter => !beforeEnd stop resumeAfter then
    return ⟨[], false⟩
  else
    self.scanLoop readTs maxRows maxBytes (self.scanKeys start stop resumeAfter) [] 0

/-! ## What a page holds -/

/-- The row that a reader at a timestamp finds, if nothing stops it. -/
def visible (readTs : Timestamp) (key : Bytes) : Option Bytes :=
  (self.readVisibleVersion key readTs).toOption.join

end InMemoryMvcc

/-- The keys that a page accounts for: all of them, or those up to its last row. -/
def MvccScanPage.Covers (page : MvccScanPage) (key : Bytes) : Prop :=
  page.hasMore = true → ∀ last ∈ page.rows.getLast?, (compare key last.1).isLE

section Admits

variable {start stop resumeAfter : Option Bytes} {last key : Bytes}

theorem lt_of_scanAdmits (h : scanAdmits start stop (some last) key = true) :
    compare last key = .lt := by
  simp only [scanAdmits, scanLowerBound, Bool.and_eq_true] at h
  obtain ⟨h, -⟩ := h
  cases start with
  | none => simpa [ScanBound.admits] using h
  | some =>
    dsimp only at h
    split at h
    · rename_i hlt
      exact TransCmp.lt_of_lt_of_isLE hlt h
    · simpa [ScanBound.admits] using h

theorem start_le_of_admits {start : Bytes}
    (h : (scanLowerBound (some start) resumeAfter).admits key = true) :
    (compare start key).isLE := by
  cases resumeAfter with
  | none => exact h
  | some resume =>
    simp only [scanLowerBound] at h
    split at h
    · exact h
    · rename_i hnot
      have hle : (compare start resume).isLE := by
        rw [Ordering.isLE_iff_ne_gt]
        intro hgt
        exact hnot (OrientedCmp.lt_of_gt hgt)
      have hlt : compare resume key = .lt := by simpa [ScanBound.admits] using h
      exact TransCmp.isLE_trans hle (by simp [hlt])

section

variable (hlast : scanAdmits start stop resumeAfter last = true)
include hlast

theorem scanAdmits_resume : scanAdmits start stop (some last) key = true ↔
      compare last key = .lt ∧ beforeEnd stop key = true := by
  simp only [scanAdmits, Bool.and_eq_true] at hlast ⊢
  cases start with
  | none => simp [scanLowerBound, ScanBound.admits]
  | some start =>
    have hle := start_le_of_admits hlast.1
    have hnot : ¬ compare last start = .lt := by
      intro hlt
      rw [OrientedCmp.gt_of_lt hlt] at hle
      cases hle
    simp [scanLowerBound, hnot, ScanBound.admits]

theorem scanAdmits_of_lt (hlt : compare last key = .lt) (hend : beforeEnd stop key = true) :
    scanAdmits start stop resumeAfter key = true := by
  simp only [scanAdmits, Bool.and_eq_true] at hlast ⊢
  refine ⟨?_, hend⟩
  cases hbound : scanLowerBound start resumeAfter with
  | unbounded => rfl
  | included =>
    rw [hbound] at hlast
    exact TransCmp.isLE_trans hlast.1 (by simp [hlt])
  | excluded bound =>
    rw [hbound] at hlast
    have hbelow : compare bound last = .lt := by simpa [ScanBound.admits] using hlast.1
    simp [ScanBound.admits, TransCmp.lt_trans hbelow hlt]

theorem scanAdmits_split : scanAdmits start stop resumeAfter key = true ↔
      (scanAdmits start stop resumeAfter key = true ∧ (compare key last).isLE) ∨
        scanAdmits start stop (some last) key = true := by
  rw [scanAdmits_resume hlast]
  constructor
  · intro h
    cases hcmp : compare key last with
    | lt | eq => exact .inl ⟨h, rfl⟩
    | gt =>
      simp only [scanAdmits, Bool.and_eq_true] at h
      exact .inr ⟨OrientedCmp.lt_of_gt hcmp, h.2⟩
  · rintro (⟨h, -⟩ | ⟨hlt, hend⟩)
    · exact h
    · exact scanAdmits_of_lt hlast hlt hend

end

theorem not_scanAdmits_of_past
    (h : (resumeAfter.any fun resumeAfter => !beforeEnd stop resumeAfter) = true) :
    ¬ scanAdmits start stop resumeAfter key = true := by
  intro hadmits
  cases resumeAfter with
  | none => cases h
  | some resume =>
    have hlt := lt_of_scanAdmits hadmits
    simp only [scanAdmits, Bool.and_eq_true] at hadmits
    cases stop with
    | none => simp [beforeEnd] at h
    | some stop =>
      have hbefore : compare key stop = .lt := by simpa [beforeEnd] using hadmits.2
      have hpast : compare resume stop ≠ .lt := by simpa [beforeEnd] using h
      exact hpast (TransCmp.lt_trans hlt hbefore)

end Admits

namespace InMemoryMvcc

variable {self : InMemoryMvcc} {start stop resumeAfter : Option Bytes} {readTs : Timestamp}
  {maxRows maxBytes : Nat} {page : MvccScanPage}
variable {key row : Bytes} {keys : List Bytes}

theorem mem_writes_of_visible (h : self.visible readTs key = some row) : key ∈ self.writes := by
  by_contra hnot
  have hnone : self.writes[key]? = none := ExtTreeMap.getElem?_eq_none hnot
  unfold visible readVisibleVersion at h
  rw [hnone] at h
  cases hlock : self.locks[key]? with
  | none => simp [hlock, Except.toOption] at h
  | some lock =>
    by_cases hle : lock.startTimestamp ≤ readTs
    · simp [hlock, hle, rejectIf, Except.toOption] at h
    · simp [hlock, hle, rejectIf, Except.toOption] at h

theorem mem_scanKeys : key ∈ self.scanKeys start stop resumeAfter ↔
    (key ∈ self.writes ∨ key ∈ self.locks) ∧ scanAdmits start stop resumeAfter key = true := by
  simp [scanKeys]

theorem sorted_scanKeys :
    (self.scanKeys start stop resumeAfter).Pairwise fun a b => compare a b = .lt :=
  ExtTreeSet.ordered_toList.filter _

/-- The visible rows of the keys, in order. -/
def rowsOf (self : InMemoryMvcc) (readTs : Timestamp) (keys : List Bytes) : List (Bytes × Bytes) :=
  keys.filterMap fun key => (self.visible readTs key).map (Prod.mk key)

theorem mem_rowsOf :
    (key, row) ∈ self.rowsOf readTs keys ↔ key ∈ keys ∧ self.visible readTs key = some row := by
  simp only [rowsOf, List.mem_filterMap, eq_some, Prod.mk.injEq]
  constructor
  · rintro ⟨_, hmem, _, hrow, rfl, rfl⟩
    exact ⟨hmem, hrow⟩
  · rintro ⟨hmem, hrow⟩
    exact ⟨key, hmem, row, hrow, rfl, rfl⟩

/-- The loop takes the rows of a first part of the keys. -/
theorem scanLoop_eq_ok {rows : List (Bytes × Bytes)} {encodedBytes : Nat} (hmax : maxRows ≠ 0)
    (h : self.scanLoop readTs maxRows maxBytes keys rows encodedBytes = .ok page) :
    ∃ seen rest, keys = seen ++ rest ∧ page.rows = rows ++ self.rowsOf readTs seen ∧
      (page.hasMore = false → rest = []) ∧ (page.hasMore = true → page.rows ≠ []) := by
  induction keys generalizing rows encodedBytes with
  | nil =>
    cases h
    exact ⟨[], [], rfl, by simp [rowsOf], by simp, by simp⟩
  | cons key keys ih =>
    simp only [scanLoop, eq_ok] at h
    obtain ⟨version, hversion, h⟩ := h
    have hvisible : self.visible readTs key = version := by
      simp [visible, hversion, Except.toOption]
    cases version with
    | none =>
      obtain ⟨seen, rest, rfl, hrows, hend, hmore⟩ := ih h
      exact ⟨key :: seen, rest, rfl, by simpa [rowsOf, hvisible] using hrows, hend, hmore⟩
    | some =>
      dsimp only at h
      split at h
      · rename_i hfull
        cases h
        have hne : rows ≠ [] := by
          intro hempty
          rw [hempty] at hfull
          simp only [List.length_nil, Nat.le_zero] at hfull
          exact hmax hfull
        exact ⟨[], key :: keys, rfl, by simp [rowsOf], by simp, fun _ => hne⟩
      · simp only [eq_ok] at h
        obtain ⟨rowBytes, _, nextBytes, _, h⟩ := h
        split at h
        · simp only [eq_ok'] at h
          obtain ⟨hne, h⟩ := h
          cases h
          exact ⟨[], key :: keys, rfl, by simp [rowsOf], by simp, fun _ => hne⟩
        · obtain ⟨seen, rest, rfl, hrows, hend, hmore⟩ := ih h
          exact ⟨key :: seen, rest, rfl, by simpa [rowsOf, hvisible] using hrows, hend, hmore⟩

theorem reads_of_seen {seen rest : List Bytes} (hmore : page.hasMore = true → page.rows ≠ [])
    (hkeys : self.scanKeys start stop resumeAfter = seen ++ rest)
    (hrows : page.rows = self.rowsOf readTs seen) (hend : page.hasMore = false → rest = []) :
    Reads compare (self.visible readTs)
      (fun key => scanAdmits start stop resumeAfter key = true ∧ page.Covers key) page.rows := by
  have hsorted : (seen ++ rest).Pairwise fun a b => compare a b = .lt := hkeys ▸ sorted_scanKeys
  have hrowsSorted : page.rows.Pairwise fun a b => compare a.1 b.1 = .lt := by
    rw [hrows, rowsOf, List.pairwise_filterMap]
    refine (List.pairwise_append.mp hsorted).1.imp ?_
    intro a b hlt x hx y hy
    obtain ⟨_, _, rfl⟩ := Option.map_eq_some_iff.mp hx
    obtain ⟨_, _, rfl⟩ := Option.map_eq_some_iff.mp hy
    exact hlt
  refine ⟨hrowsSorted, ?_⟩
  intro key row
  constructor
  · intro hmem
    obtain ⟨hseen, hvisible⟩ := mem_rowsOf.mp (hrows ▸ hmem)
    have hadmits := (mem_scanKeys.mp (hkeys ▸ List.mem_append_left rest hseen)).2
    refine ⟨⟨hadmits, ?_⟩, hvisible⟩
    intro _ last hlast
    exact isLE_getLast hrowsSorted hmem hlast
  · rintro ⟨⟨hadmits, hcovers⟩, hvisible⟩
    have hkey : key ∈ seen ++ rest :=
      hkeys ▸ mem_scanKeys.mpr ⟨.inl (mem_writes_of_visible hvisible), hadmits⟩
    rcases List.mem_append.mp hkey with hseen | hrest
    · rw [hrows]
      exact mem_rowsOf.mpr ⟨hseen, hvisible⟩
    · -- A key behind the rows of the page lies behind its last row.
      have hhasMore : page.hasMore = true := by
        by_contra hnot
        rw [hend (Bool.not_eq_true _ ▸ hnot)] at hrest
        cases hrest
      obtain ⟨last, hlast⟩ := Option.ne_none_iff_exists'.mp
        (mt List.getLast?_eq_none_iff.mp (hmore hhasMore))
      have hlastSeen : last.1 ∈ seen :=
        (mem_rowsOf.mp (hrows ▸ List.mem_of_getLast? hlast)).1
      have hlt := (List.pairwise_append.mp hsorted).2.2 last.1 hlastSeen key hrest
      have hle := hcovers hhasMore last hlast
      rw [OrientedCmp.gt_of_lt hlt] at hle
      cases hle

section

variable (h : self.scanPage start stop resumeAfter readTs maxRows maxBytes = .ok page)
include h

theorem reads_scanPage : Reads compare (self.visible readTs)
      (fun key => scanAdmits start stop resumeAfter key = true ∧ page.Covers key) page.rows ∧
    (page.hasMore = true → page.rows ≠ []) := by
  simp only [scanPage, validateScanPageLimits, eq_ok'] at h
  obtain ⟨⟨hmax, _⟩, _, _, _, _, h⟩ := h
  split at h
  · rename_i hpast
    cases h
    refine ⟨.nil ?_, by simp⟩
    rintro key ⟨hadmits, _⟩
    exact absurd hadmits (not_scanAdmits_of_past hpast)
  · obtain ⟨seen, rest, hkeys, hrows, hend, hmore⟩ := scanLoop_eq_ok hmax h
    exact ⟨reads_of_seen hmore hkeys hrows hend, hmore⟩

theorem rows_subset_scanKeys (hmem : (key, row) ∈ page.rows) :
    key ∈ self.scanKeys start stop resumeAfter := by
  obtain ⟨⟨hadmits, _⟩, hvisible⟩ := ((reads_scanPage h).1.mem key row).mp hmem
  exact mem_scanKeys.mpr ⟨.inl (mem_writes_of_visible hvisible), hadmits⟩

/-- Each page leaves fewer keys to visit. -/
theorem length_rows_add_length_scanKeys {last : Bytes × Bytes}
    (hlast : page.rows.getLast? = some last) :
    page.rows.length + (self.scanKeys start stop (some last.1)).length ≤
      (self.scanKeys start stop resumeAfter).length := by
  have hreads := (reads_scanPage h).1
  have hlastMem := List.mem_of_getLast? hlast
  have hadmits := (mem_scanKeys.mp (rows_subset_scanKeys h hlastMem)).2
  have hnodup : (page.rows.map Prod.fst ++ self.scanKeys start stop (some last.1)).Nodup := by
    refine List.nodup_append.mpr ⟨hreads.nodup, ?_, ?_⟩
    · refine sorted_scanKeys.imp ?_
      intro a b hlt heq
      rw [heq] at hlt
      exact cmp_lt_irrefl hlt
    · intro key hrow other hother heq
      subst heq
      obtain ⟨e, he, rfl⟩ := List.mem_map.mp hrow
      have hle := isLE_getLast hreads.sorted he hlast
      rw [OrientedCmp.gt_of_lt (lt_of_scanAdmits (mem_scanKeys.mp hother).2)] at hle
      cases hle
  have hsubset : page.rows.map Prod.fst ++ self.scanKeys start stop (some last.1) ⊆
      self.scanKeys start stop resumeAfter := by
    intro key hkey
    rcases List.mem_append.mp hkey with hrow | hlater
    · obtain ⟨⟨_, row⟩, he, rfl⟩ := List.mem_map.mp hrow
      exact rows_subset_scanKeys h he
    · obtain ⟨hpresent, hkey⟩ := mem_scanKeys.mp hlater
      exact mem_scanKeys.mpr ⟨hpresent, (scanAdmits_split hadmits).mpr (.inr hkey)⟩
  simpa using (List.subperm_of_subset hnodup hsubset).length_le

end

end InMemoryMvcc

end RagnorDb
