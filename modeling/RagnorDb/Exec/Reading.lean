import RagnorDb.Exec.Executor
import RagnorDb.Storage.KeyOrder

/-!
# What statements read

The table that a transaction sees, as a partial function from row keys to rows, and the rows that
a scan collects of it once the pending writes are laid over them.
-/

namespace RagnorDb

open Std Checked OrderedMap OrderedRows

/-- A table, as what it holds under each row key. -/
abbrev Table := RowKey → Option Row

/-- The rows of one table in a view of the store. -/
def visibleTable (tableId : TableId) (view : Bytes → Option Bytes) : Table := fun key =>
  if key.tableId = tableId then
    (encodeRowKey key).toOption.bind fun bytes =>
      (view bytes).bind fun row => (decodeRow row).toOption
  else none

section VisibleTable

variable {tableId : TableId} {view : Bytes → Option Bytes} {key : RowKey} {bytes stored : Bytes}
  {row : Row}

theorem visibleTable_eq_some : visibleTable tableId view key = some row ↔
    key.tableId = tableId ∧ ∃ bytes stored, encodeRowKey key = .ok bytes ∧
      view bytes = some stored ∧ decodeRow stored = .ok row := by
  simp only [visibleTable, eq_some, toOption_eq_some]
  constructor
  · rintro ⟨hid, bytes, hbytes, stored, hstored, hrow⟩
    exact ⟨hid, bytes, stored, hbytes, hstored, hrow⟩
  · rintro ⟨hid, bytes, stored, hbytes, hstored, hrow⟩
    exact ⟨hid, bytes, hbytes, stored, hstored, hrow⟩

theorem visibleTable_of_decode (hid : key.tableId = tableId) (hbytes : encodeRowKey key = .ok bytes)
    {row : Option Row} (hrow : (view bytes).mapM decodeRow = .ok row) :
    visibleTable tableId view key = row := by
  rw [visibleTable, if_pos hid, hbytes]
  cases hview : view bytes with
  | none =>
    rw [hview] at hrow
    cases hrow
    simp [Except.toOption, hview]
  | some =>
    rw [hview] at hrow
    simp only [Option.mapM_some, map_eq_ok] at hrow
    obtain ⟨decoded, hdecoded, rfl⟩ := hrow
    simp [Except.toOption, hview, hdecoded]

end VisibleTable

theorem nodup_of_decodeRowKey {α β : Type} {entries : List (Bytes × α)} {rows : List (RowKey × β)}
    (h : List.Forall₂ (fun entry row => decodeRowKey entry.1 = .ok row.1) entries rows)
    (hnodup : (entries.map Prod.fst).Nodup) : (rows.map Prod.fst).Nodup := by
  have hencoded : (rows.map Prod.fst).map encodeRowKey = (entries.map Prod.fst).map .ok := by
    induction h with
    | nil => rfl
    | cons hrow _ ih =>
      have hkey := (RowKey.encodeRowKey_of_decodeRowKey hrow).1
      rw [List.map_cons, List.nodup_cons] at hnodup
      simp only [List.map_cons, hkey, ih hnodup.2]
  apply List.Nodup.of_map encodeRowKey
  rw [hencoded]
  exact hnodup.map fun a b hab => Except.ok.inj hab

/-- A listing of a table: each row once. -/
structure Lists (table : Table) (rows : List KeyedRow) : Prop where
  nodup : (rows.map Prod.fst).Nodup
  mem : ∀ key row, (key, row) ∈ rows ↔ table key = some row

section Reads

variable {tableId : TableId} {committed : Bytes → Option Bytes} {transaction : Transaction}
  {rows : List KeyedRow} {collected : ExtTreeMap Bytes Row compare}

/-! ## Collected rows under pending writes -/

section Collected

variable {collected rows rows' : ExtTreeMap Bytes Row compare} {entry : Bytes × Mutation}

theorem overlayCollected_eq_ok (h : overlayCollected tableId rows entry = .ok rows') :
    ∃ key, decodeRowKey entry.1 = .ok key ∧
      (∀ bytes : Bytes, bytes ≠ entry.1 ∨ key.tableId ≠ tableId → rows'[bytes]? = rows[bytes]?) ∧
      (key.tableId = tableId → entry.2.row?.mapM decodeRow = .ok rows'[entry.1]?) := by
  obtain ⟨bytes, mutation⟩ := entry
  simp only [overlayCollected, eq_ok] at h
  obtain ⟨key, hkey, h⟩ := h
  refine ⟨key, hkey, ?_⟩
  split at h
  · rename_i hforeign
    cases h
    exact ⟨fun _ _ => rfl, fun hid => absurd hid hforeign⟩
  · rename_i hid
    rw [Decidable.not_not] at hid
    cases mutation with
    | put =>
      simp only [eq_ok] at h
      obtain ⟨decoded, hdecoded, rfl⟩ := h
      constructor
      · rintro other (hne | hforeign)
        · rw [getElem?_insert, if_neg (Ne.symm hne)]
        · exact absurd hid hforeign
      · intro _
        simp [Mutation.row?, hdecoded]
    | delete =>
      cases h
      constructor
      · rintro other (hne | hforeign)
        · rw [getElem?_erase, if_neg (Ne.symm hne)]
        · exact absurd hid hforeign
      · intro _
        simp [Mutation.row?]

variable {entries : List (Bytes × Mutation)}

theorem getElem?_overlay_of_foreign {bytes : Bytes}
    (h : entries.foldlM (overlayCollected tableId) rows = .ok rows')
    (hforeign : ∀ entry ∈ entries, entry.1 = bytes →
      ∀ key, decodeRowKey bytes = .ok key → key.tableId ≠ tableId) :
    rows'[bytes]? = rows[bytes]? := by
  induction entries generalizing rows with
  | nil =>
    cases h
    rfl
  | cons entry entries ih =>
    rw [List.foldlM_cons, bind_eq_ok] at h
    obtain ⟨next, hnext, h⟩ := h
    obtain ⟨key, hkey, hothers, _⟩ := overlayCollected_eq_ok hnext
    rw [ih h fun e he => hforeign e (List.mem_cons_of_mem _ he)]
    apply hothers
    by_cases hbytes : entry.1 = bytes
    · exact .inr (hforeign entry List.mem_cons_self hbytes key (hbytes ▸ hkey))
    · exact .inl (Ne.symm hbytes)

theorem getElem?_overlay_of_mem {key : RowKey} (hnodup : (entries.map Prod.fst).Nodup)
    (h : entries.foldlM (overlayCollected tableId) rows = .ok rows') (hentry : entry ∈ entries)
    (hkey : decodeRowKey entry.1 = .ok key) (hid : key.tableId = tableId) :
    entry.2.row?.mapM decodeRow = .ok rows'[entry.1]? := by
  induction entries generalizing rows with
  | nil => simp at hentry
  | cons head entries ih =>
    rw [List.map_cons, List.nodup_cons] at hnodup
    rw [List.foldlM_cons, bind_eq_ok] at h
    obtain ⟨next, hnext, h⟩ := h
    rcases List.mem_cons.mp hentry with rfl | hentry
    · obtain ⟨key', hkey', _, hdecides⟩ := overlayCollected_eq_ok hnext
      cases hkey.symm.trans hkey'
      rw [getElem?_overlay_of_foreign h]
      · exact hdecides hid
      · intro e he heq
        exact absurd (List.mem_map.mpr ⟨e, he, heq⟩) hnodup.1
    · exact ih hnodup.2 h hentry

end Collected

/-- Collected rows of the committed values, under the pending writes, list the table that the
transaction sees. -/
theorem lists_overlayRows (hid : tableId ≤ u64Max)
    (htableId : ∀ bytes ∈ collected, ∃ key, decodeRowKey bytes = .ok key ∧ key.tableId = tableId)
    (hcommitted : ∀ key bytes, key.tableId = tableId → encodeRowKey key = .ok bytes →
      transaction.writes[bytes]? = none → (committed bytes).mapM decodeRow = .ok collected[bytes]?)
    (h : overlayRows transaction tableId collected = .ok rows) :
    Lists (visibleTable tableId (overlay transaction.writes committed)) rows := by
  simp only [overlayRows, eq_ok] at h
  obtain ⟨final, hfinal, h⟩ := h
  have hrows : List.Forall₂ (fun (entry : Bytes × Row) (row : KeyedRow) =>
      decodeRowKey entry.1 = .ok row.1 ∧ entry.2 = row.2) final.toList rows := by
    refine (mapM_eq_ok.mp h).imp fun entry row hrow => ?_
    simp only [eq_ok] at hrow
    obtain ⟨key, hkey, rfl⟩ := hrow
    exact ⟨hkey, rfl⟩
  have hview : ∀ key bytes, key.tableId = tableId → encodeRowKey key = .ok bytes →
      (overlay transaction.writes committed bytes).mapM decodeRow = .ok final[bytes]? := by
    intro key bytes hkey hbytes
    have hdecode := RowKey.decodeRowKey_of_encodeRowKey hbytes (hkey ▸ hid)
    cases hwrite : transaction.writes[bytes]? with
    | some =>
      rw [overlay, hwrite, Option.elim_some]
      exact getElem?_overlay_of_mem (nodup_keys _) hfinal
        (ExtTreeMap.mem_toList_iff_getElem?_eq_some.mpr hwrite) hdecode hkey
    | none =>
      rw [overlay, hwrite, Option.elim_none, getElem?_overlay_of_foreign hfinal]
      · exact hcommitted key bytes hkey hbytes hwrite
      · intro entry hentry heq
        rw [ExtTreeMap.mem_toList_iff_getElem?_eq_some, heq, hwrite] at hentry
        cases hentry
  have htable : ∀ bytes key row, decodeRowKey bytes = .ok key → final[bytes]? = some row →
      key.tableId = tableId := by
    intro bytes key row hkey hrow
    by_contra hforeign
    rw [getElem?_overlay_of_foreign hfinal] at hrow
    · have hmem : bytes ∈ collected := mem_of_getElem? hrow
      obtain ⟨key', hkey', hid'⟩ := htableId bytes hmem
      cases hkey.symm.trans hkey'
      exact hforeign hid'
    · intro _ _ _ key' hkey'
      cases hkey.symm.trans hkey'
      exact hforeign
  refine ⟨nodup_of_decodeRowKey (hrows.imp fun _ _ h => h.1) (nodup_keys final), ?_⟩
  intro key row
  constructor
  · intro hmem
    obtain ⟨⟨bytes, row'⟩, hentry, hkey, rfl⟩ := exists_of_mem_forall₂ hrows.flip hmem
    rw [ExtTreeMap.mem_toList_iff_getElem?_eq_some] at hentry
    have hkeyTable := htable bytes key _ hkey hentry
    have hbytes := (RowKey.encodeRowKey_of_decodeRowKey hkey).1
    exact visibleTable_of_decode hkeyTable hbytes ((hview key bytes hkeyTable hbytes).trans
      (congrArg _ hentry))
  · intro hvisible
    obtain ⟨hkeyTable, bytes, stored, hbytes, _, _⟩ := visibleTable_eq_some.mp hvisible
    have hfound : final[bytes]? = some row :=
      (visibleTable_of_decode hkeyTable hbytes (hview key bytes hkeyTable hbytes)).symm.trans
        hvisible
    obtain ⟨⟨key', row'⟩, hmem, hkey', hrow'⟩ := exists_of_mem_forall₂ hrows
      (ExtTreeMap.mem_toList_iff_getElem?_eq_some.mpr hfound)
    cases (RowKey.decodeRowKey_of_encodeRowKey hbytes (hkeyTable ▸ hid)).symm.trans hkey'
    cases hrow'
    exact hmem

/-- The pending writes can be put over collected rows if everything decodes. -/
theorem exists_overlayRows (hcollected : ∀ bytes ∈ collected, ∃ key, decodeRowKey bytes = .ok key)
    (hwrites : ∀ entry ∈ transaction.writes.toList, ∃ key, decodeRowKey entry.1 = .ok key ∧
      (key.tableId = tableId → ∃ row, entry.2.row?.mapM decodeRow = .ok row)) :
    ∃ rows, overlayRows transaction tableId collected = .ok rows := by
  have hloop := exists_foldlM (l := transaction.writes.toList)
    (f := overlayCollected tableId)
    (P := fun _ rows => ∀ bytes ∈ rows, ∃ key, decodeRowKey bytes = .ok key) ?_ hcollected
  · obtain ⟨final, hfinal, hkeys⟩ := hloop
    have hdecode : ∀ entry ∈ final.toList, ∃ row : KeyedRow,
        (do return ((← decodeRowKey entry.1), entry.2) : Except Error KeyedRow) = .ok row := by
      intro entry hentry
      obtain ⟨key, hkey⟩ := hkeys entry.1
        (mem_of_getElem? (ExtTreeMap.mem_toList_iff_getElem?_eq_some.mp hentry))
      exact ⟨(key, entry.2), by simp [hkey]⟩
    obtain ⟨rows, hrows⟩ := exists_mapM hdecode
    exact ⟨rows, by rw [overlayRows, hfinal]; exact hrows⟩
  · intro done entry rows htaken hrows
    obtain ⟨key, hkey, hrow⟩ := hwrites entry (htaken.subset (by simp))
    by_cases hid : key.tableId = tableId
    · obtain ⟨row, hrow⟩ := hrow hid
      cases hmutation : entry.2 with
      | put =>
        rw [hmutation, Mutation.row?, Option.mapM_some, map_eq_ok] at hrow
        obtain ⟨decoded, hdecoded, rfl⟩ := hrow
        refine ⟨rows.insert entry.1 decoded, ?_, ?_⟩
        · simp [overlayCollected, hkey, hid, hmutation, hdecoded]
        · intro bytes hbytes
          rw [ExtTreeMap.mem_insert, LawfulEqCmp.compare_eq_iff_eq] at hbytes
          rcases hbytes with rfl | hbytes
          · exact ⟨key, hkey⟩
          · exact hrows bytes hbytes
      | delete =>
        refine ⟨rows.erase entry.1, ?_, ?_⟩
        · simp [overlayCollected, hkey, hid, hmutation]
        · exact fun bytes hbytes => hrows bytes (ExtTreeMap.mem_of_mem_erase hbytes)
    · exact ⟨rows, by simp [overlayCollected, hkey, hid], hrows⟩

theorem sorted_overlayRows (h : overlayRows transaction tableId collected = .ok rows) :
    rows.Pairwise fun a b => a.1.cmp b.1 = .lt := by
  simp only [overlayRows, eq_ok] at h
  obtain ⟨final, _, h⟩ := h
  refine pairwise_of_forall₂ ?_ (mapM_eq_ok.mp h) final.ordered_keys_toList
  intro entry other row row' hrow hrow' hlt
  simp only [eq_ok] at hrow hrow'
  obtain ⟨key, hkey, rfl⟩ := hrow
  obtain ⟨key', hkey', rfl⟩ := hrow'
  exact (RowKey.cmp_of_decodeRowKey hkey hkey').trans hlt

end Reads

end RagnorDb
