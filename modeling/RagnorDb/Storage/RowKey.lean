import RagnorDb.Common.RowCodec
import RagnorDb.Storage.Key

/-!
# Encoding of row keys

The encoder of `key.rs`.  Encoding checks the primary key that it is given, so a key that was
encoded is decoded again, and a stored key is the encoding of what it decodes to.
-/

namespace RagnorDb

open Checked

def invalidKey (message : String) : Error :=
  .invalidArgument s!"invalid storage key: {message}"

/-- `as u64` on an `i64`, with the sign bit flipped. -/
def orderedInt (value : Int) : Nat :=
  (value % 2 ^ 64).toNat ^^^ signBit

/-- Zero bytes are escaped, and two of them end the text. -/
def encodeTextKey (bytes : Bytes) : Bytes :=
  bytes.flatMap (fun byte => if byte = textEscape then [textEscape, textEscapedZero] else [byte]) ++
    [textEscape, textTerminator]

def encodePrimaryKeyValue (output : Bytes) : Value → Except Error Bytes
  | .int value => return output ++ keyTagInt :: toBeBytes 8 (orderedInt value)
  | .text value => return output ++ keyTagText :: encodeTextKey value.toUTF8.data.toList
  | .bool value => return output ++ [keyTagBool, if value then 1 else 0]
  | .null => .error (invalidKey "NULL cannot be encoded as a primary-key value")

/-- Encode an ordered, non-empty primary-key tuple. -/
def encodePrimaryKey (values : List Value) : Except Error Bytes := do
  rejectIf (values = []) (invalidKey "primary key must contain at least one value")
  values.foldlM encodePrimaryKeyValue []

def validateTableId (tableId : TableId) : Except Error Unit :=
  rejectIf (tableId = 0) (invalidKey "table ID 0 is reserved")

/-- The row key of one table and primary-key tuple. -/
def makeRowKey (tableId : TableId) (primaryKeyValues : List Value) : Except Error RowKey := do
  validateTableId tableId
  let primaryKeyBytes ← encodePrimaryKey primaryKeyValues
  return { tableId, primaryKeyBytes }

/-- Encode a complete row key into ordered storage bytes. -/
def encodeRowKey (rowKey : RowKey) : Except Error Bytes := do
  validateTableId rowKey.tableId
  let _ ← (decodePrimaryKey rowKey.primaryKeyBytes).mapError fun error =>
    invalidKey s!"RowKey contains noncanonical primary-key bytes: {error.display}"
  return rowKeyNamespace :: toBeBytes 8 rowKey.tableId ++ rowKey.primaryKeyBytes

/-! ## Keys survive their encoding -/

namespace RowKey

variable {key : RowKey} {bytes : Bytes}

theorem encodeRowKey_eq_ok : encodeRowKey key = .ok bytes ↔
    key.tableId ≠ 0 ∧ (∃ values, decodePrimaryKey key.primaryKeyBytes = .ok values) ∧
      bytes = rowKeyNamespace :: toBeBytes 8 key.tableId ++ key.primaryKeyBytes := by
  simp only [encodeRowKey, validateTableId, eq_ok', ne_eq]
  constructor
  · rintro ⟨hid, values, hvalues, rfl⟩
    exact ⟨hid, ⟨values, hvalues⟩, rfl⟩
  · rintro ⟨hid, ⟨values, hvalues⟩, rfl⟩
    exact ⟨hid, values, hvalues, rfl⟩

/-- A stored key is the encoding of what it decodes to. -/
theorem encodeRowKey_of_decodeRowKey (h : decodeRowKey bytes = .ok key) :
    encodeRowKey key = .ok bytes ∧ key.tableId ≤ u64Max := by
  simp only [decodeRowKey, eq_ok'] at h
  obtain ⟨hlength, hnamespace, hid, values, hvalues, rfl⟩ := h
  cases bytes with
  | nil => simp at hlength
  | cons first tail =>
    have hfirst : first = rowKeyNamespace := hnamespace
    have hwidth : (tail.take 8).length = 8 := by
      simp only [rowKeyHeaderLength, List.length_cons] at hlength
      rw [List.length_take]
      omega
    constructor
    · refine encodeRowKey_eq_ok.mpr ⟨hid, ⟨values, hvalues⟩, ?_⟩
      have hid : toBeBytes 8 (fromBeBytes (tail.take 8)) = tail.take 8 :=
        toBeBytes_fromBeBytes hwidth
      rw [hfirst]
      exact congrArg _ (hid.symm ▸ (List.take_append_drop 8 tail).symm)
    · have hlt := fromBeBytes_lt (tail.take 8)
      rw [hwidth] at hlt
      exact Nat.le_sub_one_of_lt hlt

/-- An encoded key is decoded again. -/
theorem decodeRowKey_of_encodeRowKey (h : encodeRowKey key = .ok bytes)
    (hid : key.tableId ≤ u64Max) : decodeRowKey bytes = .ok key := by
  obtain ⟨hne, ⟨values, hvalues⟩, rfl⟩ := encodeRowKey_eq_ok.mp h
  obtain ⟨tableId, primaryKeyBytes⟩ := key
  have hpresent : primaryKeyBytes ≠ [] := by
    intro hempty
    simp [decodePrimaryKey, hempty, rejectIf] at hvalues
  have hpositive : 0 < primaryKeyBytes.length := List.length_pos_iff.mpr hpresent
  have htake : (toBeBytes 8 tableId ++ primaryKeyBytes).take 8 = toBeBytes 8 tableId :=
    List.take_left' (length_toBeBytes 8 tableId)
  have hdrop : (toBeBytes 8 tableId ++ primaryKeyBytes).drop 8 = primaryKeyBytes :=
    List.drop_left' (length_toBeBytes 8 tableId)
  have hdecoded : fromBeBytes (toBeBytes 8 tableId) = tableId := by
    rw [fromBeBytes_toBeBytes]
    exact Nat.mod_eq_of_lt (Nat.lt_of_le_of_lt hid (by decide))
  have hlength : ¬ (rowKeyNamespace :: toBeBytes 8 tableId ++ primaryKeyBytes).length ≤
      rowKeyHeaderLength := by
    simp only [List.cons_append, List.length_cons, List.length_append, length_toBeBytes,
      rowKeyHeaderLength]
    omega
  simp only [decodeRowKey, eq_ok']
  refine ⟨hlength, by simp, ?_⟩
  simp only [List.cons_append, List.drop_succ_cons, List.drop_zero, rowKeyHeaderLength, htake,
    hdecoded, hdrop]
  exact ⟨hne, values, hvalues, trivial⟩

end RowKey

end RagnorDb
