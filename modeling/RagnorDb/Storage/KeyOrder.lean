import Mathlib.Data.Nat.Bitwise
import RagnorDb.Storage.RowKey

/-!
# Primary keys are an ordered, canonical code

Every component starts with its tag and says where it ends, so the encodings of tuples of the same
column types compare component by component.  A stored key is the encoding of exactly one tuple.
-/

namespace RagnorDb

open Checked Decoder

variable {output bytes rest others : Bytes} {value : Value} {values : List Value} {n fuel : Nat}
  {byte : UInt8} {d : Decoder} {key other : RowKey}

/-! ## Components -/

/-- The integers of the source, and no NULL: what a primary-key column may hold. -/
def Value.IsKey : Value → Prop
  | .null => False
  | value => value.InRange

instance : DecidablePred Value.IsKey := by
  intro value
  unfold Value.IsKey
  split <;> infer_instance

/-- The encoding of one primary-key component. -/
def Value.keyBytes : Value → Bytes
  | .int value => keyTagInt :: toBeBytes 8 (orderedInt value)
  | .text value => keyTagText :: encodeTextKey value.toUTF8.data.toList
  | .bool value => [keyTagBool, if value then 1 else 0]
  | .null => []

theorem encodePrimaryKeyValue_eq_ok :
    encodePrimaryKeyValue output value = .ok bytes ↔
      value ≠ .null ∧ bytes = output ++ value.keyBytes := by
  have hcomm (expected : Bytes) : expected = bytes ↔ bytes = expected := eq_comm
  cases value <;> simp [encodePrimaryKeyValue, Value.keyBytes, hcomm]

/-- The encodings of the components of a tuple, in order. -/
def keysBytes (values : List Value) : Bytes :=
  (values.map Value.keyBytes).flatten

@[simp] theorem keysBytes_cons (value : Value) (values : List Value) :
    keysBytes (value :: values) = value.keyBytes ++ keysBytes values := by
  simp [keysBytes]

theorem foldlM_encodePrimaryKeyValue_eq_ok :
    values.foldlM encodePrimaryKeyValue output = .ok bytes ↔
      .null ∉ values ∧ bytes = output ++ keysBytes values := by
  rw [← List.forall_mem_ne']
  exact foldlM_append_eq_ok encodePrimaryKeyValue_eq_ok

theorem encodePrimaryKey_eq_ok :
    encodePrimaryKey values = .ok bytes ↔
      values ≠ [] ∧ .null ∉ values ∧ bytes = keysBytes values := by
  simp [encodePrimaryKey, foldlM_encodePrimaryKeyValue_eq_ok]

/-! ## Integers -/

theorem two_pow_xor {k : Nat} (h : n < 2 ^ k) : n ^^^ 2 ^ k = 2 ^ k + n := by
  apply Nat.eq_of_testBit_eq
  intro i
  rw [Nat.testBit_xor, Nat.testBit_two_pow]
  rcases Nat.lt_trichotomy i k with hlt | rfl | hgt
  · rw [Nat.testBit_two_pow_add_gt hlt]
    simp [Nat.ne_of_gt hlt]
  · rw [Nat.testBit_two_pow_add_eq]
    simp
  · have hsum : 2 ^ k + n < 2 ^ i := by
      have hpow : 2 ^ (k + 1) ≤ 2 ^ i := Nat.pow_le_pow_right (by decide) hgt
      omega
    rw [Nat.testBit_lt_two_pow hsum, Nat.testBit_lt_two_pow (by omega)]
    simp [Nat.ne_of_lt hgt]

theorem orderedInt_eq {value : Int} (h : IsI64 value) :
    (orderedInt value : Int) = value + 2 ^ 63 := by
  unfold orderedInt signBit
  obtain ⟨hlow, hhigh⟩ := h
  by_cases hsign : 0 ≤ value
  · have hbits : (value % 2 ^ 64).toNat < 2 ^ 63 := by omega
    rw [two_pow_xor hbits]
    omega
  · -- A negative number has the sign bit set; it is cleared.
    have hbits : (value % 2 ^ 64).toNat = (value + 2 ^ 63).toNat ^^^ 2 ^ 63 := by
      rw [two_pow_xor (by omega)]
      omega
    rw [hbits, Nat.xor_xor_cancel_right]
    omega

theorem orderedInt_lt {value : Int} (h : IsI64 value) : orderedInt value < 2 ^ 64 := by
  have hvalue := orderedInt_eq h
  unfold IsI64 at h
  omega

theorem xor_signBit_lt (h : n < 2 ^ 64) : n ^^^ signBit < 2 ^ 64 :=
  Nat.xor_lt_two_pow h (by decide)

theorem orderedInt_asI64_xor (h : n < 2 ^ 64) : orderedInt (asI64 (n ^^^ signBit)) = n := by
  rw [orderedInt, emod_asI64 (xor_signBit_lt h), Nat.xor_xor_cancel_right]

/-! ## Texts -/

@[simp] theorem encodeTextKey_nil : encodeTextKey [] = [textEscape, textTerminator] := rfl

theorem encodeTextKey_cons_escape (bytes : Bytes) :
    encodeTextKey (textEscape :: bytes) = textEscape :: textEscapedZero :: encodeTextKey bytes := by
  simp [encodeTextKey]

theorem encodeTextKey_cons (h : byte ≠ textEscape) (bytes : Bytes) :
    encodeTextKey (byte :: bytes) = byte :: encodeTextKey bytes := by
  simp [encodeTextKey, h]

theorem length_le_encodeTextKey (bytes : Bytes) : bytes.length < (encodeTextKey bytes).length := by
  induction bytes with
  | nil => simp
  | cons byte =>
    by_cases hbyte : byte = textEscape
    · rw [hbyte, encodeTextKey_cons_escape]
      simp only [List.length_cons]
      omega
    · rw [encodeTextKey_cons hbyte]
      simp only [List.length_cons]
      omega

theorem yields_decodeTextKeyLoop (acc : Bytes) (hfuel : bytes.length < fuel) :
    Yields (decodeTextKeyLoop fuel acc) (acc ++ bytes) (encodeTextKey bytes) := by
  induction bytes generalizing fuel acc with
  | nil =>
    obtain ⟨fuel, rfl⟩ := Nat.exists_eq_add_one.mpr hfuel
    rw [List.append_nil]
    exact (Yields.readU8 _ textEscape).bind
      ((Yields.readU8 _ textTerminator).bind_of_run fun _ => rfl)
  | cons byte bytes ih =>
    obtain ⟨fuel, rfl⟩ := Nat.exists_eq_add_one.mpr (Nat.zero_lt_of_lt hfuel)
    have hloop := ih (acc ++ [byte]) (Nat.lt_of_succ_lt_succ hfuel)
    rw [List.append_assoc] at hloop
    by_cases hbyte : byte = textEscape
    · subst hbyte
      rw [encodeTextKey_cons_escape]
      exact (Yields.readU8 _ textEscape).bind ((Yields.readU8 _ textEscapedZero).bind hloop)
    · rw [encodeTextKey_cons hbyte]
      refine (Yields.readU8 _ byte).bind ?_
      rw [if_pos hbyte]
      exact hloop

theorem yields_decodeTextKey (text : String) :
    Yields decodeTextKey (.text text) (encodeTextKey text.toUTF8.data.toList) := by
  refine Yields.get_bind fun d rest hunread => ?_
  have hfuel : text.toUTF8.data.toList.length < d.remaining + 1 := by
    have hremaining : d.remaining = d.unread.length := by simp [remaining, unread]
    have htext := length_le_encodeTextKey text.toUTF8.data.toList
    rw [hremaining, hunread, List.length_append]
    omega
  refine (yields_decodeTextKeyLoop [] hfuel).bind_of_run fun _ => ?_
  rw [List.nil_append, fromUtf8_toUTF8]
  rfl

theorem decodes_decodeTextKeyLoop (fuel : Nat) (acc : Bytes) :
    Decodes (decodeTextKeyLoop fuel acc) fun text used =>
      ∃ bytes, text = acc ++ bytes ∧ used = encodeTextKey bytes := by
  induction fuel generalizing acc with
  | zero => exact .throw _
  | succ fuel ih =>
    refine (Decodes.readU8 _).bind fun byte used hused => ?_
    subst used
    split
    · rename_i hbyte
      refine (ih (acc ++ [byte])).weaken fun text used hloop => ?_
      obtain ⟨bytes, rfl, rfl⟩ := hloop
      exact ⟨byte :: bytes, by simp, by rw [encodeTextKey_cons hbyte]; rfl⟩
    rename_i hbyte
    obtain rfl : byte = textEscape := Decidable.not_not.mp hbyte
    refine (Decodes.readU8 _).bind fun escaped used hused => ?_
    subst used
    split
    · rename_i hterminator
      exact .pure ⟨[], by simp, by rw [hterminator]; rfl⟩
    split
    · rename_i hzero
      refine (ih (acc ++ [textEscape])).weaken fun text used hloop => ?_
      obtain ⟨bytes, rfl, rfl⟩ := hloop
      refine ⟨textEscape :: bytes, by simp, ?_⟩
      rw [encodeTextKey_cons_escape, hzero]
      rfl
    · exact .throw _

/-! ## Tuples -/

theorem yields_decodePrimaryKeyValue (hkey : value.IsKey) :
    Yields decodePrimaryKeyValue value value.keyBytes := by
  cases value with
  | null => cases hkey
  | bool value =>
    refine (Yields.readU8 _ keyTagBool).bind ?_
    cases value with
    | false => exact (Yields.readU8 _ 0).bind_of_run fun _ => rfl
    | true => exact (Yields.readU8 _ 1).bind_of_run fun _ => rfl
  | int value =>
    have hvalue : asI64 (fromBeBytes (toBeBytes 8 (orderedInt value)) ^^^ signBit) = value := by
      rw [fromBeBytes_toBeBytes, Nat.mod_eq_of_lt (by exact orderedInt_lt hkey), orderedInt,
        Nat.xor_xor_cancel_right, asI64_emod hkey]
    have hpayload := Yields.readExact keyTexts (toBeBytes 8 (orderedInt value))
    rw [length_toBeBytes] at hpayload
    exact (Yields.readU8 _ keyTagInt).bind (hpayload.bind_of_run fun _ => by rw [hvalue]; rfl)
  | text value => exact (Yields.readU8 _ keyTagText).bind (yields_decodeTextKey value)

theorem decodes_decodePrimaryKeyValue :
    Decodes decodePrimaryKeyValue fun value used => value.IsKey ∧ used = value.keyBytes := by
  refine (Decodes.readU8 _).bind fun tag used hused => ?_
  subst used
  split
  · rename_i htag
    refine (Decodes.readExact _ 8).bind fun bytes used h => .pure ?_
    obtain ⟨hused, hlength⟩ := h
    subst used
    have hlt : fromBeBytes bytes < 2 ^ 64 := by
      have hlt := fromBeBytes_lt bytes
      rw [hlength] at hlt
      omega
    refine ⟨isI64_asI64 (xor_signBit_lt hlt), ?_⟩
    rw [Value.keyBytes, orderedInt_asI64_xor hlt, toBeBytes_fromBeBytes hlength, htag]
    simp
  split
  · rename_i _ htag
    refine Decodes.get.bind fun d used hused => ?_
    subst used
    refine (decodes_decodeTextKeyLoop _ []).bind fun textBytes used h => ?_
    obtain ⟨bytes, hbytes, rfl⟩ := h
    obtain rfl : textBytes = bytes := hbytes
    refine (Decodes.lift (P := fun text used => text.toUTF8.data.toList = textBytes ∧ used = [])
      fun text htext => ⟨?_, rfl⟩).bind fun text used htext => .pure ?_
    · exact toUTF8_of_fromUtf8 (okOr_eq_ok.mp htext)
    · obtain ⟨rfl, rfl⟩ := htext
      refine ⟨trivial, ?_⟩
      rw [Value.keyBytes, htag]
      simp
  split
  · rename_i _ _ htag
    refine (Decodes.readU8 _).bind fun encoded used hused => ?_
    subst used
    split
    · rename_i hfalse
      exact .pure ⟨trivial, by rw [htag, hfalse]; rfl⟩
    split
    · rename_i htrue
      exact .pure ⟨trivial, by rw [htag, htrue]; rfl⟩
    · exact .throw _
  · exact .throw _

theorem one_le_length_keyBytes (h : value.IsKey) : 1 ≤ value.keyBytes.length := by
  cases value with
  | null => cases h
  | _ => simp [Value.keyBytes]

theorem length_le_keysBytes (h : ∀ value ∈ values, value.IsKey) :
    values.length ≤ (keysBytes values).length := by
  induction values with
  | nil => simp
  | cons value values ih =>
    obtain ⟨hkey, hkeys⟩ := List.forall_mem_cons.mp h
    have hvalue := one_le_length_keyBytes hkey
    have hvalues := ih hkeys
    rw [keysBytes_cons, List.length_append, List.length_cons]
    omega

theorem decodePrimaryKeyLoop_run (hkeys : ∀ value ∈ values, value.IsKey)
    (h : d.unread = keysBytes values) (hfits : d.Fits) (hfuel : values.length ≤ fuel) :
    (decodePrimaryKeyLoop fuel).run d = .ok (values, d.skip (keysBytes values).length) := by
  have hfinished : d.isFinished = true ↔ keysBytes values = [] := by
    rw [← h, unread, List.drop_eq_nil_iff, isFinished, beq_iff_eq]
    have hposition := hfits.position_le
    omega
  induction values generalizing d fuel with
  | nil =>
    cases fuel <;> simp [decodePrimaryKeyLoop, hfinished, keysBytes, skip]
  | cons value values ih =>
    obtain ⟨hkey, hkeys⟩ := List.forall_mem_cons.mp hkeys
    obtain ⟨fuel, rfl⟩ : ∃ n, fuel = n + 1 := ⟨fuel - 1, by simp at hfuel; omega⟩
    have hfuel : values.length ≤ fuel := Nat.le_of_succ_le_succ hfuel
    rw [keysBytes_cons] at h
    have hunfinished : d.isFinished = false := by
      rw [Bool.eq_false_iff, ne_eq, hfinished, keysBytes_cons, List.append_eq_nil_iff]
      rintro ⟨hempty, _⟩
      have hlength := one_le_length_keyBytes hkey
      simp [hempty] at hlength
    have hvalue := yields_decodePrimaryKeyValue hkey h hfits
    have hnext := unread_skip value.keyBytes h
    have hfitsNext := hfits.skip h
    have hrest := ih hkeys hnext hfitsNext hfuel (by
      rw [← hnext, unread, List.drop_eq_nil_iff, isFinished, beq_iff_eq]
      have hposition := hfitsNext.position_le
      omega)
    simp [decodePrimaryKeyLoop, hunfinished, hvalue, hrest, skip_skip]

theorem decodes_decodePrimaryKeyLoop (fuel : Nat) :
    Decodes (decodePrimaryKeyLoop fuel) fun values used =>
      (∀ value ∈ values, value.IsKey) ∧ used = keysBytes values := by
  induction fuel with
  | zero =>
    refine Decodes.get.bind fun d used hused => ?_
    subst used
    split
    · exact .pure ⟨by simp, rfl⟩
    · exact .throw _
  | succ fuel ih =>
    refine Decodes.get.bind fun d used hused => ?_
    subst used
    split
    · exact .pure ⟨by simp, rfl⟩
    refine decodes_decodePrimaryKeyValue.bind fun value used hvalue => ?_
    obtain ⟨hkey, rfl⟩ := hvalue
    refine ih.bind fun values used hvalues => .pure ?_
    obtain ⟨hkeys, rfl⟩ := hvalues
    exact ⟨List.forall_mem_cons.mpr ⟨hkey, hkeys⟩, by simp⟩

theorem isFinished_of_decodePrimaryKeyLoop {d' : Decoder}
    (h : (decodePrimaryKeyLoop fuel).run d = .ok (values, d')) : d'.position = d'.bytes.length := by
  have hstop {d d' : Decoder} {values : List Value} (hfinished : d.isFinished = true)
      (h : (Except.ok ([], d) : Except Error _) = .ok (values, d')) :
      d'.position = d'.bytes.length := by
    cases h
    exact beq_iff_eq.mp hfinished
  induction fuel generalizing d values with
  | zero =>
    by_cases hfinished : d.isFinished = true
    · exact hstop hfinished (by simpa [decodePrimaryKeyLoop, hfinished] using h)
    · simp [decodePrimaryKeyLoop, hfinished] at h
  | succ fuel ih =>
    by_cases hfinished : d.isFinished = true
    · exact hstop hfinished (by simpa [decodePrimaryKeyLoop, hfinished] using h)
    · simp [decodePrimaryKeyLoop, hfinished] at h
      obtain ⟨_, middle, _, rest, hrest, rfl⟩ := h
      exact ih hrest

section

variable (hrange : ∀ value ∈ values, value.InRange) (h : encodePrimaryKey values = .ok bytes)
include hrange h

theorem isKey_of_encodePrimaryKey : ∀ value ∈ values, value.IsKey := by
  intro value hvalue
  cases value with
  | null => exact absurd hvalue (encodePrimaryKey_eq_ok.mp h).2.1
  | _ => exact hrange _ hvalue

theorem decodePrimaryKey_encodePrimaryKey (hlength : bytes.length ≤ u64Max) :
    decodePrimaryKey bytes = .ok values := by
  obtain ⟨hne, hnull, rfl⟩ := encodePrimaryKey_eq_ok.mp h
  have hkeys := isKey_of_encodePrimaryKey hrange h
  have hcount := length_le_keysBytes hkeys
  have hpresent : keysBytes values ≠ [] := by
    intro hempty
    rw [hempty, List.length_nil, Nat.le_zero, List.length_eq_zero_iff] at hcount
    exact hne hcount
  have hrun := decodePrimaryKeyLoop_run (d := ⟨keysBytes values, 0⟩) hkeys rfl
    ⟨Nat.zero_le _, hlength⟩ hcount
  simp [decodePrimaryKey, hpresent, rejectIf, decodeAll, hrun]

end

theorem encodePrimaryKey_of_decodePrimaryKey (h : decodePrimaryKey bytes = .ok values) :
    (∀ value ∈ values, value.IsKey) ∧ encodePrimaryKey values = .ok bytes := by
  simp only [decodePrimaryKey, eq_ok', decodeAll, StateT.run'_eq, map_eq_ok] at h
  obtain ⟨hpresent, ⟨decoded, d'⟩, hrun, rfl⟩ := h
  obtain ⟨used, hused, hkeys, rfl⟩ :=
    decodes_decodePrimaryKeyLoop _ _ _ _ (Nat.zero_le _) hrun
  have hbytes : bytes = keysBytes decoded := by
    have hunread : d'.unread = [] := by
      rw [unread, isFinished_of_decodePrimaryKeyLoop hrun, List.drop_length]
    have hread : bytes = _ := hused.unread
    rw [hread, hunread, List.append_nil]
  refine ⟨hkeys, encodePrimaryKey_eq_ok.mpr ⟨?_, ?_, hbytes⟩⟩
  · rintro rfl
    exact hpresent hbytes
  · intro hnull
    exact hkeys _ hnull

/-! ## Order -/

/-- The order of one primary-key column: signed integers, texts by their bytes, booleans. -/
def Value.compareKey : Value → Value → Ordering
  | .int value, .int other => compare value other
  | .text value, .text other => compare value.toUTF8.data.toList other.toUTF8.data.toList
  | .bool value, .bool other => compare value other
  | _, _ => .eq

/-- Two values of one column type. -/
def Value.SameType : Value → Value → Prop
  | .int _, .int _ | .text _, .text _ | .bool _, .bool _ => True
  | _, _ => False

/-- The lexicographic order of tuples of the same column types. -/
def compareKeys : List Value → List Value → Ordering
  | value :: values, other :: others => (value.compareKey other).then (compareKeys values others)
  | _, _ => .eq

theorem compare_cons_same (byte : UInt8) (bytes others : Bytes) :
    compare (byte :: bytes) (byte :: others) = compare bytes others := by
  have hself : compare byte byte = .eq := Std.ReflCmp.compare_self
  rw [List.compare_cons_cons, hself, Ordering.eq_then]

theorem compare_toBeBytes_append {width m : Nat} (hm : m < 256 ^ width) (hn : n < 256 ^ width)
    (rest rest' : Bytes) :
    compare (toBeBytes width m ++ rest) (toBeBytes width n ++ rest') =
      (compare m n).then (compare rest rest') := by
  rw [ByteOrder.compare_append_of_length_eq (by simp), toBeBytes, toBeBytes,
    ByteOrder.compare_reverse_toLeBytes hm hn]

theorem compare_orderedInt {value other : Int} (h : IsI64 value) (h' : IsI64 other) :
    compare (orderedInt value) (orderedInt other) = compare value other := by
  have hvalue := orderedInt_eq h
  have hother := orderedInt_eq h'
  rcases Int.lt_trichotomy value other with hlt | rfl | hgt
  · rw [Int.compare_eq_lt.mpr hlt, Nat.compare_eq_lt.mpr (by omega)]
  · simp
  · rw [Int.compare_eq_gt.mpr hgt, Nat.compare_eq_gt.mpr (by omega)]

theorem textEscape_lt (h : byte ≠ textEscape) : compare textEscape byte = .lt := by
  rw [UInt8.compare_eq_toNat_compare_toNat, Nat.compare_eq_lt]
  refine Nat.pos_of_ne_zero fun hzero => h ?_
  exact UInt8.toNat_inj.mp hzero

theorem lt_textEscape (h : byte ≠ textEscape) : compare byte textEscape = .gt := by
  have hswap : compare byte textEscape = (compare textEscape byte).swap :=
    Std.OrientedCmp.eq_swap
  rw [hswap, textEscape_lt h]
  rfl

theorem compare_encodeTextKey (bytes others rest rest' : Bytes) :
    compare (encodeTextKey bytes ++ rest) (encodeTextKey others ++ rest') =
      (compare bytes others).then (compare rest rest') := by
  induction bytes generalizing others with
  | nil =>
    cases others with
    | nil => exact (compare_cons_same _ _ _).trans (compare_cons_same _ _ _)
    | cons other =>
      by_cases hother : other = textEscape
      · rw [hother, encodeTextKey_cons_escape]
        exact compare_cons_same _ _ _
      · rw [encodeTextKey_cons hother, encodeTextKey_nil]
        simp only [List.cons_append, List.compare_cons_cons, textEscape_lt hother]
        rfl
  | cons byte bytes ih =>
    cases others with
    | nil =>
      by_cases hbyte : byte = textEscape
      · rw [hbyte, encodeTextKey_cons_escape]
        exact compare_cons_same _ _ _
      · rw [encodeTextKey_cons hbyte, encodeTextKey_nil]
        simp only [List.cons_append, List.compare_cons_cons, lt_textEscape hbyte]
        rfl
    | cons other =>
      by_cases hbyte : byte = textEscape <;> by_cases hother : other = textEscape
      · rw [hbyte, hother, encodeTextKey_cons_escape, encodeTextKey_cons_escape]
        simp [ih]
      · rw [hbyte, encodeTextKey_cons_escape, encodeTextKey_cons hother]
        simp only [List.cons_append, List.compare_cons_cons, textEscape_lt hother]
        rfl
      · rw [hother, encodeTextKey_cons_escape, encodeTextKey_cons hbyte]
        simp only [List.cons_append, List.compare_cons_cons, lt_textEscape hbyte]
        rfl
      · rw [encodeTextKey_cons hbyte, encodeTextKey_cons hother]
        simp only [List.cons_append, List.compare_cons_cons, ih, Ordering.then_assoc]

theorem compare_keyBytes_append {other : Value} (hkey : value.IsKey) (hother : other.IsKey)
    (htype : value.SameType other) (rest rest' : Bytes) :
    compare (value.keyBytes ++ rest) (other.keyBytes ++ rest') =
      (value.compareKey other).then (compare rest rest') := by
  cases value <;> cases other <;> try exact htype.elim
  · rename_i value other
    have hvalue : IsI64 value := hkey
    simp only [Value.keyBytes, List.cons_append, compare_cons_same]
    rw [compare_toBeBytes_append (orderedInt_lt hvalue) (orderedInt_lt hother),
      compare_orderedInt hvalue hother]
    rfl
  · exact compare_encodeTextKey _ _ _ _
  · rename_i value other
    cases value <;> cases other <;> rfl

theorem compare_keysBytes {others : List Value} (hkeys : ∀ value ∈ values, value.IsKey)
    (hothers : ∀ value ∈ others, value.IsKey) (htypes : List.Forall₂ Value.SameType values others) :
    compare (keysBytes values) (keysBytes others) = compareKeys values others := by
  induction htypes with
  | nil => rfl
  | cons htype _ ih =>
    obtain ⟨hkey, hkeys⟩ := List.forall_mem_cons.mp hkeys
    obtain ⟨hother, hothers⟩ := List.forall_mem_cons.mp hothers
    rw [keysBytes_cons, keysBytes_cons, compare_keyBytes_append hkey hother htype,
      ih hkeys hothers, compareKeys]

theorem compare_encodeRowKey
    (h : encodeRowKey key = .ok bytes) (h' : encodeRowKey other = .ok others)
    (hid : key.tableId ≤ u64Max) (hid' : other.tableId ≤ u64Max) :
    compare bytes others =
      (compare key.tableId other.tableId).then
        (compare key.primaryKeyBytes other.primaryKeyBytes) := by
  obtain ⟨_, _, rfl⟩ := RowKey.encodeRowKey_eq_ok.mp h
  obtain ⟨_, _, rfl⟩ := RowKey.encodeRowKey_eq_ok.mp h'
  have hwidth {tableId : Nat} (hid : tableId ≤ u64Max) : tableId < 256 ^ 8 :=
    Nat.lt_of_le_of_lt hid (by decide)
  rw [List.cons_append, List.cons_append, compare_cons_same,
    compare_toBeBytes_append (hwidth hid) (hwidth hid')]

/-- The derived order of row keys: by table, and then by primary key. -/
def RowKey.cmp (key other : RowKey) : Ordering :=
  (compare key.tableId other.tableId).then (compare key.primaryKeyBytes other.primaryKeyBytes)

theorem RowKey.cmp_of_decodeRowKey (h : decodeRowKey bytes = .ok key)
    (h' : decodeRowKey others = .ok other) : key.cmp other = compare bytes others := by
  obtain ⟨hbytes, hid⟩ := RowKey.encodeRowKey_of_decodeRowKey h
  obtain ⟨hothers, hid'⟩ := RowKey.encodeRowKey_of_decodeRowKey h'
  exact (compare_encodeRowKey hbytes hothers hid hid').symm

/-- Primary keys are an ordered, canonical code.  The tuples without NULL are encoded, and decoded
to themselves; what is decoded was the encoding of its tuple; and the encodings of tuples of the
same column types compare as the tuples do.  Row keys compare by table and then by primary key,
and their encoder and decoder are inverse to each other. -/
theorem keyCodec_canonical_and_ordered :
    (∀ values : List Value, (∃ bytes, encodePrimaryKey values = .ok bytes) ↔
      values ≠ [] ∧ .null ∉ values) ∧
    (∀ (values : List Value) (bytes : Bytes), (∀ value ∈ values, value.InRange) →
      encodePrimaryKey values = .ok bytes → bytes.length ≤ u64Max →
        decodePrimaryKey bytes = .ok values) ∧
    (∀ (bytes : Bytes) (values : List Value), decodePrimaryKey bytes = .ok values →
      encodePrimaryKey values = .ok bytes) ∧
    (∀ (values others : List Value) (bytes bytes' : Bytes), (∀ value ∈ values, value.InRange) →
      (∀ value ∈ others, value.InRange) → List.Forall₂ Value.SameType values others →
      encodePrimaryKey values = .ok bytes → encodePrimaryKey others = .ok bytes' →
        compare bytes bytes' = compareKeys values others) ∧
    (∀ (key other : RowKey) (bytes bytes' : Bytes), key.tableId ≤ u64Max → other.tableId ≤ u64Max →
      encodeRowKey key = .ok bytes → encodeRowKey other = .ok bytes' →
        compare bytes bytes' = (compare key.tableId other.tableId).then
          (compare key.primaryKeyBytes other.primaryKeyBytes)) ∧
    (∀ (key : RowKey) (bytes : Bytes), key.tableId ≤ u64Max →
      (encodeRowKey key = .ok bytes ↔ decodeRowKey bytes = .ok key)) := by
  refine ⟨?_, ?_, ?_, ?_, ?_, ?_⟩
  · intro values
    simp only [encodePrimaryKey_eq_ok]
    constructor
    · rintro ⟨bytes, hne, hnull, _⟩
      exact ⟨hne, hnull⟩
    · rintro ⟨hne, hnull⟩
      exact ⟨_, hne, hnull, rfl⟩
  · intro values bytes hrange h hlength
    exact decodePrimaryKey_encodePrimaryKey hrange h hlength
  · intro bytes values h
    exact (encodePrimaryKey_of_decodePrimaryKey h).2
  · intro values others bytes bytes' hrange hrange' htypes h h'
    have hkeys := isKey_of_encodePrimaryKey hrange h
    have hothers := isKey_of_encodePrimaryKey hrange' h'
    obtain ⟨_, _, rfl⟩ := encodePrimaryKey_eq_ok.mp h
    obtain ⟨_, _, rfl⟩ := encodePrimaryKey_eq_ok.mp h'
    exact compare_keysBytes hkeys hothers htypes
  · intro key other bytes bytes' hid hid' h h'
    exact compare_encodeRowKey h h' hid hid'
  · intro key bytes hid
    constructor
    · intro h
      exact RowKey.decodeRowKey_of_encodeRowKey h hid
    · intro h
      exact (RowKey.encodeRowKey_of_decodeRowKey h).1

/-- A text with a zero byte in it is below every longer text that starts with it. -/
theorem keyCodec_sample :
    ∃ bytes bytes', encodePrimaryKey [.int (-1), .text "a\x00"] = .ok bytes ∧
      encodePrimaryKey [.int (-1), .text "a\x00b"] = .ok bytes' ∧ compare bytes bytes' = .lt := by
  obtain ⟨bytes, h⟩ := (keyCodec_canonical_and_ordered.1 [.int (-1), .text "a\x00"]).mpr (by decide)
  obtain ⟨bytes', h'⟩ := (keyCodec_canonical_and_ordered.1 [.int (-1), .text "a\x00b"]).mpr
    (by decide)
  refine ⟨bytes, bytes', h, h', ?_⟩
  have htypes : List.Forall₂ Value.SameType
      [.int (-1), .text "a\x00"] [.int (-1), .text "a\x00b"] :=
    .cons trivial (.cons trivial .nil)
  rw [keyCodec_canonical_and_ordered.2.2.2.1 _ _ bytes bytes' (by decide) (by decide) htypes h h']
  decide +kernel

end RagnorDb
