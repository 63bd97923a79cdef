import RagnorDb.Common.Encoding

/-!
# Rows survive their encoding

Each value is decoded from the bytes it was encoded to, whatever follows them, and a decoder
never moves past a position that `usize` can hold.
-/

namespace RagnorDb

open Checked Decoder

variable {n : Nat} {output rest : Bytes} {value : Value} {d : Decoder} {values : List Value}
  {row : Row}

/-! ## Numbers and texts -/

theorem fromBeBytes_reverse (bytes : Bytes) :
    fromBeBytes bytes.reverse = ByteOrder.fromLeBytes bytes := by
  induction bytes with
  | nil => rfl
  | cons byte bytes ih =>
    have happend : fromBeBytes (bytes.reverse ++ [byte]) =
        fromBeBytes bytes.reverse * 256 + byte.toNat := by
      simp [fromBeBytes]
    rw [List.reverse_cons, happend, ih, ByteOrder.fromLeBytes]
    omega

theorem fromBeBytes_toBeBytes (width n : Nat) :
    fromBeBytes (toBeBytes width n) = n % 256 ^ width := by
  rw [toBeBytes, fromBeBytes_reverse, ByteOrder.fromLeBytes_toLeBytes]

@[simp] theorem length_toBeBytes (width n : Nat) : (toBeBytes width n).length = width := by
  simp [toBeBytes]

theorem toBeBytes_fromBeBytes {bytes : Bytes} {width : Nat} (h : bytes.length = width) :
    toBeBytes width (fromBeBytes bytes) = bytes := by
  have hinverse := ByteOrder.toLeBytes_fromLeBytes bytes.reverse
  rw [← fromBeBytes_reverse, List.reverse_reverse, List.length_reverse, h] at hinverse
  rw [toBeBytes, hinverse, List.reverse_reverse]

/-- An `i64`. -/
def IsI64 (value : Int) : Prop :=
  -2 ^ 63 ≤ value ∧ value < 2 ^ 63

instance (value : Int) : Decidable (IsI64 value) := by
  unfold IsI64
  infer_instance

theorem isI64_asI64 (h : n < 2 ^ 64) : IsI64 (asI64 n) := by
  unfold asI64 IsI64
  split <;> omega

theorem asI64_emod {value : Int} (h : IsI64 value) : asI64 (value % 2 ^ 64).toNat = value := by
  unfold asI64
  unfold IsI64 at h
  split <;> omega

theorem fromUtf8_toUTF8 (text : String) : fromUtf8 text.toUTF8.data.toList = some text := by
  simp only [fromUtf8, String.fromUTF8?, String.toUTF8_eq_toByteArray,
    dif_pos text.isValidUTF8]
  rfl

/-! ## Decoders -/

namespace Decoder

variable {d : Decoder} {chunk rest : Bytes} (texts : DecoderTexts)
variable {n : Nat}

def unread (d : Decoder) : Bytes :=
  d.bytes.drop d.position

def skip (d : Decoder) (n : Nat) : Decoder :=
  { d with position := d.position + n }

@[simp] theorem bytes_skip (n : Nat) : (d.skip n).bytes = d.bytes := rfl

theorem unread_skip (chunk : Bytes) (h : d.unread = chunk ++ rest) :
    (d.skip chunk.length).unread = rest := by
  unfold unread at h ⊢
  rw [skip, ← List.drop_drop, h, List.drop_left]

theorem skip_skip (m n : Nat) : (d.skip m).skip n = d.skip (m + n) := by
  simp [skip, Nat.add_assoc]

/-- The position lies inside a byte slice that `usize` can measure. -/
structure Fits (d : Decoder) : Prop where
  position_le : d.position ≤ d.bytes.length
  length_le : d.bytes.length ≤ u64Max

theorem Fits.skip (hfits : d.Fits) (h : d.unread = chunk ++ rest) : (d.skip chunk.length).Fits := by
  refine ⟨?_, hfits.length_le⟩
  have hlength := congrArg List.length h
  simp only [unread, List.length_drop, List.length_append] at hlength
  have hposition := hfits.position_le
  change d.position + chunk.length ≤ d.bytes.length
  omega

theorem readExact_eq_ok {bytes : Bytes} {d' : Decoder}
    (h : (readExact texts n).run d = .ok (bytes, d')) :
    d.position + n ≤ d.bytes.length ∧ d.position + n ≤ u64Max ∧
      bytes = (d.bytes.drop d.position).take n ∧ d' = d.skip n := by
  simp [readExact, okOr_eq_ok] at h
  obtain ⟨stop, hadd, hle, rfl, rfl⟩ := h
  obtain ⟨hmax, rfl⟩ := checkedAdd_eq_some.mp hadd
  exact ⟨hle, hmax, rfl, rfl⟩

end Decoder

/-- A decoder reads a value from exactly these bytes, whatever follows them. -/
def Yields {α : Type} (decode : DecodeM α) (a : α) (used : Bytes) : Prop :=
  ∀ ⦃d : Decoder⦄ ⦃rest : Bytes⦄, d.unread = used ++ rest → d.Fits →
    decode.run d = .ok (a, d.skip used.length)

namespace Yields

variable {α β : Type} {a : α} {b : β} {used more : Bytes} {decode : DecodeM α}
  {next : α → DecodeM β}

theorem bind (h : Yields decode a used) (hnext : Yields (next a) b more) :
    Yields (decode >>= next) b (used ++ more) := by
  intro d rest hunread hfits
  rw [List.append_assoc] at hunread
  rw [StateT.run_bind, h hunread hfits, ok_bind,
    hnext (unread_skip used hunread) (hfits.skip hunread), skip_skip, List.length_append]

theorem bind_of_run (h : Yields decode a used) (hnext : ∀ d, (next a).run d = .ok (b, d)) :
    Yields (decode >>= next) b used := by
  intro d rest hunread hfits
  rw [StateT.run_bind, h hunread hfits, ok_bind, hnext]

theorem get_bind {next : Decoder → DecodeM β}
    (h : ∀ d rest, d.unread = used ++ rest → Yields (next d) b used) :
    Yields (get >>= next) b used :=
  fun d rest hunread hfits => h d rest hunread hunread hfits

theorem readExact (texts : DecoderTexts) (chunk : Bytes) :
    Yields (readExact texts chunk.length) chunk chunk := by
  intro d rest hunread hfits
  have hle : d.position + chunk.length ≤ d.bytes.length := (hfits.skip hunread).position_le
  have hadd : checkedAdd d.position chunk.length = some (d.position + chunk.length) :=
    if_pos (Nat.le_trans hle hfits.length_le)
  have htake : (d.bytes.drop d.position).take chunk.length = chunk := by
    rw [show d.bytes.drop d.position = chunk ++ rest from hunread, List.take_left]
  simp [Decoder.readExact, hadd, okOr, rejectIf, Nat.not_lt.mpr hle, htake, skip]

theorem readU8 (texts : DecoderTexts) (byte : UInt8) : Yields (readU8 texts) byte [byte] :=
  (readExact texts [byte]).bind_of_run fun _ => rfl

theorem readU32 (context : String) (hn : n < 2 ^ 32) :
    Yields (readU32 context) n (toBeBytes 4 n) := by
  have hread := readExact (encodingTexts context) (toBeBytes 4 n)
  rw [length_toBeBytes] at hread
  refine hread.bind_of_run fun _ => ?_
  rw [fromBeBytes_toBeBytes, Nat.mod_eq_of_lt (by omega)]
  rfl

end Yields

/-! ## Values -/

/-- The integers of a value are those of the source. -/
def Value.InRange : Value → Prop
  | .int value => IsI64 value
  | _ => True

instance : DecidablePred Value.InRange := by
  intro value
  unfold Value.InRange
  split <;> infer_instance

def Row.InRange (row : Row) : Prop :=
  ∀ value ∈ row.values, value.InRange

/-- The encoding of one value. -/
def Value.bytes : Value → Bytes
  | .null => [valueTagNull]
  | .int value => valueTagInt :: toBeBytes 8 (value % 2 ^ 64).toNat
  | .text value =>
    valueTagText :: toBeBytes 4 value.toUTF8.data.toList.length ++ value.toUTF8.data.toList
  | .bool value => [valueTagBool, if value then 1 else 0]

/-- A text that its length field can describe. -/
def Value.Encodable : Value → Prop
  | .text value => value.toUTF8.data.toList.length < 2 ^ 32
  | _ => True

theorem encodeValueInto_eq_ok {bytes : Bytes} :
    encodeValueInto output value = .ok bytes ↔
      value.Encodable ∧ bytes = output ++ value.bytes := by
  cases value with
  | text =>
    simp only [encodeValueInto, eq_ok', Value.Encodable, Value.bytes, Nat.not_le]
    simp [eq_comm]
  | _ =>
    simp only [encodeValueInto, eq_ok, Value.Encodable, Value.bytes, true_and]
    exact eq_comm

theorem yields_decodeValueFrom (context : String) (hrange : value.InRange)
    (hencodable : value.Encodable) : Yields (decodeValueFrom context) value value.bytes := by
  cases value with
  | null => exact (Yields.readU8 _ valueTagNull).bind_of_run fun _ => rfl
  | bool value =>
    refine (Yields.readU8 _ valueTagBool).bind ?_
    cases value with
    | false => exact (Yields.readU8 _ 0).bind_of_run fun _ => rfl
    | true => exact (Yields.readU8 _ 1).bind_of_run fun _ => rfl
  | int value =>
    have hdecoded : asI64 (fromBeBytes (toBeBytes 8 (value % 2 ^ 64).toNat)) = value := by
      rw [fromBeBytes_toBeBytes, Nat.mod_eq_of_lt (by omega), asI64_emod hrange]
    have hpayload := Yields.readExact (encodingTexts context) (toBeBytes 8 (value % 2 ^ 64).toNat)
    rw [length_toBeBytes] at hpayload
    exact (Yields.readU8 _ valueTagInt).bind (hpayload.bind_of_run fun _ => by rw [hdecoded]; rfl)
  | text value =>
    refine (Yields.readU8 _ valueTagText).bind ((Yields.readU32 context hencodable).bind
      ((Yields.readExact _ _).bind_of_run fun _ => ?_))
    rw [fromUtf8_toUTF8]
    rfl

/-! ## Rows -/

/-- The encodings of the values of a row, in order. -/
def valuesBytes (values : List Value) : Bytes :=
  (values.map Value.bytes).flatten

theorem foldlM_encodeValueInto_eq_ok {bytes : Bytes} :
    values.foldlM encodeValueInto output = .ok bytes ↔
      (∀ value ∈ values, value.Encodable) ∧ bytes = output ++ valuesBytes values :=
  foldlM_append_eq_ok encodeValueInto_eq_ok

theorem yields_decodeValues (hrange : ∀ value ∈ values, value.InRange)
    (hencodable : ∀ value ∈ values, value.Encodable) :
    Yields (decodeValues values.length) values (valuesBytes values) := by
  induction values with
  | nil => exact fun _ _ _ _ => rfl
  | cons value values ih =>
    obtain ⟨hvalue, hrange⟩ := List.forall_mem_cons.mp hrange
    obtain ⟨hfits, hencodable⟩ := List.forall_mem_cons.mp hencodable
    exact (yields_decodeValueFrom "row" hvalue hfits).bind
      ((ih hrange hencodable).bind_of_run fun _ => rfl)

theorem encodeRow_eq_ok {bytes : Bytes} :
    encodeRow row = .ok bytes ↔
      row.values.length < 2 ^ 32 ∧ (∀ value ∈ row.values, value.Encodable) ∧
        bytes = rowFormatVersion :: (toBeBytes 4 row.values.length ++ valuesBytes row.values) := by
  simp [encodeRow, foldlM_encodeValueInto_eq_ok]

theorem length_le_valuesBytes (values : List Value) :
    values.length ≤ (valuesBytes values).length := by
  induction values with
  | nil => simp
  | cons value values =>
    have hvalue : 1 ≤ value.bytes.length := by
      cases value <;> simp [Value.bytes]
    have hlength : (valuesBytes (value :: values)).length =
        value.bytes.length + (valuesBytes values).length := by
      simp [valuesBytes]
    rw [hlength, List.length_cons]
    omega

/-- A row that was encoded is decoded again. -/
theorem decodeRow_encodeRow {bytes : Bytes} (hrange : row.InRange) (h : encodeRow row = .ok bytes)
    (hlength : bytes.length ≤ u64Max) : decodeRow bytes = .ok row := by
  obtain ⟨hcount, hencodable, hbytes⟩ := encodeRow_eq_ok.mp h
  have hunread : (⟨bytes, 0⟩ : Decoder).unread =
      [rowFormatVersion] ++ (toBeBytes 4 row.values.length ++ (valuesBytes row.values ++ [])) := by
    rw [List.append_nil]
    exact hbytes
  have hfits : (⟨bytes, 0⟩ : Decoder).Fits := ⟨Nat.zero_le _, hlength⟩
  have hversion := Yields.readU8 (encodingTexts "row") _ hunread hfits
  have hnext := unread_skip _ hunread
  have hfits := hfits.skip hunread
  rw [List.length_singleton] at hversion hnext hfits
  have hsize := Yields.readU32 "row" hcount hnext hfits
  have hvaluesAt := unread_skip (toBeBytes 4 row.values.length) hnext
  have hfits := hfits.skip hnext
  rw [length_toBeBytes] at hvaluesAt hfits
  have hvalues := yields_decodeValues hrange hencodable hvaluesAt hfits
  have htotal : bytes.length = 1 + 4 + (valuesBytes row.values).length := by
    rw [hbytes]
    simp only [List.length_cons, List.length_append, length_toBeBytes]
    omega
  have hremaining : ¬ (skip (skip ⟨bytes, 0⟩ 1) 4).remaining < row.values.length := by
    have hle := length_le_valuesBytes row.values
    simp only [remaining, skip]
    omega
  have hposition : ((skip (skip ⟨bytes, 0⟩ 1) 4).skip
      (valuesBytes row.values).length).position = bytes.length := by
    simp only [skip]
    omega
  simp [decodeRow, decodeAll, StateT.run'_eq, hversion, hsize, hvalues, finish,
    rejectIf, hremaining, hposition]

/-! ## What a decoder can return -/

theorem fromBeBytes_lt (bytes : Bytes) : fromBeBytes bytes < 256 ^ bytes.length := by
  have hlt := ByteOrder.fromLeBytes_lt bytes.reverse
  rw [← fromBeBytes_reverse, List.reverse_reverse, List.length_reverse] at hlt
  exact hlt

/-- From one decoder to a later one: the bytes that were read in between, all inside of the slice
and at positions that `usize` can hold. -/
structure Decoder.Consumes (d d' : Decoder) (used : Bytes) : Prop where
  unread : d.unread = used ++ d'.unread
  next : d' = d.skip used.length
  position_le : d'.position ≤ d'.bytes.length
  measured : d.position ≤ u64Max → d'.position ≤ u64Max

theorem Decoder.Consumes.trans {d' d'' : Decoder} {used more : Bytes} (h : d.Consumes d' used)
    (h' : d'.Consumes d'' more) : d.Consumes d'' (used ++ more) where
  unread := by rw [h.unread, h'.unread, List.append_assoc]
  next := by rw [h'.next, h.next, skip_skip, List.length_append]
  position_le := h'.position_le
  measured hd := h'.measured (h.measured hd)

/-- Whatever a decoder returns is related to the bytes that it has read. -/
def Decodes {α : Type} (decode : DecodeM α) (P : α → Bytes → Prop) : Prop :=
  ∀ (d : Decoder) (a : α) (d' : Decoder), d.position ≤ d.bytes.length →
    decode.run d = .ok (a, d') → ∃ used, d.Consumes d' used ∧ P a used

namespace Decodes

variable {α β : Type} {P Q : α → Bytes → Prop} {R : β → Bytes → Prop}
variable {decode : DecodeM α}

theorem pure {a : α} (h : P a []) : Decodes (pure a) P := by
  intro d b d' hd hrun
  cases hrun
  exact ⟨[], ⟨rfl, rfl, hd, id⟩, h⟩

theorem throw (error : Error) : Decodes (throw error) P := by
  intro d a d' _ hrun
  cases hrun

theorem bind {next : α → DecodeM β} (h : Decodes decode P)
    (hnext : ∀ a used, P a used → Decodes (next a) fun b more => R b (used ++ more)) :
    Decodes (decode >>= next) R := by
  intro d b d' hd hrun
  rw [StateT.run_bind, bind_eq_ok] at hrun
  obtain ⟨⟨a, middle⟩, hfirst, hrest⟩ := hrun
  obtain ⟨used, hused, ha⟩ := h d a middle hd hfirst
  obtain ⟨more, hmore, hb⟩ := hnext a used ha middle b d' hused.position_le hrest
  exact ⟨used ++ more, hused.trans hmore, hb⟩

theorem lift {x : Except Error α} (h : ∀ a, x = .ok a → P a []) :
    Decodes (liftM x : DecodeM α) P := by
  intro d a d' hd hrun
  cases x with
  | error => cases hrun
  | ok =>
    cases hrun
    exact ⟨[], ⟨rfl, rfl, hd, id⟩, h _ rfl⟩

theorem get : Decodes MonadState.get fun _ used => used = [] := by
  intro d a d' hd hrun
  cases hrun
  exact ⟨[], ⟨rfl, rfl, hd, id⟩, rfl⟩

theorem weaken (h : Decodes decode P) (hPQ : ∀ a used, P a used → Q a used) : Decodes decode Q := by
  intro d a d' hd hrun
  obtain ⟨used, hused, ha⟩ := h d a d' hd hrun
  exact ⟨used, hused, hPQ a used ha⟩

theorem readExact (texts : DecoderTexts) (n : Nat) :
    Decodes (readExact texts n) fun bytes used => used = bytes ∧ bytes.length = n := by
  intro d bytes d' _ hrun
  obtain ⟨hle, hmax, rfl, rfl⟩ := readExact_eq_ok texts hrun
  have hlength : ((d.bytes.drop d.position).take n).length = n := by
    rw [List.length_take, List.length_drop]
    omega
  refine ⟨_, ⟨?_, ?_, hle, fun _ => hmax⟩, rfl, hlength⟩
  · rw [unread, unread, skip, ← List.drop_drop, List.take_append_drop]
  · rw [hlength]

theorem readU8 (texts : DecoderTexts) : Decodes (readU8 texts) fun byte used => used = [byte] := by
  refine (readExact texts 1).bind fun bytes used h => .pure ?_
  obtain ⟨rfl, hlength⟩ := h
  obtain ⟨byte, rfl⟩ := List.length_eq_one_iff.mp hlength
  rfl

theorem readU32 (context : String) :
    Decodes (readU32 context) fun n used => n < 2 ^ 32 ∧ used = toBeBytes 4 n := by
  refine (readExact _ 4).bind fun bytes used h => .pure ?_
  obtain ⟨rfl, hlength⟩ := h
  have hlt := fromBeBytes_lt used
  rw [hlength] at hlt
  rw [List.append_nil, toBeBytes_fromBeBytes hlength]
  exact ⟨hlt, rfl⟩

end Decodes

theorem emod_asI64 (h : n < 2 ^ 64) : (asI64 n % 2 ^ 64).toNat = n := by
  unfold asI64
  split <;> omega

theorem toUTF8_of_fromUtf8 {bytes : Bytes} {text : String} (h : fromUtf8 bytes = some text) :
    text.toUTF8.data.toList = bytes := by
  unfold fromUtf8 String.fromUTF8? at h
  split at h
  · cases h
    rfl
  · cases h

/-- A decoded value was read from its own encoding. -/
theorem decodes_decodeValueFrom (context : String) :
    Decodes (decodeValueFrom context) fun value used =>
      value.InRange ∧ value.Encodable ∧ used = value.bytes := by
  refine (Decodes.readU8 _).bind fun tag _ htag => ?_
  subst htag
  split
  · rename_i htag
    exact .pure ⟨trivial, trivial, by rw [htag]; rfl⟩
  split
  · rename_i _ htag
    refine (Decodes.readExact _ 8).bind fun bytes used h => .pure ?_
    obtain ⟨hused, hlength⟩ := h
    subst used
    have hlt := fromBeBytes_lt bytes
    rw [hlength] at hlt
    refine ⟨isI64_asI64 (by omega), trivial, ?_⟩
    rw [Value.bytes, emod_asI64 (by omega), toBeBytes_fromBeBytes hlength, htag]
    simp
  split
  · rename_i _ _ htag
    refine (Decodes.readU32 context).bind fun length _ hsize => ?_
    refine (Decodes.readExact _ length).bind fun bytes used h => ?_
    obtain ⟨hused, hlength⟩ := h
    subst used
    obtain ⟨hlt, rfl⟩ := hsize
    refine (Decodes.lift (P := fun text used => text.toUTF8.data.toList = bytes ∧ used = [])
      fun text htext => ⟨?_, rfl⟩).bind fun text _ htext => .pure ?_
    · exact toUTF8_of_fromUtf8 (okOr_eq_ok.mp htext)
    · obtain ⟨hbytes, rfl⟩ := htext
      refine ⟨trivial, ?_, ?_⟩
      · rw [Value.Encodable, hbytes, hlength]
        exact hlt
      · rw [Value.bytes, hbytes, hlength, htag]
        simp
  split
  · rename_i _ _ _ htag
    refine (Decodes.readU8 _).bind fun encoded _ hencoded => ?_
    subst hencoded
    split
    · rename_i hfalse
      exact .pure ⟨trivial, trivial, by rw [htag, hfalse]; rfl⟩
    split
    · rename_i htrue
      exact .pure ⟨trivial, trivial, by rw [htag, htrue]; rfl⟩
    · exact .throw _
  · exact .throw _

theorem decodes_decodeValues (count : Nat) :
    Decodes (decodeValues count) fun values used =>
      (∀ value ∈ values, value.InRange) ∧ (∀ value ∈ values, value.Encodable) ∧
        values.length = count ∧ used = valuesBytes values := by
  induction count with
  | zero => exact .pure ⟨by simp, by simp, rfl, rfl⟩
  | succ count ih =>
    refine (decodes_decodeValueFrom _).bind fun value _ hvalue => ?_
    refine ih.bind fun values _ hvalues => .pure ?_
    obtain ⟨hrange, hencodable, rfl⟩ := hvalue
    obtain ⟨hranges, hencodables, rfl, rfl⟩ := hvalues
    refine ⟨List.forall_mem_cons.mpr ⟨hrange, hranges⟩,
      List.forall_mem_cons.mpr ⟨hencodable, hencodables⟩, rfl, ?_⟩
    simp [valuesBytes]

/-- A stored row is the encoding of what it decodes to: storage accepts only rows of the source's
integers, from slices that `usize` can measure. -/
theorem encodeRow_of_decodeRow {bytes : Bytes} (h : decodeRow bytes = .ok row) :
    row.InRange ∧ bytes.length ≤ u64Max ∧ encodeRow row = .ok bytes := by
  have hrun : ∃ d₁ count d₂ d₃,
      (readU8 (encodingTexts "row")).run ⟨bytes, 0⟩ = .ok (rowFormatVersion, d₁) ∧
      (readU32 "row").run d₁ = .ok (count, d₂) ∧
      (decodeValues count).run d₂ = .ok (row.values, d₃) ∧ d₃.position = d₃.bytes.length := by
    simp [decodeRow, decodeAll, StateT.run'_eq, finish] at h
    obtain ⟨d₁, hversion, count, d₂, hcount, _, values, d₃, hvalues, hend, rfl⟩ := h
    exact ⟨d₁, count, d₂, d₃, hversion, hcount, hvalues, hend⟩
  obtain ⟨d₁, count, d₂, d₃, hversion, hcount, hvalues, hend⟩ := hrun
  obtain ⟨_, h₁, rfl⟩ := Decodes.readU8 _ _ _ _ (Nat.zero_le _) hversion
  obtain ⟨_, h₂, hlt, rfl⟩ := Decodes.readU32 _ _ _ _ h₁.position_le hcount
  obtain ⟨_, h₃, hrange, hencodable, rfl, rfl⟩ :=
    decodes_decodeValues _ _ _ _ h₂.position_le hvalues
  have hall := (h₁.trans h₂).trans h₃
  have hslice : d₃.bytes = bytes := by
    rw [hall.next]
    rfl
  have hbytes : bytes = rowFormatVersion ::
      (toBeBytes 4 row.values.length ++ valuesBytes row.values) := by
    have hunread : d₃.unread = [] := by
      rw [unread, hend, List.drop_length]
    have hread : bytes = _ := hall.unread
    rw [hread, hunread]
    simp
  refine ⟨hrange, ?_, encodeRow_eq_ok.mpr ⟨hlt, hencodable, hbytes⟩⟩
  have hmeasured := hall.measured (Nat.zero_le _)
  rw [hend, hslice] at hmeasured
  exact hmeasured

/-- A decoder that starts inside of its slice stays inside of it. -/
def Decoder.ReadsInside {α : Type} (decode : DecodeM α) : Prop :=
  ∀ (d : Decoder) (a : α) (d' : Decoder), d.position ≤ d.bytes.length →
    decode.run d = .ok (a, d') →
    d'.bytes = d.bytes ∧ d.position ≤ d'.position ∧ d'.position ≤ d.bytes.length

theorem Decodes.readsInside {α : Type} {decode : DecodeM α} {P : α → Bytes → Prop}
    (h : Decodes decode P) : ReadsInside decode := by
  intro d a d' hd hrun
  obtain ⟨used, hused, _⟩ := h d a d' hd hrun
  have hbytes : d'.bytes = d.bytes := by
    rw [hused.next]
    rfl
  refine ⟨hbytes, ?_, hbytes ▸ hused.position_le⟩
  rw [hused.next]
  exact Nat.le_add_right _ _

/-- The row format is lossless and canonical.  A row is encoded exactly when its count and its
texts fit their length fields, and it is decoded to itself; what is decoded was the encoding of
its row.  Every read finds all of its bytes, and no decoder leaves the slice. -/
theorem rowCodec_lossless_and_canonical :
    (∀ row : Row, (∃ bytes, encodeRow row = .ok bytes) ↔
      row.values.length < 2 ^ 32 ∧ ∀ value ∈ row.values, value.Encodable) ∧
    (∀ (row : Row) (bytes : Bytes), row.InRange → encodeRow row = .ok bytes →
      bytes.length ≤ u64Max → decodeRow bytes = .ok row) ∧
    (∀ (bytes : Bytes) (row : Row), decodeRow bytes = .ok row →
      row.InRange ∧ encodeRow row = .ok bytes) ∧
    (∀ (texts : DecoderTexts) (length : Nat) (d : Decoder) (bytes : Bytes) (d' : Decoder),
      (readExact texts length).run d = .ok (bytes, d') →
        d.position + length ≤ d.bytes.length ∧ bytes.length = length) ∧
    (∀ (texts : DecoderTexts) (length : Nat), ReadsInside (readExact texts length)) ∧
    (∀ context : String, ReadsInside (decodeValueFrom context)) ∧
    (∀ count : Nat, ReadsInside (decodeValues count)) := by
  refine ⟨?_, ?_, ?_, ?_, ?_, ?_, ?_⟩
  · intro row
    constructor
    · rintro ⟨bytes, h⟩
      obtain ⟨hcount, hencodable, _⟩ := encodeRow_eq_ok.mp h
      exact ⟨hcount, hencodable⟩
    · rintro ⟨hcount, hencodable⟩
      exact ⟨_, encodeRow_eq_ok.mpr ⟨hcount, hencodable, rfl⟩⟩
  · intro row bytes hrange h hlength
    exact decodeRow_encodeRow hrange h hlength
  · intro bytes row h
    obtain ⟨hrange, _, hencoded⟩ := encodeRow_of_decodeRow h
    exact ⟨hrange, hencoded⟩
  · intro texts length d bytes d' hrun
    obtain ⟨hle, _, rfl, _⟩ := readExact_eq_ok texts hrun
    refine ⟨hle, ?_⟩
    rw [List.length_take, List.length_drop]
    omega
  · intro texts length
    exact (Decodes.readExact texts length).readsInside
  · intro context
    exact (decodes_decodeValueFrom context).readsInside
  · intro count
    exact (decodes_decodeValues count).readsInside

theorem rowCodec_sample :
    let row : Row := ⟨[.int (-2), .null, .text "é", .bool true]⟩
    ∃ bytes, encodeRow row = .ok bytes ∧ bytes.length = 24 ∧ decodeRow bytes = .ok row := by
  intro row
  obtain ⟨bytes, hbytes⟩ := (rowCodec_lossless_and_canonical.1 row).mpr
    ⟨by decide, by simp [row, Value.Encodable]; decide⟩
  have hlength : bytes.length = 24 := by
    obtain ⟨_, _, rfl⟩ := encodeRow_eq_ok.mp hbytes
    decide +kernel
  refine ⟨bytes, hbytes, hlength, ?_⟩
  have hrange : row.InRange := by
    unfold Row.InRange
    decide
  exact rowCodec_lossless_and_canonical.2.1 row bytes hrange hbytes (by rw [hlength]; decide)

end RagnorDb
