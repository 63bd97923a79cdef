import RagnorDb.Common.Basic
import RagnorDb.Lib.ByteOrder

/-!
# Row encoding

The encoder and the decoder of `encoding.rs`.  A row is `[version][value count: u32][values]`, and
every value starts with its tag.  Storage accepts a row payload exactly when `decodeRow` does.
-/

namespace RagnorDb

open Checked

/-- A typed SQL cell value. -/
inductive Value where
  | int (value : Int)
  | text (value : String)
  | bool (value : Bool)
  | null
  deriving DecidableEq

/-- A complete SQL row, in column order. -/
structure Row where
  values : List Value
  deriving DecidableEq

/-! ## Bounds-checked cursors

`encoding.rs` and `key.rs` each have a decoder over a byte slice.  They differ in the
texts of their errors, which are the parameter here. -/

/-- The texts a decoder puts in its errors. -/
structure DecoderTexts where
  corrupt : String → Error
  lengthOverflow : String
  truncated : String

/-- A byte slice and the position read up to. -/
structure Decoder where
  bytes : Bytes
  position : Nat

abbrev DecodeM := StateT Decoder (Except Error)

namespace Decoder

/-- Run a decoder from the start of a byte slice. -/
def decodeAll {α : Type} (bytes : Bytes) (decode : DecodeM α) : Except Error α :=
  decode.run' ⟨bytes, 0⟩

variable (texts : DecoderTexts)

/-- The number of unread bytes. -/
def remaining (d : Decoder) : Nat :=
  d.bytes.length - d.position

def readExact (length : Nat) : DecodeM Bytes := do
  let d ← get
  let stop ← okOr (checkedAdd d.position length) (texts.corrupt texts.lengthOverflow)
  rejectIf (stop > d.bytes.length)
    (texts.corrupt (s!"{texts.truncated} at byte {d.position}, " ++
      s!"needed {stop - d.bytes.length} more bytes"))
  set { d with position := stop }
  return (d.bytes.drop d.position).take length

def readU8 : DecodeM UInt8 := do
  let bytes ← readExact texts 1
  return bytes.headD 0

end Decoder

/-- A big-endian unsigned number. -/
def fromBeBytes (bytes : Bytes) : Nat :=
  bytes.foldl (fun acc byte => acc * 256 + byte.toNat) 0

/-- `to_be_bytes` of an unsigned number of `width` bytes. -/
def toBeBytes (width n : Nat) : Bytes :=
  (ByteOrder.toLeBytes width n).reverse

/-- `as i64` on a `u64`. -/
def asI64 (n : Nat) : Int :=
  if n < 2 ^ 63 then n else (n : Int) - 2 ^ 64

/-- The `02x` format of a byte. -/
def hexByte (byte : UInt8) : String :=
  String.ofList [Nat.digitChar (byte.toNat / 16), Nat.digitChar (byte.toNat % 16)]

/-- `std::str::from_utf8`. -/
def fromUtf8 (bytes : Bytes) : Option String :=
  String.fromUTF8? ⟨bytes.toArray⟩

/-! ## Rows -/

def rowFormatVersion : UInt8 := 1

def valueTagNull : UInt8 := 0x00
def valueTagInt : UInt8 := 0x01
def valueTagText : UInt8 := 0x02
def valueTagBool : UInt8 := 0x03

def corruptEncoding (context message : String) : Error :=
  .corruptData s!"invalid {context} encoding: {message}"

/-- Append one value to the bytes of a row. -/
def encodeValueInto (output : Bytes) : Value → Except Error Bytes
  | .null => return output ++ [valueTagNull]
  | .int value => return output ++ valueTagInt :: toBeBytes 8 (value % 2 ^ 64).toNat
  | .text value => do
    let bytes := value.toUTF8.data.toList
    rejectIf (bytes.length ≥ 2 ^ 32) (.invalidArgument "TEXT value is too large to encode")
    return output ++ valueTagText :: toBeBytes 4 bytes.length ++ bytes
  | .bool value => return output ++ [valueTagBool, if value then 1 else 0]

/-- Encode a complete row, its values in column order. -/
def encodeRow (row : Row) : Except Error Bytes := do
  rejectIf (row.values.length ≥ 2 ^ 32)
    (.invalidArgument "row contsins too may values to encode")
  row.values.foldlM encodeValueInto (rowFormatVersion :: toBeBytes 4 row.values.length)

/-- The texts of the row and value decoder. -/
def encodingTexts (context : String) : DecoderTexts where
  corrupt := corruptEncoding context
  lengthOverflow := "encoded length overflow"
  truncated := "truncated input"

def Decoder.readU32 (context : String) : DecodeM Nat := do
  let bytes ← readExact (encodingTexts context) 4
  return fromBeBytes bytes

def Decoder.finish (context : String) : DecodeM Unit := do
  let d ← get
  rejectIf (d.position ≠ d.bytes.length)
    (corruptEncoding context
      s!"{d.bytes.length - d.position} trailing bytes after encoded value")

/-- Decode one value from the decoder's position.  The detail that the standard library
appends to a UTF-8 failure is not modelled. -/
def decodeValueFrom (context : String) : DecodeM Value := do
  let tag ← Decoder.readU8 (encodingTexts context)
  if tag = valueTagNull then
    return .null
  else if tag = valueTagInt then
    let bytes ← Decoder.readExact (encodingTexts context) 8
    return .int (asI64 (fromBeBytes bytes))
  else if tag = valueTagText then
    let length ← Decoder.readU32 context
    let bytes ← Decoder.readExact (encodingTexts context) length
    let text ← okOr (fromUtf8 bytes) (corruptEncoding context "TEXT value is not valid UTF-8")
    return .text text
  else if tag = valueTagBool then
    let encoded ← Decoder.readU8 (encodingTexts context)
    if encoded = 0 then
      return .bool false
    else if encoded = 1 then
      return .bool true
    else
      throw (corruptEncoding context s!"invalid BOOL payload {encoded}")
  else
    throw (corruptEncoding context s!"unknown value tag 0x{hexByte tag}")

/-- The value loop of `decode_row`. -/
def decodeValues : Nat → DecodeM (List Value)
  | 0 => return []
  | count + 1 => do
    let value ← decodeValueFrom "row"
    let values ← decodeValues count
    return value :: values

/-- Decode one complete row from its canonical storage representation. -/
def decodeRow (bytes : Bytes) : Except Error Row :=
  Decoder.decodeAll bytes do
    let version ← Decoder.readU8 (encodingTexts "row")
    rejectIf (version ≠ rowFormatVersion)
      (corruptEncoding "row" s!"unsupported format version {version}")
    let valueCount ← Decoder.readU32 "row"
    let d ← get
    -- Every value takes at least its tag byte, so a larger count is corrupt.
    rejectIf (valueCount > d.remaining)
      (corruptEncoding "row"
        s!"value count {valueCount} exceeds remaining encoded bytes {d.remaining}")
    let values ← decodeValues valueCount
    Decoder.finish "row"
    return { values }

end RagnorDb
