import RagnorDb.Common.Encoding

/-!
# Row keys

The decoder of `key.rs`.  A row key is `[namespace][table ID: u64][primary key]`; the
primary key is a non-empty sequence of tagged components.  Every key that the MVCC maps
hold has passed `decodeRowKey`.
-/

namespace RagnorDb

open Checked

/-- A row's table and encoded primary key. -/
structure RowKey where
  tableId : TableId
  primaryKeyBytes : Bytes
  deriving DecidableEq

def rowKeyNamespace : UInt8 := 0x01

def keyTagInt : UInt8 := 0x10
def keyTagText : UInt8 := 0x20
def keyTagBool : UInt8 := 0x30

def textEscape : UInt8 := 0x00
def textTerminator : UInt8 := 0x00
def textEscapedZero : UInt8 := 0xff

def signBit : Nat := 2 ^ 63
def rowKeyHeaderLength : Nat := 1 + 8

def corruptKey (message : String) : Error :=
  .corruptData s!"invalid storage key encoding: {message}"

/-- The texts of the key decoder. -/
def keyTexts : DecoderTexts where
  corrupt := corruptKey
  lengthOverflow := "encoded key length overflow"
  truncated := "truncated primary key"

def Decoder.isFinished (d : Decoder) : Bool :=
  d.position == d.bytes.length

/-- The byte loop of `decode_text_key`.  Each round reads at least one byte, so the
number of unread bytes is enough fuel. -/
def decodeTextKeyLoop : Nat → Bytes → DecodeM Bytes
  | 0, _ => throw (corruptKey "unreachable: every round reads a byte")
  | fuel + 1, textBytes => do
    let byte ← Decoder.readU8 keyTexts
    if byte ≠ textEscape then
      decodeTextKeyLoop fuel (textBytes ++ [byte])
    else
      let escaped ← Decoder.readU8 keyTexts
      if escaped = textTerminator then
        return textBytes
      else if escaped = textEscapedZero then
        decodeTextKeyLoop fuel (textBytes ++ [textEscape])
      else
        throw (corruptKey s!"invalid TEXT escape sequence 0x00 0x{hexByte escaped}")

def decodeTextKey : DecodeM Value := do
  let d ← get
  let textBytes ← decodeTextKeyLoop (d.remaining + 1) []
  let text ← okOr (fromUtf8 textBytes) (corruptKey "TEXT primary key is not valid UTF-8")
  return .text text

def decodePrimaryKeyValue : DecodeM Value := do
  let tag ← Decoder.readU8 keyTexts
  if tag = keyTagInt then
    let bytes ← Decoder.readExact keyTexts 8
    return .int (asI64 (fromBeBytes bytes ^^^ signBit))
  else if tag = keyTagText then
    decodeTextKey
  else if tag = keyTagBool then
    let encoded ← Decoder.readU8 keyTexts
    if encoded = 0 then
      return .bool false
    else if encoded = 1 then
      return .bool true
    else
      throw (corruptKey s!"invalid BOOL key payload {encoded}")
  else
    throw (corruptKey s!"unknown primary-key tag 0x{hexByte tag}")

/-- The component loop of `decode_primary_key`, with the number of unread bytes as fuel. -/
def decodePrimaryKeyLoop : Nat → DecodeM (List Value)
  | 0 => do
    let d ← get
    if d.isFinished then return [] else
      throw (corruptKey "unreachable: every round reads a byte")
  | fuel + 1 => do
    let d ← get
    if d.isFinished then
      return []
    else
      let value ← decodePrimaryKeyValue
      let values ← decodePrimaryKeyLoop fuel
      return value :: values

/-- Decode a complete primary-key tuple. -/
def decodePrimaryKey (bytes : Bytes) : Except Error (List Value) := do
  rejectIf (bytes = []) (corruptKey "encoded primary key cannot be empty")
  Decoder.decodeAll bytes (decodePrimaryKeyLoop bytes.length)

/-- Decode and validate a complete ordered row key. -/
def decodeRowKey (bytes : Bytes) : Except Error RowKey := do
  rejectIf (bytes.length ≤ rowKeyHeaderLength)
    (corruptKey "row key is missing its encoded primary key")
  rejectIf (bytes.headD 0 ≠ rowKeyNamespace)
    (corruptKey s!"unknown row-key namespace 0x{hexByte (bytes.headD 0)}")
  let tableId := fromBeBytes ((bytes.drop 1).take 8)
  rejectIf (tableId = 0) (corruptKey "decoded row key contains reserved table ID 0")
  let primaryKeyBytes := bytes.drop rowKeyHeaderLength
  let _ ← decodePrimaryKey primaryKeyBytes
  return { tableId, primaryKeyBytes }

end RagnorDb
