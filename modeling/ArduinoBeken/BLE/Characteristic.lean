import Mathlib.Data.List.Basic
import Mathlib.Data.Nat.Bitwise

/-!
# BLE Characteristics

The value store of a `BLECharacteristic`, translated from
`BLECharacteristic.h` and `BLECharacteristic.cpp`.

A value lives in three places. `value` is what the sketch and the peer read,
`attBuffer` is the buffer handed to the legacy attribute table, and
`contentLen` is the length of the last stored value. Three routes write them:
`storeValueBytes` for local and peer writes, `ensureGattValueBuffer` when a
database is finalised, and nothing else. Reads go through `gattReadDataPtr`
and `gattReadDataLen`, and the length has fallbacks of its own, so a length
of zero is not always read back as zero.

`gattReadDataLen` narrows to sixteen bits. The stored lengths are unbounded
here, as `size_t` is on the scale of the values involved, and the narrowing
is explicit.

A null data pointer is `none`. The characteristic's place in the attribute
databases (`gattServiceHandle`, `gattCharHandle`, `gattRegistered`) and its
subscription state (`notifyEnabled`, `cccdValue`) are fields of the same
object, kept up by the registry.

## Main definitions

* `BLECharacteristic`: The object, with the source's private fields.
* `storeValueBytes`: Storing a value, from the sketch or from a peer.
* `ensureGattValueBuffer`: Preparing the buffers for a database.
* `gattReadDataLen`: The length a read answers with.
* `gattReadData`: The bytes a read answers with, when the buffer holds them.
* `parseUuid16`: A sixteen-bit UUID from its text.

## Theorems

* `storeValueBytes_frame`: Storing a value touches the value fields only.
* `ensureGattValueBuffer_frame`: So does preparing the buffers.
-/

namespace ArduinoBeken

namespace BLE

/-- `BLEBroadcast`. -/
def bleBroadcast : Nat := 0x01
/-- `BLERead`. -/
def bleRead : Nat := 0x02
/-- `BLEWriteWithoutResponse`. -/
def bleWriteWithoutResponse : Nat := 0x04
/-- `BLEWrite`. -/
def bleWrite : Nat := 0x08
/-- `BLENotify`. -/
def bleNotify : Nat := 0x10
/-- `BLEIndicate`. -/
def bleIndicate : Nat := 0x20

/-- The narrowing conversion to `uint16_t`. -/
def u16 (n : Nat) : Nat := n % 65536

/-- The narrowing conversion to `uint8_t`. -/
def u8 (n : Nat) : Nat := n % 256

/-- The object, with its place in the databases and what a peer has subscribed to. -/
structure BLECharacteristic where
  uuid : List Char
  properties : Nat
  valueSize : Nat
  contentLen : Nat := 0
  fixedLength : Bool
  value : List UInt8 := []
  attBuffer : List UInt8 := []
  gattServiceHandle : Nat := 0
  gattCharHandle : Nat := 0
  gattRegistered : Bool := false
  notifyEnabled : Bool := false
  cccdValue : List UInt8 := [0, 0]
  deriving Repr, DecidableEq

namespace BLECharacteristic

/-- The constructor: a value size that is not positive declares none. -/
def new (uuid : List Char) (properties : Nat) (valueSize : Int) (fixedLength : Bool) :
    BLECharacteristic :=
  { uuid := uuid, properties := properties, valueSize := valueSize.toNat,
    fixedLength := fixedLength }

/-- The characteristic is declared with `BLENotify` or `BLEIndicate`, so its
    registrations add a CCCD. -/
def notifies (c : BLECharacteristic) : Bool :=
  c.properties &&& (bleNotify ||| bleIndicate) != 0

/-- Whether a peer wants notifications. -/
def setNotifyEnabled (c : BLECharacteristic) (enabled : Bool) : BLECharacteristic :=
  { c with notifyEnabled := enabled }

/-- The buffer behind `gattReadDataPtr`, or `none` for the null pointer of an
    empty value. -/
def gattReadDataPtr (c : BLECharacteristic) : Option (List UInt8) :=
  if c.value.isEmpty then none else some c.value

/-- The length that a read answers with: of the last value, else the declared one, else that of
the vector. -/
def gattReadDataLen (c : BLECharacteristic) : Nat :=
  if 0 < c.contentLen then u16 c.contentLen
  else if 0 < c.valueSize then u16 c.valueSize
  else u16 c.value.length

/-- Store a value. No data clears the value, more data than the declared size
    is dropped without a trace, and a declared size pads with zeros. The data are a copy of
    their own: they do not point into a buffer of the characteristic, which the vectors
    write to while they read the data. -/
def storeValueBytes (c : BLECharacteristic) (data : Option (List UInt8)) : BLECharacteristic :=
  let bytes := data.getD []
  if bytes.isEmpty then
    if 0 < c.valueSize then
      { c with
        value := List.replicate c.valueSize 0
        attBuffer := List.replicate c.valueSize 0
        contentLen := 0 }
    else { c with value := [], contentLen := 0 }
  else if 0 < c.valueSize ∧ c.valueSize < bytes.length then c
  else if 0 < c.valueSize then
    { c with
      value := bytes ++ List.replicate (c.valueSize - bytes.length) 0
      attBuffer := bytes ++ List.replicate (c.valueSize - bytes.length) 0
      contentLen := bytes.length }
  else { c with value := bytes, contentLen := bytes.length }

/-- `writeFromPeer`. -/
def writeFromPeer (c : BLECharacteristic) (data : Option (List UInt8)) : BLECharacteristic :=
  c.storeValueBytes data

/-- Prepare the buffers for a database. With a declared size both buffers are
    overwritten with zeros, whatever they held. -/
def ensureGattValueBuffer (c : BLECharacteristic) : BLECharacteristic :=
  if 0 < c.valueSize then
    { c with
      value := List.replicate c.valueSize 0
      attBuffer := List.replicate c.valueSize 0
      contentLen := 0 }
  else if c.value.isEmpty then { c with value := [0], contentLen := 1 }
  else c

/-- The bytes handed to the stack for `gattReadDataLen` bytes from
    `gattReadDataPtr`; `none` when the length runs past the buffer. -/
def gattReadData (c : BLECharacteristic) : Option (List UInt8) :=
  if c.gattReadDataLen ≤ c.value.length then some (c.value.take c.gattReadDataLen) else none

/-- Two objects that differ in their value fields at most. -/
structure SameGatt (c d : BLECharacteristic) : Prop where
  uuid : d.uuid = c.uuid
  properties : d.properties = c.properties
  valueSize : d.valueSize = c.valueSize
  gattServiceHandle : d.gattServiceHandle = c.gattServiceHandle
  gattCharHandle : d.gattCharHandle = c.gattCharHandle
  gattRegistered : d.gattRegistered = c.gattRegistered
  notifyEnabled : d.notifyEnabled = c.notifyEnabled
  cccdValue : d.cccdValue = c.cccdValue

/-- Storing a value touches the value fields only. -/
theorem storeValueBytes_frame (c : BLECharacteristic) (data : Option (List UInt8)) :
    SameGatt c (c.storeValueBytes data) := by
  unfold storeValueBytes
  simp only
  split_ifs <;> exact ⟨rfl, rfl, rfl, rfl, rfl, rfl, rfl, rfl⟩

/-- Preparing the buffers touches the value fields only. -/
theorem ensureGattValueBuffer_frame (c : BLECharacteristic) :
    SameGatt c c.ensureGattValueBuffer := by
  unfold ensureGattValueBuffer
  split_ifs <;> exact ⟨rfl, rfl, rfl, rfl, rfl, rfl, rfl, rfl⟩

end BLECharacteristic

/-- A digit of a UUID. -/
def isHexDigit (ch : Char) : Bool :=
  ('0' ≤ ch && ch ≤ '9') || ('a' ≤ ch && ch ≤ 'f') || ('A' ≤ ch && ch ≤ 'F')

/-- The value of a lower-case hexadecimal digit. -/
def hexDigitValue (ch : Char) : Nat :=
  if '0' ≤ ch && ch ≤ '9' then ch.toNat - '0'.toNat else ch.toNat - 'a'.toNat + 10

/-- The hexadecimal digits of a UUID text, in lower case. -/
def normalizeUuidHex (uuid : List Char) : List Char :=
  (uuid.filter isHexDigit).map Char.toLower

/-- A sixteen-bit UUID: exactly four hexadecimal digits, whatever stands
    between them. -/
def parseUuid16 (uuid : List Char) : Option Nat :=
  let hex := normalizeUuidHex uuid
  if hex.length ≠ 4 then none
  else some (u16 (hex.foldl (fun n ch => n * 16 + hexDigitValue ch) 0))

end BLE

end ArduinoBeken
