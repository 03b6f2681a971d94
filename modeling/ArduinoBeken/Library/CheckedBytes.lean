import Mathlib.Data.List.Basic
import Mathlib.Tactic.SplitIfs

/-!
# Checked Access to Bytes

Memory of a program as bytes whose number is known, where every access says how far it
reaches. An access past the end is a fault, and the program has no meaning behind it. Code
that goes through `load` and `store` alone is safe when it comes to an end without a fault.

Nothing here is specific to one program.

## Main definitions

* `Block`: So many bytes.
* `Fault`: An access that reaches past the end.
* `load`, `byte`: Bytes that are read.
* `store`: Bytes that are written.

## Theorems

* `load_eq_ok`, `byte_eq_ok`, `store_eq_ok`: The accesses that are no fault.
* `exists_load`, `exists_store`: Accesses inside the bytes are none.
* `take_store`: What stands in front of the bytes written is kept.
-/

namespace CheckedBytes

/-- So many bytes. -/
abbrev Block (n : Nat) := {bytes : List UInt8 // bytes.length = n}

/-- The block with zeros. -/
def Block.zeros (n : Nat) : Block n := ⟨List.replicate n 0, List.length_replicate⟩

/-- The kinds of access. -/
inductive Access where
  | read
  | write
deriving DecidableEq, Repr

/-- An access to `count` bytes from the position, of which there are only `size`. -/
structure Fault where
  access : Access
  pos : Nat
  count : Nat
  size : Nat
deriving DecidableEq, Repr

/-- So many bytes from the position. -/
def load (bytes : List UInt8) (pos count : Nat) : Except Fault (Block count) :=
  if h : pos + count ≤ bytes.length then
    .ok ⟨(bytes.drop pos).take count, by rw [List.length_take, List.length_drop]; omega⟩
  else .error ⟨.read, pos, count, bytes.length⟩

/-- The byte at the position. -/
def byte (bytes : List UInt8) (pos : Nat) : Except Fault UInt8 :=
  match bytes[pos]? with
  | some b => .ok b
  | none => .error ⟨.read, pos, 1, bytes.length⟩

/-- The block with the bytes written from the position. -/
def store {n : Nat} (block : Block n) (pos : Nat) (data : List UInt8) : Except Fault (Block n) :=
  if h : pos + data.length ≤ n then
    .ok ⟨block.1.take pos ++ data ++ block.1.drop (pos + data.length), by
      rw [List.length_append, List.length_append, List.length_take, List.length_drop, block.2]
      omega⟩
  else .error ⟨.write, pos, data.length, n⟩

theorem load_eq_ok (bytes : List UInt8) (pos count : Nat) (b : Block count) :
    load bytes pos count = .ok b ↔
      pos + count ≤ bytes.length ∧ b.1 = (bytes.drop pos).take count := by
  unfold load
  split_ifs with h
  · rw [Except.ok.injEq, Subtype.ext_iff]
    exact ⟨fun hb => ⟨h, hb.symm⟩, fun hb => hb.2.symm⟩
  · exact ⟨fun hb => (by cases hb), fun hb => absurd hb.1 h⟩

theorem byte_eq_ok (bytes : List UInt8) (pos : Nat) (b : UInt8) :
    byte bytes pos = .ok b ↔ bytes[pos]? = some b := by
  unfold byte
  cases bytes[pos]? with
  | none => exact ⟨fun h => (by cases h), fun h => (by cases h)⟩
  | some a => rw [Except.ok.injEq, Option.some.injEq]

theorem store_eq_ok {n : Nat} (block : Block n) (pos : Nat) (data : List UInt8) (b : Block n) :
    store block pos data = .ok b ↔
      pos + data.length ≤ n ∧
        b.1 = block.1.take pos ++ data ++ block.1.drop (pos + data.length) := by
  unfold store
  split_ifs with h
  · rw [Except.ok.injEq, Subtype.ext_iff]
    exact ⟨fun hb => ⟨h, hb.symm⟩, fun hb => hb.2.symm⟩
  · exact ⟨fun hb => (by cases hb), fun hb => absurd hb.1 h⟩

/-- Bytes that are there can be read. -/
theorem exists_load (bytes : List UInt8) (pos count : Nat) (h : pos + count ≤ bytes.length) :
    ∃ b, load bytes pos count = .ok b ∧ b.1 = (bytes.drop pos).take count := by
  have hlen : ((bytes.drop pos).take count).length = count := by
    rw [List.length_take, List.length_drop]
    omega
  exact ⟨⟨_, hlen⟩, (load_eq_ok _ _ _ _).2 ⟨h, rfl⟩, rfl⟩

/-- Bytes for which there is room can be written. -/
theorem exists_store {n : Nat} (block : Block n) (pos : Nat) (data : List UInt8)
    (h : pos + data.length ≤ n) : ∃ b, store block pos data = .ok b := by
  rw [store, dif_pos h]
  exact ⟨_, rfl⟩

theorem byte_lt (bytes : List UInt8) (pos : Nat) (b : UInt8) (h : bytes[pos]? = some b) :
    pos < bytes.length :=
  (List.getElem?_eq_some_iff.1 h).1

/-- What stands in front of the bytes written is kept, and they follow it. -/
theorem take_store {n : Nat} (block b : Block n) (pos : Nat) (data : List UInt8)
    (h : store block pos data = .ok b) :
    b.1.take (pos + data.length) = block.1.take pos ++ data := by
  obtain ⟨hle, hb⟩ := (store_eq_ok block pos data b).1 h
  have hpos : (block.1.take pos).length = pos := by
    rw [List.length_take, block.2]
    omega
  have hlen : (block.1.take pos ++ data).length = pos + data.length := by
    rw [List.length_append, hpos]
  rw [hb, ← hlen, List.take_left]

end CheckedBytes
