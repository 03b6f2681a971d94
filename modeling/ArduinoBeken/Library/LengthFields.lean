import Mathlib.Data.List.Basic
import Mathlib.Tactic.SplitIfs

/-!
# Fields with a Length

Bytes that are a sequence of fields: a length, a kind, and data, where the length counts the
kind and the data. A field whose length is zero, or runs past the end, makes the bytes no
such sequence.

Nothing here is specific to one protocol.

## Main definitions

* `Field`: A kind with its data.
* `encode`, `encodeAll`: The bytes of a field, and of several.
* `decode`: The fields that bytes are.

## Theorems

* `encodeAll_append`: The bytes of several fields follow each other.
* `decode_encodeAll`: Short fields are read back from their bytes.
-/

namespace LengthFields

/-- A field, with its kind and its data. -/
structure Field where
  kind : UInt8
  data : List UInt8
deriving DecidableEq, Repr

/-- The bytes of a field. -/
def Field.encode (f : Field) : List UInt8 :=
  UInt8.ofNat (f.data.length + 1) :: f.kind :: f.data

/-- Fields one after the other. -/
def encodeAll (fs : List Field) : List UInt8 :=
  fs.flatMap Field.encode

theorem encodeAll_append (fs gs : List Field) :
    encodeAll (fs ++ gs) = encodeAll fs ++ encodeAll gs :=
  List.flatMap_append

theorem encodeAll_singleton (f : Field) : encodeAll [f] = f.encode := by
  rw [encodeAll, List.flatMap_cons, List.flatMap_nil, List.append_nil]

theorem encodeAll_cons (f : Field) (fs : List Field) :
    encodeAll (f :: fs) = f.encode ++ encodeAll fs :=
  List.flatMap_cons

/-- The fields that bytes are, if they are fields throughout. -/
def decode : List UInt8 → Option (List Field)
  | [] => some []
  | len :: rest =>
    match rest.take len.toNat with
    | [] => none
    | kind :: data =>
      if data.length + 1 = len.toNat then
        (decode (rest.drop len.toNat)).map (⟨kind, data⟩ :: ·)
      else none
termination_by bytes => bytes.length
decreasing_by
  rw [List.length_drop, List.length_cons]
  omega

/-- The length fits a byte. -/
def Field.Short (f : Field) : Prop := f.data.length < 255

theorem decode_encode_append (f : Field) (h : f.Short) (rest : List UInt8) :
    decode (f.encode ++ rest) = (decode rest).map (f :: ·) := by
  -- Only here does it matter that the field is short: its length survives the byte.
  have hlen : (UInt8.ofNat (f.data.length + 1)).toNat = f.data.length + 1 := by
    unfold Field.Short at h
    rw [UInt8.toNat_ofNat']
    omega
  have htake : ((f.kind :: f.data) ++ rest).take (f.data.length + 1) = f.kind :: f.data :=
    List.take_left' rfl
  have hdrop : ((f.kind :: f.data) ++ rest).drop (f.data.length + 1) = rest :=
    List.drop_left' rfl
  rw [Field.encode, List.cons_append, decode, hlen, htake, hdrop]
  exact if_pos rfl

/-- Short fields are read back from their bytes. -/
theorem decode_encodeAll (fs : List Field) (h : ∀ f ∈ fs, f.Short) :
    decode (encodeAll fs) = some fs := by
  induction fs with
  | nil =>
      rw [encodeAll, List.flatMap_nil, decode]
  | cons f fs ih =>
      have hfs := ih fun g hg => h g (List.mem_cons_of_mem f hg)
      rw [encodeAll_cons, decode_encode_append f (h f List.mem_cons_self), hfs]
      rfl

end LengthFields
