import ArduinoBeken.Library.CheckedBytes

/-!
# What Stands Where

Data that stand at a position of a block of bytes. A store puts data at a position and leaves
what stands apart from it, and a load finds what stands there. Data that stand one behind the
other stand there together. Nothing here is specific to one program.

## Main definitions

* `Placed`: Data that stand at a position.
* `Ends`: A computation without a fault.

## Theorems

* `getElem?_store`: The bytes after a store.
* `placed_store`, `Placed.store`: What stands after a store.
* `Placed.append`, `Placed.left`, `Placed.right`: Data one behind the other.
* `Placed.load`, `Placed.byte`: What a load finds.
* `ends_store`, `ends_load`, `ends_byte`: Accesses for which there is room.
-/

namespace CheckedBytes

variable {n : Nat}

/-- The data stand at the position. -/
def Placed (bytes : List UInt8) (pos : Nat) (data : List UInt8) : Prop :=
  ∀ i < data.length, bytes[pos + i]? = data[i]?

theorem getElem?_store {b b' : Block n} {pos : Nat} {data : List UInt8}
    (h : store b pos data = .ok b') (k : Nat) :
    b'.1[k]? = if pos ≤ k ∧ k < pos + data.length then data[k - pos]? else b.1[k]? := by
  obtain ⟨hle, hb⟩ := (store_eq_ok b pos data b').1 h
  have hpos : (b.1.take pos).length = pos := by
    rw [List.length_take, b.2]
    omega
  have hfront : (b.1.take pos ++ data).length = pos + data.length := by
    rw [List.length_append, hpos]
  rw [hb]
  -- inside the store is its data, outside what was there before
  by_cases hin : pos ≤ k ∧ k < pos + data.length
  · rw [if_pos hin, List.getElem?_append_left (by omega), List.getElem?_append_right (by omega),
      hpos]
  · rw [if_neg hin]
    by_cases hk : k < pos
    · rw [List.getElem?_append_left (by omega), List.getElem?_append_left (by omega),
        List.getElem?_take, if_pos hk]
    · rw [List.getElem?_append_right (by omega), hfront, List.getElem?_drop]
      congr 1
      omega

theorem placed_nil (bytes : List UInt8) (pos : Nat) : Placed bytes pos [] :=
  fun i hi => absurd hi (Nat.not_lt_zero i)

/-- What was stored stands there. -/
theorem placed_store {b b' : Block n} {pos : Nat} {data : List UInt8}
    (h : store b pos data = .ok b') : Placed b'.1 pos data := by
  intro i hi
  rw [getElem?_store h, if_pos (by omega), Nat.add_sub_cancel_left]

/-- What stands apart from what was stored stands there still. -/
theorem Placed.store {b b' : Block n} {pos p : Nat} {data d : List UInt8}
    (hp : Placed b.1 p d) (h : store b pos data = .ok b')
    (hapart : p + d.length ≤ pos ∨ pos + data.length ≤ p) : Placed b'.1 p d := by
  intro i hi
  rw [getElem?_store h, if_neg (by omega)]
  exact hp i hi

theorem Placed.append {bytes : List UInt8} {pos : Nat} {d e : List UInt8}
    (hd : Placed bytes pos d) (he : Placed bytes (pos + d.length) e) :
    Placed bytes pos (d ++ e) := by
  intro i hi
  rw [List.length_append] at hi
  by_cases h : i < d.length
  · rw [List.getElem?_append_left h]
    exact hd i h
  · have hrest := he (i - d.length) (by omega)
    rw [List.getElem?_append_right (by omega), ← hrest]
    congr 1
    omega

theorem Placed.left {bytes : List UInt8} {pos : Nat} {d e : List UInt8}
    (h : Placed bytes pos (d ++ e)) : Placed bytes pos d := by
  intro i hi
  rw [h i (by rw [List.length_append]; omega), List.getElem?_append_left hi]

theorem Placed.right {bytes : List UInt8} {pos : Nat} {d e : List UInt8}
    (h : Placed bytes pos (d ++ e)) : Placed bytes (pos + d.length) e := by
  intro i hi
  have := h (d.length + i) (by rw [List.length_append]; omega)
  rw [List.getElem?_append_right (by omega), Nat.add_sub_cancel_left] at this
  rw [← this, Nat.add_assoc]

theorem placed_singleton {bytes : List UInt8} {pos : Nat} {b : UInt8} :
    Placed bytes pos [b] ↔ bytes[pos]? = some b := by
  constructor
  · intro h
    exact h 0 Nat.one_pos
  · intro h i hi
    obtain rfl : i = 0 := by
      rw [List.length_singleton] at hi
      omega
    exact h

/-- Data that stand in bytes end where they do. -/
theorem Placed.le {bytes : List UInt8} {pos : Nat} {data : List UInt8}
    (h : Placed bytes pos data) (hne : data ≠ []) : pos + data.length ≤ bytes.length := by
  have hpos := List.length_pos_iff.2 hne
  have hlast := h (data.length - 1) (by omega)
  rw [@List.getElem?_eq_getElem _ data (data.length - 1) (by omega)] at hlast
  have := (List.getElem?_eq_some_iff.1 hlast).1
  omega

theorem Placed.take {bytes : List UInt8} {pos : Nat} {data : List UInt8}
    (h : Placed bytes pos data) : (bytes.drop pos).take data.length = data := by
  apply List.ext_getElem?
  intro i
  by_cases hi : i < data.length
  · rw [List.getElem?_take, if_pos hi, List.getElem?_drop]
    exact h i hi
  · rw [List.getElem?_eq_none (by rw [List.length_take]; omega),
      List.getElem?_eq_none (by omega)]

/-- A load finds what stands there. -/
theorem Placed.load {bytes : List UInt8} {pos : Nat} {data : List UInt8}
    (h : Placed bytes pos data) (hle : pos + data.length ≤ bytes.length) (count : Nat)
    (hcount : count = data.length) :
    ∃ b : Block count, load bytes pos count = .ok b ∧ b.1 = data := by
  subst hcount
  obtain ⟨b, hload, hb⟩ := exists_load bytes pos data.length hle
  exact ⟨b, hload, hb.trans h.take⟩

theorem Placed.byte {bytes : List UInt8} {pos : Nat} {b : UInt8} (h : Placed bytes pos [b]) :
    byte bytes pos = .ok b :=
  (byte_eq_ok bytes pos b).2 (placed_singleton.1 h)

/-! ### Computations without a fault -/

/-- The computation comes to an end without a fault. -/
def Ends {α : Type} (r : Except Fault α) : Prop :=
  ∃ a, r = .ok a

theorem ends_ok {α : Type} (a : α) : Ends (.ok a) :=
  ⟨a, rfl⟩

theorem ends_map {α β : Type} (f : α → β) (r : Except Fault α) : Ends (r.map f) ↔ Ends r := by
  cases r with
  | ok a => exact ⟨fun _ => ⟨a, rfl⟩, fun _ => ⟨f a, rfl⟩⟩
  | error e => exact ⟨fun ⟨b, hb⟩ => (by cases hb), fun ⟨a, ha⟩ => (by cases ha)⟩

theorem ends_bind {α β : Type} (r : Except Fault α) (f : α → Except Fault β) :
    Ends (r >>= f) ↔ ∃ a, r = .ok a ∧ Ends (f a) := by
  cases r with
  | ok a => exact ⟨fun h => ⟨a, rfl, h⟩, fun ⟨a', ha, h⟩ => (by cases ha; exact h)⟩
  | error e => exact ⟨fun ⟨b, hb⟩ => (by cases hb), fun ⟨a, ha, _⟩ => (by cases ha)⟩

/-- A store comes to an end if there is room, and what follows it as well. -/
theorem ends_store {β : Type} (b : Block n) (pos : Nat) (data : List UInt8)
    (f : Block n → Except Fault β) {P : Prop}
    (hf : ∀ b', store b pos data = .ok b' → (Ends (f b') ↔ P)) :
    Ends (store b pos data >>= f) ↔ pos + data.length ≤ n ∧ P := by
  rw [ends_bind]
  constructor
  · rintro ⟨b', hstore, hends⟩
    exact ⟨((store_eq_ok b pos data b').1 hstore).1, (hf b' hstore).1 hends⟩
  · rintro ⟨hle, hp⟩
    obtain ⟨b', hstore⟩ := exists_store b pos data hle
    exact ⟨b', hstore, (hf b' hstore).2 hp⟩

theorem ends_load {β : Type} (b : Block n) (pos count : Nat) (f : Block count → Except Fault β)
    {P : Prop} (hf : ∀ data, pos + count ≤ n → (Ends (f data) ↔ P)) :
    Ends (load b.1 pos count >>= f) ↔ pos + count ≤ n ∧ P := by
  rw [ends_bind]
  constructor
  · rintro ⟨data, hload, hends⟩
    have hle := ((load_eq_ok b.1 pos count data).1 hload).1
    rw [b.2] at hle
    exact ⟨hle, (hf data hle).1 hends⟩
  · rintro ⟨hle, hp⟩
    obtain ⟨data, hload, -⟩ := exists_load b.1 pos count (by rwa [b.2])
    exact ⟨data, hload, (hf data hle).2 hp⟩

theorem ends_byte {β : Type} (b : Block n) (pos : Nat) (f : UInt8 → Except Fault β) {P : Prop}
    (hf : ∀ a, Ends (f a) ↔ P) : Ends (byte b.1 pos >>= f) ↔ pos < n ∧ P := by
  rw [ends_bind]
  constructor
  · rintro ⟨a, hbyte, hends⟩
    have hlt := byte_lt b.1 pos a ((byte_eq_ok b.1 pos a).1 hbyte)
    rw [b.2] at hlt
    exact ⟨hlt, (hf a).1 hends⟩
  · rintro ⟨hlt, hp⟩
    have hlt' : pos < b.1.length := by rwa [b.2]
    exact ⟨b.1[pos], (byte_eq_ok b.1 pos _).2 (List.getElem?_eq_getElem hlt'), (hf _).2 hp⟩

end CheckedBytes
