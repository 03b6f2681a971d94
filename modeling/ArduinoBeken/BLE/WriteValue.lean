import ArduinoBeken.BLE.PeerWrites

/-!
# The Result of a Write

What the `writeValue` of a sketch returns, next to what it does. The value is checked where
it is stored, and the routine that checks returns nothing: `writeValue` returns one for each
pointer that is not null, and hands the value to the peer after that, whatever became of the
bytes. The length of a notification is chosen by a third routine, which knows nothing of
fixed lengths and takes an empty value for a full one.

So a write that does not fit returns one and sends the value from before, and one that fits
may send too much or too little. `Fits` is exactly when it is as it should be.

## Main definitions

* `writeValueResult`: What `writeValue` returns.
* `stored`: The value that is kept.
* `onAir`: The value as a peer is to get it.
* `Honest`: The result says what was stored, and only that is sent.
* `Listened`: A value would be sent.
* `Fits`: The value fits, and so does its length where it is sent.

## Theorems

* `storeValueBytes_fits`: A value that fits replaces what was there.
* `notify_stored`: What is sent of a value that fits.
* `honest_iff`: In every reachable state a write is honest exactly when the value fits.
* `oversize_accepted`: A write that is not.
-/

namespace ArduinoBeken

namespace BLE

open EventRun

/-- What `writeValue` returns. A null pointer or a negative length is `none`. -/
def writeValueResult (data : Option (List UInt8)) : Nat :=
  match data with
  | none => 0
  | some _ => 1

/-- The value that is kept, without its padding. -/
def BLECharacteristic.stored (c : BLECharacteristic) : List UInt8 :=
  c.value.take c.contentLen

/-- The value as a peer is to get it: with its padding where the length is fixed. -/
def BLECharacteristic.onAir (c : BLECharacteristic) (bytes : List UInt8) : List UInt8 :=
  if c.fixedLength then c.padded bytes else bytes

/-- The result is one if and only if the bytes are the value then. Just that value is sent,
    and nothing changes otherwise. -/
structure Honest (s : Gatt) (c : CharId) (data : Option (List UInt8)) : Prop where
  result : writeValueResult data = 1 ↔
    ∃ bytes ∈ data, ((s.step (.writeValue c data)).chars c).stored = bytes
  sent : ∀ call ∈ s.calls (.writeValue c data), writeValueResult data = 1 ∧
    ∃ bytes ∈ data, call.notified = some c ∧ call.bytes = some ((s.chars c).onAir bytes)
  refused : writeValueResult data ≠ 1 →
    writeValueResult data = 0 ∧ s.step (.writeValue c data) = s ∧
      s.calls (.writeValue c data) = []

/-- A value would be sent: there is a peer, it asked for the value, and the characteristic
    is in the database. -/
structure Gatt.Listened (s : Gatt) (c : CharId) : Prop where
  registered : (s.chars c).gattRegistered = true
  enabled : (s.chars c).notifyEnabled = true
  notifies : (s.chars c).notifies = true
  connected : s.connHandle ≠ kInvalidConnHandle
  bound : s.useLegacyStack = true → s.findLegacyBindingByCharacteristic c ≠ none

/-- The length by which a value is sent, before it is narrowed. No bytes count as the
    declared size. -/
def sentLength (c : BLECharacteristic) (bytes : List UInt8) : Nat :=
  if bytes = [] then c.valueSize else bytes.length

/-- The value is not longer than declared. Where it would be sent, its length is that of the
    value on air and below 2¹⁶, or is narrowed to zero and so not sent. -/
structure Fits (s : Gatt) (c : CharId) (bytes : List UInt8) : Prop where
  size : 0 < (s.chars c).valueSize → bytes.length ≤ (s.chars c).valueSize
  length : s.Listened c →
    sentLength (s.chars c) bytes % 65536 = 0 ∨
      (sentLength (s.chars c) bytes < 65536 ∧
        sentLength (s.chars c) bytes = ((s.chars c).onAir bytes).length)

/-! ## Storing -/

theorem padded_of_unsized (c : BLECharacteristic) (h : c.valueSize = 0) (bytes : List UInt8) :
    c.padded bytes = bytes := by
  rw [BLECharacteristic.padded, h, Nat.zero_sub, List.replicate_zero, List.append_nil]

/-- A value that fits replaces what was there, whatever that was. -/
theorem storeValueBytes_fits (c : BLECharacteristic) (bytes : List UInt8)
    (h : 0 < c.valueSize → bytes.length ≤ c.valueSize) :
    (c.storeValueBytes (some bytes)).value = c.padded bytes ∧
      (c.storeValueBytes (some bytes)).contentLen = bytes.length := by
  unfold BLECharacteristic.storeValueBytes
  simp only [Option.getD_some]
  by_cases hsize : 0 < c.valueSize
  · simp only [if_pos hsize]
    split_ifs with hempty hbig
    · rw [List.isEmpty_iff.1 hempty]
      exact ⟨rfl, rfl⟩
    -- The routine would leave the old value, but these bytes are not too many.
    · exact absurd (h hsize) (Nat.not_le_of_gt hbig.2)
    · exact ⟨rfl, rfl⟩
  · rw [padded_of_unsized c (Nat.eq_zero_of_not_pos hsize)]
    simp only [if_neg hsize]
    split_ifs with hempty hbig
    · rw [List.isEmpty_iff.1 hempty]
      exact ⟨rfl, rfl⟩
    · exact absurd hbig.1 hsize
    · exact ⟨rfl, rfl⟩

theorem stored_of_fits (c : BLECharacteristic) (bytes : List UInt8)
    (h : 0 < c.valueSize → bytes.length ≤ c.valueSize) :
    (c.storeValueBytes (some bytes)).stored = bytes := by
  rcases storeValueBytes_fits c bytes h with ⟨hvalue, hlen⟩
  rw [BLECharacteristic.stored, hvalue, hlen]
  exact List.take_left

/-- The value of a shape that was declared is no longer than that. -/
theorem length_stored_le (c : BLECharacteristic) (h : Shaped c) (hsize : 0 < c.valueSize) :
    c.stored.length ≤ c.valueSize := by
  rw [BLECharacteristic.stored, List.length_take]
  exact (Nat.min_le_left _ _).trans ((law_of_shaped c h).contentLen hsize)

/-- The bytes are the value then if and only if they are not too many. -/
theorem stored_iff (c : BLECharacteristic) (h : Shaped c) (bytes : List UInt8) :
    (c.storeValueBytes (some bytes)).stored = bytes ↔
      (0 < c.valueSize → bytes.length ≤ c.valueSize) := by
  refine ⟨fun hstored hsize => ?_, stored_of_fits c bytes⟩
  by_contra hbig
  -- turned away, and the value that stays is shorter
  rw [storeValueBytes_oversize c bytes hsize (Nat.lt_of_not_le hbig)] at hstored
  exact hbig (hstored ▸ length_stored_le c h hsize)

/-! ## Sending -/

section Sending

variable (s : Gatt) (c : CharId) (bytes : List UInt8)

/-- What is sent is sent of a characteristic that is listened to. -/
theorem listened_of_mem {call : StackCall} (h : call ∈ s.notifyCharacteristic c) :
    s.Listened c := by
  rcases deliverable_of_mem h (notify_bytes h).1 with ⟨-, henabled, hdel⟩
  exact ⟨hdel.registered, henabled, hdel.notifies, hdel.connected, hdel.bound⟩

theorem chars_writeValue :
    (s.step (.writeValue c (some bytes))).chars c =
      (s.chars c).storeValueBytes (some bytes) :=
  Function.update_self c _ s.chars

theorem calls_writeValue :
    s.calls (.writeValue c (some bytes)) =
      (s.step (.writeValue c (some bytes))).notifyCharacteristic c := rfl

/-- A write does not change who listens. -/
theorem listened_writeValue :
    (s.step (.writeValue c (some bytes))).Listened c ↔ s.Listened c := by
  have hframe := (s.chars c).storeValueBytes_frame (some bytes)
  -- storing a value changes neither the flags, the link nor the bindings
  have hbind : (s.step (.writeValue c (some bytes))).findLegacyBindingByCharacteristic c =
      s.findLegacyBindingByCharacteristic c := rfl
  have hnotifies : ((s.chars c).storeValueBytes (some bytes)).notifies =
      (s.chars c).notifies := by
    rw [BLECharacteristic.notifies, hframe.properties]
    rfl
  constructor
  · rintro ⟨hreg, henabled, hnot, hconn, hbound⟩
    rw [chars_writeValue] at hreg henabled hnot
    exact ⟨hframe.gattRegistered ▸ hreg, hframe.notifyEnabled ▸ henabled, hnotifies ▸ hnot,
      hconn, hbound⟩
  · rintro ⟨hreg, henabled, hnot, hconn, hbound⟩
    refine ⟨?_, ?_, ?_, hconn, hbound⟩
    · rw [chars_writeValue, hframe.gattRegistered]
      exact hreg
    · rw [chars_writeValue, hframe.notifyEnabled]
      exact henabled
    · rw [chars_writeValue, hnotifies]
      exact hnot

/-- The length by which a value that fits is read back. -/
theorem gattReadDataLen_fits (c : BLECharacteristic) (bytes : List UInt8)
    (h : 0 < c.valueSize → bytes.length ≤ c.valueSize) :
    (c.storeValueBytes (some bytes)).gattReadDataLen = u16 (sentLength c bytes) := by
  rcases storeValueBytes_fits c bytes h with ⟨hvalue, hlen⟩
  rw [BLECharacteristic.gattReadDataLen, hvalue, hlen,
    (c.storeValueBytes_frame (some bytes)).valueSize, sentLength]
  by_cases hnil : bytes = []
  · subst hnil
    rw [if_pos rfl, padded_nil, List.length_nil, List.length_replicate,
      if_neg (Nat.lt_irrefl 0)]
    split_ifs <;> rfl
  -- Only an empty value is read back by the declared size.
  · rw [if_neg hnil, if_pos (List.length_pos_iff.2 hnil)]

theorem take_onAir (c : BLECharacteristic) (bytes : List UInt8) :
    (c.padded bytes).take (c.onAir bytes).length = c.onAir bytes := by
  unfold BLECharacteristic.onAir
  split_ifs
  · exact List.take_length
  · exact List.take_left

theorem length_le_onAir (c : BLECharacteristic) (bytes : List UInt8) :
    bytes.length ≤ (c.onAir bytes).length := by
  unfold BLECharacteristic.onAir
  split_ifs
  · rw [BLECharacteristic.padded, List.length_append]
    exact Nat.le_add_right _ _
  · exact Nat.le_refl _

/-- Of a value that fits, so many bytes are sent, with padding. -/
theorem notify_stored {call : StackCall}
    (hsize : 0 < (s.chars c).valueSize → bytes.length ≤ (s.chars c).valueSize)
    (h : call ∈ s.calls (.writeValue c (some bytes))) :
    call.notified = some c ∧ call.bytes =
      bytesAt ((s.chars c).padded bytes) (u16 (sentLength (s.chars c) bytes)) := by
  rw [calls_writeValue] at h
  rcases notify_bytes h with ⟨hnotified, value, hptr, hbytes⟩
  have hvalue : value = (s.chars c).padded bytes := by
    rw [chars_writeValue] at hptr
    unfold BLECharacteristic.gattReadDataPtr at hptr
    split_ifs at hptr
    · exact absurd hptr (Option.some_ne_none value).symm
    · exact (Option.some.inj hptr).symm.trans (storeValueBytes_fits _ bytes hsize).1
  rw [chars_writeValue, gattReadDataLen_fits _ bytes hsize, hvalue] at hbytes
  exact ⟨hnotified, hbytes⟩

/-- A value that fits is sent to those who listen, if its length is not narrowed to zero. -/
theorem deliverable_writeValue
    (hsize : 0 < (s.chars c).valueSize → bytes.length ≤ (s.chars c).valueSize)
    (hl : s.Listened c) (hlen : u16 (sentLength (s.chars c) bytes) ≠ 0) :
    (s.step (.writeValue c (some bytes))).Deliverable c := by
  rcases (listened_writeValue s c bytes).2 hl with ⟨hreg, -, hnot, hconn, hbound⟩
  refine ⟨hreg, hnot, hconn, fun hnil => hlen ?_, ?_, hbound⟩
  · -- no value: no bytes, and none declared
    rw [chars_writeValue, (storeValueBytes_fits _ bytes hsize).1] at hnil
    rcases List.append_eq_nil_iff.1 hnil with ⟨hbytes, hpad⟩
    rw [hbytes, List.length_nil, Nat.sub_zero] at hpad
    rw [sentLength, if_pos hbytes, (List.replicate_eq_nil_iff _).1 hpad]
    rfl
  · rw [chars_writeValue, gattReadDataLen_fits _ bytes hsize]
    exact hlen

end Sending

/-! ## The law -/

section Law

variable (s : Gatt) (c : CharId) (bytes : List UInt8)

/-- What is sent of a value that fits is the value, if its length is right. -/
theorem sent_of_fits (h : Fits s c bytes) :
    ∀ call ∈ s.calls (.writeValue c (some bytes)),
      call.notified = some c ∧ call.bytes = some ((s.chars c).onAir bytes) := by
  intro call hcall
  rcases notify_stored s c bytes h.size hcall with ⟨hnotified, hbytes⟩
  rw [calls_writeValue] at hcall
  have hdel := (deliverable_of_mem hcall hnotified).2.2
  refine ⟨hnotified, ?_⟩
  rcases h.length ((listened_writeValue s c bytes).1 (listened_of_mem _ c hcall)) with
    hzero | ⟨hlt, heq⟩
  -- A length that is narrowed to zero is not sent at all.
  · have hlen := hdel.length
    rw [chars_writeValue, gattReadDataLen_fits _ bytes h.size] at hlen
    exact absurd hzero hlen
  · have hle : (s.chars c).onAir bytes <+: (s.chars c).padded bytes := by
      rw [← take_onAir]
      exact List.take_prefix _ _
    rw [hbytes, u16, Nat.mod_eq_of_lt hlt, heq, bytesAt, if_pos hle.length_le, take_onAir]

/-- The length is right, if what is sent of a value that fits is the value. -/
theorem length_of_sent
    (hsize : 0 < (s.chars c).valueSize → bytes.length ≤ (s.chars c).valueSize)
    (h : ∀ call ∈ s.calls (.writeValue c (some bytes)),
      call.bytes = some ((s.chars c).onAir bytes)) (hl : s.Listened c) :
    sentLength (s.chars c) bytes % 65536 = 0 ∨
      (sentLength (s.chars c) bytes < 65536 ∧
        sentLength (s.chars c) bytes = ((s.chars c).onAir bytes).length) := by
  by_cases hzero : sentLength (s.chars c) bytes % 65536 = 0
  · exact Or.inl hzero
  right
  -- Something is sent, so its length is both the one computed and that of the value.
  have henabled := ((listened_writeValue s c bytes).2 hl).enabled
  rcases notifyCharacteristic_of_deliverable henabled
    (deliverable_writeValue s c bytes hsize hl hzero) with ⟨call, hcalls, -⟩
  have hcall : call ∈ s.calls (.writeValue c (some bytes)) := by
    rw [calls_writeValue, hcalls]
    exact List.mem_singleton_self call
  have hlen : sentLength (s.chars c) bytes % 65536 = ((s.chars c).onAir bytes).length := by
    have hbytes := (notify_stored s c bytes hsize hcall).2
    rw [h call hcall, bytesAt] at hbytes
    split_ifs at hbytes with hle
    rw [Option.some.inj hbytes, List.length_take, Nat.min_eq_left hle]
    rfl
  by_cases hnil : bytes = []
  · have hsent : sentLength (s.chars c) bytes = (s.chars c).valueSize := if_pos hnil
    have hair : ((s.chars c).onAir bytes).length = (s.chars c).valueSize := by
      unfold BLECharacteristic.onAir at hlen ⊢
      split_ifs at hlen ⊢
      · rw [hnil, padded_nil, List.length_replicate]
      · -- the length of a value that is empty is the declared one
        exact absurd (hlen.trans (List.length_eq_zero_iff.2 hnil)) hzero
    omega
  -- Bytes to send are no more than their padding makes of them.
  · have hsent : sentLength (s.chars c) bytes = bytes.length := if_neg hnil
    have hle := length_le_onAir (s.chars c) bytes
    omega

/-- A write into a value of that shape is honest exactly when the bytes fit. -/
theorem honest_iff_fits (h : Shaped (s.chars c)) :
    Honest s c (some bytes) ↔ Fits s c bytes := by
  have hstored : (∃ b ∈ some bytes,
      ((s.step (.writeValue c (some bytes))).chars c).stored = b) ↔
      (0 < (s.chars c).valueSize → bytes.length ≤ (s.chars c).valueSize) := by
    rw [← stored_iff _ h, chars_writeValue]
    simp only [Option.mem_def, Option.some.injEq, exists_eq_left']
  constructor
  · intro hlaw
    have hsize := hstored.1 (hlaw.result.1 rfl)
    refine ⟨hsize, length_of_sent s c bytes hsize fun call hcall => ?_⟩
    rcases (hlaw.sent call hcall).2 with ⟨b, hb, -, hbytes⟩
    rw [Option.some.inj hb]
    exact hbytes
  · intro hfits
    refine ⟨iff_of_true rfl (hstored.2 hfits.size), fun call hcall => ?_, fun h0 => ?_⟩
    · exact ⟨rfl, bytes, rfl, sent_of_fits s c bytes hfits call hcall⟩
    · exact absurd rfl h0

end Law

/-- No bytes at all are turned away. -/
theorem honest_none (s : Gatt) (c : CharId) : Honest s c none := by
  refine ⟨iff_of_false Nat.zero_ne_one ?_, fun call hcall => ?_, fun _ => ⟨rfl, rfl, rfl⟩⟩
  · rintro ⟨bytes, hbytes, -⟩
    exact absurd hbytes (Option.some_ne_none bytes).symm
  · exact absurd hcall List.not_mem_nil

/-- In every reachable state, a write is honest if and only if the bytes fit, where there
    are any. -/
theorem honest_iff {s : Gatt} (h : s.Constructed) (es : List Event) (c : CharId)
    (data : Option (List UInt8)) :
    Honest (run Gatt.step s es) c data ↔
      ∀ bytes ∈ data, Fits (run Gatt.step s es) c bytes := by
  -- Every run keeps the shape that makes an oversized write be turned away.
  have hinv := inv_run buffersInv_step (buffersInv_constructed h) es
  cases data with
  | none =>
      exact iff_of_true (honest_none _ c)
        fun bytes hbytes => absurd hbytes (Option.some_ne_none bytes).symm
  | some bytes =>
      rw [honest_iff_fits _ c bytes (hinv.shaped c)]
      simp only [Option.mem_def, Option.some.injEq, forall_eq']

/-- The battery, with nobody connected, and one byte for it. -/
theorem honest_battery :
    Honest (run Gatt.step battery [batteryCreated]) 0 (some [7]) ↔
      ∀ bytes ∈ some [(7 : UInt8)], Fits (run Gatt.step battery [batteryCreated]) 0 bytes :=
  honest_iff battery_constructed _ 0 _

/-- Two bytes for the battery, which has one: the result is one, and what a peer gets is the
    byte from before. -/
theorem oversize_accepted : ¬ Honest (run Gatt.step battery [batteryCreated]) 0 (some [7, 8]) := by
  intro h
  rcases h.result.1 rfl with ⟨bytes, hbytes, hstored⟩
  rw [← Option.some.inj hbytes] at hstored
  exact absurd hstored (by decide)

/-- A peer that listens gets that. -/
example : ((run Gatt.step battery (batteryCreated :: Session.subscribing 1)).calls
    (.writeValue 0 (some [7, 8]))).map StackCall.bytes = [some [0]] := by
  decide

end BLE

end ArduinoBeken
