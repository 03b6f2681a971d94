import ArduinoBeken.BLE.ValueBuffers

/-!
# Writes of a Peer

A write reaches the code as a pointer and the number of bytes received. Both handlers take
a write to a CCCD for one of two bytes without a look at that number, while the length of a
value is checked where it is stored.

`bytesRead` says how far a handler reads behind the pointer.

A write is contained if and only if it does not go to a CCCD, or has at least two bytes
and, unless it asks for what is set already, just two and the CCCD is one that the
characteristic has (`contained_iff`). A binding has 65535 for the index of a CCCD that
there is not, and the handler would take a write to that index for one to the CCCD.

## Main definitions

* `Received`, `PeerWrite`: What a stack hands over, and the writes of a peer.
* `cccdTarget`, `valueTarget`: The characteristic a handler takes the attribute to be of.
* `bytesRead`: How far a handler reads.
* `Owns`: The attribute is one of the characteristic.
* `Contained`: The law.
* `TwoBytes`: The condition.

## Theorems

* `step_peerWrite`: What a write comes to.
* `contained_iff`: The law for every write in every state.
-/

namespace ArduinoBeken

namespace BLE

/-- The bytes received, and those that are behind them in memory. -/
structure Received where
  bytes : List UInt8
  behind : List UInt8 := []
  deriving Repr, DecidableEq

/-- What is found from the pointer on. -/
def Received.memory (d : Received) : List UInt8 := d.bytes ++ d.behind

/-- A write to an attribute of the legacy stack, and to the value and the CCCD of a
    characteristic of the other one. -/
inductive PeerWrite
  | legacy (prfId attIdx : Nat) (data : Received)
  | value (connHandle serviceId charId : Nat) (data : Received)
  | cccd (connHandle serviceId charId : Nat) (data : Received)
  deriving Repr, DecidableEq

namespace PeerWrite

/-- What the peer sent. -/
def data : PeerWrite → Received
  | .legacy _ _ d | .value _ _ _ d | .cccd _ _ _ d => d

/-- The event that the registry is told. -/
def event : PeerWrite → Event
  | .legacy prfId attIdx d =>
    .legacyNotice (.write (some { prfId, attIdx, value := some d.memory, len := d.bytes.length }))
  | .value connHandle serviceId charId d =>
    .gattDb connHandle serviceId charId (.peerWrite (some d.memory) d.bytes.length)
  | .cccd connHandle serviceId charId d =>
    .gattDb connHandle serviceId charId (.cliCnfgWrite d.memory)

end PeerWrite

/-! ## What a handler does with a write -/

/-- The characteristic whose subscription a write changes. -/
def cccdTarget (s : Gatt) : PeerWrite → Option CharId
  | .legacy prfId attIdx _ =>
    (s.findLegacyBindingByWrite prfId attIdx).bind fun b =>
      if attIdx = b.descAttIdx then some b.characteristic else none
  | .value .. => none
  | .cccd _ serviceId charId _ => s.findCharacteristic serviceId charId

/-- The characteristic whose value a write is for. -/
def valueTarget (s : Gatt) : PeerWrite → Option CharId
  | .legacy prfId attIdx _ =>
    (s.findLegacyBindingByWrite prfId attIdx).bind fun b =>
      if attIdx = b.descAttIdx then none else some b.characteristic
  | .value _ serviceId charId _ => s.findCharacteristic serviceId charId
  | .cccd .. => none

/-- How many bytes `storeValueBytes` reads of so many. -/
def storeReads (c : BLECharacteristic) (len : Nat) : Nat :=
  if len = 0 then 0 else if 0 < c.valueSize ∧ c.valueSize < len then 0 else len

/-- How many bytes a handler reads from the pointer on. -/
def bytesRead (s : Gatt) (w : PeerWrite) : Nat :=
  match cccdTarget s w, valueTarget s w with
  | some _, _ => 2
  | none, some c => storeReads (s.chars c) w.data.bytes.length
  | none, none => 0

/-! ## The law -/

/-- The attribute is the value of the characteristic, or the CCCD that it has. -/
def Owns (s : Gatt) (c : CharId) : PeerWrite → Prop
  | .legacy prfId attIdx _ =>
    ∃ b ∈ s.legacyBindings, b.characteristic = c ∧ b.prfId = prfId ∧
      (b.valueAttIdx = attIdx ∨ (b.descAttIdx = attIdx ∧ (s.chars c).notifies = true))
  | .value _ serviceId charId _ =>
    c ∈ s.sCharacteristics ∧ (s.chars c).gattRegistered = true ∧
      (s.chars c).gattServiceHandle = serviceId ∧ (s.chars c).gattCharHandle = charId
  | .cccd _ serviceId charId _ =>
    (c ∈ s.sCharacteristics ∧ (s.chars c).gattRegistered = true ∧
      (s.chars c).gattServiceHandle = serviceId ∧ (s.chars c).gattCharHandle = charId) ∧
        (s.chars c).notifies = true

/-- A handler reads what was received only, and changes the owner of the attribute only. A
    value that is too long and a CCCD of another length than two change nothing. -/
structure Contained (s : Gatt) (w : PeerWrite) : Prop where
  reads : bytesRead s w ≤ w.data.bytes.length
  owner : ∀ c, (s.step w.event).chars c ≠ s.chars c → Owns s c w
  rest : s.step w.event = { s with chars := (s.step w.event).chars }
  oversize : ∀ c ∈ valueTarget s w, 0 < (s.chars c).valueSize →
    (s.chars c).valueSize < w.data.bytes.length → s.step w.event = s
  cccd : ∀ c ∈ cccdTarget s w, w.data.bytes.length ≠ 2 → s.step w.event = s

/-- A write to a CCCD has two bytes at least. It asks for what is set, or has just two
    bytes and the CCCD is there. -/
def TwoBytes (s : Gatt) (w : PeerWrite) : Prop :=
  ∀ c ∈ cccdTarget s w, 2 ≤ w.data.bytes.length ∧
    (cccdEnables (cccdConfig w.data.bytes) = (s.chars c).notifyEnabled ∨
      (w.data.bytes.length = 2 ∧ Owns s c w))

/-! ## What a write comes to -/

theorem setChar_eq_self (s : Gatt) (c : CharId) (ch : BLECharacteristic) :
    s.setChar c ch = s ↔ ch = s.chars c := by
  refine ⟨fun h => ?_, fun h => ?_⟩
  · have hc : (s.setChar c ch).chars c = s.chars c := by rw [h]
    simpa only [Gatt.setChar, Function.update_self] using hc
  · rw [h, Gatt.setChar, Function.update_eq_self]

theorem setNotifyEnabled_eq_self (c : BLECharacteristic) (b : Bool) :
    c.setNotifyEnabled b = c ↔ b = c.notifyEnabled := by
  refine ⟨fun h => congrArg BLECharacteristic.notifyEnabled h, fun h => ?_⟩
  rw [h]
  rfl

theorem take_memory (d : Received) : d.memory.take d.bytes.length = d.bytes :=
  List.take_left

/-- A write sets the subscription of one characteristic, stores into another, or is of no
    attribute at all. -/
theorem step_peerWrite (s : Gatt) (w : PeerWrite) :
    (∃ c, cccdTarget s w = some c ∧ valueTarget s w = none ∧ s.step w.event =
      s.setChar c ((s.chars c).setNotifyEnabled (cccdEnables (cccdConfig w.data.memory)))) ∨
    (∃ c, cccdTarget s w = none ∧ valueTarget s w = some c ∧ Owns s c w ∧ s.step w.event =
      s.setChar c ((s.chars c).storeValueBytes (some w.data.bytes))) ∨
    (cccdTarget s w = none ∧ valueTarget s w = none ∧ s.step w.event = s) := by
  -- by the path: one event of the legacy stack, two of Ethermind
  cases w with
  | legacy prfId attIdx d =>
      have hstep : s.step (PeerWrite.legacy prfId attIdx d).event =
        s.legacyWrite { prfId, attIdx, value := some d.memory, len := d.bytes.length } := rfl
      rw [hstep]
      cases hb : s.findLegacyBindingByWrite prfId attIdx with
      | none =>
          simp only [cccdTarget, valueTarget, Gatt.legacyWrite, hb, Option.bind_none]
          exact Or.inr (Or.inr ⟨trivial, trivial, trivial⟩)
      | some b =>
          simp only [cccdTarget, valueTarget, Gatt.legacyWrite, hb, Option.bind_some]
          -- The binding has the index as that of its value or of its CCCD.
          have hfound := List.find?_some hb
          simp only [Bool.and_eq_true, Bool.or_eq_true, beq_iff_eq] at hfound
          by_cases hdesc : attIdx = b.descAttIdx
          · refine Or.inl ⟨b.characteristic, if_pos hdesc, if_pos hdesc, ?_⟩
            rw [if_pos hdesc]
            rfl
          · -- the other index of the binding is that of the value
            have hval : attIdx = b.valueAttIdx :=
              (hfound.2.resolve_right fun h => hdesc h.symm).symm
            refine Or.inr (Or.inl ⟨b.characteristic, if_neg hdesc, if_neg hdesc, ?_, ?_⟩)
            · exact ⟨b, List.mem_of_find?_eq_some hb, rfl, hfound.1, Or.inl hval.symm⟩
            · rw [if_neg hdesc, if_pos hval, Option.map_some, take_memory]
              rfl
  -- the value and the CCCD come as events of their own
  | value connHandle serviceId charId d =>
      have hstep : s.step (PeerWrite.value connHandle serviceId charId d).event =
        (s.arduinoBleGattDbHandler connHandle serviceId charId
          (.peerWrite (some d.memory) d.bytes.length)).1 := rfl
      rw [hstep]
      cases hf : s.findCharacteristic serviceId charId with
      | none =>
          simp only [cccdTarget, valueTarget, Gatt.arduinoBleGattDbHandler, hf]
          exact Or.inr (Or.inr ⟨trivial, trivial, trivial⟩)
      | some c =>
          simp only [cccdTarget, valueTarget, Gatt.arduinoBleGattDbHandler, hf]
          have hfound := List.find?_some hf
          simp only [Bool.and_eq_true, beq_iff_eq] at hfound
          refine Or.inr (Or.inl ⟨c, trivial, rfl, ?_, ?_⟩)
          · exact ⟨List.mem_of_find?_eq_some hf, hfound.1.1, hfound.1.2, hfound.2⟩
          · simp only [Option.map_some, take_memory]
            rfl
  | cccd connHandle serviceId charId d =>
      have hstep : s.step (PeerWrite.cccd connHandle serviceId charId d).event =
        (s.arduinoBleGattDbHandler connHandle serviceId charId (.cliCnfgWrite d.memory)).1 := rfl
      rw [hstep]
      cases hf : s.findCharacteristic serviceId charId with
      | none =>
          simp only [cccdTarget, valueTarget, Gatt.arduinoBleGattDbHandler, hf]
          exact Or.inr (Or.inr ⟨trivial, trivial, trivial⟩)
      | some c =>
          simp only [cccdTarget, valueTarget, Gatt.arduinoBleGattDbHandler, hf]
          exact Or.inl ⟨c, rfl, trivial, rfl⟩

/-! ## What is read -/

/-- The configuration is in the first two bytes. -/
theorem cccdConfig_congr {xs ys : List UInt8} (h : xs.take 2 = ys.take 2) :
    cccdConfig xs = cccdConfig ys := by
  have hat : ∀ (zs : List UInt8) (i : Nat), i < 2 → zs.getD i 0 = (zs.take 2).getD i 0 := by
    intro zs i hi
    rw [List.getD_eq_getElem?_getD, List.getD_eq_getElem?_getD, List.getElem?_take, if_pos hi]
  unfold cccdConfig
  rw [hat xs 1 (by omega), hat xs 0 (by omega), hat ys 1 (by omega), hat ys 0 (by omega), h]

/-- Storing a value that is too long changes nothing. -/
theorem storeValueBytes_oversize (c : BLECharacteristic) (bytes : List UInt8)
    (hsize : 0 < c.valueSize) (h : c.valueSize < bytes.length) :
    c.storeValueBytes (some bytes) = c := by
  have hne : bytes.isEmpty = false := by
    rw [List.isEmpty_eq_false_iff]
    rintro rfl
    exact Nat.not_lt_zero _ h
  simp only [BLECharacteristic.storeValueBytes, Option.getD_some, hne, Bool.false_eq_true,
    if_false, if_pos (And.intro hsize h)]

/-! ## Containment -/

/-- A change of one characteristic is a change of no other. -/
theorem setChar_owner {s : Gatt} {c d : CharId} {ch : BLECharacteristic}
    (h : (s.setChar c ch).chars d ≠ s.chars d) : d = c ∧ ch ≠ s.chars c := by
  by_cases hdc : d = c
  · subst hdc
    refine ⟨rfl, fun heq => h ?_⟩
    exact (Function.update_self d ch s.chars).trans heq
  · simp only [Gatt.setChar, Function.update_of_ne hdc, ne_eq, not_true_eq_false] at h

/-- A write of a peer is contained if and only if it does not go to a CCCD, or has the two
    bytes. -/
theorem contained_iff (s : Gatt) (w : PeerWrite) : Contained s w ↔ TwoBytes s w := by
  -- the write goes to a CCCD, to a value, or nowhere
  rcases step_peerWrite s w with ⟨c, hc, hv, hstep⟩ | ⟨c, hc, hv, howns, hstep⟩ | ⟨hc, hv, hstep⟩
  · have hreads : bytesRead s w = 2 := by rw [bytesRead, hc]
    have hsame : s.step w.event = s ↔
        cccdEnables (cccdConfig w.data.memory) = (s.chars c).notifyEnabled := by
      rw [hstep, setChar_eq_self, setNotifyEnabled_eq_self]
    have hconfig : 2 ≤ w.data.bytes.length →
        cccdConfig w.data.memory = cccdConfig w.data.bytes := fun h2 =>
      cccdConfig_congr (List.take_append_of_le_length h2)
    constructor
    · intro hlaw c' hc'
      obtain rfl := Option.some.inj (hc.symm.trans hc')
      have h2 : 2 ≤ w.data.bytes.length := hreads ▸ hlaw.reads
      refine ⟨h2, ?_⟩
      by_cases hset : cccdEnables (cccdConfig w.data.bytes) = (s.chars c).notifyEnabled
      · exact Or.inl hset
      -- The write changes the subscription, so the law allows it two bytes and its owner only.
      · have hnot : s.step w.event ≠ s := fun heq => hset (hconfig h2 ▸ hsame.1 heq)
        refine Or.inr ⟨?_, hlaw.owner c fun heq => hnot ?_⟩
        · by_contra hlen
          exact hnot (hlaw.cccd c hc hlen)
        · rw [hstep] at heq ⊢
          rw [setChar_eq_self]
          exact (Function.update_self c _ s.chars).symm.trans heq
    · intro htwo
      rcases htwo c hc with ⟨h2, hrest⟩
      rw [← hconfig h2] at hrest
      refine ⟨hreads ▸ h2, fun d hd => ?_, by rw [hstep]; rfl, fun d hd => ?_, fun d hd hlen => ?_⟩
      · rw [hstep] at hd
        rcases setChar_owner hd with ⟨rfl, hch⟩
        rcases hrest with hset | ⟨-, howns⟩
        · exact absurd ((setNotifyEnabled_eq_self _ _).2 hset) hch
        · exact howns
      · exact absurd (hd.symm.trans hv) (Option.some_ne_none d)
      · exact hsame.2 (hrest.resolve_right fun h => hlen h.1)
  · -- a value is checked where it is stored
    have hreads : bytesRead s w = storeReads (s.chars c) w.data.bytes.length := by
      rw [bytesRead, hc, hv]
    refine iff_of_true ⟨?_, fun d hd => ?_, by rw [hstep]; rfl, fun d hd hsize hbig => ?_, ?_⟩ ?_
    · rw [hreads, storeReads]
      split_ifs <;> omega
    · rw [hstep] at hd
      rw [(setChar_owner hd).1]
      exact howns
    · obtain rfl := Option.some.inj (hv.symm.trans hd)
      rw [hstep, setChar_eq_self]
      exact storeValueBytes_oversize _ _ hsize hbig
    · exact fun d hd => absurd (hd.symm.trans hc) (Option.some_ne_none d)
    · exact fun d hd => absurd (hd.symm.trans hc) (Option.some_ne_none d)
  -- nowhere: nothing is read and nothing changes
  · refine iff_of_true ⟨?_, fun d hd => ?_, by rw [hstep], fun _ _ _ _ => hstep, ?_⟩ ?_
    · rw [bytesRead, hc, hv]
      exact Nat.zero_le _
    · exact absurd (congrFun (congrArg Gatt.chars hstep) d) hd
    · exact fun d hd => absurd (hd.symm.trans hc) (Option.some_ne_none d)
    · exact fun d hd => absurd (hd.symm.trans hc) (Option.some_ne_none d)

/-- The CCCD of the battery is written with one byte, and the handler reads two. -/
theorem short_cccd_overread : ¬ ∀ w, Contained (battery.step batteryCreated) w := by
  intro hall
  have hreads := (hall (.legacy 11 3 { bytes := [1] })).reads
  exact absurd hreads (by decide)

/-- With three bytes it is written all the same. -/
example : ((battery.step batteryCreated).step
    (PeerWrite.legacy 11 3 { bytes := [1, 0, 0] }).event).chars 0 ≠
      (battery.step batteryCreated).chars 0 := by
  decide

end BLE

end ArduinoBeken
