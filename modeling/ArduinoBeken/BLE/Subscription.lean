import ArduinoBeken.Library.Run
import ArduinoBeken.BLE.Frame

/-!
# Subscriptions

Who asked for notifications, and who gets them.

A peer subscribes to a characteristic by writing its client configuration.
The code keeps one bit of that per characteristic, `notifyEnabled`, which
says whether the last configuration anybody wrote enables it. A disconnect
resets the connection handle and leaves that bit alone, so a subscription
stands for the next peer as well. The two bytes behind `cccdValuePtr` are not
written at all.

`Session` is the registry with what the peers did: whether one is connected,
what it wrote to each configuration since its connection began, and what was
written last by anybody. `Tracks` ties the code's fields to it, in every
state of every run. From there one event decides both laws: a notification
needs a standing subscription of the connected peer itself, and reading a
configuration back needs it to be zero.

## Main definitions

* `cccdWrite`: The configuration an event writes.
* `cccdRead`: The characteristic whose configuration an event reads.
* `Session`: The registry with what the peers did.
* `Gated`: A notification goes to a connected peer that asked for it.
* `ReadsBack`: A configuration reads back as that peer wrote it.
* `OwnSubscription`, `Unwritten`: When these hold.

## Theorems

* `step_subscription`: What an event does to the subscription fields.
* `notifyCharacteristic_of_deliverable`: What is enabled and deliverable is
  sent.
* `notified_mem_calls`: Nothing else is.
* `gated_iff`, `readsBack_iff`: One event obeys a law exactly when it should.
* `sessions_iff`: Both laws, for every event of every run.
* `subscription_inherited`: A peer is notified on account of another one.
-/

namespace ArduinoBeken

namespace BLE

open EventRun

/-- The configuration an event writes, and the characteristic it is for. -/
def cccdWrite (s : Gatt) : Event → Option (CharId × Nat)
  | .legacyNotice (.write (some req)) =>
    match s.findLegacyBindingByWrite req.prfId req.attIdx with
    | none => none
    | some b =>
      if req.attIdx = b.descAttIdx then
        some (b.characteristic, cccdConfig (req.value.getD []))
      else none
  | .gattDb _ serviceId charId (.cliCnfgWrite value) =>
    (s.findCharacteristic serviceId charId).map fun c => (c, cccdConfig value)
  | _ => none

/-- The characteristic whose configuration an event reads. The other stack
    answers such reads by itself. -/
def cccdRead (s : Gatt) : Event → Option CharId
  | .legacyNotice (.read (some (_, prfId, attIdx))) =>
    match s.findLegacyBindingByWrite prfId attIdx with
    | none => none
    | some b => if attIdx = b.descAttIdx then some b.characteristic else none
  | _ => none

/-- Whether an event begins or ends a connection. -/
def linkChange : Event → Option Bool
  | .legacyNotice (.connect _) => some true
  | .legacyNotice .disconnect => some false
  | .gattEvent (.connect _) => some true
  | .gattEvent .disconnect => some false
  | _ => none

/-! ## What an event does to the subscription fields -/

/-- Two objects with the same subscription fields. -/
structure SameSubscription (c d : BLECharacteristic) : Prop where
  notifyEnabled : d.notifyEnabled = c.notifyEnabled
  cccdValue : d.cccdValue = c.cccdValue

theorem SameSubscription.refl (c : BLECharacteristic) : SameSubscription c c := ⟨rfl, rfl⟩

theorem sameSubscription_setChar (s : Gatt) (d : CharId) {ch : BLECharacteristic}
    (h : SameSubscription (s.chars d) ch) (c : CharId) :
    SameSubscription (s.chars c) ((s.setChar d ch).chars c) := by
  by_cases hcd : c = d
  · subst hcd
    simpa only [Gatt.setChar, Function.update_self] using h
  · simpa only [Gatt.setChar, Function.update_of_ne hcd] using SameSubscription.refl _

theorem sameSubscription_storeValueBytes (c : BLECharacteristic) (data : Option (List UInt8)) :
    SameSubscription c (c.storeValueBytes data) :=
  ⟨(c.storeValueBytes_frame data).notifyEnabled, (c.storeValueBytes_frame data).cccdValue⟩

/-- The subscription fields after a configuration was written, or none was. -/
def subscribed (c : CharId) (ch : BLECharacteristic) : Option (CharId × Nat) → BLECharacteristic
  | some (d, config) => if d = c then ch.setNotifyEnabled (cccdEnables config) else ch
  | none => ch

theorem subscribed_setChar (s : Gatt) (d : CharId) (config : Nat) (c : CharId) :
    SameSubscription (subscribed c (s.chars c) (some (d, config)))
      ((s.setChar d ((s.chars d).setNotifyEnabled (cccdEnables config))).chars c) := by
  by_cases hdc : d = c
  · subst hdc
    simp only [subscribed, Gatt.setChar, Function.update_self, if_true]
    exact SameSubscription.refl _
  · simp only [subscribed, if_neg hdc, Gatt.setChar, Function.update_of_ne (Ne.symm hdc)]
    exact SameSubscription.refl _

/-- A legacy write changes the subscription of one characteristic, or of
    none. -/
theorem legacyWrite_subscription (s : Gatt) (req : WriteReq) (c : CharId) :
    SameSubscription (subscribed c (s.chars c) (cccdWrite s (.legacyNotice (.write (some req)))))
      ((s.legacyWrite req).chars c) := by
  cases hb : s.findLegacyBindingByWrite req.prfId req.attIdx with
  | none =>
      simp only [cccdWrite, Gatt.legacyWrite, hb]
      exact SameSubscription.refl _
  | some b =>
      by_cases hdesc : req.attIdx = b.descAttIdx
      · simp only [cccdWrite, Gatt.legacyWrite, hb, if_pos hdesc]
        exact subscribed_setChar s b.characteristic _ c
      · simp only [cccdWrite, Gatt.legacyWrite, hb, if_neg hdesc, subscribed]
        split_ifs
        · exact sameSubscription_setChar s b.characteristic
            (sameSubscription_storeValueBytes _ _) c
        · exact SameSubscription.refl _

theorem gattDb_subscription (s : Gatt) (connHandle serviceId charId : Nat) (op : GattDbOp)
    (c : CharId) :
    SameSubscription
      (subscribed c (s.chars c) (cccdWrite s (.gattDb connHandle serviceId charId op)))
      ((s.arduinoBleGattDbHandler connHandle serviceId charId op).1.chars c) := by
  cases hf : s.findCharacteristic serviceId charId with
  | none =>
      cases op <;>
        simp only [cccdWrite, Gatt.arduinoBleGattDbHandler, hf, Option.map_none, subscribed] <;>
        exact SameSubscription.refl _
  | some d =>
      simp only [Gatt.arduinoBleGattDbHandler, hf]
      cases op with
      | peerRead => exact SameSubscription.refl _
      | cliCnfgWrite value =>
          simp only [cccdWrite, hf, Option.map_some]
          exact subscribed_setChar s d _ c
      | peerWrite value len =>
          exact sameSubscription_setChar s d (sameSubscription_storeValueBytes _ _) c
      | other => exact SameSubscription.refl _

/-- An event changes the subscription of the characteristic whose
    configuration it writes and of no other. -/
theorem step_subscription (s : Gatt) (e : Event) (c : CharId) :
    SameSubscription (subscribed c (s.chars c) (cccdWrite s e)) ((s.step e).chars c) := by
  cases e with
  | addCharacteristic svc d => exact SameSubscription.refl _
  | finalize services ethermind answers =>
      -- Finalizing declares the characteristics again, without their subscriptions.
      have h := (finalizes_attempt s services ethermind answers).decl c
      exact ⟨h.notifyEnabled, h.cccdValue⟩
  | writeValue d data =>
      cases data with
      | none => exact SameSubscription.refl _
      | some bytes =>
          exact sameSubscription_setChar s d (sameSubscription_storeValueBytes _ (some bytes)) c
  | legacyNotice notice =>
      -- Of the notices only a write may be one of a descriptor.
      cases notice with
      | connect connIdx => cases connIdx <;> exact SameSubscription.refl _
      | read req => cases req <;> exact SameSubscription.refl _
      | createDb call status =>
          have h := sdkOnly_completeCreate s call status
          change SameSubscription (s.chars c) ((s.completeCreate call status).chars c)
          rw [h.chars]
          exact SameSubscription.refl _
      | write req =>
          cases req with
          | none => exact SameSubscription.refl _
          | some req => exact legacyWrite_subscription s req c
      | _ => exact SameSubscription.refl _
  | gattEvent event =>
      rcases event with (_ | connHandle) | _ | _ <;> exact SameSubscription.refl _
  | gattDb connHandle serviceId charId op =>
      exact gattDb_subscription s connHandle serviceId charId op c

/-- The connection handle changes with the connection only. -/
theorem step_connHandle (s : Gatt) (e : Event) (h : linkChange e = none) :
    (s.step e).connHandle = s.connHandle := by
  -- only the four link events set the handle
  cases e with
  | addCharacteristic svc d => rfl
  | finalize services ethermind answers =>
      exact (finalizes_attempt s services ethermind answers).connHandle
  | writeValue d data => cases data <;> rfl
  | legacyNotice notice =>
      cases notice with
      | connect connIdx => exact absurd h (Option.some_ne_none _)
      | disconnect => exact absurd h (Option.some_ne_none _)
      | read req => cases req <;> rfl
      | createDb call status => exact (sdkOnly_completeCreate s call status).connHandle
      | write req =>
          cases req with
          | none => rfl
          | some req =>
              -- A write, of whatever attribute, leaves the connection.
              change (s.legacyWrite req).connHandle = s.connHandle
              unfold Gatt.legacyWrite
              split
              · rfl
              · simp only
                split_ifs <;> rfl
      | _ => rfl
  | gattEvent event =>
      cases event with
      | connect connHandle => exact absurd h (Option.some_ne_none _)
      | disconnect => exact absurd h (Option.some_ne_none _)
      | other => rfl
  | gattDb connHandle serviceId charId op =>
      change (s.arduinoBleGattDbHandler connHandle serviceId charId op).1.connHandle = s.connHandle
      unfold Gatt.arduinoBleGattDbHandler
      split
      · rfl
      · cases op <;> rfl

/-- After a disconnect the handle is the invalid one. -/
theorem step_disconnect (s : Gatt) (e : Event) (h : linkChange e = some false) :
    (s.step e).connHandle = kInvalidConnHandle := by
  unfold linkChange at h
  split at h
  · exact absurd h (by decide)
  · rfl
  · exact absurd h (by decide)
  · rfl
  · exact absurd h (by decide)

/-! ## When a notification is sent -/

/-- What it takes to send a value besides a subscription: a registered
    characteristic declared to notify, a connection handle, a value, and a
    legacy binding where the legacy stack is in use. -/
structure Gatt.Deliverable (s : Gatt) (c : CharId) : Prop where
  registered : (s.chars c).gattRegistered = true
  notifies : (s.chars c).notifies = true
  connected : s.connHandle ≠ kInvalidConnHandle
  value : (s.chars c).value ≠ []
  length : (s.chars c).gattReadDataLen ≠ 0
  bound : s.useLegacyStack = true → s.findLegacyBindingByCharacteristic c ≠ none

/-- Handing a deliverable value to a stack is one call, for that
    characteristic. -/
theorem notifyCharacteristic_of_deliverable {s : Gatt} {c : CharId}
    (he : (s.chars c).notifyEnabled = true) (h : s.Deliverable c) :
    ∃ call, s.notifyCharacteristic c = [call] ∧ call.notified = some c := by
  have hptr : (s.chars c).gattReadDataPtr = some (s.chars c).value := by
    rw [BLECharacteristic.gattReadDataPtr, List.isEmpty_eq_false_iff.2 h.value]
    rfl
  simp only [Gatt.notifyCharacteristic, h.registered, he, h.notifies, Bool.not_true, Bool.or_self,
    Bool.false_eq_true, if_false, if_neg h.connected, hptr, if_neg h.length]
  by_cases hl : s.useLegacyStack = true
  · rw [if_pos hl]
    cases hb : s.findLegacyBindingByCharacteristic c with
    | none => exact absurd hb (h.bound hl)
    | some b => exact ⟨_, rfl, rfl⟩
  · rw [if_neg hl]
    exact ⟨_, rfl, rfl⟩

/-- A call that hands over a notification was made for an enabled
    characteristic whose value could be delivered. -/
theorem deliverable_of_mem {s : Gatt} {c d : CharId} {call : StackCall}
    (h : call ∈ s.notifyCharacteristic c) (hd : call.notified = some d) :
    d = c ∧ (s.chars c).notifyEnabled = true ∧ s.Deliverable c := by
  -- One test of `notifyCharacteristic` after the other is passed.
  simp only [Gatt.notifyCharacteristic] at h
  split at h
  · exact absurd h List.not_mem_nil
  rename_i hreg
  split at h
  · exact absurd h List.not_mem_nil
  rename_i hnot
  split at h
  · exact absurd h List.not_mem_nil
  rename_i hconn
  rw [Bool.or_eq_true, not_or, Bool.not_eq_true', Bool.not_eq_true', Bool.not_eq_false,
    Bool.not_eq_false] at hreg
  rw [Bool.not_eq_true', Bool.not_eq_false] at hnot
  split at h
  · exact absurd h List.not_mem_nil
  rename_i value hptr
  -- A value that is empty has no data to point to.
  have hvalue : (s.chars c).value ≠ [] := by
    intro hnil
    simp only [BLECharacteristic.gattReadDataPtr, hnil, List.isEmpty_nil, if_true,
      reduceCtorEq] at hptr
  split_ifs at h with hlen hlegacy
  · exact absurd h List.not_mem_nil
  · split at h
    · exact absurd h List.not_mem_nil
    rename_i b hb
    rw [List.mem_singleton] at h
    subst h
    refine ⟨(Option.some.inj hd).symm, hreg.2, hreg.1, hnot, hconn, hvalue, hlen, fun _ => ?_⟩
    rw [hb]
    exact Option.some_ne_none b
  · rw [List.mem_singleton] at h
    subst h
    exact ⟨(Option.some.inj hd).symm, hreg.2, hreg.1, hnot, hconn, hvalue, hlen,
      fun hl => absurd hl hlegacy⟩

/-- Only storing a value notifies. -/
theorem notified_mem_calls {s : Gatt} {e : Event} {call : StackCall} {c : CharId}
    (h : call ∈ s.calls e) (hc : call.notified = some c) :
    ∃ bytes, e = .writeValue c (some bytes) ∧ (s.step e).Deliverable c ∧
      ((s.step e).chars c).notifyEnabled = true := by
  cases e with
  | addCharacteristic svc d => exact absurd h List.not_mem_nil
  | finalize services ethermind answers => exact absurd h List.not_mem_nil
  | writeValue d data =>
      cases data with
      | none => exact absurd h List.not_mem_nil
      | some bytes =>
          -- Only a write of the sketch's notifies.
          rcases deliverable_of_mem h hc with ⟨rfl, hen, hdel⟩
          exact ⟨bytes, rfl, hdel, hen⟩
  | legacyNotice notice =>
      cases notice with
      | connect connIdx => cases connIdx <;> exact absurd h List.not_mem_nil
      | read req =>
          cases req with
          | none => exact absurd h List.not_mem_nil
          | some req =>
              rcases req with ⟨connIdx, prfId, attIdx⟩
              change call ∈ s.legacyRead connIdx prfId attIdx at h
              unfold Gatt.legacyRead at h
              -- The answer to a read is no notification.
              split at h
              · exact absurd h List.not_mem_nil
              simp only at h
              split at h
              · split_ifs at h
                · rw [List.mem_singleton] at h
                  rw [h] at hc
                  exact absurd hc (Option.some_ne_none _).symm
                · exact absurd h List.not_mem_nil
              · exact absurd h List.not_mem_nil
      | write req => cases req <;> exact absurd h List.not_mem_nil
      | _ => exact absurd h List.not_mem_nil
  | gattEvent event => exact absurd h List.not_mem_nil
  | gattDb connHandle serviceId charId op =>
      change call ∈ (s.arduinoBleGattDbHandler connHandle serviceId charId op).2 at h
      unfold Gatt.arduinoBleGattDbHandler at h
      split at h
      · exact absurd h List.not_mem_nil
      cases op with
      | peerRead =>
          rw [List.mem_singleton.1 h] at hc
          exact absurd hc (Option.some_ne_none _).symm
      | _ => exact absurd h List.not_mem_nil

/-! ## Sessions -/

/-- The registry with what the peers did: whether one is connected, the
    configurations it wrote since (zero where it wrote none), and the
    configurations that were written last by anybody. -/
structure Session where
  gatt : Gatt
  connected : Bool := false
  written : CharId → Nat := fun _ => 0
  standing : CharId → Nat := fun _ => 0

namespace Session

/-- One event, with what the connected peer has written. Another connection starts anew. -/
def step (w : Session) (e : Event) : Session :=
  match linkChange e with
  | some up => { w with gatt := w.gatt.step e, connected := up, written := fun _ => 0 }
  | none =>
    match cccdWrite w.gatt e with
    | some (c, config) =>
      { w with
        gatt := w.gatt.step e
        written := Function.update w.written c config
        standing := Function.update w.standing c config }
    | none => { w with gatt := w.gatt.step e }

/-- What the code's fields say about the peers. -/
structure Tracks (w : Session) : Prop where
  connected : w.gatt.connHandle ≠ kInvalidConnHandle → w.connected = true
  enabled : ∀ c, (w.gatt.chars c).notifyEnabled = cccdEnables (w.standing c)
  bytes : ∀ c, (w.gatt.chars c).cccdValue = [0, 0]
  own : ∀ c, w.written c ≠ 0 → w.written c = w.standing c
  range : ∀ c, w.written c < 65536

theorem cccdConfig_lt (value : List UInt8) : cccdConfig value < 65536 := by
  have h0 := (value.getD 0 0).toNat_lt
  have h1 := (value.getD 1 0).toNat_lt
  unfold cccdConfig
  omega

theorem cccdWrite_lt {s : Gatt} {e : Event} {c : CharId} {config : Nat}
    (h : cccdWrite s e = some (c, config)) : config < 65536 := by
  unfold cccdWrite at h
  split at h
  · split at h
    · exact absurd h (Option.some_ne_none _).symm
    · split_ifs at h
      rw [← (Prod.mk.inj (Option.some.inj h)).2]
      exact cccdConfig_lt _
  · rcases Option.map_eq_some_iff.1 h with ⟨d, -, hd⟩
    rw [← (Prod.mk.inj hd).2]
    exact cccdConfig_lt _
  · exact absurd h (Option.some_ne_none _).symm

theorem cccdWrite_of_linkChange {s : Gatt} {e : Event} {up : Bool} (h : linkChange e = some up) :
    cccdWrite s e = none := by
  unfold linkChange at h
  split at h
  · rfl
  · rfl
  · rfl
  · rfl
  · exact absurd h (Option.some_ne_none _).symm

theorem gatt_step (w : Session) (e : Event) : (w.step e).gatt = w.gatt.step e := by
  unfold step
  split
  · rfl
  · split <;> rfl

/-- Connecting and disconnecting leave subscriptions and configurations. -/
theorem tracks_link (w : Session) (e : Event) (up : Bool) (hlink : linkChange e = some up)
    (h : w.Tracks) :
    Tracks { w with gatt := w.gatt.step e, connected := up, written := fun _ => 0 } where
  connected hne := by
    cases up with
    | true => rfl
    | false => exact absurd (step_disconnect w.gatt e hlink) hne
  enabled c := by
    have hc := (step_subscription w.gatt e c).notifyEnabled
    rw [cccdWrite_of_linkChange hlink] at hc
    exact hc.trans (h.enabled c)
  bytes c := by
    have hc := (step_subscription w.gatt e c).cccdValue
    rw [cccdWrite_of_linkChange hlink] at hc
    exact hc.trans (h.bytes c)
  own _ hne := absurd rfl hne
  range _ := Nat.zero_lt_succ _

/-- A configuration that was written stands, and is the connected peer's. -/
theorem tracks_write (w : Session) (e : Event) (hlink : linkChange e = none) (d : CharId)
    (config : Nat) (hw : cccdWrite w.gatt e = some (d, config)) (h : w.Tracks) :
    Tracks { w with
      gatt := w.gatt.step e
      written := Function.update w.written d config
      standing := Function.update w.standing d config } where
  connected hne := h.connected (by rw [← step_connHandle w.gatt e hlink]; exact hne)
  enabled c := by
    have hc := (step_subscription w.gatt e c).notifyEnabled
    rw [hw] at hc
    refine hc.trans ?_
    -- the characteristic written to, and the others
    by_cases hcd : c = d
    · subst hcd
      simp only [subscribed, if_true, BLECharacteristic.setNotifyEnabled, Function.update_self]
    · simp only [subscribed, if_neg (Ne.symm hcd), Function.update_of_ne hcd]
      exact h.enabled c
  bytes c := by
    have hc := (step_subscription w.gatt e c).cccdValue
    rw [hw] at hc
    refine hc.trans ?_
    -- the bytes of the CCCD follow the flag
    by_cases hdc : d = c
    · simp only [subscribed, if_pos hdc, BLECharacteristic.setNotifyEnabled]
      exact h.bytes c
    · simp only [subscribed, if_neg hdc]
      exact h.bytes c
  own c hne := by
    by_cases hcd : c = d
    · subst hcd
      simp only [Function.update_self]
    · simp only [Function.update_of_ne hcd] at hne ⊢
      exact h.own c hne
  range c := by
    by_cases hcd : c = d
    · subst hcd
      simp only [Function.update_self]
      exact cccdWrite_lt hw
    · simp only [Function.update_of_ne hcd]
      exact h.range c

theorem tracks_other (w : Session) (e : Event) (hlink : linkChange e = none)
    (hw : cccdWrite w.gatt e = none) (h : w.Tracks) : Tracks { w with gatt := w.gatt.step e } where
  connected hne := h.connected (by rw [← step_connHandle w.gatt e hlink]; exact hne)
  enabled c := by
    have hc := (step_subscription w.gatt e c).notifyEnabled
    rw [hw] at hc
    exact hc.trans (h.enabled c)
  bytes c := by
    have hc := (step_subscription w.gatt e c).cccdValue
    rw [hw] at hc
    exact hc.trans (h.bytes c)
  own := h.own
  range := h.range

/-- Every event keeps the fields in step with the peers. -/
theorem tracks_step (w : Session) (e : Event) (h : w.Tracks) : (w.step e).Tracks := by
  unfold step
  split
  · rename_i up hlink
    exact tracks_link w e up hlink h
  · rename_i hlink
    split
    · rename_i d config hw
      exact tracks_write w e hlink d config hw h
    · rename_i hw
      exact tracks_other w e hlink hw h

/-- The registry before anything happened, and no peer. -/
def start (s : Gatt) : Session := { gatt := s }

theorem tracks_start {s : Gatt} (h : s.Fresh) : (start s).Tracks where
  connected hne := absurd h.connHandle hne
  enabled c := (h.chars c).2.1
  bytes c := (h.chars c).2.2
  own _ hne := absurd rfl hne
  range _ := Nat.zero_lt_succ _

/-! ## The two laws -/

/-- A configuration asks for notifications or indications, in either of its
    two low bits. -/
def asks (config : Nat) : Prop := config % 4 ≠ 0

instance (config : Nat) : Decidable (asks config) :=
  inferInstanceAs (Decidable (config % 4 ≠ 0))

/-- The two bytes of a configuration, low byte first. -/
def configBytes (config : Nat) : List UInt8 := [.ofNat (config % 256), .ofNat (config / 256)]

/-- A notification goes to a connected peer that asked for it since it
    connected. -/
def Gated (w : Session) (e : Event) : Prop :=
  ∀ call ∈ w.gatt.calls e, ∀ c, call.notified = some c →
    w.connected = true ∧ asks (w.written c)

/-- A configuration that is read is answered as this peer wrote it. -/
def ReadsBack (w : Session) (e : Event) : Prop :=
  ∀ c, cccdRead w.gatt e = some c →
    (w.gatt.calls e).map StackCall.bytes = [some (configBytes (w.written c))]

/-- A value that is stored and would be sent meets no subscription that stands
    from before the connection. -/
def OwnSubscription (w : Session) (e : Event) : Prop :=
  ∀ c bytes, e = .writeValue c (some bytes) → (w.gatt.step e).Deliverable c →
    cccdEnables (w.standing c) = true → w.written c = w.standing c

/-- A configuration that is read was not written by this peer, or was written
    zero. -/
def Unwritten (w : Session) (e : Event) : Prop :=
  ∀ c, cccdRead w.gatt e = some c → w.written c = 0

theorem asks_of_enables {config : Nat} (h : cccdEnables config = true) : asks config := by
  unfold cccdEnables at h
  rw [Bool.or_eq_true, beq_iff_eq, beq_iff_eq] at h
  unfold asks
  omega

/-- An event notifies only peers that asked, exactly when it sends nothing on
    account of an earlier peer. -/
theorem gated_iff (w : Session) (e : Event) (h : w.Tracks) :
    w.Gated e ↔ w.OwnSubscription e := by
  constructor
  · intro hg c bytes he hdel henable
    have hen : ((w.gatt.step e).chars c).notifyEnabled = true := by
      have hkeep := (step_subscription w.gatt e c).notifyEnabled
      rw [he] at hkeep ⊢
      rw [hkeep]
      exact (h.enabled c).trans henable
    rcases notifyCharacteristic_of_deliverable hen hdel with ⟨call, hcall, hfor⟩
    -- what is sent is one of the calls of the step
    have hmem : call ∈ w.gatt.calls e := by
      rw [he] at hcall ⊢
      change call ∈ (w.gatt.step (.writeValue c (some bytes))).notifyCharacteristic c
      rw [hcall]
      exact List.mem_singleton_self call
    -- a peer that never wrote has not asked for anything
    refine h.own c fun hzero => ?_
    have hasks := (hg call hmem c hfor).2
    rw [hzero] at hasks
    exact hasks rfl
  · intro hown call hmem c hfor
    rcases notified_mem_calls hmem hfor with ⟨bytes, he, hdel, hen⟩
    have henable : cccdEnables (w.standing c) = true := by
      have hkeep := (step_subscription w.gatt e c).notifyEnabled
      rw [hen, he] at hkeep
      exact (hkeep.trans (h.enabled c)).symm
    -- a write by the sketch leaves the connection alone
    have hconn : (w.gatt.step e).connHandle = w.gatt.connHandle :=
      step_connHandle w.gatt e (by rw [he]; rfl)
    refine ⟨h.connected (by rw [← hconn]; exact hdel.connected), ?_⟩
    rw [hown c bytes he hdel henable]
    exact asks_of_enables henable

/-- Reading a configuration answers with the two bytes behind
    `cccdValuePtr`. -/
theorem calls_cccdRead {s : Gatt} {e : Event} {c : CharId} (h : cccdRead s e = some c)
    (hbytes : (s.chars c).cccdValue = [0, 0]) :
    (s.calls e).map StackCall.bytes = [some [0, 0]] := by
  unfold cccdRead at h
  split at h
  · rename_i connIdx prfId attIdx
    split at h
    · exact absurd h (Option.some_ne_none _).symm
    rename_i b hb
    split_ifs at h with hdesc
    obtain rfl := Option.some.inj h
    change (s.legacyRead connIdx prfId attIdx).map StackCall.bytes = _
    simp only [Gatt.legacyRead, hb, if_pos hdesc, hbytes, Nat.zero_lt_succ, if_true, List.map_cons,
      List.map_nil, StackCall.bytes]
    rfl
  · exact absurd h (Option.some_ne_none _).symm

theorem configBytes_eq_zero_iff {config : Nat} (h : config < 65536) :
    configBytes config = [0, 0] ↔ config = 0 := by
  constructor
  · intro hb
    rcases List.cons.inj hb with ⟨hlow, hrest⟩
    have hlow' := congrArg UInt8.toNat hlow
    have hhigh' := congrArg UInt8.toNat (List.cons.inj hrest).1
    simp only [UInt8.toNat_ofNat'] at hlow' hhigh'
    change config % 256 % 256 = 0 at hlow'
    change config / 256 % 256 = 0 at hhigh'
    omega
  · rintro rfl
    rfl

/-- A configuration reads back as this peer wrote it exactly when it wrote
    none, or zero. -/
theorem readsBack_iff (w : Session) (e : Event) (h : w.Tracks) :
    w.ReadsBack e ↔ w.Unwritten e := by
  refine forall_congr' fun c => imp_congr_right fun hc => ?_
  rw [calls_cccdRead hc (h.bytes c), List.cons.injEq, Option.some.injEq]
  rw [eq_comm (a := [0, 0]), configBytes_eq_zero_iff (h.range c)]
  exact and_iff_left rfl

/-- Along a run both laws hold exactly when nothing is sent on account of an
    earlier peer and no written configuration is read. -/
theorem sessions_iff {s : Gatt} (h : s.Fresh) (es : List Event) :
    Always step (fun w e => w.Gated e ∧ w.ReadsBack e) (start s) es ↔
      Always step (fun w e => w.OwnSubscription e ∧ w.Unwritten e) (start s) es :=
  always_iff_of_inv tracks_step
    (fun w e hw => and_congr (gated_iff w e hw) (readsBack_iff w e hw)) (tracks_start h) es

/-- A peer that connects to the battery and asks for its level. -/
def subscribing (connIdx : Nat) : List Event :=
  [.legacyNotice (.connect (some connIdx)),
    .legacyNotice (.write (some { prfId := 11, attIdx := 3, value := some [1, 0], len := 2 }))]

/-- The peer is notified, and rightly so. -/
theorem battery_notifies :
    Always step (fun w e => w.Gated e ∧ w.ReadsBack e) (start battery)
      (batteryCreated :: subscribing 1 ++ [.writeValue 0 (some [7])]) := by
  refine (sessions_iff battery_fresh _).2 ⟨⟨?_, ?_⟩, ⟨?_, ?_⟩, ⟨?_, ?_⟩, ⟨?_, ?_⟩, True.intro⟩
  · exact fun _ _ he => nomatch he
  · exact fun _ hc => nomatch hc
  · exact fun _ _ he => nomatch he
  · exact fun _ hc => nomatch hc
  · exact fun _ _ he => nomatch he
  · exact fun _ hc => nomatch hc
  · intro c bytes he _ _
    obtain ⟨rfl, -⟩ := Event.writeValue.inj he
    decide
  · exact fun _ hc => nomatch hc

/-- The first peer asks and leaves; the second asks for nothing and is notified
    all the same. -/
theorem subscription_inherited :
    ¬ Always step (fun w e => w.Gated e ∧ w.ReadsBack e) (start battery)
      (batteryCreated :: subscribing 1 ++
        [.legacyNotice .disconnect, .legacyNotice (.connect (some 2)),
          .writeValue 0 (some [7])]) := by
  intro h
  have hlast := h.2.2.2.2.2.1.1
  have hasks := hlast (.sendNotiValue 0 2 1 [7] 11 2) (by decide) 0 rfl
  exact absurd hasks.2 (by decide)

end Session

end BLE

end ArduinoBeken
