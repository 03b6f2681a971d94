import Mathlib.Data.List.TakeDrop
import ArduinoBeken.Library.Run
import ArduinoBeken.BLE.Frame

/-!
# The History of a Value

What a peer reads, compared with what was written last.

Two things happen to the value of a characteristic: bytes are stored, and the
buffers are prepared for a database. `ValueOp` lists them, and `valueOps` says
which of them an event of the registry amounts to for one characteristic.
`step_value` is the refinement: over every event, each characteristic's value
fields change as its operations say and in no other way.

Against this stands the purpose of the component, the last accepted write.
`LastWrite` keeps those bytes and whether the buffers were prepared since,
and `Stores` is the invariant that ties it to the fields. The buffers keep
the write exactly until they are prepared: preparing overwrites a value of
declared size with zeros. And a write of no bytes is kept, but the length
read back for it falls back to the declared size.

So a read does not always serve the last write, and `ServedFaithfully` says
exactly when it does, in terms of the write, the declared size, the
preparations since and the stack that reads.

## Main definitions

* `ValueOp`: What can happen to a value.
* `valueOps`: The operations an event amounts to for one characteristic.
* `LastWrite`: The last accepted write and what happened since.
* `Watched`: The registry with the last write of every characteristic.
* `valueRead`: The characteristic whose value an event reads.
* `ServesLastWrite`: A read answers with the last write.
* `ServedFaithfully`: When it does.

## Theorems

* `step_value`: An event changes values as its operations say.
* `stores_next`: The invariant survives every operation.
* `answer_eq_iff`: One read serves the last write exactly when faithful.
* `reads_serve_last_write_iff`: The same for every read of every run.
* `early_write_lost`: A value written before finalising is not served.
-/

namespace ArduinoBeken

namespace BLE

open EventRun

/-- What can happen to the value of a characteristic. -/
inductive ValueOp
  | store (data : Option (List UInt8))
  | prepare
  deriving Repr

/-- What an operation does to a characteristic. -/
def ValueOp.apply (c : BLECharacteristic) : ValueOp → BLECharacteristic
  | .store data => c.storeValueBytes data
  | .prepare => c.ensureGattValueBuffer

/-- The characteristics whose buffers an event prepares. -/
def prepared (s : Gatt) (e : Event) : List CharId :=
  (s.step e).preparations.drop s.preparations.length

/-- The characteristic a legacy write request stores into, and the bytes. -/
def legacyStore (s : Gatt) (req : WriteReq) : Option (CharId × Option (List UInt8)) :=
  match s.findLegacyBindingByWrite req.prfId req.attIdx with
  | none => none
  | some b =>
    if req.attIdx = b.descAttIdx then none
    else if req.attIdx = b.valueAttIdx then
      some (b.characteristic, req.value.map (·.take req.len))
    else none

/-- The store an event amounts to. -/
def storeOf (s : Gatt) : Event → Option (CharId × Option (List UInt8))
  | .writeValue c (some bytes) => some (c, some bytes)
  | .legacyNotice (.write (some req)) => legacyStore s req
  | .gattDb _ serviceId charId (.peerWrite value len) =>
    (s.findCharacteristic serviceId charId).map fun c => (c, value.map (·.take len))
  | _ => none

/-- The operations an event amounts to for one characteristic. -/
def valueOps (s : Gatt) (e : Event) (c : CharId) : List ValueOp :=
  match storeOf s e with
  | some (d, data) => if d = c then [.store data] else []
  | none => if c ∈ prepared s e then [.prepare] else []

/-! ## Events change values as their operations say -/

/-- The value fields after a list of operations. -/
def applyAll (c : BLECharacteristic) (ops : List ValueOp) : BLECharacteristic :=
  ops.foldl ValueOp.apply c

theorem valueSize_apply (c : BLECharacteristic) (op : ValueOp) :
    (op.apply c).valueSize = c.valueSize := by
  cases op with
  | store data => exact (c.storeValueBytes_frame data).valueSize
  | prepare => exact c.ensureGattValueBuffer_frame.valueSize

theorem valueSize_applyAll (c : BLECharacteristic) (ops : List ValueOp) :
    (applyAll c ops).valueSize = c.valueSize := by
  induction ops generalizing c with
  | nil => rfl
  | cons op ops ih => exact (ih (op.apply c)).trans (valueSize_apply c op)

theorem prepared_of_same {s : Gatt} {e : Event}
    (h : (s.step e).preparations = s.preparations) : prepared s e = [] := by
  rw [prepared, h, List.drop_length]

/-- A store into one characteristic leaves the others alone. -/
theorem setChar_value (s : Gatt) (d c : CharId) (data : Option (List UInt8)) :
    SameValue (applyAll (s.chars c) (if d = c then [.store data] else []))
        ((s.setChar d ((s.chars d).storeValueBytes data)).chars c) ∧
      ((s.setChar d ((s.chars d).storeValueBytes data)).chars c).valueSize =
        (s.chars c).valueSize := by
  by_cases hdc : d = c
  · subst hdc
    rw [if_pos rfl]
    simp only [Gatt.setChar, Function.update_self]
    exact ⟨SameValue.refl _, ((s.chars d).storeValueBytes_frame data).valueSize⟩
  · have hkeep : (s.setChar d ((s.chars d).storeValueBytes data)).chars c = s.chars c :=
      Function.update_of_ne (Ne.symm hdc) _ _
    rw [if_neg hdc, hkeep]
    exact ⟨SameValue.refl _, rfl⟩

/-- An event that stores nothing and prepares nothing. -/
theorem valueOps_eq_nil {s : Gatt} {e : Event} (hs : storeOf s e = none)
    (hp : (s.step e).preparations = s.preparations) (c : CharId) : valueOps s e c = [] := by
  rw [valueOps, hs]
  simp only [prepared_of_same hp, List.not_mem_nil, if_false]

/-- What an event does to the values, when it stores what `storeOf` says and
    does nothing else to the objects. -/
theorem store_step {s : Gatt} {e : Event} (d : CharId) (data : Option (List UInt8))
    (hs : storeOf s e = some (d, data))
    (hchars : (s.step e).chars = (s.setChar d ((s.chars d).storeValueBytes data)).chars)
    (c : CharId) :
    SameValue (applyAll (s.chars c) (valueOps s e c)) ((s.step e).chars c) ∧
      ((s.step e).chars c).valueSize = (s.chars c).valueSize := by
  rw [valueOps, hs, hchars]
  exact setChar_value s d c data

/-- What an event does to the values, when it leaves the objects alone. -/
theorem quiet_step {s : Gatt} {e : Event} (hs : storeOf s e = none)
    (hp : (s.step e).preparations = s.preparations) (hc : (s.step e).chars = s.chars)
    (c : CharId) :
    SameValue (applyAll (s.chars c) (valueOps s e c)) ((s.step e).chars c) ∧
      ((s.step e).chars c).valueSize = (s.chars c).valueSize := by
  rw [valueOps_eq_nil hs hp c, hc]
  exact ⟨SameValue.refl _, rfl⟩

/-- What an event does to the values, when it changes a subscription. -/
theorem subscription_step {s : Gatt} {e : Event} (d : CharId) (b : Bool)
    (hs : storeOf s e = none)
    (hstep : s.step e = s.setChar d ((s.chars d).setNotifyEnabled b)) (c : CharId) :
    SameValue (applyAll (s.chars c) (valueOps s e c)) ((s.step e).chars c) ∧
      ((s.step e).chars c).valueSize = (s.chars c).valueSize := by
  rw [valueOps_eq_nil hs (by rw [hstep]; rfl) c, hstep]
  by_cases hdc : d = c
  · subst hdc
    simp only [Gatt.setChar, Function.update_self]
    exact ⟨⟨rfl, rfl, rfl⟩, rfl⟩
  · have hkeep : (s.setChar d ((s.chars d).setNotifyEnabled b)).chars c = s.chars c :=
      Function.update_of_ne (Ne.symm hdc) _ _
    rw [hkeep]
    exact ⟨SameValue.refl _, rfl⟩

theorem finalize_step (s : Gatt) (services : List (Option SvcId)) (ethermind : Bool)
    (answers : List SdkAnswer) (c : CharId) :
    SameValue (applyAll (s.chars c) (valueOps s (.finalize services ethermind answers) c))
        ((s.step (.finalize services ethermind answers)).chars c) ∧
      ((s.step (.finalize services ethermind answers)).chars c).valueSize =
        (s.chars c).valueSize := by
  have h := finalizes_attempt s services ethermind answers
  rcases h.value with ⟨l, hl, hv⟩
  have hops : valueOps s (.finalize services ethermind answers) c =
      if c ∈ l then [.prepare] else [] := by
    have hlog : prepared s (.finalize services ethermind answers) = l := by
      change (s.attempt services ethermind answers).2.preparations.drop s.preparations.length = l
      rw [hl]
      exact List.drop_left
    simp only [valueOps, storeOf, hlog]
  refine ⟨?_, (h.decl c).valueSize⟩
  have hc := hv c
  rw [hops]
  by_cases hmem : c ∈ l
  · rw [if_pos hmem] at hc ⊢
    exact hc
  · rw [if_neg hmem] at hc ⊢
    exact hc

theorem legacyWrite_step (s : Gatt) (req : WriteReq) (c : CharId) :
    SameValue (applyAll (s.chars c) (valueOps s (.legacyNotice (.write (some req))) c))
        ((s.step (.legacyNotice (.write (some req)))).chars c) ∧
      ((s.step (.legacyNotice (.write (some req)))).chars c).valueSize =
        (s.chars c).valueSize := by
  have hstep : s.step (.legacyNotice (.write (some req))) = s.legacyWrite req := rfl
  have hstore : storeOf s (.legacyNotice (.write (some req))) = legacyStore s req := rfl
  cases hb : s.findLegacyBindingByWrite req.prfId req.attIdx with
  -- No attribute of the service is written: nothing is stored.
  | none =>
      have hsame : s.legacyWrite req = s := by simp only [Gatt.legacyWrite, hb]
      exact quiet_step (by rw [hstore]; simp only [legacyStore, hb])
        (by rw [hstep, hsame]) (by rw [hstep, hsame]) c
  | some b =>
      by_cases hdesc : req.attIdx = b.descAttIdx
      · exact subscription_step b.characteristic (cccdEnables (cccdConfig (req.value.getD [])))
          (by rw [hstore]; simp only [legacyStore, hb, if_pos hdesc])
          (by rw [hstep]; simp only [Gatt.legacyWrite, hb, if_pos hdesc]) c
      · -- A descriptor changes the subscription, and the value attribute the value.
        by_cases hval : req.attIdx = b.valueAttIdx
        · exact store_step b.characteristic (req.value.map (·.take req.len))
            (by rw [hstore]; simp only [legacyStore, hb, if_neg hdesc, if_pos hval])
            (by rw [hstep]; simp only [Gatt.legacyWrite, hb, if_neg hdesc, if_pos hval]
                rfl) c
        · have hsame : s.legacyWrite req = s := by
            simp only [Gatt.legacyWrite, hb, if_neg hdesc, if_neg hval]
          exact quiet_step
            (by rw [hstore]; simp only [legacyStore, hb, if_neg hdesc, if_neg hval])
            (by rw [hstep, hsame]) (by rw [hstep, hsame]) c

theorem gattDb_step (s : Gatt) (connHandle serviceId charId : Nat) (op : GattDbOp) (c : CharId) :
    SameValue (applyAll (s.chars c) (valueOps s (.gattDb connHandle serviceId charId op) c))
        ((s.step (.gattDb connHandle serviceId charId op)).chars c) ∧
      ((s.step (.gattDb connHandle serviceId charId op)).chars c).valueSize =
        (s.chars c).valueSize := by
  have hstep : s.step (.gattDb connHandle serviceId charId op) =
      (s.arduinoBleGattDbHandler connHandle serviceId charId op).1 := rfl
  cases hf : s.findCharacteristic serviceId charId with
  | none =>
      have hsame : (s.arduinoBleGattDbHandler connHandle serviceId charId op).1 = s := by
        simp only [Gatt.arduinoBleGattDbHandler, hf]
      have hnone : storeOf s (.gattDb connHandle serviceId charId op) = none := by
        cases op <;> simp only [storeOf, hf, Option.map_none]
      exact quiet_step hnone (by rw [hstep, hsame]) (by rw [hstep, hsame]) c
  | some d =>
      -- Of the operations only the write of a value stores.
      cases op with
      | peerRead =>
          have hsame : (s.arduinoBleGattDbHandler connHandle serviceId charId .peerRead).1 = s := by
            simp only [Gatt.arduinoBleGattDbHandler, hf]
          exact quiet_step rfl (by rw [hstep, hsame]) (by rw [hstep, hsame]) c
      | cliCnfgWrite value =>
          exact subscription_step d (cccdEnables (cccdConfig value)) rfl
            (by rw [hstep]; simp only [Gatt.arduinoBleGattDbHandler, hf]) c
      | peerWrite value len =>
          exact store_step d (value.map (·.take len))
            (by simp only [storeOf, hf, Option.map_some])
            (by rw [hstep]; simp only [Gatt.arduinoBleGattDbHandler, hf]; rfl) c
      | other =>
          have hsame : (s.arduinoBleGattDbHandler connHandle serviceId charId .other).1 = s := by
            simp only [Gatt.arduinoBleGattDbHandler, hf]
          exact quiet_step rfl (by rw [hstep, hsame]) (by rw [hstep, hsame]) c

/-- Over every event, a characteristic's value fields change as its operations
    say, and its declared size stays. -/
theorem step_value (s : Gatt) (e : Event) (c : CharId) :
    SameValue (applyAll (s.chars c) (valueOps s e c)) ((s.step e).chars c) ∧
      ((s.step e).chars c).valueSize = (s.chars c).valueSize := by
  cases e with
  | addCharacteristic svc d => exact quiet_step rfl rfl rfl c
  | finalize services ethermind answers => exact finalize_step s services ethermind answers c
  -- A write of the sketch's stores its bytes, if there are any.
  | writeValue d data =>
      cases data with
      | none => exact quiet_step rfl rfl rfl c
      | some bytes => exact store_step d (some bytes) rfl rfl c
  | legacyNotice notice =>
      -- Of the notices only a write stores; the others leave the characteristics.
      rcases notice with _ | (_ | connIdx) | _ | _ | (_ | req) | ⟨call, status⟩ | (_ | req) | _
      · exact quiet_step rfl rfl rfl c
      · exact quiet_step rfl rfl rfl c
      · exact quiet_step rfl rfl rfl c
      · exact quiet_step rfl rfl rfl c
      · exact quiet_step rfl rfl rfl c
      · exact quiet_step rfl rfl rfl c
      · exact quiet_step rfl rfl rfl c
      · have h := sdkOnly_completeCreate s call status
        exact quiet_step (s := s) (e := .legacyNotice (.createDb call status)) rfl
          h.preparations h.chars c
      · exact quiet_step rfl rfl rfl c
      · exact legacyWrite_step s req c
      · exact quiet_step rfl rfl rfl c
  | gattEvent event =>
      rcases event with (_ | connHandle) | _ | _
      · exact quiet_step rfl rfl rfl c
      · exact quiet_step rfl rfl rfl c
      · exact quiet_step rfl rfl rfl c
      · exact quiet_step rfl rfl rfl c
  | gattDb connHandle serviceId charId op => exact gattDb_step s connHandle serviceId charId op c

/-! ## The last accepted write -/

/-- The bytes of the last accepted write, and whether the buffers were prepared
    for a database since. -/
structure LastWrite where
  bytes : List UInt8
  prepared : Bool
  deriving Repr, DecidableEq

/-- A write longer than the declared size is turned away. -/
def LastWrite.next (valueSize : Nat) (last : Option LastWrite) : ValueOp → Option LastWrite
  | .store data =>
    if 0 < valueSize ∧ valueSize < (data.getD []).length then last
    else some { bytes := data.getD [], prepared := false }
  | .prepare => last.map fun w => { w with prepared := true }

/-- What the object holds of a write: the buffer and the stored length. -/
def LastWrite.held (valueSize : Nat) (w : LastWrite) : List UInt8 × Nat :=
  if 0 < valueSize then
    if w.prepared ∨ w.bytes = [] then (List.replicate valueSize 0, 0)
    else (w.bytes ++ List.replicate (valueSize - w.bytes.length) 0, w.bytes.length)
  else if w.prepared ∧ w.bytes = [] then ([0], 1)
  else (w.bytes, w.bytes.length)

/-- The object holds what is left of the last accepted write. -/
def Stores (c : BLECharacteristic) (last : Option LastWrite) : Prop :=
  ∀ w ∈ last, (c.value, c.contentLen) = w.held c.valueSize

theorem Stores.congr {c d : BLECharacteristic} {last : Option LastWrite} (h : Stores c last)
    (hv : SameValue c d) (hs : d.valueSize = c.valueSize) : Stores d last := by
  intro w hw
  rw [hv.value, hv.contentLen, hs]
  exact h w hw

theorem stores_store (c : BLECharacteristic) (last : Option LastWrite) (h : Stores c last)
    (data : Option (List UInt8)) :
    Stores (c.storeValueBytes data) (LastWrite.next c.valueSize last (.store data)) := by
  rw [LastWrite.next]
  -- A value that is too long is not stored, and the last one stays.
  by_cases hlong : 0 < c.valueSize ∧ c.valueSize < (data.getD []).length
  · have hne : (data.getD []).isEmpty = false := by
      cases hd : data.getD [] with
      | nil => rw [hd] at hlong; exact absurd hlong.2 (Nat.not_lt_zero _)
      | cons b bs => rfl
    have hkeep : c.storeValueBytes data = c := by
      simp only [BLECharacteristic.storeValueBytes, hne, if_pos hlong, Bool.false_eq_true, if_false]
    rw [if_pos hlong, hkeep]
    exact h
  · rw [if_neg hlong]
    intro w hw
    rw [Option.mem_some_iff] at hw
    subst hw
    rw [(c.storeValueBytes_frame data).valueSize]
    -- An empty value clears the buffer, and any other goes to its front.
    cases hd : data.getD [] with
    | nil =>
        by_cases hs : 0 < c.valueSize
        · simp only [BLECharacteristic.storeValueBytes, hd, LastWrite.held, hs, List.isEmpty_nil,
            if_true, or_true]
        · simp only [BLECharacteristic.storeValueBytes, hd, LastWrite.held, hs, List.isEmpty_nil,
            if_true, if_false, Bool.false_eq_true, false_and, List.length_nil]
    | cons b bs =>
        rw [hd] at hlong
        by_cases hs : 0 < c.valueSize
        · simp only [BLECharacteristic.storeValueBytes, hd, LastWrite.held, List.isEmpty_cons,
            if_neg hlong, if_pos hs, if_false, Bool.false_eq_true, reduceCtorEq, or_self]
        · simp only [BLECharacteristic.storeValueBytes, hd, LastWrite.held, hs, List.isEmpty_cons,
            if_false, Bool.false_eq_true, false_and]

theorem stores_prepare (c : BLECharacteristic) (last : Option LastWrite) (h : Stores c last) :
    Stores c.ensureGattValueBuffer (LastWrite.next c.valueSize last .prepare) := by
  intro w hw
  rcases Option.mem_map.1 hw with ⟨v, hv, rfl⟩
  have hc := h v hv
  rw [c.ensureGattValueBuffer_frame.valueSize]
  -- a fixed buffer is there from the start; one without a size is made now
  by_cases hs : 0 < c.valueSize
  · simp only [BLECharacteristic.ensureGattValueBuffer, LastWrite.held, hs, if_true, true_or]
  · have hheld : v.held c.valueSize =
        if v.prepared ∧ v.bytes = [] then ([0], 1) else (v.bytes, v.bytes.length) := by
      simp only [LastWrite.held, if_neg hs]
    rw [hheld] at hc
    by_cases hb : v.bytes = []
    · -- Nothing was written: the buffer is empty, or already holds one zero.
      by_cases hp : v.prepared
      · rw [if_pos ⟨hp, hb⟩, Prod.mk.injEq] at hc
        simp only [BLECharacteristic.ensureGattValueBuffer, LastWrite.held, hs, if_false, hc.1,
          hc.2, hb, List.isEmpty_cons, Bool.false_eq_true, true_and, if_true]
      · rw [if_neg (by tauto), Prod.mk.injEq, hb] at hc
        simp only [BLECharacteristic.ensureGattValueBuffer, LastWrite.held, hs, if_false, hc.1,
          hb, List.isEmpty_nil, true_and, if_true]
    -- something was written, so the buffer is there
    · rw [if_neg (by tauto), Prod.mk.injEq] at hc
      have hne : c.value.isEmpty = false := by
        rw [hc.1, List.isEmpty_eq_false_iff]
        exact hb
      simp only [BLECharacteristic.ensureGattValueBuffer, LastWrite.held, hs, hne, if_false, hb,
        Bool.false_eq_true, and_false]
      rw [hc.1, hc.2]

/-- Every operation keeps what the object holds in step with the last accepted
    write. -/
theorem stores_next (c : BLECharacteristic) (last : Option LastWrite) (h : Stores c last)
    (op : ValueOp) : Stores (op.apply c) (LastWrite.next c.valueSize last op) := by
  cases op with
  | store data => exact stores_store c last h data
  | prepare => exact stores_prepare c last h

theorem stores_applyAll (c : BLECharacteristic) (ops : List ValueOp) (last : Option LastWrite)
    (h : Stores c last) :
    Stores (applyAll c ops) (ops.foldl (LastWrite.next c.valueSize) last) := by
  induction ops generalizing c last with
  | nil => exact h
  | cons op ops ih =>
      have hnext := ih (op.apply c) (LastWrite.next c.valueSize last op) (stores_next c last h op)
      rw [valueSize_apply] at hnext
      exact hnext

/-! ## Runs -/

/-- The registry, with the last accepted write of every characteristic. -/
structure Watched where
  gatt : Gatt
  last : CharId → Option LastWrite

namespace Watched

/-- Before anything was written. -/
def start (s : Gatt) : Watched := { gatt := s, last := fun _ => none }

/-- The registry behind an event, with the last write of each characteristic. -/
def step (w : Watched) (e : Event) : Watched :=
  { gatt := w.gatt.step e
    last := fun c =>
      (valueOps w.gatt e c).foldl (LastWrite.next (w.gatt.chars c).valueSize) (w.last c) }

/-- Every object holds what is left of its last accepted write. -/
def Holds (w : Watched) : Prop := ∀ c, Stores (w.gatt.chars c) (w.last c)

theorem holds_start (s : Gatt) : (start s).Holds := by
  intro c w hw
  exact absurd hw (Option.not_mem_none w)

theorem holds_step (w : Watched) (e : Event) (h : w.Holds) : (w.step e).Holds := by
  intro c
  rcases step_value w.gatt e c with ⟨hvalue, hsize⟩
  have hops := stores_applyAll _ (valueOps w.gatt e c) _ (h c)
  refine hops.congr hvalue (hsize.trans ?_)
  exact (valueSize_applyAll _ _).symm

end Watched

/-! ## Reads -/

/-- The stack that asks for a value. The legacy stack gets no answer when the
    value pointer is null or the length is zero. -/
inductive Route
  | legacy
  | ethermind
  deriving Repr, DecidableEq

/-- The characteristic whose value an event reads. -/
def valueRead (s : Gatt) : Event → Option (CharId × Route)
  | .legacyNotice (.read (some (_, prfId, attIdx))) =>
    match s.findLegacyBindingByWrite prfId attIdx with
    | none => none
    | some b => if attIdx = b.descAttIdx then none else some (b.characteristic, .legacy)
  | .gattDb _ serviceId charId .peerRead =>
    (s.findCharacteristic serviceId charId).map fun c => (c, .ethermind)
  | _ => none

/-- The bytes an object answers with: one answer for each call made. -/
def answers (c : BLECharacteristic) : Route → List (Option (List UInt8))
  | .legacy => if c.value = [] ∨ c.gattReadDataLen = 0 then []
    else [bytesAt c.value c.gattReadDataLen]
  | .ethermind => [bytesAt c.value c.gattReadDataLen]

/-- Reading a value makes the calls that `answers` says. -/
theorem calls_valueRead {s : Gatt} {e : Event} {c : CharId} {route : Route}
    (h : valueRead s e = some (c, route)) :
    (s.calls e).map StackCall.bytes = answers (s.chars c) route := by
  unfold valueRead at h
  -- The two routes of a read: by the attribute index, or by the characteristic.
  split at h
  · rename_i connIdx prfId attIdx
    split at h
    · exact absurd h (Option.some_ne_none _).symm
    rename_i b hb
    split_ifs at h with hdesc
    obtain ⟨rfl, rfl⟩ := Prod.mk.inj (Option.some.inj h)
    change (s.legacyRead connIdx prfId attIdx).map StackCall.bytes = _
    simp only [Gatt.legacyRead, hb, if_neg hdesc, BLECharacteristic.gattReadDataPtr, answers]
    -- An empty value is not answered by the first route.
    cases hv : (s.chars b.characteristic).value with
    | nil => simp only [List.isEmpty_nil, if_true, List.map_nil, true_or]
    | cons x xs =>
        simp only [List.isEmpty_cons, Bool.false_eq_true, if_false, reduceCtorEq, false_or]
        by_cases hlen : (s.chars b.characteristic).gattReadDataLen = 0
        · rw [if_neg (by omega), if_pos hlen, List.map_nil]
        · rw [if_pos (by omega), if_neg hlen]
          rfl
  · rename_i connHandle serviceId charId
    rcases Option.map_eq_some_iff.1 h with ⟨d, hd, heq⟩
    -- The second route answers whatever there is.
    obtain ⟨rfl, rfl⟩ := Prod.mk.inj heq
    change ((s.arduinoBleGattDbHandler connHandle serviceId charId .peerRead).2).map _ = _
    simp only [Gatt.arduinoBleGattDbHandler, hd, List.map_cons, List.map_nil, StackCall.bytes,
      answers, BLECharacteristic.gattReadDataPtr]
    cases hv : (s.chars d).value with
    | nil => rfl
    | cons x xs => rfl
  · exact absurd h (Option.some_ne_none _).symm

/-- When a read through a route serves a write: an empty write is served where
    the length does not fall back to something else, and a write of some bytes
    as long as its length fits sixteen bits, unless a declared size was
    prepared over it. -/
def Faithful (route : Route) (valueSize : Nat) (w : LastWrite) : Prop :=
  if w.bytes = [] then
    route = .ethermind ∧ if 0 < valueSize then u16 valueSize = 0 else w.prepared = false
  else if 0 < valueSize ∧ w.prepared then w.bytes = List.replicate (u16 valueSize) 0
  else w.bytes.length < 65536

instance (route : Route) (valueSize : Nat) (w : LastWrite) :
    Decidable (Faithful route valueSize w) :=
  inferInstanceAs (Decidable (if w.bytes = [] then
    route = .ethermind ∧ if 0 < valueSize then u16 valueSize = 0 else w.prepared = false
  else if 0 < valueSize ∧ w.prepared then w.bytes = List.replicate (u16 valueSize) 0
  else w.bytes.length < 65536))

/-- A prepared value of declared size answers with zeros. -/
theorem answers_zeros {c : BLECharacteristic} (hs : 0 < c.valueSize)
    (h : (c.value, c.contentLen) = (List.replicate c.valueSize 0, 0)) (route : Route)
    (bytes : List UInt8) :
    answers c route = [some bytes] ↔
      bytes = List.replicate (u16 c.valueSize) 0 ∧ (route = .ethermind ∨ u16 c.valueSize ≠ 0) := by
  obtain ⟨hv, hl⟩ := Prod.mk.inj h
  -- The length that is announced is that of the buffer, in 16 bits.
  have hlen : c.gattReadDataLen = u16 c.valueSize := by
    simp only [BLECharacteristic.gattReadDataLen, hl, lt_irrefl, if_false, if_pos hs]
  have hle : u16 c.valueSize ≤ c.valueSize := Nat.mod_le _ _
  have hbytes : bytesAt c.value c.gattReadDataLen = some (List.replicate (u16 c.valueSize) 0) := by
    rw [bytesAt, hv, hlen, List.length_replicate, if_pos hle, List.take_replicate,
      Nat.min_eq_left hle]
  have hne : c.value ≠ [] := by
    rw [hv, ne_eq, List.replicate_eq_nil_iff]
    omega
  -- The first route answers nothing of the length 0.
  cases route with
  | ethermind =>
      simp only [answers, hbytes, List.cons.injEq, Option.some.injEq, and_true, true_or]
      exact eq_comm
  | legacy =>
      rw [answers, hbytes, hlen]
      by_cases hz : u16 c.valueSize = 0
      · simp only [hz, or_true, if_true, List.nil_eq, reduceCtorEq, ne_eq, not_true_eq_false,
          or_self, and_false]
      · rw [if_neg (not_or.2 ⟨hne, hz⟩)]
        simp only [List.cons.injEq, Option.some.injEq, and_true, reduceCtorEq, false_or, ne_eq,
          hz, not_false_eq_true]
        exact eq_comm

/-- A value still in the buffer answers with as many of its bytes as sixteen
    bits count. -/
theorem answers_stored {c : BLECharacteristic} (bytes rest : List UInt8) (hne : bytes ≠ [])
    (h : (c.value, c.contentLen) = (bytes ++ rest, bytes.length)) (route : Route) :
    answers c route = [some bytes] ↔ bytes.length < 65536 := by
  obtain ⟨hv, hl⟩ := Prod.mk.inj h
  have hpos : 0 < bytes.length := List.length_pos_iff.2 hne
  -- The length that is announced is that of the value, in 16 bits.
  have hlen : c.gattReadDataLen = u16 bytes.length := by
    simp only [BLECharacteristic.gattReadDataLen, hl, if_pos hpos]
  have hle : u16 bytes.length ≤ bytes.length := Nat.mod_le _ _
  have hbytes : bytesAt c.value c.gattReadDataLen = some (bytes.take (u16 bytes.length)) := by
    rw [bytesAt, hv, hlen, List.length_append, if_pos (by omega), List.take_append_of_le_length hle]
  have htake : bytes.take (u16 bytes.length) = bytes ↔ bytes.length < 65536 := by
    rw [List.take_eq_self_iff, u16]
    omega
  have hvne : c.value ≠ [] := by
    rw [hv]
    exact List.append_ne_nil_of_left_ne_nil hne rest
  -- The bytes are those of the value up to the announced length.
  cases route with
  | ethermind =>
      simp only [answers, hbytes, List.cons.injEq, Option.some.injEq, and_true]
      exact htake
  | legacy =>
      rw [answers, hbytes, hlen]
      by_cases hz : u16 bytes.length = 0
      · rw [if_pos (Or.inr hz)]
        rw [u16] at hz
        simp only [List.nil_eq, reduceCtorEq, false_iff]
        omega
      · rw [if_neg (not_or.2 ⟨hvne, hz⟩)]
        simp only [List.cons.injEq, Option.some.injEq, and_true]
        exact htake

/-- One read serves the last write exactly when it is faithful. -/
theorem answer_eq_iff {c : BLECharacteristic} {w : LastWrite}
    (h : (c.value, c.contentLen) = w.held c.valueSize) (route : Route) :
    answers c route = [some w.bytes] ↔ Faithful route c.valueSize w := by
  -- With a buffer of a fixed size, an empty value reads as zeros.
  by_cases hs : 0 < c.valueSize
  · by_cases hz : w.prepared = true ∨ w.bytes = []
    · rw [LastWrite.held, if_pos hs, if_pos hz] at h
      rw [answers_zeros hs h, Faithful]
      by_cases hb : w.bytes = []
      · rw [if_pos hb, if_pos hs, hb, eq_comm, List.replicate_eq_nil_iff]
        tauto
      · rw [if_neg hb, if_pos ⟨hs, hz.resolve_right hb⟩]
        refine ⟨fun hw => hw.1, fun hw => ⟨hw, Or.inr fun hu => hb ?_⟩⟩
        rw [hw, hu, List.replicate_zero]
    · rw [LastWrite.held, if_pos hs, if_neg hz] at h
      -- otherwise the value is what was written
      rw [answers_stored _ _ (fun hb => hz (Or.inr hb)) h, Faithful,
        if_neg (fun hb => hz (Or.inr hb)), if_neg (fun hp => hz (Or.inl hp.2))]
  · -- Without one, the empty value is the case apart.
    by_cases hb : w.bytes = []
    · rw [LastWrite.held, if_neg hs, hb] at h
      rw [Faithful, if_pos hb, if_neg hs, hb]
      by_cases hp : w.prepared = true
      · rw [if_pos ⟨hp, rfl⟩] at h
        obtain ⟨hv, hl⟩ := Prod.mk.inj h
        have hlen : c.gattReadDataLen = 1 := by
          simp only [BLECharacteristic.gattReadDataLen, hl, Nat.one_pos, if_true, u16]
        -- both routes answer the one zero byte, or nothing
        cases route with
        | ethermind =>
            simp only [answers, hv, hlen, hp, bytesAt]
            decide
        | legacy =>
            simp only [answers, hv, hlen, hp, bytesAt]
            decide
      · rw [if_neg (fun hc => hp hc.1)] at h
        obtain ⟨hv, hl⟩ := Prod.mk.inj h
        have hlen : c.gattReadDataLen = 0 := by
          simp only [BLECharacteristic.gattReadDataLen, hl, hv, List.length_nil, lt_irrefl,
            if_false, if_neg hs, u16]
        have hp' : w.prepared = false := Bool.not_eq_true _ ▸ hp
        cases route with
        | ethermind =>
            simp only [answers, hv, hlen, hp', bytesAt]
            decide
        | legacy =>
            simp only [answers, hv, hlen, hp']
            decide
    · rw [LastWrite.held, if_neg hs, if_neg (fun hc => hb hc.2)] at h
      rw [answers_stored w.bytes [] hb (by rw [List.append_nil]; exact h), Faithful, if_neg hb,
        if_neg (fun hc => hs hc.1)]

namespace Watched

/-- A read is answered with the bytes of the last accepted write, once and
    whole. -/
def ServesLastWrite (w : Watched) (e : Event) : Prop :=
  ∀ c route, valueRead w.gatt e = some (c, route) → ∀ last ∈ w.last c,
    (w.gatt.calls e).map StackCall.bytes = [some last.bytes]

/-- The last write of whatever is read is faithful to the route of the read. -/
def ServedFaithfully (w : Watched) (e : Event) : Prop :=
  ∀ c route, valueRead w.gatt e = some (c, route) → ∀ last ∈ w.last c,
    Faithful route (w.gatt.chars c).valueSize last

/-- The reads of a run serve the last accepted write exactly when each of them
    is faithful. -/
theorem reads_serve_last_write_iff (s : Gatt) (es : List Event) :
    Always step ServesLastWrite (start s) es ↔ Always step ServedFaithfully (start s) es := by
  refine always_iff_of_inv holds_step (fun w e hw => ?_) (holds_start s) es
  have hread : ∀ c route, valueRead w.gatt e = some (c, route) → ∀ last ∈ w.last c,
      ((w.gatt.calls e).map StackCall.bytes = [some last.bytes] ↔
        Faithful route (w.gatt.chars c).valueSize last) := by
    intro c route hr last hlast
    rw [calls_valueRead hr]
    exact answer_eq_iff (hw c last hlast) route
  constructor
  · intro h c route hr last hlast
    exact (hread c route hr last hlast).1 (h c route hr last hlast)
  · intro h c route hr last hlast
    exact (hread c route hr last hlast).2 (h c route hr last hlast)

/-- The level is written before the database is finalised, and a peer reads
    it afterwards. -/
def earlyWrite : List Event :=
  [.writeValue 0 (some [42]), batteryCreated, .legacyNotice (.read (some (0, 11, 2)))]

/-- The level written before finalising is not served: the peer reads zero. -/
theorem early_write_lost : ¬ Always step ServesLastWrite (start battery) earlyWrite := by
  intro h
  have hread := h.2.2.1 0 .legacy (by decide) { bytes := [42], prepared := true } (by decide)
  exact absurd hread (by decide)

end Watched

end BLE

end ArduinoBeken
