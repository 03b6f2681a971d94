import ArduinoBeken.BLE.ValueHistory
import ArduinoBeken.BLE.Subscription
import ArduinoBeken.BLE.Finalize

/-!
# The Buffers of a Value

Four routes write the buffers of a value, and three read them with a length of their own.
A value of declared size is either not there yet, in both buffers, or its bytes padded with
zeros, the same in both (`Shaped`), and every route leaves it so. All that readers rely on
follows from that (`law_of_shaped`).

A read through the other stack hands over a null pointer and a length. The length is zero
then, as a characteristic that a peer can reach was prepared when it was registered
(`Present`).

## Main definitions

* `Shaped`: What a value looks like.
* `BufferLaw`: What readers rely on.
* `Present`: What is known of a registered characteristic.
* `InBounds`: No call hands bytes beyond a buffer to a peer.

## Theorems

* `shaped_apply`: Every route keeps the shape.
* `law_of_shaped`: What the shape is good for.
* `flags_closed`: A pass flags what it has prepared.
* `buffersInv_step`: What holds in every reachable state.
* `value_buffers_kept`: The law, and no read beyond a buffer, in every run.
-/

namespace ArduinoBeken

namespace BLE

open EventRun

/-- Bytes, filled up to the declared size with zeros. -/
def BLECharacteristic.padded (c : BLECharacteristic) (bytes : List UInt8) : List UInt8 :=
  bytes ++ List.replicate (c.valueSize - bytes.length) 0

/-- A value of declared size is not there or padded, in both buffers. One without keeps
    its length. -/
structure Shaped (c : BLECharacteristic) : Prop where
  sized : 0 < c.valueSize →
    (c.value = [] ∧ c.attBuffer = [] ∧ c.contentLen = 0) ∨
      ∃ bytes, bytes.length ≤ c.valueSize ∧ c.value = c.padded bytes ∧
        c.attBuffer = c.padded bytes ∧ c.contentLen = bytes.length
  unsized : c.valueSize = 0 → c.contentLen = c.value.length

/-- What the readers of the buffers rely on. -/
structure BufferLaw (c : BLECharacteristic) : Prop where
  lengths : 0 < c.valueSize →
    (c.value.length = 0 ∨ c.value.length = c.valueSize) ∧
      (c.attBuffer.length = 0 ∨ c.attBuffer.length = c.valueSize)
  same : 0 < c.valueSize → c.value ≠ [] → c.attBuffer ≠ [] → c.attBuffer = c.value
  contentLen : 0 < c.valueSize → c.contentLen ≤ c.valueSize
  beyond : 0 < c.valueSize →
    (∀ b ∈ c.value.drop c.contentLen, b = 0) ∧ ∀ b ∈ c.attBuffer.drop c.contentLen, b = 0
  readable : ∀ buffer ∈ c.gattReadDataPtr, c.gattReadDataLen ≤ buffer.length

theorem u16_le (n : Nat) : u16 n ≤ n := Nat.mod_le _ _

section Shapes

variable (c : BLECharacteristic)

/-- A padded value has the characteristic's size. -/
theorem length_padded (bytes : List UInt8) (h : bytes.length ≤ c.valueSize) :
    (c.padded bytes).length = c.valueSize := by
  rw [BLECharacteristic.padded, List.length_append, List.length_replicate]
  omega

theorem padded_nil : c.padded [] = List.replicate c.valueSize 0 := rfl

/-- Behind the bytes, a padded value is zero. -/
theorem drop_padded (bytes : List UInt8) :
    ∀ b ∈ (c.padded bytes).drop bytes.length, b = 0 := by
  intro b hb
  rw [BLECharacteristic.padded, List.drop_left] at hb
  exact List.eq_of_mem_replicate hb

/-- The buffer to be read holds as many bytes as are announced. -/
theorem length_gattReadData (h : Shaped c) (buffer : List UInt8)
    (hbuffer : buffer ∈ c.gattReadDataPtr) : c.gattReadDataLen ≤ buffer.length := by
  have hvalue : c.value = buffer ∧ c.value ≠ [] := by
    unfold BLECharacteristic.gattReadDataPtr at hbuffer
    split_ifs at hbuffer with hempty
    · exact absurd hbuffer (Option.some_ne_none buffer).symm
    · exact ⟨Option.some.inj hbuffer, fun hnil => hempty (List.isEmpty_iff.2 hnil)⟩
  rw [← hvalue.1]
  unfold BLECharacteristic.gattReadDataLen
  by_cases hsize : 0 < c.valueSize
  · rcases h.sized hsize with ⟨hnil, -, -⟩ | ⟨bytes, hle, hval, -, hlen⟩
    · exact absurd hnil hvalue.2
    · rw [hval, length_padded c bytes hle, if_pos hsize]
      split_ifs
      · exact (u16_le _).trans (hlen ▸ hle)
      · exact u16_le _
  · rw [if_neg hsize, h.unsized (Nat.eq_zero_of_not_pos hsize)]
    split_ifs <;> exact u16_le _

/-- What the shape is good for. -/
theorem law_of_shaped (h : Shaped c) : BufferLaw c := by
  refine ⟨fun hsize => ?_, fun hsize hval hatt => ?_, fun hsize => ?_, fun hsize => ?_,
    length_gattReadData c h⟩
  · rcases h.sized hsize with ⟨hval, hatt, -⟩ | ⟨bytes, hle, hval, hatt, -⟩
    · exact ⟨Or.inl (List.length_eq_zero_iff.2 hval), Or.inl (List.length_eq_zero_iff.2 hatt)⟩
    · rw [hval, hatt]
      exact ⟨Or.inr (length_padded c bytes hle), Or.inr (length_padded c bytes hle)⟩
  · rcases h.sized hsize with ⟨hnil, -, -⟩ | ⟨bytes, -, hv, ha, -⟩
    · exact absurd hnil hval
    · rw [hv, ha]
  · rcases h.sized hsize with ⟨-, -, hlen⟩ | ⟨bytes, hle, -, -, hlen⟩
    · rw [hlen]
      exact Nat.zero_le _
    · rw [hlen]
      exact hle
  · rcases h.sized hsize with ⟨hval, hatt, -⟩ | ⟨bytes, -, hval, hatt, hlen⟩
    · rw [hval, hatt, List.drop_nil]
      exact ⟨fun b hb => absurd hb List.not_mem_nil, fun b hb => absurd hb List.not_mem_nil⟩
    · rw [hval, hatt, hlen]
      exact ⟨drop_padded c bytes, drop_padded c bytes⟩

/-! ## The routes -/

/-- A new characteristic has the shape. -/
theorem shaped_new (uuid : List Char) (properties : Nat) (valueSize : Int)
    (fixedLength : Bool) : Shaped (.new uuid properties valueSize fixedLength) :=
  ⟨fun _ => Or.inl ⟨rfl, rfl, rfl⟩, fun _ => rfl⟩

/-- The shape is one of the value fields and of the declared size. -/
theorem Shaped.congr {c d : BLECharacteristic} (h : Shaped c) (hs : SameValue c d)
    (hsize : d.valueSize = c.valueSize) : Shaped d := by
  refine ⟨fun hpos => ?_, fun h0 => ?_⟩
  -- The padding depends on the declared size alone.
  · have hpad : ∀ bytes, d.padded bytes = c.padded bytes := fun bytes => by
      unfold BLECharacteristic.padded
      rw [hsize]
    simp only [hpad, hs.value, hs.attBuffer, hs.contentLen, hsize]
    exact h.sized (hsize ▸ hpos)
  · rw [hs.value, hs.contentLen]
    exact h.unsized (hsize ▸ h0)

/-- Storing a value keeps the shape, whatever its length. -/
theorem shaped_store (h : Shaped c) (data : Option (List UInt8)) :
    Shaped (c.storeValueBytes data) := by
  unfold BLECharacteristic.storeValueBytes
  simp only
  by_cases hsize : 0 < c.valueSize
  · simp only [if_pos hsize]
    split_ifs with hempty hbig
    · -- no bytes: zeros throughout
      exact ⟨fun _ => Or.inr ⟨[], Nat.zero_le _, rfl, rfl, rfl⟩,
        fun h0 => absurd hsize (h0 ▸ Nat.lt_irrefl 0)⟩
    · exact h
    -- Not too many, since those were turned away before.
    · have hle : (data.getD []).length ≤ c.valueSize :=
        Nat.le_of_not_lt fun hlt => hbig ⟨hsize, hlt⟩
      exact ⟨fun _ => Or.inr ⟨data.getD [], hle, rfl, rfl, rfl⟩,
        fun h0 => absurd hsize (h0 ▸ Nat.lt_irrefl 0)⟩
  · simp only [if_neg hsize]
    split_ifs with hempty hbig
    · exact ⟨fun hpos => absurd hpos hsize, fun _ => rfl⟩
    · exact h
    · exact ⟨fun hpos => absurd hpos hsize, fun _ => rfl⟩

/-- Making the value buffer keeps the shape. -/
theorem shaped_prepare (h : Shaped c) : Shaped c.ensureGattValueBuffer := by
  unfold BLECharacteristic.ensureGattValueBuffer
  split_ifs with hsize hempty
  · exact ⟨fun _ => Or.inr ⟨[], Nat.zero_le _, rfl, rfl, rfl⟩,
      fun h0 => absurd hsize (h0 ▸ Nat.lt_irrefl 0)⟩
  · exact ⟨fun hpos => absurd hpos hsize, fun _ => rfl⟩
  · exact h

/-- Every operation on a value keeps the shape. -/
theorem shaped_apply (h : Shaped c) (op : ValueOp) : Shaped (op.apply c) := by
  cases op with
  | store data => exact shaped_store c h data
  | prepare => exact shaped_prepare c h

/-- A value of declared size, once there, stays. -/
theorem value_ne_nil_apply (hsize : 0 < c.valueSize) (h : c.value ≠ []) (op : ValueOp) :
    (op.apply c).value ≠ [] := by
  have hzeros : List.replicate c.valueSize (0 : UInt8) ≠ [] := fun hnil =>
    absurd (List.replicate_eq_nil_iff _ |>.1 hnil) (Nat.ne_of_gt hsize)
  cases op with
  | store data =>
      simp only [ValueOp.apply, BLECharacteristic.storeValueBytes, if_pos hsize]
      split_ifs with hempty hbig
      · exact hzeros
      · exact h
      · exact fun hnil => hempty (List.isEmpty_iff.2 (List.append_eq_nil_iff.1 hnil).1)
  | prepare =>
      simp only [ValueOp.apply, BLECharacteristic.ensureGattValueBuffer, if_pos hsize]
      exact hzeros

/-- Operations on a value keep the shape. -/
theorem shaped_applyAll (h : Shaped c) (ops : List ValueOp) : Shaped (applyAll c ops) := by
  induction ops generalizing c with
  | nil => exact h
  | cons op ops ih => exact ih (op.apply c) (shaped_apply c h op)

/-- A value of a characteristic with room never becomes empty. -/
theorem value_ne_nil_applyAll (hsize : 0 < c.valueSize) (h : c.value ≠ [])
    (ops : List ValueOp) : (applyAll c ops).value ≠ [] := by
  induction ops generalizing c with
  | nil => exact h
  | cons op ops ih =>
      exact ih (op.apply c) ((valueSize_apply c op).symm ▸ hsize) (value_ne_nil_apply c hsize h op)

end Shapes

/-! ## Registered characteristics -/

/-- What a pass flags, it has prepared. -/
structure Flags (s s' : Gatt) : Prop where
  log : ∃ l, s'.preparations = s.preparations ++ l
  flagged : ∀ c, (s'.chars c).gattRegistered = true →
    (s.chars c).gattRegistered = true ∨ c ∈ s'.preparations

/-- A step that flags nothing keeps what is flagged. -/
theorem flags_of_eq {s s' : Gatt}
    (hflags : ∀ c, (s'.chars c).gattRegistered = (s.chars c).gattRegistered)
    (l : List CharId) (hlog : s'.preparations = s.preparations ++ l) : Flags s s' :=
  ⟨⟨l, hlog⟩, fun c hc => Or.inl ((hflags c).symm.trans hc)⟩

/-- The relation holds of every step of a finalisation. -/
theorem flags_closed : Closed Flags where
  refl s := flags_of_eq (fun _ => rfl) [] (List.append_nil _).symm
  trans := by
    -- what the second step prepares is added to what the first has
    rintro s s' s'' ⟨⟨l1, hl1⟩, hf1⟩ ⟨⟨l2, hl2⟩, hf2⟩
    refine ⟨⟨l1 ++ l2, by rw [hl2, hl1, List.append_assoc]⟩, fun c hc => ?_⟩
    rcases hf2 c hc with hreg | hmem
    · refine (hf1 c hreg).imp_right fun hmem => ?_
      rw [hl2]
      exact List.mem_append_left l2 hmem
    · exact Or.inr hmem
  quiet hchars _ _ hlog _ :=
    flags_of_eq (fun c => by rw [hchars]) [] (hlog.trans (List.append_nil _).symm)
  setService s svc sv _ _ := flags_of_eq (fun _ => rfl) [] (List.append_nil _).symm
  prepare s c := by
    refine flags_of_eq (fun d => ?_) [c] rfl
    -- preparing a buffer leaves the flag alone
    by_cases hdc : d = c
    · subst hdc
      simp only [Gatt.prepareBuffer, Gatt.setChar, Function.update_self]
      exact (s.chars d).ensureGattValueBuffer_frame.gattRegistered
    · simp only [Gatt.prepareBuffer, Gatt.setChar, Function.update_of_ne hdc]
  flag s c sh ch hc := by
    -- Listing comes after the flag and touches neither the objects nor the log.
    have hlist : ∀ t : Gatt, (t.listCharacteristic c sh ch).chars = t.chars ∧
        (t.listCharacteristic c sh ch).preparations = t.preparations := by
      intro t
      unfold Gatt.listCharacteristic
      split_ifs <;> exact ⟨rfl, rfl⟩
    refine ⟨⟨[], (hlist _).2.trans (List.append_nil _).symm⟩, fun d hd => ?_⟩
    unfold Gatt.flagCharacteristic at hd ⊢
    rw [(hlist _).1] at hd
    rw [(hlist _).2]
    by_cases hdc : d = c
    · subst hdc
      exact Or.inr hc
    · simp only [Gatt.setChar, Function.update_of_ne hdc] at hd
      exact Or.inl hd

/-- What was prepared has a value, if one is declared, and what is registered was
    prepared. -/
structure Present (s : Gatt) (c : CharId) : Prop where
  registered : (s.chars c).gattRegistered = true → c ∈ s.preparations
  present : c ∈ s.preparations → 0 < (s.chars c).valueSize → (s.chars c).value ≠ []

/-- A write by the peer prepares no buffer. -/
theorem legacyWrite_preparations (s : Gatt) (req : WriteReq) :
    (s.legacyWrite req).preparations = s.preparations := by
  unfold Gatt.legacyWrite
  split
  · rfl
  · simp only
    split_ifs <;> rfl

/-- The Ethermind handler prepares no buffer. -/
theorem gattDb_preparations (s : Gatt) (connHandle serviceId charId : Nat) (op : GattDbOp) :
    (s.arduinoBleGattDbHandler connHandle serviceId charId op).1.preparations =
      s.preparations := by
  unfold Gatt.arduinoBleGattDbHandler
  split
  · rfl
  · cases op <;> rfl

/-- Only an attempt prepares. -/
theorem preparations_step (s : Gatt) (e : Event)
    (he : ∀ services ethermind answers, e ≠ .finalize services ethermind answers) :
    (s.step e).preparations = s.preparations := by
  cases e with
  | finalize services ethermind answers => exact absurd rfl (he _ _ _)
  | addCharacteristic svc c => rfl
  | writeValue c data => cases data <;> rfl
  | legacyNotice notice =>
      rcases notice with _ | (_ | connIdx) | _ | _ | (_ | req) | ⟨call, status⟩ | (_ | req) | _
      case createDb => exact (sdkOnly_completeCreate s call status).preparations
      case write.some => exact legacyWrite_preparations s req
      all_goals rfl
  | gattEvent event => rcases event with (_ | connHandle) | _ | _ <;> rfl
  | gattDb connHandle serviceId charId op =>
      exact gattDb_preparations s connHandle serviceId charId op

/-- Only an attempt flags. -/
theorem flags_step (s : Gatt) (e : Event) : Flags s (s.step e) := by
  by_cases he : ∃ services ethermind answers, e = .finalize services ethermind answers
  · rcases he with ⟨services, ethermind, answers, rfl⟩
    have h := flags_closed.finalizeDatabase (s.withAnswers answers) services ethermind
    exact ⟨h.log, h.flagged⟩
  · have hkeeps := step_keeps s e fun _ _ _ h => absurd ⟨_, _, _, h⟩ he
    refine flags_of_eq (fun c => (hkeeps.flags c).1) [] ?_
    rw [preparations_step s e fun _ _ _ h => he ⟨_, _, _, h⟩, List.append_nil]

/-! ## Every reachable state -/

/-- The invariant: the buffers have the lengths that the reads go by. -/
structure BuffersInv (s : Gatt) : Prop where
  shaped : ∀ c, Shaped (s.chars c)
  cccd : ∀ c, (s.chars c).cccdValue.length = 2
  present : ∀ c, Present s c

/-- What was prepared has a value behind every event. -/
theorem present_step (s : Gatt) (e : Event) (c : CharId) (h : BuffersInv s)
    (hsize : 0 < (s.chars c).valueSize) (hmem : c ∈ (s.step e).preparations) :
    ((s.step e).chars c).value ≠ [] := by
  rw [(step_value s e c).1.value]
  by_cases hold : c ∈ s.preparations
  · exact value_ne_nil_applyAll _ hsize ((h.present c).present hold hsize) _
  · -- prepared by this event, which is an attempt
    rcases (flags_step s e).log with ⟨l, hl⟩
    have hnew : c ∈ prepared s e := by
      rw [hl] at hmem
      rw [prepared, hl, List.drop_left]
      exact (List.mem_append.1 hmem).resolve_left hold
    -- An attempt does nothing else to a value, and a prepared one is as long as declared.
    have hops : valueOps s e c = [.prepare] := by
      by_cases he : ∃ services ethermind answers, e = .finalize services ethermind answers
      · rcases he with ⟨services, ethermind, answers, rfl⟩
        exact if_pos hnew
      · rw [preparations_step s e fun _ _ _ h => he ⟨_, _, _, h⟩] at hmem
        exact absurd hmem hold
    rw [hops]
    simp only [applyAll, List.foldl_cons, List.foldl_nil, ValueOp.apply,
      BLECharacteristic.ensureGattValueBuffer, if_pos hsize]
    exact fun hnil => absurd (List.replicate_eq_nil_iff _ |>.1 hnil) (Nat.ne_of_gt hsize)

/-- Every event keeps the buffers' invariant. -/
theorem buffersInv_step (s : Gatt) (e : Event) (h : BuffersInv s) : BuffersInv (s.step e) := by
  refine ⟨fun c => ?_, fun c => ?_, fun c => ⟨fun hreg => ?_, fun hmem hsize => ?_⟩⟩
  · have hstep := step_value s e c
    refine (shaped_applyAll _ (h.shaped c) (valueOps s e c)).congr hstep.1 ?_
    rw [hstep.2, valueSize_applyAll]
  · have hsub := (step_subscription s e c).cccdValue
    rw [hsub]
    unfold subscribed
    split
    · split_ifs
      · exact h.cccd c
      · exact h.cccd c
    · exact h.cccd c
  · rcases flags_step s e with ⟨⟨l, hl⟩, hflagged⟩
    rcases hflagged c hreg with hold | hnew
    · rw [hl]
      exact List.mem_append_left l ((h.present c).registered hold)
    · exact hnew
  · rw [(step_value s e c).2] at hsize
    exact present_step s e c h hsize hmem

/-! ## Reads and notifications -/

/-- No call hands bytes beyond a buffer to a peer. -/
def InBounds (s : Gatt) (e : Event) : Prop :=
  ∀ call ∈ s.calls e, call.bytes ≠ none

/-- Bytes up to the value's length are there. -/
theorem bytesAt_ne_none {value : List UInt8} {len : Nat} (h : len ≤ value.length) :
    bytesAt value len ≠ none := by
  rw [bytesAt, if_pos h]
  exact Option.some_ne_none _

/-- A notification is of the characteristic, and of its value by the length of a read. -/
theorem notify_bytes {s : Gatt} {c : CharId} {call : StackCall}
    (h : call ∈ s.notifyCharacteristic c) :
    call.notified = some c ∧ ∃ value ∈ (s.chars c).gattReadDataPtr,
      call.bytes = bytesAt value (s.chars c).gattReadDataLen := by
  simp only [Gatt.notifyCharacteristic] at h
  split at h
  · exact absurd h List.not_mem_nil
  split at h
  · exact absurd h List.not_mem_nil
  split at h
  · exact absurd h List.not_mem_nil
  split at h
  · exact absurd h List.not_mem_nil
  rename_i value hptr
  split_ifs at h
  · exact absurd h List.not_mem_nil
  · split at h
    · exact absurd h List.not_mem_nil
    · rw [List.mem_singleton.1 h]
      exact ⟨rfl, value, hptr, rfl⟩
  · rw [List.mem_singleton.1 h]
    exact ⟨rfl, value, hptr, rfl⟩

/-- A notification reads inside the value. -/
theorem notify_inBounds (s : Gatt) (h : BuffersInv s) (c : CharId) :
    ∀ call ∈ s.notifyCharacteristic c, call.bytes ≠ none := by
  intro call hcall
  rcases notify_bytes hcall with ⟨-, value, hvalue, hbytes⟩
  rw [hbytes]
  exact bytesAt_ne_none (length_gattReadData _ (h.shaped c) value hvalue)

/-- A legacy read reads inside the value. -/
theorem legacyRead_inBounds (s : Gatt) (h : BuffersInv s) (connIdx prfId attIdx : Nat) :
    ∀ call ∈ s.legacyRead connIdx prfId attIdx, call.bytes ≠ none := by
  intro call hcall
  unfold Gatt.legacyRead at hcall
  split at hcall
  · exact absurd hcall List.not_mem_nil
  rename_i b _
  simp only at hcall
  split at hcall
  · rename_i value len hanswer
    have hle : len ≤ value.length := by
      split_ifs at hanswer
      · obtain ⟨hv, rfl⟩ := Prod.mk.inj hanswer
        rw [← Option.some.inj hv, h.cccd]
      · obtain ⟨hv, rfl⟩ := Prod.mk.inj hanswer
        exact length_gattReadData _ (h.shaped _) value hv
    split_ifs at hcall
    · rw [List.mem_singleton.1 hcall]
      exact bytesAt_ne_none hle
    · exact absurd hcall List.not_mem_nil
  · exact absurd hcall List.not_mem_nil

/-- A null pointer goes with no length. -/
theorem peerRead_inBounds (s : Gatt) (h : BuffersInv s) (c : CharId)
    (hreg : (s.chars c).gattRegistered = true) :
    bytesAt ((s.chars c).gattReadDataPtr.getD []) (s.chars c).gattReadDataLen ≠ none := by
  cases hptr : (s.chars c).gattReadDataPtr with
  | some value => exact bytesAt_ne_none (length_gattReadData _ (h.shaped c) value hptr)
  | none =>
      have hnil : (s.chars c).value = [] := by
        by_contra hne
        rw [BLECharacteristic.gattReadDataPtr,
          if_neg fun hempty => hne (List.isEmpty_iff.1 hempty)] at hptr
        exact Option.some_ne_none _ hptr
      -- No value, so none is declared: what is registered was prepared.
      have hsize : (s.chars c).valueSize = 0 := by
        by_contra hpos
        exact (h.present c).present ((h.present c).registered hreg)
          (Nat.pos_of_ne_zero hpos) hnil
      have hlen : (s.chars c).contentLen = 0 := by
        rw [(h.shaped c).unsized hsize, hnil]
        rfl
      refine bytesAt_ne_none ?_
      rw [BLECharacteristic.gattReadDataLen, hlen, hsize, hnil]
      exact Nat.le_refl 0

/-- Every event reads inside the value. -/
theorem inBounds_step (s : Gatt) (e : Event) (h : BuffersInv s) : InBounds s e := by
  have hnone : ∀ call ∈ ([] : List StackCall), call.bytes ≠ none :=
    fun call hcall => absurd hcall List.not_mem_nil
  -- only a notification and a read give bytes to the stack
  cases e with
  | finalize services ethermind answers => exact hnone
  | addCharacteristic svc c => exact hnone
  | writeValue c data =>
      cases data with
      | none => exact hnone
      | some bytes => exact notify_inBounds _ (buffersInv_step s (.writeValue c (some bytes)) h) c
  | legacyNotice notice =>
      rcases notice with _ | (_ | connIdx) | _ | _ | (_ | req) | ⟨call, status⟩ | (_ | req) | _
      case read.some => exact legacyRead_inBounds s h req.1 req.2.1 req.2.2
      all_goals exact hnone
  | gattEvent event => exact hnone
  | gattDb connHandle serviceId charId op =>
      intro call hcall
      have hcall : call ∈ (s.arduinoBleGattDbHandler connHandle serviceId charId op).2 := hcall
      unfold Gatt.arduinoBleGattDbHandler at hcall
      split at hcall
      · exact absurd hcall List.not_mem_nil
      rename_i c hfind
      -- The handler looks among the registered ones only.
      have hreg : (s.chars c).gattRegistered = true := by
        have hc := List.find?_some hfind
        simp only [Bool.and_eq_true] at hc
        exact hc.1.1
      cases op with
      | peerRead =>
          rw [List.mem_singleton.1 hcall]
          exact peerRead_inBounds s h c hreg
      | _ => exact absurd hcall List.not_mem_nil

/-- Characteristics as their constructors leave them, and no buffer prepared. -/
structure Gatt.Constructed (s : Gatt) : Prop where
  chars : ∀ c, ∃ uuid properties valueSize fixedLength,
    s.chars c = .new uuid properties valueSize fixedLength
  preparations : s.preparations = []

/-- Constructed characteristics satisfy the invariant. -/
theorem buffersInv_constructed {s : Gatt} (h : s.Constructed) : BuffersInv s := by
  refine ⟨fun c => ?_, fun c => ?_, fun c => ⟨fun hreg => ?_, fun hmem => ?_⟩⟩
  · rcases h.chars c with ⟨uuid, properties, valueSize, fixedLength, hc⟩
    rw [hc]
    exact shaped_new uuid properties valueSize fixedLength
  · rcases h.chars c with ⟨uuid, properties, valueSize, fixedLength, hc⟩
    rw [hc]
    rfl
  · rcases h.chars c with ⟨uuid, properties, valueSize, fixedLength, hc⟩
    rw [hc] at hreg
    exact absurd hreg Bool.false_ne_true
  · rw [h.preparations] at hmem
    exact absurd hmem List.not_mem_nil

/-- In every run from constructed characteristics, the law holds of each of them at the
    end, and no read or notification on the way goes beyond a buffer. -/
theorem value_buffers_kept {s : Gatt} (h : s.Constructed) (es : List Event) :
    (∀ c, BufferLaw ((run Gatt.step s es).chars c)) ∧ Always Gatt.step InBounds s es := by
  have hstart := buffersInv_constructed h
  have hinv := inv_run buffersInv_step hstart es
  exact ⟨fun c => law_of_shaped _ (hinv.shaped c),
    always_of_inv_step inBounds_step buffersInv_step hstart es⟩

theorem battery_constructed : battery.Constructed :=
  ⟨fun _ => ⟨_, _, _, _, rfl⟩, rfl⟩

/-- The battery, written before and after its database is there. -/
theorem value_buffers_kept_battery :
    (∀ c, BufferLaw ((run Gatt.step battery
      [.writeValue 0 (some [7]), batteryCreated, .writeValue 0 (some [])]).chars c)) ∧
      Always Gatt.step InBounds battery
        [.writeValue 0 (some [7]), batteryCreated, .writeValue 0 (some [])] :=
  value_buffers_kept battery_constructed _

end BLE

end ArduinoBeken
