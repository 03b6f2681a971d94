import Mathlib.Data.List.Nodup
import ArduinoBeken.BLE.GattRegistry

/-!
# What a Finalisation Leaves Alone

An attempt at finalising the database goes through many calls, and each of
them changes a few fields. `Finalizes` collects what all of them have in
common, so that a fact about values or subscriptions is carried over an
attempt in one step: declarations, subscriptions and the connection stay, and
a characteristic's value stays unless the log of preparations names it, in
which case it is what one `ensureGattValueBuffer` makes of it. Preparing twice
is preparing once, so the number of times does not matter.

`Finalizes` is reflexive and transitive, and holds around each thing that a
pass does. `Closed` is what a relation needs for that to carry over to a pass:
the lemma for a function is assembled from those of the functions it calls, in
the order it calls them, once for all such relations.

## Main definitions

* `SameValue`: Two objects with the same value fields.
* `Sdk.Valid`, `StackFrame`: What the stacks see to, and what a call keeps of
  them.
* `Finalizes`: What holds between the states around a finalisation.
* `Closed`: A relation that the parts of a finalisation keep to.

## Theorems

* `ensureGattValueBuffer_idem`: Preparing twice is preparing once.
* `Finalizes.refl`, `Finalizes.trans`: Finalisations compose.
* `finalizes_prepareBuffer`: Preparing a buffer is a finalisation step.
* `Closed.registerCharacteristicInGatt`: A relation kept by an Ethermind
  registration.
* `Closed.addLegacyCharacteristic`: By a turn of the legacy loop.
* `Closed.finalizeDatabase`: By an attempt.
* `finalizes_attempt`: A whole attempt is a finalisation.
-/

namespace ArduinoBeken

namespace BLE

/-- Two objects with the same value fields. -/
structure SameValue (c d : BLECharacteristic) : Prop where
  value : d.value = c.value
  attBuffer : d.attBuffer = c.attBuffer
  contentLen : d.contentLen = c.contentLen

/-- Two objects with the same declaration and the same subscription state. -/
structure SameDecl (c d : BLECharacteristic) : Prop where
  uuid : d.uuid = c.uuid
  properties : d.properties = c.properties
  valueSize : d.valueSize = c.valueSize
  notifyEnabled : d.notifyEnabled = c.notifyEnabled
  cccdValue : d.cccdValue = c.cccdValue

theorem SameValue.refl (c : BLECharacteristic) : SameValue c c := ⟨rfl, rfl, rfl⟩

theorem SameValue.trans {c d e : BLECharacteristic} (h1 : SameValue c d) (h2 : SameValue d e) :
    SameValue c e :=
  ⟨h2.value.trans h1.value, h2.attBuffer.trans h1.attBuffer, h2.contentLen.trans h1.contentLen⟩

theorem SameDecl.refl (c : BLECharacteristic) : SameDecl c c := ⟨rfl, rfl, rfl, rfl, rfl⟩

theorem SameDecl.trans {c d e : BLECharacteristic} (h1 : SameDecl c d) (h2 : SameDecl d e) :
    SameDecl c e :=
  ⟨h2.uuid.trans h1.uuid, h2.properties.trans h1.properties, h2.valueSize.trans h1.valueSize,
    h2.notifyEnabled.trans h1.notifyEnabled, h2.cccdValue.trans h1.cccdValue⟩

/-- What notifies is part of the declaration. -/
theorem SameDecl.notifies {c d : BLECharacteristic} (h : SameDecl c d) :
    d.notifies = c.notifies := by
  simp only [BLECharacteristic.notifies, h.properties]

/-- Making the value buffer changes no declaration. -/
theorem sameDecl_ensureGattValueBuffer (c : BLECharacteristic) :
    SameDecl c c.ensureGattValueBuffer := by
  have h := c.ensureGattValueBuffer_frame
  exact ⟨h.uuid, h.properties, h.valueSize, h.notifyEnabled, h.cccdValue⟩

/-- Preparing depends on the declared size and the value only. -/
theorem ensureGattValueBuffer_congr {c d : BLECharacteristic} (hs : d.valueSize = c.valueSize)
    (h : SameValue c d) : SameValue c.ensureGattValueBuffer d.ensureGattValueBuffer := by
  unfold BLECharacteristic.ensureGattValueBuffer
  rw [hs, h.value]
  split_ifs
  · exact ⟨rfl, rfl, rfl⟩
  · exact ⟨rfl, h.attBuffer, rfl⟩
  · exact h

/-- Preparing twice is preparing once. -/
theorem ensureGattValueBuffer_idem (c : BLECharacteristic) :
    SameValue c.ensureGattValueBuffer c.ensureGattValueBuffer.ensureGattValueBuffer := by
  by_cases hs : 0 < c.valueSize
  · simp only [BLECharacteristic.ensureGattValueBuffer, hs, if_true]
    exact ⟨rfl, rfl, rfl⟩
  · by_cases hv : c.value.isEmpty
    · simp only [BLECharacteristic.ensureGattValueBuffer, hs, hv, if_false, if_true,
        List.isEmpty_cons, Bool.false_eq_true]
      exact ⟨rfl, rfl, rfl⟩
    · simp only [BLECharacteristic.ensureGattValueBuffer, hs, hv, if_false, Bool.false_eq_true]
      exact SameValue.refl c

/-- What the stacks see to by themselves: no two characteristics under one pair
    of handles, and no call waiting that was not made. -/
structure Sdk.Valid (k : Sdk) : Prop where
  handles : (k.ethChars.map fun e => (e.serviceHandle, e.charHandle)).Nodup
  pending : ∀ p ∈ k.legacyPending, p.1 < k.createCalls.length

/-- What a part of a finalisation keeps of the stacks: answers are used up in
    order, and created tables stay. -/
structure StackFrame (k k' : Sdk) : Prop where
  answers : k'.answers <:+ k.answers
  valid : k.Valid → k'.Valid
  created : ∀ cfg ∈ k.legacyCreated, cfg ∈ k'.legacyCreated

theorem StackFrame.refl (k : Sdk) : StackFrame k k := ⟨List.suffix_rfl, id, fun _ h => h⟩

theorem StackFrame.trans {k k' k'' : Sdk} (h1 : StackFrame k k') (h2 : StackFrame k' k'') :
    StackFrame k k'' :=
  ⟨h2.answers.trans h1.answers, fun h => h2.valid (h1.valid h),
    fun cfg h => h2.created cfg (h1.created cfg h)⟩

/-- A call that uses up an answer and touches neither the entries nor the
    tables. -/
theorem StackFrame.of_tail {k k' : Sdk} (ha : k'.answers = k.answers.tail)
    (he : k'.ethChars = k.ethChars) (hp : k'.legacyPending = k.legacyPending)
    (hc : k'.createCalls = k.createCalls) (hl : k'.legacyCreated = k.legacyCreated) :
    StackFrame k k' := by
  refine ⟨by rw [ha]; exact List.tail_suffix _, fun h => ⟨?_, ?_⟩, fun cfg h => by rwa [hl]⟩
  · rw [he]
    exact h.handles
  · rw [hp, hc]
    exact h.pending

/-- What holds between the states around a finalisation, or a part of one. -/
structure Finalizes (s s' : Gatt) : Prop where
  connHandle : s'.connHandle = s.connHandle
  sdk : StackFrame s.sdk s'.sdk
  decl : ∀ c, SameDecl (s.chars c) (s'.chars c)
  service : ∀ svc, (s'.services svc).characteristics = (s.services svc).characteristics ∧
    (s'.services svc).uuid = (s.services svc).uuid
  value : ∃ l, s'.preparations = s.preparations ++ l ∧ ∀ c,
    SameValue (if c ∈ l then (s.chars c).ensureGattValueBuffer else s.chars c) (s'.chars c)

theorem Finalizes.refl (s : Gatt) : Finalizes s s :=
  ⟨rfl, StackFrame.refl _, fun c => SameDecl.refl _, fun _ => ⟨rfl, rfl⟩,
    ⟨[], by rw [List.append_nil], fun c => by
      rw [if_neg List.not_mem_nil]; exact SameValue.refl _⟩⟩

theorem Finalizes.trans {s s' s'' : Gatt} (h1 : Finalizes s s') (h2 : Finalizes s' s'') :
    Finalizes s s'' := by
  rcases h1.value with ⟨l1, hl1, hv1⟩
  rcases h2.value with ⟨l2, hl2, hv2⟩
  refine ⟨h2.connHandle.trans h1.connHandle, h1.sdk.trans h2.sdk,
    fun c => (h1.decl c).trans (h2.decl c),
    fun svc => ⟨(h2.service svc).1.trans (h1.service svc).1,
      (h2.service svc).2.trans (h1.service svc).2⟩,
    ⟨l1 ++ l2, by rw [hl2, hl1, List.append_assoc], fun c => ?_⟩⟩
  -- The declared size never changes, so preparing means the same in both halves.
  have hsize : (s'.chars c).valueSize = (s.chars c).valueSize := (h1.decl c).valueSize
  refine SameValue.trans ?_ (hv2 c)
  by_cases hc1 : c ∈ l1
  · have hpre := hv1 c
    rw [if_pos hc1] at hpre
    rw [if_pos (List.mem_append_left l2 hc1)]
    by_cases hc2 : c ∈ l2
    · -- Prepared in both halves: the second time changes nothing.
      rw [if_pos hc2]
      have hsize' : (s'.chars c).valueSize = (s.chars c).ensureGattValueBuffer.valueSize :=
        hsize.trans (sameDecl_ensureGattValueBuffer _).valueSize.symm
      exact (ensureGattValueBuffer_idem _).trans (ensureGattValueBuffer_congr hsize' hpre)
    · rw [if_neg hc2]
      exact hpre
  · have hkeep := hv1 c
    rw [if_neg hc1] at hkeep
    by_cases hc2 : c ∈ l2
    · rw [if_pos hc2, if_pos (List.mem_append_right l1 hc2)]
      exact ensureGattValueBuffer_congr hsize hkeep
    · rw [if_neg hc2, if_neg (by rw [List.mem_append]; tauto)]
      exact hkeep

/-- Steps that touch neither objects, connection nor log are finalisation
    steps. -/
theorem Finalizes.of_eq {s s' : Gatt} (hc : s'.chars = s.chars) (hs : s'.services = s.services)
    (hh : s'.connHandle = s.connHandle) (hp : s'.preparations = s.preparations)
    (ha : StackFrame s.sdk s'.sdk) : Finalizes s s' := by
  refine ⟨hh, ha, fun c => by rw [hc]; exact SameDecl.refl _,
    fun svc => by rw [hs]; exact ⟨rfl, rfl⟩,
    ⟨[], by rw [hp, List.append_nil], fun c => ?_⟩⟩
  rw [if_neg List.not_mem_nil, hc]
  exact SameValue.refl _

/-- Replacing an object by one that differs in its place in the databases. -/
theorem Finalizes.setChar (s : Gatt) (c : CharId) {ch : BLECharacteristic}
    (hd : SameDecl (s.chars c) ch) (hv : SameValue (s.chars c) ch) :
    Finalizes s (s.setChar c ch) := by
  refine ⟨rfl, StackFrame.refl _, fun d => ?_, fun _ => ⟨rfl, rfl⟩,
    ⟨[], by rw [List.append_nil]; rfl, fun d => ?_⟩⟩
  · by_cases hdc : d = c
    · subst hdc
      simpa only [Gatt.setChar, Function.update_self] using hd
    · simpa only [Gatt.setChar, Function.update_of_ne hdc] using SameDecl.refl _
  · rw [if_neg List.not_mem_nil]
    by_cases hdc : d = c
    · subst hdc
      simpa only [Gatt.setChar, Function.update_self] using hv
    · simpa only [Gatt.setChar, Function.update_of_ne hdc] using SameValue.refl _

/-- Writing a service's handles keeps its declaration. -/
theorem finalizes_setService (s : Gatt) (svc : SvcId) {sv : BLEService}
    (hc : sv.characteristics = (s.services svc).characteristics)
    (hu : sv.uuid = (s.services svc).uuid) : Finalizes s (s.setService svc sv) := by
  refine ⟨rfl, StackFrame.refl _, fun _ => SameDecl.refl _, fun x => ?_,
    ⟨[], by rw [List.append_nil]; rfl, fun c => by
      rw [if_neg List.not_mem_nil]; exact SameValue.refl _⟩⟩
  by_cases hx : x = svc
  · subst hx
    simpa only [Gatt.setService, Function.update_self] using ⟨hc, hu⟩
  · simp only [Gatt.setService, Function.update_of_ne hx, and_self]

/-- Preparing a value buffer is a step of the finalisation. -/
theorem finalizes_prepareBuffer (s : Gatt) (c : CharId) : Finalizes s (s.prepareBuffer c) := by
  refine ⟨rfl, StackFrame.refl _, fun d => ?_, fun _ => ⟨rfl, rfl⟩, ⟨[c], rfl, fun d => ?_⟩⟩
  · by_cases hdc : d = c
    · subst hdc
      simpa only [Gatt.prepareBuffer, Gatt.setChar, Function.update_self]
        using sameDecl_ensureGattValueBuffer _
    · simpa only [Gatt.prepareBuffer, Gatt.setChar, Function.update_of_ne hdc]
        using SameDecl.refl _
  · by_cases hdc : d = c
    · subst hdc
      rw [if_pos List.mem_cons_self]
      simpa only [Gatt.prepareBuffer, Gatt.setChar, Function.update_self] using SameValue.refl _
    · rw [if_neg (by simpa only [List.mem_singleton] using hdc)]
      simpa only [Gatt.prepareBuffer, Gatt.setChar, Function.update_of_ne hdc]
        using SameValue.refl _

/-- Entering a characteristic in the list is a step of the finalisation. -/
theorem finalizes_listCharacteristic (s : Gatt) (c : CharId) (sh ch : Nat) :
    Finalizes s (s.listCharacteristic c sh ch) := by
  unfold Gatt.listCharacteristic
  split_ifs
  · exact Finalizes.of_eq rfl rfl rfl rfl (StackFrame.refl _)
  · exact Finalizes.refl s

/-! ## Calls into the stacks -/

/-- Two states that differ in what the stacks hold and in the wait for a
    completion at most. -/
structure SdkOnly (s s' : Gatt) : Prop where
  chars : s'.chars = s.chars
  services : s'.services = s.services
  sCharacteristics : s'.sCharacteristics = s.sCharacteristics
  gattDbFinalized : s'.gattDbFinalized = s.gattDbFinalized
  useLegacyStack : s'.useLegacyStack = s.useLegacyStack
  connHandle : s'.connHandle = s.connHandle
  legacyAttDb : s'.legacyAttDb = s.legacyAttDb
  legacyBindings : s'.legacyBindings = s.legacyBindings
  preparations : s'.preparations = s.preparations
  sdk : StackFrame s.sdk s'.sdk

theorem SdkOnly.refl (s : Gatt) : SdkOnly s s :=
  ⟨rfl, rfl, rfl, rfl, rfl, rfl, rfl, rfl, rfl, StackFrame.refl _⟩

theorem SdkOnly.trans {s s' s'' : Gatt} (h1 : SdkOnly s s') (h2 : SdkOnly s' s'') :
    SdkOnly s s'' :=
  ⟨h2.chars.trans h1.chars, h2.services.trans h1.services,
    h2.sCharacteristics.trans h1.sCharacteristics, h2.gattDbFinalized.trans h1.gattDbFinalized,
    h2.useLegacyStack.trans h1.useLegacyStack, h2.connHandle.trans h1.connHandle,
    h2.legacyAttDb.trans h1.legacyAttDb, h2.legacyBindings.trans h1.legacyBindings,
    h2.preparations.trans h1.preparations, h1.sdk.trans h2.sdk⟩

/-- Adding a service to the Ethermind database touches the stack alone. -/
theorem sdkOnly_addService (s : Gatt) (svc : SvcId) :
    SdkOnly s (s.bkBleGattDbAddService svc).2 := by
  unfold Gatt.bkBleGattDbAddService
  split
  · split_ifs <;>
      exact ⟨rfl, rfl, rfl, rfl, rfl, rfl, rfl, rfl, rfl, StackFrame.of_tail rfl rfl rfl rfl rfl⟩
  · exact ⟨rfl, rfl, rfl, rfl, rfl, rfl, rfl, rfl, rfl, StackFrame.of_tail rfl rfl rfl rfl rfl⟩

/-- Adding a characteristic to the Ethermind database touches the stack alone. -/
theorem sdkOnly_addCharacteristic (s : Gatt) (h u p q : Nat) (c : CharId) :
    SdkOnly s (s.bkBleGattDbAddCharacteristic h u p q c).2 := by
  unfold Gatt.bkBleGattDbAddCharacteristic
  split
  · split_ifs with hnew
    · refine ⟨rfl, rfl, rfl, rfl, rfl, rfl, rfl, rfl, rfl,
        ⟨List.tail_suffix _, fun hv => ⟨?_, hv.pending⟩, fun _ hc => hc⟩⟩
      rw [List.map_append]
      -- The stack hands out a pair of handles that it has not given before.
      refine List.Nodup.append hv.handles (List.nodup_singleton _) ?_
      rw [List.disjoint_comm, List.map_cons, List.map_nil, List.singleton_disjoint]
      exact hnew.2
    · exact ⟨rfl, rfl, rfl, rfl, rfl, rfl, rfl, rfl, rfl, StackFrame.of_tail rfl rfl rfl rfl rfl⟩
  · exact ⟨rfl, rfl, rfl, rfl, rfl, rfl, rfl, rfl, rfl, StackFrame.of_tail rfl rfl rfl rfl rfl⟩

/-- Adding a descriptor touches the stack alone. -/
theorem sdkOnly_addCharacteristicDescriptor (s : Gatt) (sh ch : Nat) :
    SdkOnly s (s.bkBleGattDbAddCharacteristicDescriptor sh ch).2 := by
  unfold Gatt.bkBleGattDbAddCharacteristicDescriptor
  split
  · split_ifs <;>
      exact ⟨rfl, rfl, rfl, rfl, rfl, rfl, rfl, rfl, rfl, StackFrame.of_tail rfl rfl rfl rfl rfl⟩
  · exact ⟨rfl, rfl, rfl, rfl, rfl, rfl, rfl, rfl, rfl, StackFrame.of_tail rfl rfl rfl rfl rfl⟩

/-- Completing the Ethermind database touches the stack alone. -/
theorem sdkOnly_addCompleted (s : Gatt) : SdkOnly s s.bkBleGattDbAddCompleted.2 := by
  unfold Gatt.bkBleGattDbAddCompleted
  split <;>
    exact ⟨rfl, rfl, rfl, rfl, rfl, rfl, rfl, rfl, rfl, StackFrame.of_tail rfl rfl rfl rfl rfl⟩

/-- Handing over the callback touches the stack alone. -/
theorem sdkOnly_setCallback (s : Gatt) : SdkOnly s s.bkBleGattDbSetCallback.2 := by
  unfold Gatt.bkBleGattDbSetCallback
  split <;>
    exact ⟨rfl, rfl, rfl, rfl, rfl, rfl, rfl, rfl, rfl, StackFrame.of_tail rfl rfl rfl rfl rfl⟩

/-- A completion of the legacy database touches the stack alone. -/
theorem sdkOnly_completeCreate (s : Gatt) (call status : Nat) :
    SdkOnly s (s.completeCreate call status) := by
  unfold Gatt.completeCreate
  split
  · exact SdkOnly.refl s
  · refine ⟨rfl, rfl, rfl, rfl, rfl, rfl, rfl, rfl, rfl, ⟨List.suffix_rfl,
      fun hv => ⟨hv.handles, fun p hp => hv.pending p (List.mem_filter.1 hp).1⟩, fun cfg hc => ?_⟩⟩
    simp only [Gatt.noteCreateDb]
    split_ifs
    · exact List.mem_append_left _ hc
    · exact hc

/-- Notices that arrive touch the stack alone. -/
theorem sdkOnly_arrive (call : Nat) (notices : List Completion) (s : Gatt) :
    SdkOnly s (notices.foldl (Gatt.arrive call) s) := by
  induction notices generalizing s with
  | nil => exact SdkOnly.refl s
  | cons n ns ih =>
      rw [List.foldl_cons]
      refine SdkOnly.trans ?_ (ih _)
      cases n with
      | own status => exact sdkOnly_completeCreate s call status
      | stale earlier status => exact sdkOnly_completeCreate s earlier status

/-- A call that is logged, and one that waits for its completion besides. -/
theorem sdkOnly_createCall (s : Gatt) (cfg : DbCfg) :
    SdkOnly s (s.createCall cfg) ∧
      SdkOnly s ((s.createCall cfg).acceptCreate s.sdk.createCalls.length cfg) := by
  have hlen : ∀ n, n < s.sdk.createCalls.length → n < (s.sdk.createCalls ++ [cfg]).length := by
    intro n hn
    rw [List.length_append]
    omega
  refine ⟨⟨rfl, rfl, rfl, rfl, rfl, rfl, rfl, rfl, rfl, ⟨List.tail_suffix _,
    fun hv => ⟨hv.handles, fun p hp => hlen _ (hv.pending p hp)⟩, fun _ hc => hc⟩⟩,
    ⟨rfl, rfl, rfl, rfl, rfl, rfl, rfl, rfl, rfl, ⟨List.tail_suffix _,
    fun hv => ⟨hv.handles, fun p hp => ?_⟩, fun _ hc => hc⟩⟩⟩
  rcases List.mem_append.1 hp with hold | hnew
  · exact hlen _ (hv.pending p hold)
  · rw [List.mem_singleton.1 hnew]
    change s.sdk.createCalls.length < (s.sdk.createCalls ++ [cfg]).length
    rw [List.length_append, List.length_singleton]
    exact Nat.lt_succ_self _

/-- Creating a legacy database touches the stack alone. -/
theorem sdkOnly_createLegacyDb (s : Gatt) (cfg : DbCfg) :
    SdkOnly s (s.createLegacyDb cfg).2 := by
  unfold Gatt.createLegacyDb
  split
  · exact (sdkOnly_createCall s cfg).2.trans (sdkOnly_arrive s.sdk.createCalls.length _ _)
  · exact (sdkOnly_createCall s cfg).1

/-! ## The passes -/

/-- A relation between states that composes, and that everything a pass does
    keeps to. A characteristic is flagged only once its buffer is prepared. -/
structure Closed (R : Gatt → Gatt → Prop) : Prop where
  refl : ∀ s, R s s
  trans : ∀ {s s' s''}, R s s' → R s' s'' → R s s''
  quiet : ∀ {s s'}, s'.chars = s.chars → s'.services = s.services →
    s'.connHandle = s.connHandle → s'.preparations = s.preparations →
    StackFrame s.sdk s'.sdk → R s s'
  setService : ∀ s svc {sv : BLEService},
    sv.characteristics = (s.services svc).characteristics →
    sv.uuid = (s.services svc).uuid → R s (s.setService svc sv)
  prepare : ∀ s c, R s (s.prepareBuffer c)
  flag : ∀ s c sh ch, c ∈ s.preparations → R s (s.flagCharacteristic c sh ch)

section Passes

variable {R : Gatt → Gatt → Prop} (h : Closed R)

include h

/-- A closed relation holds of every step that touches the stack alone. -/
theorem Closed.sdkOnly {s s' : Gatt} (hs : SdkOnly s s') : R s s' :=
  h.quiet hs.chars hs.services hs.connHandle hs.preparations hs.sdk

/-- A closed relation holds of one characteristic's registration. -/
theorem Closed.registerCharacteristicInGatt (s : Gatt) (svc : SvcId) (c : CharId) :
    R s (s.registerCharacteristicInGatt svc c).2 := by
  unfold Gatt.registerCharacteristicInGatt
  split_ifs
  · exact h.refl s
  · exact h.refl s
  split
  · exact h.refl s
  rename_i charUuid _
  simp only
  -- The buffer is prepared before the stack is asked.
  have hprep := h.prepare s c
  split
  · rename_i s1 heq
    refine h.trans hprep ?_
    rw [show s1 = (Prod.mk (none : Option Nat) s1).2 from rfl, ← heq]
    exact h.sdkOnly (sdkOnly_addCharacteristic _ _ charUuid _ _ c)
  · rename_i charHandle s1 heq
    have hadd : SdkOnly (s.prepareBuffer c) s1 := by
      rw [show s1 = (Prod.mk (some charHandle) s1).2 from rfl, ← heq]
      exact sdkOnly_addCharacteristic _ _ charUuid _ _ c
    -- The stack's answer does not touch the log, so the buffer still counts as prepared.
    have hprepared : c ∈ s1.preparations := by
      rw [hadd.preparations]
      exact List.mem_append_right _ List.mem_cons_self
    have hflag := h.trans (h.trans hprep (h.sdkOnly hadd)) (h.flag s1 c
      ((s.prepareBuffer c).services svc).gattServiceHandle charHandle hprepared)
    split_ifs
    · exact h.trans hflag (h.sdkOnly (sdkOnly_addCharacteristicDescriptor _ _ _))
    · exact hflag

/-- A closed relation holds of a service's characteristics, one after the other. -/
theorem Closed.registerCharacteristics (svc : SvcId) (cs : List CharId) (s : Gatt) :
    R s (Gatt.registerCharacteristics svc cs s).2 := by
  induction cs generalizing s with
  | nil => exact h.refl s
  | cons c cs ih =>
      -- By induction on the list: a failure ends it, and the relation composes either way.
      have hreg := h.registerCharacteristicInGatt s svc c
      unfold Gatt.registerCharacteristics
      split
      · rename_i s1 heq
        rw [heq] at hreg
        exact hreg
      · rename_i s1 heq
        rw [heq] at hreg
        exact h.trans hreg (ih s1)

/-- A closed relation holds of a service's registration. -/
theorem Closed.registerService (s : Gatt) (svc : SvcId) : R s (s.registerService svc).2 := by
  unfold Gatt.registerService
  split_ifs
  · exact h.registerCharacteristics svc _ s
  split
  · exact h.refl s
  have hadd := h.sdkOnly (sdkOnly_addService s svc)
  split
  · rename_i s1 heq
    rw [heq] at hadd
    exact hadd
  · rename_i handle s1 heq
    rw [heq] at hadd
    exact h.trans (h.trans hadd (h.setService s1 svc (by rfl) (by rfl)))
      (h.registerCharacteristics svc _ _)

/-- A closed relation holds of all services' registration. -/
theorem Closed.registerServices (services : List (Option SvcId)) (s : Gatt) :
    R s (Gatt.registerServices services s).2 := by
  induction services generalizing s with
  | nil => exact h.refl s
  | cons entry rest ih =>
      cases entry with
      | none => exact ih s
      | some svc =>
          have hreg := h.registerService s svc
          unfold Gatt.registerServices
          split
          · rename_i s1 heq
            rw [heq] at hreg
            exact hreg
          · rename_i s1 heq
            rw [heq] at hreg
            exact h.trans hreg (ih s1)

/-- A closed relation holds of the whole Ethermind attempt. -/
theorem Closed.finalizeEthermindDatabase (s : Gatt) (services : List (Option SvcId)) :
    R s (s.finalizeEthermindDatabase services).2 := by
  have hstart : R s s.ensureEventCallback := h.quiet rfl rfl rfl rfl (StackFrame.refl _)
  have hreg := h.trans hstart (h.registerServices services _)
  unfold Gatt.finalizeEthermindDatabase
  split
  · rename_i s1 heq
    rw [heq] at hreg
    exact hreg
  · rename_i s1 heq
    rw [heq] at hreg
    have hdone := h.trans hreg (h.sdkOnly (sdkOnly_addCompleted s1))
    split
    · rename_i s2 heq2
      rw [heq2] at hdone
      exact hdone
    · rename_i s2 heq2
      rw [heq2] at hdone
      exact h.trans hdone (h.sdkOnly (sdkOnly_setCallback s2))

/-- A closed relation holds of one legacy binding. -/
theorem Closed.addLegacyCharacteristic (s : Gatt) (prfId : Nat) (c : CharId)
    (charUuid : Nat) : R s (s.addLegacyCharacteristic prfId c charUuid) := by
  have happend : R (s.prepareBuffer c)
      ((s.prepareBuffer c).appendLegacyAttributes prfId c charUuid) :=
    h.quiet rfl rfl rfl rfl (StackFrame.refl _)
  refine h.trans (h.trans (h.prepare s c) happend) (h.flag _ c prfId _ ?_)
  exact List.mem_append_right _ List.mem_cons_self

/-- A closed relation holds of a service's legacy bindings. -/
theorem Closed.addLegacyCharacteristics (prfId : Nat) (cs : List CharId) (s : Gatt) :
    R s (Gatt.addLegacyCharacteristics prfId cs s).2 := by
  induction cs generalizing s with
  | nil => exact h.refl s
  | cons c cs ih =>
      unfold Gatt.addLegacyCharacteristics
      split
      · exact h.refl s
      · exact h.trans (h.addLegacyCharacteristic s prfId c _) (ih _)

/-- A closed relation holds of all legacy services. -/
theorem Closed.addLegacyServices (services : List (Option SvcId)) (prfId : Nat) (s : Gatt) :
    R s (Gatt.addLegacyServices services prfId s).2 := by
  induction services generalizing prfId s with
  | nil => exact h.refl s
  | cons entry rest ih =>
      cases entry with
      | none => exact ih prfId s
      | some svc =>
          unfold Gatt.addLegacyServices
          split
          · exact h.refl s
          rename_i serviceUuid _
          simp only
          -- the table of one service: its declaration, then its characteristics
          have hdecl : R s { s with legacyAttDb :=
              [{ kind := .serviceDecl svc, uuid := serviceUuid, perm := permRd }] } :=
            h.quiet rfl rfl rfl rfl (StackFrame.refl _)
          have hchars := h.trans hdecl
            (h.addLegacyCharacteristics prfId (s.services svc).characteristics _)
          split
          · rename_i s1 heq
            rw [heq] at hchars
            exact hchars
          rename_i s1 heq
          rw [heq] at hchars
          split_ifs
          · exact hchars
          -- and then the call that creates it
          have hcreate := h.trans hchars
            (h.sdkOnly (sdkOnly_createLegacyDb s1 (s1.legacyDbCfg prfId serviceUuid svc)))
          split
          · rename_i s2 heq2
            rw [heq2] at hcreate
            exact hcreate
          · rename_i s2 heq2
            rw [heq2] at hcreate
            exact h.trans (h.trans hcreate (h.setService s2 svc (by rfl) (by rfl))) (ih _ _)

/-- A closed relation holds of the legacy attempt's flagging. -/
theorem Closed.finishLegacy (s : Gatt) (services : List (Option SvcId)) :
    R s (s.finishLegacy services).2 := by
  -- the pass, whether it ends well or not
  have hpass : R s
      (Gatt.finalizeLegacyDatabase { s with useLegacyStack := true } services).2 := by
    unfold Gatt.finalizeLegacyDatabase
    simp only
    have hadd := h.addLegacyServices services kLegacyPrfTaskBase
      { Gatt.ensureNoticeCallback { s with useLegacyStack := true } with
        legacyAttDb := [], legacyBindings := [] }
    have hstart : R s { Gatt.ensureNoticeCallback { s with useLegacyStack := true } with
        legacyAttDb := [], legacyBindings := [] } :=
      h.quiet rfl rfl rfl rfl (StackFrame.refl _)
    split
    · rename_i s1 heq
      rw [heq] at hadd
      exact h.trans hstart hadd
    · rename_i s1 heq
      rw [heq] at hadd
      exact h.trans hstart hadd
  unfold Gatt.finishLegacy
  split
  · rename_i s1 heq
    rw [heq] at hpass
    exact h.trans hpass (h.quiet rfl rfl rfl rfl (StackFrame.refl _))
  · rename_i s1 heq
    rw [heq] at hpass
    exact hpass

/-- The relation holds around a whole attempt, whatever the stacks answer. -/
theorem Closed.finalizeDatabase (s0 : Gatt) (services : List (Option SvcId))
    (ethermind : Bool) : R s0 (s0.finalizeDatabase services ethermind).2 := by
  unfold Gatt.finalizeDatabase
  split_ifs
  · exact h.refl s0
  · exact h.refl s0
  · have hstart : R s0 s0.ensureNoticeCallback.ensureEventCallback :=
      h.quiet rfl rfl rfl rfl (StackFrame.refl _)
    exact h.trans hstart (h.finishLegacy _ services)
  · have hstart : R s0
        { s0.ensureNoticeCallback.ensureEventCallback with useLegacyStack := false } :=
      h.quiet rfl rfl rfl rfl (StackFrame.refl _)
    -- The first pass may fail, and then the second one goes on from what it left.
    have heth := h.trans hstart (h.finalizeEthermindDatabase _ services)
    simp only
    split
    · rename_i s1 heq
      rw [heq] at heth
      exact h.trans heth (h.quiet rfl rfl rfl rfl (StackFrame.refl _))
    · rename_i s1 heq
      rw [heq] at heth
      exact h.trans heth (h.finishLegacy s1 services)

end Passes

/-! ## A finalisation -/

/-- Flagging a characteristic changes its place in the databases only. -/
theorem finalizes_flagCharacteristic (s : Gatt) (c : CharId) (sh ch : Nat) :
    Finalizes s (s.flagCharacteristic c sh ch) := by
  refine Finalizes.trans ?_ (finalizes_listCharacteristic _ c sh ch)
  exact Finalizes.setChar s c ⟨rfl, rfl, rfl, rfl, rfl⟩ ⟨rfl, rfl, rfl⟩

/-- The steps of the finalisation are closed, so the rules above hold of them. -/
theorem finalizes_closed : Closed Finalizes where
  refl := Finalizes.refl
  trans := Finalizes.trans
  quiet := Finalizes.of_eq
  setService := finalizes_setService
  prepare := finalizes_prepareBuffer
  flag s c sh ch _ := finalizes_flagCharacteristic s c sh ch

/-- An attempt with its answers. -/
theorem finalizes_attempt (s : Gatt) (services : List (Option SvcId)) (ethermind : Bool)
    (answers : List SdkAnswer) :
    Finalizes (s.withAnswers answers) (s.attempt services ethermind answers).2 :=
  finalizes_closed.finalizeDatabase _ services ethermind

end BLE

end ArduinoBeken
