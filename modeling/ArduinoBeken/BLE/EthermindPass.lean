import Mathlib.Data.List.Nodup
import Mathlib.Data.List.ReduceOption
import ArduinoBeken.BLE.Frame

/-!
# The Ethermind Pass

What `finalizeEthermindDatabase` does to the flags and handles of the objects,
and to the database of the stack.

A registration asks the stack first and flags the object afterwards, so a
flag stands for an entry of the database, under the handles the object stores:
`EthermindPlaced`. The descriptor is asked for last, with the object flagged
already. When the stack refuses it, the pass stops and the flag stays, so a
flag does not stand for a descriptor. `EthermindSound` adds that, and a pass
keeps it as long as it does not stop.

How far a pass got is a prefix of the characteristics in their order, which
`Registers` says; the pass that falls back to the other stack relies on it.

## Main definitions

* `EthermindPlaced`: Flags and handles agree with the database.
* `EthermindSound`: So do descriptors.
* `Registers`: What a part of a pass did to flags and handles.
* `members`: The characteristics of a list of services, in order.
* `Refusing`: A stack that takes nothing on.

## Theorems

* `placed_flagged`: Flagging what was just added.
* `findCharacteristic_of_placed`: A placed characteristic is found.
* `registerCharacteristicInGatt_step`: One registration.
* `registerServices_step`: The loops.
* `finalizeEthermindDatabase_step`: The whole pass.
* `finalizeEthermindDatabase_idle`: The whole pass, on a stack that refuses.
-/

namespace ArduinoBeken

namespace BLE

/-- The handles an object stores. -/
def Gatt.storedPair (s : Gatt) (c : CharId) : Nat × Nat :=
  ((s.chars c).gattServiceHandle, (s.chars c).gattCharHandle)

/-- A characteristic has an entry in the Ethermind database under the handles
    it stores, and is listed. -/
structure EthermindEntry (s : Gatt) (c : CharId) : Prop where
  entry : ∃ e ∈ s.sdk.ethChars, e.owner = c ∧ (e.serviceHandle, e.charHandle) = s.storedPair c
  listed : c ∈ s.sCharacteristics

/-- Flags and handles agree with the Ethermind database. -/
structure EthermindPlaced (s : Gatt) : Prop where
  entry : ∀ c, (s.chars c).gattRegistered = true → EthermindEntry s c
  service : ∀ svc, (s.services svc).gattRegistered = true →
    ((s.services svc).gattServiceHandle, svc) ∈ s.sdk.ethServices

/-- A characteristic that notifies has its descriptor. -/
def EthermindCccd (s : Gatt) (c : CharId) : Prop :=
  (s.chars c).notifies = true → s.storedPair c ∈ s.sdk.ethCccds

/-- Flags, handles and descriptors agree with the Ethermind database. -/
structure EthermindSound (s : Gatt) : Prop extends EthermindPlaced s where
  cccd : ∀ c, (s.chars c).gattRegistered = true → EthermindCccd s c

/-- What a part of a pass did to flags and handles. -/
structure Registers (cs : List CharId) (s s' : Gatt) : Prop where
  kept : ∀ c, (s.chars c).gattRegistered = true →
    (s'.chars c).gattRegistered = true ∧ s'.storedPair c = s.storedPair c
  fresh : ∀ c, (s'.chars c).gattRegistered = true → (s.chars c).gattRegistered = true ∨ c ∈ cs
  all : ∀ c ∈ cs, (s'.chars c).gattRegistered = true
  service : ∀ svc, (s.services svc).gattRegistered = true →
    (s'.services svc).gattRegistered = true
  stack : s'.useLegacyStack = s.useLegacyStack

theorem Registers.refl (s : Gatt) : Registers [] s s :=
  ⟨fun _ h => ⟨h, rfl⟩, fun _ h => Or.inl h, fun _ h => absurd h List.not_mem_nil, fun _ h => h,
    rfl⟩

/-- Two passes register what both have registered. -/
theorem Registers.trans {cs ds : List CharId} {s s' s'' : Gatt} (h1 : Registers cs s s')
    (h2 : Registers ds s' s'') : Registers (cs ++ ds) s s'' where
  kept c hc := by
    rcases h1.kept c hc with ⟨hc', heq⟩
    rcases h2.kept c hc' with ⟨hc'', heq'⟩
    exact ⟨hc'', heq'.trans heq⟩
  fresh c hc := by
    rcases h2.fresh c hc with hc' | hmem
    · rcases h1.fresh c hc' with hc'' | hmem
      · exact Or.inl hc''
      · exact Or.inr (List.mem_append_left ds hmem)
    · exact Or.inr (List.mem_append_right cs hmem)
  all c hc := by
    rcases List.mem_append.1 hc with h | h
    · exact (h2.kept c (h1.all c h)).1
    · exact h2.all c h
  service svc h := h2.service svc (h1.service svc h)
  stack := h2.stack.trans h1.stack

/-- A characteristic that is registered already may be counted in. -/
theorem Registers.cons_self {c : CharId} {s : Gatt} (h : (s.chars c).gattRegistered = true) :
    Registers [c] s s where
  kept _ hd := ⟨hd, rfl⟩
  fresh _ hd := Or.inl hd
  all d hd := by rwa [List.mem_singleton.1 hd]
  service _ hsvc := hsvc
  stack := rfl

/-- Two states that agree on flags, handles and what the Ethermind stack
    holds, descriptors of the second aside. -/
structure SamePlaces (s s' : Gatt) : Prop where
  flags : ∀ c, (s'.chars c).gattRegistered = (s.chars c).gattRegistered ∧
    s'.storedPair c = s.storedPair c ∧ (s'.chars c).properties = (s.chars c).properties
  services : s'.services = s.services
  listed : s'.sCharacteristics = s.sCharacteristics
  ethChars : s'.sdk.ethChars = s.sdk.ethChars
  ethServices : s'.sdk.ethServices = s.sdk.ethServices
  ethCccds : ∀ p ∈ s.sdk.ethCccds, p ∈ s'.sdk.ethCccds
  stack : s'.useLegacyStack = s.useLegacyStack

theorem SamePlaces.refl (s : Gatt) : SamePlaces s s :=
  ⟨fun _ => ⟨rfl, rfl, rfl⟩, rfl, rfl, rfl, rfl, fun _ hp => hp, rfl⟩

theorem SamePlaces.trans {s s' s'' : Gatt} (h1 : SamePlaces s s') (h2 : SamePlaces s' s'') :
    SamePlaces s s'' :=
  ⟨fun c => ⟨(h2.flags c).1.trans (h1.flags c).1, (h2.flags c).2.1.trans (h1.flags c).2.1,
      (h2.flags c).2.2.trans (h1.flags c).2.2⟩,
    h2.services.trans h1.services, h2.listed.trans h1.listed, h2.ethChars.trans h1.ethChars,
    h2.ethServices.trans h1.ethServices, fun p hp => h2.ethCccds p (h1.ethCccds p hp),
    h2.stack.trans h1.stack⟩

/-- States that agree on what the places are read from have the same places. -/
theorem SamePlaces.of_eq {s s' : Gatt} (hc : s'.chars = s.chars) (hs : s'.services = s.services)
    (hl : s'.sCharacteristics = s.sCharacteristics) (he : s'.sdk.ethChars = s.sdk.ethChars)
    (hsv : s'.sdk.ethServices = s.sdk.ethServices) (hd : s'.sdk.ethCccds = s.sdk.ethCccds)
    (hu : s'.useLegacyStack = s.useLegacyStack) : SamePlaces s s' :=
  ⟨fun c => by simp only [Gatt.storedPair, hc, and_self], hs, hl, he, hsv, fun p hp => by rwa [hd],
    hu⟩

/-- Preparing a value buffer moves no place. -/
theorem samePlaces_prepareBuffer (s : Gatt) (c : CharId) : SamePlaces s (s.prepareBuffer c) := by
  refine ⟨fun d => ?_, rfl, rfl, rfl, rfl, fun _ hp => hp, rfl⟩
  by_cases hdc : d = c
  · subst hdc
    have h := (s.chars d).ensureGattValueBuffer_frame
    simp only [Gatt.storedPair, Gatt.prepareBuffer, Gatt.setChar, Function.update_self]
    exact ⟨h.gattRegistered, by rw [h.gattServiceHandle, h.gattCharHandle], h.properties⟩
  · simp only [Gatt.storedPair, Gatt.prepareBuffer, Gatt.setChar, Function.update_of_ne hdc,
      and_self]

/-- A step that moves no place registers nothing. -/
theorem SamePlaces.registers {s s' : Gatt} (h : SamePlaces s s') : Registers [] s s' where
  kept c hc := ⟨(h.flags c).1.trans hc, (h.flags c).2.1⟩
  fresh c hc := Or.inl ((h.flags c).1.symm.trans hc)
  all _ hc := absurd hc List.not_mem_nil
  service svc hsvc := by rwa [h.services]
  stack := h.stack

/-- A step that moves no place keeps a characteristic's entry. -/
theorem SamePlaces.entry {s s' : Gatt} (h : SamePlaces s s') {c : CharId}
    (he : EthermindEntry s c) : EthermindEntry s' c := by
  rcases he.entry with ⟨e, hmem, howner, hpair⟩
  exact ⟨⟨e, by rwa [h.ethChars], howner, by rw [(h.flags c).2.1, hpair]⟩, by
    rw [h.listed]; exact he.listed⟩

/-- A step that moves no place keeps every entry. -/
theorem SamePlaces.placed {s s' : Gatt} (h : SamePlaces s s') (hp : EthermindPlaced s) :
    EthermindPlaced s' where
  entry c hc := h.entry (hp.entry c ((h.flags c).1.symm.trans hc))
  service svc hsvc := by
    rw [h.services] at hsvc ⊢
    rw [h.ethServices]
    exact hp.service svc hsvc

/-- A step that moves no place keeps a descriptor's entry. -/
theorem SamePlaces.cccd {s s' : Gatt} (h : SamePlaces s s') {c : CharId}
    (hd : EthermindCccd s c) : EthermindCccd s' c := by
  intro hnot
  rw [(h.flags c).2.1]
  refine h.ethCccds _ (hd ?_)
  rw [BLECharacteristic.notifies, ← (h.flags c).2.2]
  exact hnot

/-- A step that moves no place keeps the invariant. -/
theorem SamePlaces.sound {s s' : Gatt} (h : SamePlaces s s') (hs : EthermindSound s) :
    EthermindSound s' :=
  ⟨h.placed hs.toEthermindPlaced, fun c hc => h.cccd (hs.cccd c ((h.flags c).1.symm.trans hc))⟩

/-- The lookup finds a listed characteristic that shares its handles with no
    other registered one. -/
theorem findCharacteristic_eq_some {s : Gatt} {c : CharId} (hl : c ∈ s.sCharacteristics)
    (hc : (s.chars c).gattRegistered = true)
    (hu : ∀ d, (s.chars d).gattRegistered = true → s.storedPair d = s.storedPair c → d = c) :
    s.findCharacteristic (s.chars c).gattServiceHandle (s.chars c).gattCharHandle = some c := by
  cases hf : s.findCharacteristic (s.chars c).gattServiceHandle (s.chars c).gattCharHandle with
  | none =>
      have hno := List.find?_eq_none.1 hf c hl
      simp only [hc, beq_self_eq_true, Bool.and_self, not_true_eq_false] at hno
  | some d =>
      have hd := List.find?_some hf
      simp only [Bool.and_eq_true, beq_iff_eq] at hd
      rw [hu d hd.1.1 (Prod.ext hd.1.2 hd.2)]

/-- Two entries of the database under one pair of handles are one. -/
theorem entry_unique {s : Gatt} (h : s.sdk.Valid) {e f : EthermindChar}
    (he : e ∈ s.sdk.ethChars) (hf : f ∈ s.sdk.ethChars)
    (hpair : (e.serviceHandle, e.charHandle) = (f.serviceHandle, f.charHandle)) : e = f :=
  List.inj_on_of_nodup_map h.handles he hf hpair

/-- A placed characteristic is found under the handles it stores. -/
theorem findCharacteristic_of_placed {s : Gatt} (h : EthermindPlaced s) (hv : s.sdk.Valid)
    {c : CharId} (hc : (s.chars c).gattRegistered = true) :
    s.findCharacteristic (s.chars c).gattServiceHandle (s.chars c).gattCharHandle = some c := by
  rcases (h.entry c hc).entry with ⟨e, he, howner, hpair⟩
  refine findCharacteristic_eq_some (h.entry c hc).listed hc fun d hd hsame => ?_
  rcases (h.entry d hd).entry with ⟨f, hf, hfowner, hfpair⟩
  have heq := entry_unique hv hf he (hfpair.trans (hsame.trans hpair.symm))
  rw [← hfowner, ← howner, heq]

/-! ## One registration -/

/-- A characteristic the stack turned down. -/
theorem addCharacteristic_refused {s t : Gatt} {sh u p q : Nat} {c : CharId}
    (h : s.bkBleGattDbAddCharacteristic sh u p q c = (none, t)) : SamePlaces s t := by
  unfold Gatt.bkBleGattDbAddCharacteristic at h
  split at h
  · split_ifs at h
    · exact absurd (Prod.mk.inj h).1 (Option.some_ne_none _)
    · rw [← (Prod.mk.inj h).2]
      exact SamePlaces.of_eq rfl rfl rfl rfl rfl rfl rfl
  · rw [← (Prod.mk.inj h).2]
    exact SamePlaces.of_eq rfl rfl rfl rfl rfl rfl rfl

/-- A characteristic the stack took on, under a new pair of handles. -/
structure Added (s t : Gatt) (sh ch : Nat) (c : CharId) : Prop where
  chars : t.chars = s.chars
  services : t.services = s.services
  listed : t.sCharacteristics = s.sCharacteristics
  ethServices : t.sdk.ethServices = s.sdk.ethServices
  ethCccds : t.sdk.ethCccds = s.sdk.ethCccds
  stack : t.useLegacyStack = s.useLegacyStack
  new : (sh, ch) ∉ s.ethHandles
  entry : ∃ e, t.sdk.ethChars = s.sdk.ethChars ++ [e] ∧ e.owner = c ∧
    (e.serviceHandle, e.charHandle) = (sh, ch)

/-- A call that gave a handle has added the characteristic under it. -/
theorem addCharacteristic_added {s t : Gatt} {sh ch u p q : Nat} {c : CharId}
    (h : s.bkBleGattDbAddCharacteristic sh u p q c = (some ch, t)) : Added s t sh ch c := by
  unfold Gatt.bkBleGattDbAddCharacteristic at h
  split at h
  · split_ifs at h with hfresh
    · obtain ⟨hch, rfl⟩ := Prod.mk.inj h
      obtain rfl := Option.some.inj hch
      exact ⟨rfl, rfl, rfl, rfl, rfl, rfl, hfresh.2, ⟨_, rfl, rfl, rfl⟩⟩
    · exact absurd (Prod.mk.inj h).1.symm (Option.some_ne_none ch)
  · exact absurd (Prod.mk.inj h).1.symm (Option.some_ne_none ch)

/-- The objects after one of them was flagged. -/
theorem chars_flagCharacteristic (s : Gatt) (c : CharId) (sh ch : Nat) :
    (s.flagCharacteristic c sh ch).chars = Function.update s.chars c { s.chars c with
      gattServiceHandle := sh, gattCharHandle := ch, gattRegistered := true } := by
  unfold Gatt.flagCharacteristic Gatt.listCharacteristic
  split_ifs <;> rfl

/-- The flagged characteristic is registered under its two handles. -/
theorem flagged_self (s : Gatt) (c : CharId) (sh ch : Nat) :
    ((s.flagCharacteristic c sh ch).chars c).gattRegistered = true ∧
      (s.flagCharacteristic c sh ch).storedPair c = (sh, ch) := by
  simp only [Gatt.storedPair, chars_flagCharacteristic, Function.update_self, and_self]

/-- Flagging one characteristic leaves every other alone. -/
theorem flagged_of_ne (s : Gatt) {c d : CharId} (h : d ≠ c) (sh ch : Nat) :
    (s.flagCharacteristic c sh ch).chars d = s.chars d := by
  rw [chars_flagCharacteristic, Function.update_of_ne h]

/-- Flagging keeps what was listed. -/
theorem flagCharacteristic_frame (s : Gatt) (c : CharId) (sh ch : Nat) :
    (s.flagCharacteristic c sh ch).services = s.services ∧
      (s.flagCharacteristic c sh ch).sdk = s.sdk ∧
      (s.flagCharacteristic c sh ch).useLegacyStack = s.useLegacyStack ∧
      ∀ d ∈ s.sCharacteristics, d ∈ (s.flagCharacteristic c sh ch).sCharacteristics := by
  unfold Gatt.flagCharacteristic Gatt.listCharacteristic
  split_ifs
  · exact ⟨rfl, rfl, rfl, fun _ hd => List.mem_append_left _ hd⟩
  · exact ⟨rfl, rfl, rfl, fun _ hd => hd⟩

/-- A flagged characteristic is listed, unless another one that is listed and
    registered shares its handles. -/
theorem listed_flagCharacteristic (s : Gatt) (c : CharId) (sh ch : Nat)
    (h : ∀ d ∈ s.sCharacteristics, (s.chars d).gattRegistered = true → s.storedPair d = (sh, ch) →
      d = c) : c ∈ (s.flagCharacteristic c sh ch).sCharacteristics := by
  let t := s.setChar c { s.chars c with
    gattServiceHandle := sh, gattCharHandle := ch, gattRegistered := true }
  change c ∈ (t.listCharacteristic c sh ch).sCharacteristics
  unfold Gatt.listCharacteristic
  split_ifs with hnone
  · exact List.mem_append_right _ (List.mem_singleton_self c)
  · rw [Option.isNone_iff_eq_none] at hnone
    rcases Option.ne_none_iff_exists'.1 hnone with ⟨d, hd⟩
    have hmem : d ∈ s.sCharacteristics := List.mem_of_find?_eq_some hd
    have hmatch := List.find?_some hd
    simp only [Bool.and_eq_true, beq_iff_eq] at hmatch
    by_cases hdc : d = c
    · rwa [← hdc]
    · have hold : t.chars d = s.chars d := Function.update_of_ne hdc _ _
      rw [hold] at hmatch
      exact absurd (h d hmem hmatch.1.1 (Prod.ext hmatch.1.2 hmatch.2)) hdc

/-- What was added and flagged is registered, and nothing else changed. -/
theorem registers_flagged {s t : Gatt} {sh ch : Nat} {c : CharId} (ha : Added s t sh ch c)
    (hc : (s.chars c).gattRegistered = false) :
    Registers [c] s (t.flagCharacteristic c sh ch) where
  kept d hd := by
    have hdc : d ≠ c := by
      rintro rfl
      rw [hc] at hd
      exact Bool.false_ne_true hd
    rw [Gatt.storedPair, flagged_of_ne t hdc, ha.chars]
    exact ⟨hd, rfl⟩
  fresh d hd := by
    by_cases hdc : d = c
    · exact Or.inr (List.mem_singleton.2 hdc)
    · rw [flagged_of_ne t hdc, ha.chars] at hd
      exact Or.inl hd
  all d hd := by
    rw [List.mem_singleton.1 hd]
    exact (flagged_self t c sh ch).1
  service svc hsvc := by
    rw [(flagCharacteristic_frame t c sh ch).1, ha.services]
    exact hsvc
  stack := (flagCharacteristic_frame t c sh ch).2.2.1.trans ha.stack

/-- Flagging what was just added keeps flags and handles in agreement with the
    database. -/
theorem placed_flagged {s t : Gatt} {sh ch : Nat} {c : CharId} (ha : Added s t sh ch c)
    (h : EthermindPlaced s) : EthermindPlaced (t.flagCharacteristic c sh ch) := by
  rcases flagCharacteristic_frame t c sh ch with ⟨hservices, hsdk, -, hlisted⟩
  rcases ha.entry with ⟨e, hchars, howner, hpair⟩
  -- No entry had the new handles, so no registered characteristic stores them.
  have hnew : ∀ d, (s.chars d).gattRegistered = true → s.storedPair d ≠ (sh, ch) := by
    intro d hd hsame
    rcases (h.entry d hd).entry with ⟨f, hf, -, hfpair⟩
    refine ha.new ?_
    rw [← hsame, ← hfpair]
    exact List.mem_map_of_mem hf
  refine ⟨fun d hd => ?_, fun svc hsvc => ?_⟩
  -- the new entry is that of the characteristic just added, the others are as they were
  · by_cases hdc : d = c
    · subst hdc
      refine ⟨⟨e, ?_, howner, ?_⟩, ?_⟩
      · rw [hsdk, hchars]
        exact List.mem_append_right _ (List.mem_singleton_self e)
      · rw [(flagged_self t d sh ch).2, hpair]
      · refine listed_flagCharacteristic t d sh ch fun x _ hreg hsame => ?_
        rw [ha.chars] at hreg
        rw [Gatt.storedPair, ha.chars] at hsame
        exact absurd hsame (hnew x hreg)
    · rw [flagged_of_ne t hdc, ha.chars] at hd
      rcases (h.entry d hd).entry with ⟨f, hf, hfowner, hfpair⟩
      refine ⟨⟨f, ?_, hfowner, ?_⟩, ?_⟩
      · rw [hsdk, hchars]
        exact List.mem_append_left _ hf
      · rw [Gatt.storedPair, flagged_of_ne t hdc, ha.chars]
        exact hfpair
      · refine hlisted d ?_
        rw [ha.listed]
        exact (h.entry d hd).listed
  · rw [hservices, ha.services] at hsvc ⊢
    rw [hsdk, ha.ethServices]
    exact h.service svc hsvc

/-- Descriptors that were there stay, when a characteristic is added and
    flagged. -/
theorem cccd_flagged {s t : Gatt} {sh ch : Nat} {c d : CharId} (ha : Added s t sh ch c)
    (hdc : d ≠ c) (h : EthermindCccd s d) : EthermindCccd (t.flagCharacteristic c sh ch) d := by
  intro hnot
  rw [flagged_of_ne t hdc, ha.chars] at hnot
  rw [Gatt.storedPair, flagged_of_ne t hdc, ha.chars, (flagCharacteristic_frame t c sh ch).2.1,
    ha.ethCccds]
  exact h hnot

/-- Asking for a descriptor adds it, or changes nothing. -/
theorem samePlaces_addDescriptor (s : Gatt) (sh ch : Nat) :
    SamePlaces s (s.bkBleGattDbAddCharacteristicDescriptor sh ch).2 ∧
      ((s.bkBleGattDbAddCharacteristicDescriptor sh ch).1 = true →
        (sh, ch) ∈ (s.bkBleGattDbAddCharacteristicDescriptor sh ch).2.sdk.ethCccds) := by
  unfold Gatt.bkBleGattDbAddCharacteristicDescriptor
  split
  · split_ifs
    · exact ⟨⟨fun _ => ⟨rfl, rfl, rfl⟩, rfl, rfl, rfl, rfl, fun _ hp => List.mem_append_left _ hp,
        rfl⟩,
        fun _ => List.mem_append_right _ (List.mem_singleton_self _)⟩
    · exact ⟨SamePlaces.of_eq rfl rfl rfl rfl rfl rfl rfl, fun h => nomatch h⟩
  · exact ⟨SamePlaces.of_eq rfl rfl rfl rfl rfl rfl rfl, fun h => nomatch h⟩

/-- What a part of a pass over some characteristics does: it gets to a prefix
    of them, to all of them if it succeeds, keeps flags and handles in
    agreement with the database, and descriptors as well if it succeeds. -/
structure EthermindStep (todo : List CharId) (s : Gatt) (r : Bool × Gatt) : Prop where
  registers : ∃ cs, cs <+: todo ∧ Registers cs s r.2 ∧ (r.1 = true → cs = todo)
  placed : EthermindPlaced s → EthermindPlaced r.2
  sound : EthermindSound s → r.1 = true → EthermindSound r.2

/-- A refused step that moves no place is one of any list. -/
theorem EthermindStep.refused {s t : Gatt} (h : SamePlaces s t) (todo : List CharId) :
    EthermindStep todo s (false, t) where
  registers := ⟨[], List.nil_prefix, h.registers, fun hok => absurd hok Bool.false_ne_true⟩
  placed := h.placed
  sound _ hok := absurd hok Bool.false_ne_true

/-- A step that moves no place does the empty list. -/
theorem EthermindStep.nothing {s t : Gatt} (h : SamePlaces s t) : EthermindStep [] s (true, t) where
  registers := ⟨[], List.nil_prefix, h.registers, fun _ => rfl⟩
  placed := h.placed
  sound hs _ := h.sound hs

/-- Where one list's step is refused, the rest of the work is not begun. -/
theorem EthermindStep.stop {todo rest : List CharId} {s t : Gatt}
    (h : EthermindStep todo s (false, t)) : EthermindStep (todo ++ rest) s (false, t) where
  registers := by
    rcases h.registers with ⟨cs, hinit, hregs, -⟩
    exact ⟨cs, hinit.trans (List.prefix_append todo rest), hregs,
      fun hok => absurd hok Bool.false_ne_true⟩
  placed := h.placed
  sound _ hok := absurd hok Bool.false_ne_true

/-- After a list's step comes the step of what is left. -/
theorem EthermindStep.next {todo rest : List CharId} {s t : Gatt} {r : Bool × Gatt}
    (h1 : EthermindStep todo s (true, t)) (h2 : EthermindStep rest t r) :
    EthermindStep (todo ++ rest) s r where
  registers := by
    rcases h1.registers with ⟨cs, -, hregs, hall⟩
    rcases h2.registers with ⟨ds, hinit, hregs', hall'⟩
    obtain rfl := hall rfl
    exact ⟨cs ++ ds, (List.prefix_append_right_inj cs).2 hinit, hregs.trans hregs',
      fun hok => by rw [hall' hok]⟩
  placed h := h2.placed (h1.placed h)
  sound h hok := h2.sound (h1.sound h rfl) hok

/-- One registration, with the descriptor last. -/
theorem registerCharacteristicInGatt_step (s : Gatt) (svc : SvcId) (c : CharId) :
    EthermindStep [c] s (s.registerCharacteristicInGatt svc c) := by
  unfold Gatt.registerCharacteristicInGatt
  split
  · rename_i hreg
    exact ⟨⟨[c], List.prefix_rfl, Registers.cons_self hreg, fun _ => rfl⟩, id, fun h _ => h⟩
  rename_i hreg
  rw [Bool.not_eq_true] at hreg
  split
  · exact EthermindStep.refused (SamePlaces.refl s) [c]
  split
  · exact EthermindStep.refused (SamePlaces.refl s) [c]
  simp only
  have hprep := samePlaces_prepareBuffer s c
  split
  · rename_i t heq
    exact EthermindStep.refused (hprep.trans (addCharacteristic_refused heq)) [c]
  rename_i ch t heq
  have ha := addCharacteristic_added heq
  have hregs := hprep.registers.trans
    (registers_flagged ha ((hprep.flags c).1.trans hreg))
  have hplaced : EthermindPlaced s → EthermindPlaced (t.flagCharacteristic c
      ((s.prepareBuffer c).services svc).gattServiceHandle ch) :=
    fun h => placed_flagged ha (hprep.placed h)
  -- The descriptors of the others stay; whether there is one for this one
  -- decides the result.
  have hother : EthermindSound s → ∀ d, d ≠ c →
      ((t.flagCharacteristic c ((s.prepareBuffer c).services svc).gattServiceHandle
        ch).chars d).gattRegistered = true →
      EthermindCccd (t.flagCharacteristic c
        ((s.prepareBuffer c).services svc).gattServiceHandle ch) d := by
    intro h d hdc hd
    rw [flagged_of_ne t hdc, ha.chars] at hd
    exact cccd_flagged ha hdc ((hprep.sound h).cccd d hd)
  split_ifs with hnot
  · rcases samePlaces_addDescriptor (t.flagCharacteristic c
      ((s.prepareBuffer c).services svc).gattServiceHandle ch)
      ((s.prepareBuffer c).services svc).gattServiceHandle ch with ⟨hsame, hcccd⟩
    refine ⟨⟨[c], List.prefix_rfl, ?_, fun _ => rfl⟩, fun h => hsame.placed (hplaced h),
      fun h hok => ⟨hsame.placed (hplaced h.toEthermindPlaced), fun d hd => ?_⟩⟩
    · have htrans := hregs.trans hsame.registers
      rwa [List.append_nil] at htrans
    · by_cases hdc : d = c
      · subst hdc
        intro _
        rw [(hsame.flags d).2.1, (flagged_self t d _ ch).2]
        exact hcccd hok
      · exact hsame.cccd (hother h d hdc ((hsame.flags d).1.symm.trans hd))
  · refine ⟨⟨[c], List.prefix_rfl, hregs, fun _ => rfl⟩, hplaced,
      fun h _ => ⟨hplaced h.toEthermindPlaced, fun d hd => ?_⟩⟩
    by_cases hdc : d = c
    · subst hdc
      exact fun hyes => absurd hyes hnot
    · exact hother h d hdc hd

/-! ## The loops -/

/-- A service's characteristics are registered in their order, up to a refusal. -/
theorem registerCharacteristics_step (svc : SvcId) (cs : List CharId) (s : Gatt) :
    EthermindStep cs s (Gatt.registerCharacteristics svc cs s) := by
  induction cs generalizing s with
  | nil => exact EthermindStep.nothing (SamePlaces.refl s)
  | cons c cs ih =>
      have hone := registerCharacteristicInGatt_step s svc c
      unfold Gatt.registerCharacteristics
      split
      · rename_i t heq
        rw [heq] at hone
        exact hone.stop
      · rename_i t heq
        rw [heq] at hone
        exact hone.next (ih t)

/-- A service that is refused moves no place. -/
theorem addService_refused {s t : Gatt} {svc : SvcId}
    (h : s.bkBleGattDbAddService svc = (none, t)) : SamePlaces s t := by
  unfold Gatt.bkBleGattDbAddService at h
  split at h
  · split_ifs at h
    · rw [← (Prod.mk.inj h).2]
      exact SamePlaces.of_eq rfl rfl rfl rfl rfl rfl rfl
    · exact absurd (Prod.mk.inj h).1 (Option.some_ne_none _)
  · rw [← (Prod.mk.inj h).2]
    exact SamePlaces.of_eq rfl rfl rfl rfl rfl rfl rfl

/-- Flagging a service that was just added. -/
theorem addService_step {s t : Gatt} {svc : SvcId} {handle : Nat}
    (h : s.bkBleGattDbAddService svc = (some handle, t)) :
    EthermindStep [] s (true, t.setService svc
      { t.services svc with gattServiceHandle := handle, gattRegistered := true }) := by
  -- The stack changes in its list of services only.
  have hadd : t.chars = s.chars ∧ t.services = s.services ∧
      t.sCharacteristics = s.sCharacteristics ∧ t.sdk.ethChars = s.sdk.ethChars ∧
      t.sdk.ethCccds = s.sdk.ethCccds ∧ t.useLegacyStack = s.useLegacyStack ∧
      t.sdk.ethServices = s.sdk.ethServices ++ [(handle, svc)] := by
    unfold Gatt.bkBleGattDbAddService at h
    split at h
    · split_ifs at h
      · exact absurd (Prod.mk.inj h).1.symm (Option.some_ne_none _)
      · obtain ⟨hh, rfl⟩ := Prod.mk.inj h
        obtain rfl := Option.some.inj hh
        exact ⟨rfl, rfl, rfl, rfl, rfl, rfl, rfl⟩
    · exact absurd (Prod.mk.inj h).1.symm (Option.some_ne_none _)
  -- Only the entry of `svc` differs, so every other service is where it was.
  rcases hadd with ⟨hchars, hservices, hlisted, heth, hcccds, hstack, hsvcs⟩
  have hplaced : EthermindPlaced s → EthermindPlaced (t.setService svc
      { t.services svc with gattServiceHandle := handle, gattRegistered := true }) := by
    intro hp
    refine ⟨fun c hc => ?_, fun x hx => ?_⟩
    · change (t.chars c).gattRegistered = true at hc
      rw [hchars] at hc
      rcases (hp.entry c hc).entry with ⟨e, he, howner, hpair⟩
      refine ⟨⟨e, ?_, howner, ?_⟩, ?_⟩
      · change e ∈ t.sdk.ethChars
        rwa [heth]
      · change _ = ((t.chars c).gattServiceHandle, (t.chars c).gattCharHandle)
        rwa [hchars]
      · change c ∈ t.sCharacteristics
        rw [hlisted]
        exact (hp.entry c hc).listed
    · change _ ∈ t.sdk.ethServices
      rw [hsvcs]
      by_cases hxs : x = svc
      · subst hxs
        simp only [Gatt.setService, Function.update_self]
        exact List.mem_append_right _ (List.mem_singleton_self _)
      · simp only [Gatt.setService, Function.update_of_ne hxs, hservices] at hx ⊢
        exact List.mem_append_left _ (hp.service x hx)
  refine ⟨⟨[], List.nil_prefix, ⟨fun c hc => ?_, fun c hc => ?_, fun _ hc => absurd hc
    List.not_mem_nil, fun x hx => ?_, hstack⟩, fun _ => rfl⟩, hplaced, fun hs _ =>
    ⟨hplaced hs.toEthermindPlaced, fun c hc => ?_⟩⟩
  · simp only [Gatt.storedPair, Gatt.setService, hchars]
    exact ⟨hc, True.intro⟩
  · simp only [Gatt.setService, hchars] at hc
    exact Or.inl hc
  · by_cases hxs : x = svc
    · subst hxs
      simp only [Gatt.setService, Function.update_self]
    · simp only [Gatt.setService, Function.update_of_ne hxs, hservices]
      exact hx
  · intro hnot
    simp only [Gatt.setService, Gatt.storedPair, hchars, hcccds] at hc hnot ⊢
    exact hs.cccd c hc hnot

/-- A service registers its own characteristics, up to a refusal. -/
theorem registerService_step (s : Gatt) (svc : SvcId) :
    EthermindStep (s.services svc).characteristics s (s.registerService svc) := by
  unfold Gatt.registerService
  -- registered already: its characteristics are what is left
  split
  · exact registerCharacteristics_step svc _ s
  split
  · exact EthermindStep.refused (SamePlaces.refl s) _
  split
  -- a service the stack refuses is as if not tried
  · rename_i t heq
    exact EthermindStep.refused (addService_refused heq) _
  -- added: its characteristics are still the same ones
  · rename_i handle t heq
    have hsame : (t.services svc).characteristics = (s.services svc).characteristics := by
      have h := (sdkOnly_addService s svc).services
      rw [heq] at h
      rw [h]
    have hmembers : ((t.setService svc { t.services svc with
        gattServiceHandle := handle, gattRegistered := true }).services svc).characteristics =
        (s.services svc).characteristics := by
      simp only [Gatt.setService, Function.update_self, hsame]
    simp only
    rw [hmembers]
    exact (addService_step heq).next (registerCharacteristics_step svc _ _)

/-- A service that registers is flagged, and stays flagged. -/
theorem registerService_flags (s : Gatt) (svc : SvcId) (h : (s.registerService svc).1 = true) :
    ((s.registerService svc).2.services svc).gattRegistered = true := by
  have hkeep : ∀ (cs : List CharId) (t : Gatt), (t.services svc).gattRegistered = true →
      ((Gatt.registerCharacteristics svc cs t).2.services svc).gattRegistered = true := by
    intro cs t ht
    rcases (registerCharacteristics_step svc cs t).registers with ⟨_, -, hregs, -⟩
    exact hregs.service svc ht
  by_cases hreg : (s.services svc).gattRegistered = true
  · simp only [Gatt.registerService, if_pos hreg]
    exact hkeep _ s hreg
  · simp only [Gatt.registerService, if_neg hreg] at h ⊢
    split at h
    · exact absurd h Bool.false_ne_true
    split at h
    · exact absurd h Bool.false_ne_true
    rename_i handle t _
    refine hkeep _ _ ?_
    simp only [Gatt.setService, Function.update_self]

/-- The characteristics of a list of services, in order. -/
def members (s : Gatt) (services : List (Option SvcId)) : List CharId :=
  services.reduceOption.flatMap fun svc => (s.services svc).characteristics

/-- The finalisation does not change which characteristics the services hold. -/
theorem members_congr {s s' : Gatt} (h : Finalizes s s') (services : List (Option SvcId)) :
    members s' services = members s services := by
  unfold members
  exact congrArg (fun f => services.reduceOption.flatMap f) (funext fun svc => (h.service svc).1)

/-- The characteristics of a list of services are those of the first and of the rest. -/
theorem members_cons (s : Gatt) (svc : SvcId) (rest : List (Option SvcId)) :
    members s (some svc :: rest) = (s.services svc).characteristics ++ members s rest := by
  rw [members, List.reduceOption_cons_of_some, List.flatMap_cons]
  rfl

/-- The services register their characteristics in their order, up to a refusal. -/
theorem registerServices_step (services : List (Option SvcId)) (s : Gatt) :
    EthermindStep (members s services) s (Gatt.registerServices services s) := by
  induction services generalizing s with
  | nil => exact EthermindStep.nothing (SamePlaces.refl s)
  | cons entry rest ih =>
      cases entry with
      | none => exact ih s
      | some svc =>
          have hone := registerService_step s svc
          have hframe := finalizes_closed.registerService s svc
          rw [members_cons]
          unfold Gatt.registerServices
          split
          · rename_i t heq
            rw [heq] at hone
            exact hone.stop
          · rename_i t heq
            rw [heq] at hone hframe
            have hrest := ih t
            rw [members_congr hframe] at hrest
            exact hone.next hrest

/-- A pass that succeeds has flagged every service. -/
theorem registerServices_flags (services : List (Option SvcId)) (s : Gatt)
    (h : (Gatt.registerServices services s).1 = true) :
    ∀ svc, some svc ∈ services →
      ((Gatt.registerServices services s).2.services svc).gattRegistered = true := by
  induction services generalizing s with
  | nil => exact fun _ hmem => absurd hmem List.not_mem_nil
  | cons entry rest ih =>
      cases entry with
      | none =>
          intro svc hmem
          rcases List.mem_cons.1 hmem with heq | hrest
          · exact absurd heq (Option.some_ne_none svc)
          · exact ih s h svc hrest
      | some x =>
          have hflag := registerService_flags s x
          unfold Gatt.registerServices at h ⊢
          split at h
          · exact absurd h Bool.false_ne_true
          rename_i t heq
          rw [heq] at hflag
          intro svc hmem
          -- the flag of a service stays while the others are registered
          rcases List.mem_cons.1 hmem with hx | hrest
          · obtain rfl := Option.some.inj hx
            rcases (registerServices_step rest t).registers with ⟨_, -, hregs, -⟩
            exact hregs.service svc (hflag rfl)
          · exact ih t h svc hrest

/-- Completing the database moves no place. -/
theorem samePlaces_addCompleted (s : Gatt) : SamePlaces s s.bkBleGattDbAddCompleted.2 := by
  unfold Gatt.bkBleGattDbAddCompleted
  split <;> exact SamePlaces.of_eq rfl rfl rfl rfl rfl rfl rfl

/-- Handing over the callback moves no place. -/
theorem samePlaces_setCallback (s : Gatt) : SamePlaces s s.bkBleGattDbSetCallback.2 := by
  unfold Gatt.bkBleGattDbSetCallback
  split <;> exact SamePlaces.of_eq rfl rfl rfl rfl rfl rfl rfl

/-- The whole pass, and the services it flagged. -/
theorem finalizeEthermindDatabase_step (s : Gatt) (services : List (Option SvcId)) :
    EthermindStep (members s services) s (s.finalizeEthermindDatabase services) ∧
      ((s.finalizeEthermindDatabase services).1 = true → ∀ svc, some svc ∈ services →
        ((s.finalizeEthermindDatabase services).2.services svc).gattRegistered = true) := by
  -- The callback is installed first, and is no part of a place.
  have hloop := (EthermindStep.nothing (SamePlaces.of_eq rfl rfl rfl rfl rfl rfl rfl :
    SamePlaces s s.ensureEventCallback)).next (registerServices_step services s.ensureEventCallback)
  have hflags := registerServices_flags services s.ensureEventCallback
  rw [List.nil_append] at hloop
  unfold Gatt.finalizeEthermindDatabase
  split
  · rename_i t heq
    rw [heq] at hloop
    exact ⟨hloop, fun h => absurd h Bool.false_ne_true⟩
  rename_i t heq
  rw [heq] at hloop hflags
  have hdone := samePlaces_addCompleted t
  -- The database is closed: from here on no entry is added.
  split
  · rename_i u heq2
    rw [heq2] at hdone
    refine ⟨?_, fun h => absurd h Bool.false_ne_true⟩
    have hstop := hloop.next (EthermindStep.refused hdone [])
    rwa [List.append_nil] at hstop
  rename_i u heq2
  rw [heq2] at hdone
  have hlast := hdone.trans (samePlaces_setCallback u)
  refine ⟨?_, fun _ svc hmem => ?_⟩
  · have hboth : EthermindStep [] t u.bkBleGattDbSetCallback := by
      cases hr : u.bkBleGattDbSetCallback with
      | mk ok v =>
          rw [hr] at hlast
          cases ok with
          | true => exact EthermindStep.nothing hlast
          | false => exact EthermindStep.refused hlast []
    have hall := hloop.next hboth
    rwa [List.append_nil] at hall
  · rw [hlast.services]
    exact hflags rfl svc hmem

/-! ## A stack that takes nothing on -/

/-- The stack answers no call of this attempt with a success, as one that is
    not there does. -/
def Refusing (answers : List SdkAnswer) : Prop := ∀ a ∈ answers, ∀ handle, a ≠ .success handle

instance (answers : List SdkAnswer) : Decidable (Refusing answers) :=
  decidable_of_iff (∀ a ∈ answers, (match a with | .success _ => false | _ => true) = true) <| by
    refine forall₂_congr fun a _ => ?_
    cases a with
    | success handle =>
        exact ⟨fun h => absurd h Bool.false_ne_true, fun h => absurd rfl (h handle)⟩
    | err => exact ⟨fun _ _ => SdkAnswer.noConfusion, fun _ => rfl⟩
    | accepted notices => exact ⟨fun _ _ => SdkAnswer.noConfusion, fun _ => rfl⟩

/-- What a part of a pass does to a stack that refuses: it changes nothing. -/
structure Idle (s s' : Gatt) : Prop where
  places : SamePlaces s s'
  refusing : Refusing s'.sdk.answers

theorem Idle.trans {s s' s'' : Gatt} (h1 : Idle s s') (h2 : Idle s' s'') : Idle s s'' :=
  ⟨h1.places.trans h2.places, h2.refusing⟩

/-- A stack that refuses gives no handle. -/
theorem nextAnswer_refusing {s : Gatt} (h : Refusing s.sdk.answers) (handle : Nat) :
    s.nextAnswer ≠ .success handle := by
  unfold Gatt.nextAnswer
  cases ha : s.sdk.answers with
  | nil => exact SdkAnswer.noConfusion
  | cons a as => exact h a (by rw [ha]; exact List.mem_cons_self) handle

/-- Taking a refusal changes nothing else. -/
theorem idle_answered {s : Gatt} (h : Refusing s.sdk.answers) : Idle s s.answered :=
  ⟨SamePlaces.of_eq rfl rfl rfl rfl rfl rfl rfl, fun a ha => h a (List.mem_of_mem_tail ha)⟩

/-- Where the stack refuses, a characteristic's registration does nothing. -/
theorem registerCharacteristicInGatt_idle (s : Gatt) (svc : SvcId) (c : CharId)
    (h : Refusing s.sdk.answers) : Idle s (s.registerCharacteristicInGatt svc c).2 := by
  unfold Gatt.registerCharacteristicInGatt
  split_ifs
  · exact ⟨SamePlaces.refl s, h⟩
  · exact ⟨SamePlaces.refl s, h⟩
  split
  · exact ⟨SamePlaces.refl s, h⟩
  simp only
  have hprep : Idle s (s.prepareBuffer c) := ⟨samePlaces_prepareBuffer s c, h⟩
  have hno : ∀ sh u p q, (s.prepareBuffer c).bkBleGattDbAddCharacteristic sh u p q c =
      (none, (s.prepareBuffer c).answered) := by
    intro sh u p q
    unfold Gatt.bkBleGattDbAddCharacteristic
    split
    · rename_i handle ha
      exact absurd ha (nextAnswer_refusing h handle)
    · rfl
  rw [hno]
  exact hprep.trans (idle_answered hprep.refusing)

/-- Where the stack refuses, a list of characteristics' registration does nothing. -/
theorem registerCharacteristics_idle (svc : SvcId) (cs : List CharId) (s : Gatt)
    (h : Refusing s.sdk.answers) : Idle s (Gatt.registerCharacteristics svc cs s).2 := by
  induction cs generalizing s with
  | nil => exact ⟨SamePlaces.refl s, h⟩
  | cons c cs ih =>
      have hone := registerCharacteristicInGatt_idle s svc c h
      unfold Gatt.registerCharacteristics
      split <;> rename_i t heq <;> rw [heq] at hone
      · exact hone
      · exact hone.trans (ih t hone.refusing)

/-- Where the stack refuses, a service's registration does nothing. -/
theorem registerService_idle (s : Gatt) (svc : SvcId) (h : Refusing s.sdk.answers) :
    Idle s (s.registerService svc).2 := by
  have hno : s.bkBleGattDbAddService svc = (none, s.answered) := by
    unfold Gatt.bkBleGattDbAddService
    split
    · rename_i handle ha
      exact absurd ha (nextAnswer_refusing h handle)
    · rfl
  unfold Gatt.registerService
  split_ifs
  · exact registerCharacteristics_idle svc _ s h
  split
  · exact ⟨SamePlaces.refl s, h⟩
  rw [hno]
  exact idle_answered h

/-- Where the stack refuses, the whole registration does nothing. -/
theorem registerServices_idle (services : List (Option SvcId)) (s : Gatt)
    (h : Refusing s.sdk.answers) : Idle s (Gatt.registerServices services s).2 := by
  induction services generalizing s with
  | nil => exact ⟨SamePlaces.refl s, h⟩
  | cons entry rest ih =>
      cases entry with
      | none => exact ih s h
      | some svc =>
          have hone := registerService_idle s svc h
          unfold Gatt.registerServices
          split <;> rename_i t heq <;> rw [heq] at hone
          · exact hone
          · exact hone.trans (ih t hone.refusing)

/-- With a stack that refuses, the pass fails and changes nothing. -/
theorem finalizeEthermindDatabase_idle (s : Gatt) (services : List (Option SvcId))
    (h : Refusing s.sdk.answers) :
    (s.finalizeEthermindDatabase services).1 = false ∧
      SamePlaces s (s.finalizeEthermindDatabase services).2 := by
  have hstart : SamePlaces s s.ensureEventCallback := SamePlaces.of_eq rfl rfl rfl rfl rfl rfl rfl
  have hloop := registerServices_idle services s.ensureEventCallback h
  unfold Gatt.finalizeEthermindDatabase
  split
  · rename_i t heq
    rw [heq] at hloop
    exact ⟨rfl, hstart.trans hloop.places⟩
  rename_i t heq
  rw [heq] at hloop
  have hno : t.bkBleGattDbAddCompleted = (false, t.answered) := by
    unfold Gatt.bkBleGattDbAddCompleted
    split
    · rename_i handle ha
      exact absurd ha (nextAnswer_refusing hloop.refusing handle)
    · rfl
  rw [hno]
  exact ⟨rfl, (hstart.trans hloop.places).trans (idle_answered hloop.refusing).places⟩

end BLE

end ArduinoBeken
