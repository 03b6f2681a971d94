import ArduinoBeken.Library.Run
import ArduinoBeken.BLE.LegacyPass

/-!
# Finalising the Database

What an attempt at finalising the database means when it returns true.

Every characteristic of every service of the list should then be in the
database of the stack in use, under the handles its object stores, with a
CCCD when it notifies, and the lookup should find it. `Complete` says that.

An attempt may come after others that failed, over another list, with another
stack in mind. `AttemptFits` collects what it needs then: on an Ethermind host
either the flags that are set stand for entries of that stack, or the stack
takes nothing on; and where tables are created, they are short, completions
arrive in their own wait, and no registered object stores the numbers of
another. Once an attempt succeeded the code answers every later one with true
without looking, so `Covered` asks that the later list asks for nothing new.

`attempts_all_or_nothing` is the result over whole runs, with everything else
a sketch and its peers do in between.

## Main definitions

* `InDatabase`, `ServiceInDatabase`: What the caller is told.
* `Complete`: That, for every service of a list.
* `AttemptFits`, `Covered`: When it is true.
* `Attempts`: The registry with what the successful attempt was given.
* `AllOrNothing`: An attempt that returns true left a complete database.

## Theorems

* `complete_of_ethermind`: After the Ethermind pass.
* `complete_of_legacy`: After the legacy pass.
* `step_keeps`: What no event but an attempt changes.
* `attempt_complete`: One attempt.
* `attempts_all_or_nothing`: Every attempt of every run.
* `retry_incomplete`: An attempt that returns true over an empty service.
-/

namespace ArduinoBeken

namespace BLE

open EventRun

/-- A characteristic in the legacy database, at the index its object stores,
    in a table the stack reads that far. -/
def LegacyEntry (s : Gatt) (c : CharId) : Prop :=
  ∃ cfg ∈ s.sdk.legacyCreated, cfg.prfTaskId = (s.chars c).gattServiceHandle ∧
    (cfg.registered.map AttDesc.kind)[(s.chars c).gattCharHandle]? = some (.charValue c) ∧
    ((s.chars c).notifies = true → .cccd c ∈ cfg.registered.map AttDesc.kind)

/-- A characteristic in the database of the stack in use, and found there. -/
structure InDatabase (s : Gatt) (c : CharId) : Prop where
  legacy : s.useLegacyStack = true → LegacyEntry s c
  ethermind : s.useLegacyStack = false → EthermindEntry s c ∧ EthermindCccd s c
  found : s.findCharacteristic (s.chars c).gattServiceHandle (s.chars c).gattCharHandle = some c

/-- A service in that database, under the handle its object stores. -/
structure ServiceInDatabase (s : Gatt) (svc : SvcId) : Prop where
  legacy : s.useLegacyStack = true →
    ∃ cfg ∈ s.sdk.legacyCreated, cfg.owner = svc ∧
      cfg.prfTaskId = (s.services svc).gattServiceHandle
  ethermind : s.useLegacyStack = false →
    ((s.services svc).gattServiceHandle, svc) ∈ s.sdk.ethServices

/-- Every service of a list and every characteristic of it is in the
    database. -/
structure Complete (s : Gatt) (services : List (Option SvcId)) : Prop where
  service : ∀ svc ∈ services.reduceOption, ServiceInDatabase s svc
  characteristic : ∀ c ∈ members s services, InDatabase s c

/-- What a legacy pass needs, where the stack creates a table at all. -/
structure LegacyFits (s : Gatt) (services : List (Option SvcId)) : Prop where
  completions : OwnCompletions s.sdk.answers
  ids : (∃ notices, .accepted notices ∈ s.sdk.answers) → services.reduceOption.length ≤ 65536
  short : (∃ notices, .accepted notices ∈ s.sdk.answers) →
    ∀ svc ∈ services.reduceOption, attributeCount s svc ≤ 255
  numbers : (∃ notices, .accepted notices ∈ s.sdk.answers) → NumbersFree s services.reduceOption

/-- What an attempt needs when the database is not finalised yet. On an
    Ethermind host the flags stand for entries of that stack, or the stack
    takes nothing on. -/
structure AttemptFits (s : Gatt) (services : List (Option SvcId)) (ethermind : Bool) : Prop
    extends LegacyFits s services where
  host : ethermind = true → EthermindSound s ∨ Refusing s.sdk.answers

/-- A list of answers in which no table is accepted asks nothing of a legacy pass. -/
theorem legacyFits_of_none {s : Gatt} {services : List (Option SvcId)}
    (h : ∀ notices, .accepted notices ∉ s.sdk.answers) : LegacyFits s services where
  completions notices hmem := absurd hmem (h notices)
  ids hany := hany.elim fun notices hmem => absurd hmem (h notices)
  short hany := hany.elim fun notices hmem => absurd hmem (h notices)
  numbers hany := hany.elim fun notices hmem => absurd hmem (h notices)

/-! ## After the Ethermind pass -/

theorem complete_of_ethermind {s : Gatt} {services : List (Option SvcId)}
    (hsound : EthermindSound s) (hvalid : s.sdk.Valid) (hstack : s.useLegacyStack = false)
    (hchars : ∀ c ∈ members s services, (s.chars c).gattRegistered = true)
    (hservices : ∀ svc ∈ services.reduceOption, (s.services svc).gattRegistered = true) :
    Complete s services where
  service svc hmem :=
    ⟨fun h => absurd (hstack.symm.trans h) Bool.false_ne_true,
      fun _ => hsound.service svc (hservices svc hmem)⟩
  characteristic c hmem :=
    ⟨fun h => absurd (hstack.symm.trans h) Bool.false_ne_true,
      fun _ => ⟨hsound.entry c (hchars c hmem), hsound.cccd c (hchars c hmem)⟩,
      findCharacteristic_of_placed hsound.toEthermindPlaced hvalid (hchars c hmem)⟩

/-! ## After the legacy pass -/

/-- A binding of a pass over short tables, in the table that was created for
    it. -/
theorem legacyEntry_of_binding {s0 f : Gatt} {services : List SvcId} {b : LegacyCharBinding}
    (hb : b ∈ bindingsOf s0 0 services)
    (hshort : ∀ svc ∈ services, attributeCount s0 svc ≤ 255)
    (htables : ∀ j svc, services[j]? = some svc →
      ∃ cfg ∈ f.sdk.legacyCreated, cfg.owner = svc ∧ IsTable s0 (0 + j) cfg)
    (hpair : f.storedPair b.characteristic = b.pair)
    (hnot : (f.chars b.characteristic).notifies = (s0.chars b.characteristic).notifies) :
    LegacyEntry f b.characteristic := by
  rcases mem_bindingsOf hb with ⟨j, svc, hj, hmem⟩
  rcases htables j svc hj with ⟨cfg, hcfg, rfl, htable⟩
  have hcount : attributeCount s0 cfg.owner ≤ 255 :=
    hshort _ (List.mem_of_getElem? hj)
  have hlength : cfg.attDb.length = attributeCount s0 cfg.owner := by
    rw [← length_layout, ← htable.kinds, List.length_map]
  -- A short table is read by the stack as a whole.
  have hregistered : cfg.registered = cfg.attDb := by
    rw [DbCfg.registered, htable.count, u8, hlength, Nat.mod_eq_of_lt (by omega), ← hlength,
      List.take_length]
  have hlen : [AttKind.serviceDecl cfg.owner].length +
      (characteristicKinds s0 (s0.services cfg.owner).characteristics).length ≤ 65535 := by
    rw [length_characteristicKinds]
    exact Nat.le_trans hcount (by decide)
  have hown : Own s0 (layout s0 cfg.owner) b := own_bindingsFrom s0 _ _ _ hlen b hmem
  have hprf : cfg.prfTaskId = b.prfId := by
    rw [htable.profile, prfId_bindingsFrom s0 _ 1 _ b hmem]
  obtain ⟨hsh, hch⟩ := Prod.mk.inj hpair
  refine ⟨cfg, hcfg, hprf.trans hsh.symm, ?_, fun hyes => ?_⟩
  · rw [hregistered, htable.kinds, hch]
    exact hown.1
  · have hdesc := hown.2
    rw [hnot] at hyes
    rw [if_pos hyes] at hdesc
    rw [hregistered, htable.kinds]
    exact List.mem_of_getElem? hdesc

/-- A pass that creates a table met an accepted call. -/
theorem accepted_of_created (services : List (Option SvcId)) (k : Nat) (s : Gatt)
    (hok : (Gatt.addLegacyServices services (profileId k) s).1 = true)
    (hne : services.reduceOption ≠ []) : ∃ notices, .accepted notices ∈ s.sdk.answers := by
  induction services generalizing k s with
  | nil => exact absurd rfl hne
  | cons entry rest ih =>
      cases entry with
      | none =>
          -- An entry without a service creates nothing.
          rw [List.reduceOption_cons_of_none] at hne
          exact ih k s hok hne
      | some svc =>
          rcases created_of_ok hok with ⟨serviceUuid, t, u, ht, hcreate, -⟩
          rcases openTable_builds (Finalizes.refl s) ht with ⟨-, -, -, hsdk⟩
          unfold Gatt.createLegacyDb at hcreate
          -- A table is accepted only by an answer that the stack gives.
          split at hcreate
          · rename_i notices hnext
            refine ⟨notices, ?_⟩
            rw [Gatt.nextAnswer, hsdk] at hnext
            cases ha : s.sdk.answers with
            | nil =>
                rw [ha] at hnext
                exact absurd hnext SdkAnswer.noConfusion
            | cons a as =>
                rw [ha] at hnext
                rw [← hnext]
                exact List.mem_cons_self
          · exact absurd (Prod.mk.inj hcreate).1 Bool.false_ne_true

theorem addLegacyServices_empty (services : List (Option SvcId)) (prfId : Nat) (s : Gatt)
    (h : services.reduceOption = []) : Gatt.addLegacyServices services prfId s = (true, s) := by
  induction services with
  | nil => rfl
  | cons entry rest ih =>
      cases entry with
      | none =>
          rw [List.reduceOption_cons_of_none] at h
          exact ih h
      | some svc =>
          rw [List.reduceOption_cons_of_some] at h
          exact absurd h (List.cons_ne_nil _ _)

/-- A legacy pass succeeds only over some service, so it met an accepted
    call. -/
theorem accepted_of_finalizeLegacyDatabase {s : Gatt} {services : List (Option SvcId)}
    (hok : (s.finalizeLegacyDatabase services).1 = true) :
    (Gatt.addLegacyServices services (profileId 0) { s.ensureNoticeCallback with
        legacyAttDb := [], legacyBindings := [] }).1 = true ∧
      ∃ notices, .accepted notices ∈ s.sdk.answers := by
  -- the pass went through, and it bound something
  have hpass : (Gatt.addLegacyServices services (profileId 0) { s.ensureNoticeCallback with
      legacyAttDb := [], legacyBindings := [] }).1 = true ∧
      (Gatt.addLegacyServices services (profileId 0) { s.ensureNoticeCallback with
        legacyAttDb := [], legacyBindings := [] }).2.legacyBindings ≠ [] := by
    unfold Gatt.finalizeLegacyDatabase at hok
    simp only at hok
    split at hok
    · exact absurd hok Bool.false_ne_true
    · rename_i heq
      change Gatt.addLegacyServices services (profileId 0) _ = _ at heq
      rw [heq]
      refine ⟨rfl, ?_⟩
      simpa only [Bool.not_eq_true', List.isEmpty_eq_false_iff] using hok
  refine ⟨hpass.1, ?_⟩
  -- without services nothing would have been bound
  by_cases hempty : services.reduceOption = []
  · rw [addLegacyServices_empty services _ _ hempty] at hpass
    exact absurd rfl hpass.2
  · have haccepted := accepted_of_created services 0 _ hpass.1 hempty
    exact haccepted

/-- A legacy pass that succeeds, with nothing in the way of its numbers, left
    a complete database. The declarations are those of an earlier state. -/
theorem complete_of_legacy {s t : Gatt} {services : List (Option SvcId)}
    (hbase : Finalizes s t) (hown : OwnCompletions t.sdk.answers) (hvalid : t.sdk.Valid)
    (hstack : t.useLegacyStack = true)
    (hshort : ∀ svc ∈ services.reduceOption, attributeCount s svc ≤ 255)
    (hclear : Clear t (bindingsOf s 0 services.reduceOption))
    (hfree : ∀ d, d ∉ members s services → (t.chars d).gattRegistered = true →
      ∀ b ∈ bindingsOf s 0 services.reduceOption, t.storedPair d ≠ b.pair)
    (hok : (t.finalizeLegacyDatabase services).1 = true) :
    Complete (t.finalizeLegacyDatabase services).2 services := by
  -- The pass begins with empty tables.
  let start : Gatt := { t.ensureNoticeCallback with legacyAttDb := [], legacyBindings := [] }
  have hstart : Finalizes s start :=
    hbase.trans (Finalizes.of_eq rfl rfl rfl rfl (StackFrame.refl _))
  have hafter := finalizeLegacyDatabase_snd t services
  have hpass := (accepted_of_finalizeLegacyDatabase hok).1
  have hcreated := created_addLegacyServices s services 0 start hstart hown hvalid hpass
  have hframe := hstart.trans (finalizes_closed.addLegacyServices services (profileId 0) start)
  have hbind := hcreated.bindings
  change _ = [] ++ _ at hbind
  rw [List.nil_append] at hbind
  -- Each characteristic that was bound has its number, and the others keep theirs.
  have hnumbered : Numbered t (Gatt.addLegacyServices services (profileId 0) start).2 := by
    refine numbered_addLegacyServices services 0 start
      ⟨fun _ hmem => absurd hmem List.not_mem_nil, fun _ _ => ⟨rfl, rfl⟩, fun _ hmem => hmem,
        rfl⟩ ?_
    rw [hbind]
    exact hclear
  have huse : (Gatt.addLegacyServices services (profileId 0) start).2.useLegacyStack = true :=
    hnumbered.stack.trans hstack
  rw [hafter]
  change Complete (Gatt.addLegacyServices services (profileId 0) start).2 services
  generalize hf : (Gatt.addLegacyServices services (profileId 0) start).2 = f at *
  have hmembers : (bindingsOf s 0 services.reduceOption).map LegacyCharBinding.characteristic =
      members s services := map_bindingsOf s 0 _
  refine ⟨fun svc hmem => ⟨fun _ => ?_, fun h => absurd (h.symm.trans huse) Bool.false_ne_true⟩,
    fun c hmem => ?_⟩
  · -- A service that was flagged has a table of its own.
    rcases (hcreated.flagged svc hmem).2 with ⟨j, hj, hhandle⟩
    rcases hcreated.tables j svc hj with ⟨cfg, hcfg, howner, htable⟩
    exact ⟨cfg, hcfg, howner, htable.profile.trans hhandle.symm⟩
  · rw [members_congr hframe, ← hmembers, ← hbind] at hmem
    rcases hnumbered.named c hmem with ⟨hreg, hlisted, b, hb, rfl, hpair⟩
    rw [hbind] at hb
    refine ⟨fun _ => legacyEntry_of_binding hb hshort hcreated.tables hpair
      (hframe.decl b.characteristic).notifies,
      fun h => absurd (h.symm.trans huse) Bool.false_ne_true,
      findCharacteristic_eq_some hlisted hreg fun d hd hsame => ?_⟩
    -- The pair names one characteristic: a bound one by its binding, another by the condition.
    by_cases hd' : d ∈ f.legacyBindings.map LegacyCharBinding.characteristic
    · rcases (hnumbered.named d hd').2.2 with ⟨b', hb', rfl, hpair'⟩
      rw [hbind] at hb'
      rw [List.inj_on_of_nodup_map hclear.nodup hb' hb (hpair'.symm.trans (hsame.trans hpair))]
    · rcases hnumbered.other d hd' with ⟨hreg', hpair'⟩
      rw [hbind, hmembers] at hd'
      refine absurd ?_ (hfree d hd' (hreg'.symm.trans hd) b hb)
      rw [← hpair', hsame, hpair]

/-! ## One attempt -/

/-- Two states that agree on the places of all objects, where the stacks may
    hold more in the second. -/
structure Keeps (s s' : Gatt) : Prop where
  flags : ∀ c, (s'.chars c).gattRegistered = (s.chars c).gattRegistered ∧
    s'.storedPair c = s.storedPair c ∧ (s'.chars c).properties = (s.chars c).properties
  service : ∀ svc, (s'.services svc).gattServiceHandle = (s.services svc).gattServiceHandle
  listed : s'.sCharacteristics = s.sCharacteristics
  ethChars : s'.sdk.ethChars = s.sdk.ethChars
  ethServices : s'.sdk.ethServices = s.sdk.ethServices
  ethCccds : s'.sdk.ethCccds = s.sdk.ethCccds
  created : ∀ cfg ∈ s.sdk.legacyCreated, cfg ∈ s'.sdk.legacyCreated
  stack : s'.useLegacyStack = s.useLegacyStack
  finalized : s.gattDbFinalized = true → s'.gattDbFinalized = true

theorem Keeps.refl (s : Gatt) : Keeps s s :=
  ⟨fun _ => ⟨rfl, rfl, rfl⟩, fun _ => rfl, rfl, rfl, rfl, rfl, fun _ h => h, rfl, id⟩

/-- Steps that change one characteristic, in its value or its subscription. -/
theorem Keeps.setChar (s : Gatt) (c : CharId) {ch : BLECharacteristic}
    (h : ch.gattRegistered = (s.chars c).gattRegistered ∧
      ch.gattServiceHandle = (s.chars c).gattServiceHandle ∧
      ch.gattCharHandle = (s.chars c).gattCharHandle ∧
      ch.properties = (s.chars c).properties) : Keeps s (s.setChar c ch) := by
  refine ⟨fun d => ?_, fun _ => rfl, rfl, rfl, rfl, rfl, fun _ h => h, rfl, id⟩
  by_cases hdc : d = c
  · subst hdc
    simp only [Gatt.storedPair, Gatt.setChar, Function.update_self]
    exact ⟨h.1, by rw [h.2.1, h.2.2.1], h.2.2.2⟩
  · simp only [Gatt.storedPair, Gatt.setChar, Function.update_of_ne hdc, and_self]

theorem Keeps.findCharacteristic {s s' : Gatt} (h : Keeps s s') (serviceHandle charHandle : Nat) :
    s'.findCharacteristic serviceHandle charHandle =
      s.findCharacteristic serviceHandle charHandle := by
  unfold Gatt.findCharacteristic
  rw [h.listed]
  congr 1
  funext c
  obtain ⟨hsh, hch⟩ := Prod.mk.inj (h.flags c).2.1
  rw [(h.flags c).1, hsh, hch]

theorem Keeps.notifies {s s' : Gatt} (h : Keeps s s') (c : CharId) :
    (s'.chars c).notifies = (s.chars c).notifies := by
  simp only [BLECharacteristic.notifies, (h.flags c).2.2]

theorem Keeps.inDatabase {s s' : Gatt} (h : Keeps s s') {c : CharId} (hc : InDatabase s c) :
    InDatabase s' c where
  legacy hl := by
    rcases hc.legacy (h.stack.symm.trans hl) with ⟨cfg, hcfg, hprf, hvalue, hcccd⟩
    obtain ⟨hsh, hch⟩ := Prod.mk.inj (h.flags c).2.1
    exact ⟨cfg, h.created cfg hcfg, by rw [hprf, hsh], by rw [hch]; exact hvalue,
      fun hn => hcccd ((h.notifies c).symm.trans hn)⟩
  ethermind hl := by
    rcases hc.ethermind (h.stack.symm.trans hl) with ⟨hentry, hcccd⟩
    rcases hentry.entry with ⟨e, he, howner, hpair⟩
    refine ⟨⟨⟨e, by rwa [h.ethChars], howner, hpair.trans (h.flags c).2.1.symm⟩, ?_⟩, fun hn => ?_⟩
    · rw [h.listed]
      exact hentry.listed
    · rw [h.ethCccds, (h.flags c).2.1]
      exact hcccd ((h.notifies c).symm.trans hn)
  found := by
    obtain ⟨hsh, hch⟩ := Prod.mk.inj (h.flags c).2.1
    rw [hsh, hch, h.findCharacteristic]
    exact hc.found

theorem Keeps.serviceInDatabase {s s' : Gatt} (h : Keeps s s') {svc : SvcId}
    (hs : ServiceInDatabase s svc) : ServiceInDatabase s' svc where
  legacy hl := by
    rcases hs.legacy (h.stack.symm.trans hl) with ⟨cfg, hcfg, howner, hprf⟩
    exact ⟨cfg, h.created cfg hcfg, howner, hprf.trans (h.service svc).symm⟩
  ethermind hl := by
    rw [h.service, h.ethServices]
    exact hs.ethermind (h.stack.symm.trans hl)

/-- Setting the flag of a finalised database keeps it complete. -/
theorem Complete.finalized {s : Gatt} {services : List (Option SvcId)}
    (h : Complete s services) : Complete { s with gattDbFinalized := true } services := by
  have hkeeps : Keeps s { s with gattDbFinalized := true } :=
    ⟨fun _ => ⟨rfl, rfl, rfl⟩, fun _ => rfl, rfl, rfl, rfl, rfl, fun _ h => h, rfl, fun _ => rfl⟩
  exact ⟨fun svc hmem => hkeeps.serviceInDatabase (h.service svc hmem),
    fun c hmem => hkeeps.inDatabase (h.characteristic c hmem)⟩

/-- The legacy pass of an attempt, behind an Ethermind pass that registered a
    prefix of the characteristics or behind none. -/
theorem complete_finishLegacy {s t : Gatt} {services : List (Option SvcId)} {cs : List CharId}
    (hfits : LegacyFits s services) (hvalid : s.sdk.Valid) (hbase : Finalizes s t)
    (hregs : Registers cs s t) (hinit : cs <+: members s services)
    (hlisted : ∀ c ∈ cs, c ∈ t.sCharacteristics) (hok : (t.finishLegacy services).1 = true) :
    Complete (t.finishLegacy services).2 services := by
  let start : Gatt := { t with useLegacyStack := true }
  -- The attempt ends well only if the tables were accepted.
  have hpass : (start.finalizeLegacyDatabase services).1 = true := by
    unfold Gatt.finishLegacy at hok
    split at hok
    · rename_i heq
      exact congrArg Prod.fst heq
    · exact absurd hok Bool.false_ne_true
  have hresult : (t.finishLegacy services).2 =
      { (start.finalizeLegacyDatabase services).2 with gattDbFinalized := true } := by
    unfold Gatt.finishLegacy
    split
    · rename_i heq
      rw [show start.finalizeLegacyDatabase services = _ from heq]
    · rename_i heq
      exact absurd (hpass.symm.trans (congrArg Prod.fst heq)) (Ne.symm Bool.false_ne_true)
  have hstart : Finalizes s start :=
    hbase.trans (Finalizes.of_eq rfl rfl rfl rfl (StackFrame.refl _))
  have haccepted : ∃ notices, .accepted notices ∈ s.sdk.answers := by
    rcases (accepted_of_finalizeLegacyDatabase hpass).2 with ⟨notices, hmem⟩
    exact ⟨notices, hstart.sdk.answers.subset hmem⟩
  have hshort := hfits.short haccepted
  have hnumbers := hfits.numbers haccepted
  have hmembers : (bindingsOf s 0 services.reduceOption).map LegacyCharBinding.characteristic =
      members s services := map_bindingsOf s 0 _
  -- No characteristic is in the way of the numbers that are given.
  have hclear := clear_of_registers hnumbers hregs hinit hlisted
    (nodup_bindingsOf s 0 _ hshort (hfits.ids haccepted))
  rw [hresult]
  refine Complete.finalized (complete_of_legacy hstart ?_ (hstart.sdk.valid hvalid) rfl hshort
    ⟨hclear.nodup, hclear.ahead⟩ ?_ hpass)
  · exact fun notices hmem => hfits.completions notices (hstart.sdk.answers.subset hmem)
  · intro d hd hreg b hb hpair
    -- A characteristic from before has its old pair, and a new one is a member.
    rcases hregs.fresh d hreg with hold | hnew
    · have hsame : s.storedPair d = b.pair := by
        rw [← (hregs.kept d hold).2]
        exact hpair
      rw [hnumbers b hb d hold hsame, ← hmembers] at hd
      exact hd (List.mem_map_of_mem hb)
    · exact hd (hinit.subset hnew)

/-- An attempt that returns true left a complete database, whatever attempts
    came before, when it fits. -/
theorem finalizeDatabase_complete {s : Gatt} {services : List (Option SvcId)} {ethermind : Bool}
    (hvalid : s.sdk.Valid) (hopen : s.gattDbFinalized = false)
    (hfits : AttemptFits s services ethermind)
    (hok : (s.finalizeDatabase services ethermind).1 = true) :
    Complete (s.finalizeDatabase services ethermind).2 services := by
  have hcallbacks : SamePlaces s s.ensureNoticeCallback.ensureEventCallback :=
    SamePlaces.of_eq rfl rfl rfl rfl rfl rfl rfl
  have hframe : Finalizes s s.ensureNoticeCallback.ensureEventCallback :=
    Finalizes.of_eq rfl rfl rfl rfl (StackFrame.refl _)
  unfold Gatt.finalizeDatabase at hok ⊢
  rw [hopen] at hok ⊢
  simp only [Bool.false_eq_true, if_false] at hok ⊢
  split at hok
  · exact absurd hok Bool.false_ne_true
  rename_i hne
  rw [if_neg hne]
  cases ethermind with
  -- Only the legacy pass is made.
  | false =>
      exact complete_finishLegacy hfits.toLegacyFits hvalid hframe hcallbacks.registers
        List.nil_prefix (fun _ hmem => absurd hmem List.not_mem_nil) hok
  | true =>
      simp only [Bool.not_true, Bool.false_eq_true, if_false] at hok ⊢
      let start : Gatt :=
        { s.ensureNoticeCallback.ensureEventCallback with useLegacyStack := false }
      have hstart : Finalizes s start := Finalizes.of_eq rfl rfl rfl rfl (StackFrame.refl _)
      have hfits' : LegacyFits start services := by
        refine ⟨hfits.completions, hfits.ids, hfits.short, fun haccepted => ?_⟩
        rw [NumbersFree, bindingsOf_congr hstart]
        exact hfits.numbers haccepted
      have hvalid' : start.sdk.Valid := hvalid
      -- What the first pass leaves, whether it ends well or not.
      have hend := finalizes_closed.finalizeEthermindDatabase start services
      rcases finalizeEthermindDatabase_step start services with ⟨hpass, hflags⟩
      have hidle := finalizeEthermindDatabase_idle start services
      cases hr : start.finalizeEthermindDatabase services with
      | mk ok t =>
          have hpassed : Gatt.finalizeEthermindDatabase
              { s.ensureNoticeCallback.ensureEventCallback with useLegacyStack := false }
              services = (ok, t) := hr
          rw [hpassed] at hok
          rw [hr] at hend hpass hflags hidle
          have hsound : EthermindSound s → EthermindSound start := fun h =>
            ⟨⟨fun c hc => ⟨(h.entry c hc).entry, (h.entry c hc).listed⟩, h.service⟩, h.cccd⟩
          cases ok with
          | true =>
              -- A pass that ends well was not refused by the host.
              have hs : EthermindSound start := by
                rcases hfits.host rfl with hs | hrefusing
                · exact hsound hs
                · exact absurd (hidle hrefusing).1 (Ne.symm Bool.false_ne_true)
              rcases hpass.registers with ⟨cs, -, hregs, hall⟩
              refine Complete.finalized (complete_of_ethermind (hpass.sound hs rfl)
                (hend.sdk.valid hvalid') hregs.stack (fun c hmem => ?_) (fun svc hmem => ?_))
              · rw [members_congr hend, ← hall rfl] at hmem
                exact hregs.all c hmem
              · exact hflags rfl svc (List.reduceOption_mem_iff.1 hmem)
          | false =>
              -- After a failure the legacy pass begins from what the other one left.
              rcases hfits.host rfl with hs | hrefusing
              · rcases hpass.registers with ⟨cs, hinit, hregs, -⟩
                have hplaced := hpass.placed (hsound hs).toEthermindPlaced
                exact complete_finishLegacy hfits' hvalid' hend hregs hinit
                  (fun c hmem => (hplaced.entry c (hregs.all c hmem)).listed) hok
              · exact complete_finishLegacy hfits' hvalid' hend (hidle hrefusing).2.registers
                  List.nil_prefix (fun _ hmem => absurd hmem List.not_mem_nil) hok

/-! ## Everything else -/

theorem keeps_setNotifyEnabled (s : Gatt) (c : CharId) (b : Bool) :
    Keeps s (s.setChar c ((s.chars c).setNotifyEnabled b)) :=
  Keeps.setChar s c ⟨rfl, rfl, rfl, rfl⟩

theorem keeps_storeValueBytes (s : Gatt) (c : CharId) (data : Option (List UInt8)) :
    Keeps s (s.setChar c ((s.chars c).storeValueBytes data)) := by
  have h := (s.chars c).storeValueBytes_frame data
  exact Keeps.setChar s c ⟨h.gattRegistered, h.gattServiceHandle, h.gattCharHandle, h.properties⟩

theorem keeps_completeCreate (s : Gatt) (call status : Nat) :
    Keeps s (s.completeCreate call status) := by
  have h := samePlaces_completeCreate s call status
  have honly := sdkOnly_completeCreate s call status
  refine ⟨h.flags, fun svc => by rw [h.services], h.listed, h.ethChars, h.ethServices, ?_,
    honly.sdk.created, h.stack, fun hf => honly.gattDbFinalized.trans hf⟩
  unfold Gatt.completeCreate
  split <;> rfl

theorem keeps_legacyWrite (s : Gatt) (req : WriteReq) : Keeps s (s.legacyWrite req) := by
  unfold Gatt.legacyWrite
  split
  · exact Keeps.refl s
  · simp only
    split_ifs
    · exact keeps_setNotifyEnabled s _ _
    · exact keeps_storeValueBytes s _ _
    · exact Keeps.refl s

theorem keeps_gattDbHandler (s : Gatt) (connHandle serviceId charId : Nat) (op : GattDbOp) :
    Keeps s (s.arduinoBleGattDbHandler connHandle serviceId charId op).1 := by
  unfold Gatt.arduinoBleGattDbHandler
  split
  · exact Keeps.refl s
  · cases op with
    | peerRead => exact Keeps.refl s
    | cliCnfgWrite value => exact keeps_setNotifyEnabled s _ _
    | peerWrite value len => exact keeps_storeValueBytes s _ _
    | other => exact Keeps.refl s

/-- Two states that agree in everything an object's place depends on. -/
theorem Keeps.of_eq {s s' : Gatt} (hc : s'.chars = s.chars)
    (hs : ∀ svc, (s'.services svc).gattServiceHandle = (s.services svc).gattServiceHandle)
    (hl : s'.sCharacteristics = s.sCharacteristics) (he : s'.sdk.ethChars = s.sdk.ethChars)
    (hv : s'.sdk.ethServices = s.sdk.ethServices) (hd : s'.sdk.ethCccds = s.sdk.ethCccds)
    (hcr : s'.sdk.legacyCreated = s.sdk.legacyCreated)
    (hu : s'.useLegacyStack = s.useLegacyStack)
    (hf : s'.gattDbFinalized = s.gattDbFinalized) : Keeps s s' :=
  ⟨fun c => by simp only [Gatt.storedPair, hc, and_self], hs, hl, he, hv, hd,
    fun cfg h => by rwa [hcr], hu, fun h => hf.trans h⟩

/-- No event changes the places of the objects, an attempt over an open
    database aside. -/
theorem step_keeps (s : Gatt) (e : Event)
    (h : ∀ services ethermind answers, e = .finalize services ethermind answers →
      s.gattDbFinalized = true) : Keeps s (s.step e) := by
  cases e with
  | addCharacteristic svc c =>
      refine Keeps.of_eq rfl (fun x => ?_) rfl rfl rfl rfl rfl rfl rfl
      -- The service gets the characteristic, and keeps its handle.
      by_cases hx : x = svc
      · subst hx
        change (Function.update s.services x _ x).gattServiceHandle = _
        rw [Function.update_self, BLEService.addCharacteristic]
        split_ifs <;> rfl
      · change (Function.update s.services svc _ x).gattServiceHandle = _
        rw [Function.update_of_ne hx]
  | finalize services ethermind answers =>
      -- A database that is finalized stays as it is.
      have hfin : (s.withAnswers answers).gattDbFinalized = true := h _ _ _ rfl
      have hsame : (s.attempt services ethermind answers).2 = s.withAnswers answers := by
        rw [Gatt.attempt, Gatt.finalizeDatabase, if_pos hfin]
      change Keeps s (s.attempt services ethermind answers).2
      rw [hsame]
      exact Keeps.of_eq rfl (fun _ => rfl) rfl rfl rfl rfl rfl rfl rfl
  | writeValue c data =>
      cases data with
      | none => exact Keeps.refl s
      | some bytes => exact keeps_storeValueBytes s c (some bytes)
  | legacyNotice notice =>
      cases notice with
      | connect connIdx =>
          cases connIdx with
          | none => exact Keeps.refl s
          | some connIdx => exact Keeps.of_eq rfl (fun _ => rfl) rfl rfl rfl rfl rfl rfl rfl
      | disconnect => exact Keeps.of_eq rfl (fun _ => rfl) rfl rfl rfl rfl rfl rfl rfl
      | read req => cases req <;> exact Keeps.refl s
      | createDb call status => exact keeps_completeCreate s call status
      | write req =>
          cases req with
          | none => exact Keeps.refl s
          | some req => exact keeps_legacyWrite s req
      | _ => exact Keeps.refl s
  | gattEvent event =>
      cases event with
      | connect connHandle =>
          cases connHandle with
          | none => exact Keeps.refl s
          | some connHandle => exact Keeps.of_eq rfl (fun _ => rfl) rfl rfl rfl rfl rfl rfl rfl
      | disconnect => exact Keeps.of_eq rfl (fun _ => rfl) rfl rfl rfl rfl rfl rfl rfl
      | other => exact Keeps.refl s
  | gattDb connHandle serviceId charId op =>
      exact keeps_gattDbHandler s connHandle serviceId charId op

/-- What the stacks see to holds after every event. -/
theorem step_valid (s : Gatt) (e : Event) (h : s.sdk.Valid) : (s.step e).sdk.Valid := by
  -- Where the state of the stack is the same, there is nothing to show.
  have hsame : ∀ t : Gatt, t.sdk = s.sdk → t.sdk.Valid := fun t ht => by rwa [ht]
  cases e with
  | finalize services ethermind answers =>
      exact (finalizes_attempt s services ethermind answers).sdk.valid ⟨h.handles, h.pending⟩
  | writeValue c data => cases data <;> exact h
  | legacyNotice notice =>
      cases notice with
      | connect connIdx => cases connIdx <;> exact h
      | read req => cases req <;> exact h
      | createDb call status => exact (sdkOnly_completeCreate s call status).sdk.valid h
      | write req =>
          cases req with
          | none => exact h
          -- a write from the peer changes a value or a subscription
          | some req =>
              refine hsame (s.legacyWrite req) ?_
              unfold Gatt.legacyWrite
              split
              · rfl
              · simp only
                split_ifs <;> rfl
      | _ => exact h
  | gattEvent event =>
      rcases event with (_ | connHandle) | _ | _ <;> exact h
  | gattDb connHandle serviceId charId op =>
      refine hsame (s.arduinoBleGattDbHandler connHandle serviceId charId op).1 ?_
      unfold Gatt.arduinoBleGattDbHandler
      split
      · rfl
      · cases op <;> rfl
  | addCharacteristic svc c => exact h

/-! ## Every attempt of a run -/

/-- The registry, with the services and the characteristics that the successful
    attempt was given. -/
structure Attempts where
  gatt : Gatt
  services : List SvcId := []
  chars : List CharId := []

namespace Attempts

/-- One event, with the lists of the attempts that succeeded. -/
def step (w : Attempts) (e : Event) : Attempts :=
  match e with
  | .finalize services ethermind answers =>
    if w.gatt.gattDbFinalized = false ∧ (w.gatt.attempt services ethermind answers).1 = true then
      { gatt := w.gatt.step e, services := services.reduceOption,
        chars := members w.gatt services }
    else { w with gatt := w.gatt.step e }
  | _ => { w with gatt := w.gatt.step e }

/-- The list of a later attempt asks for nothing new. -/
def Covered (w : Attempts) (services : List (Option SvcId)) : Prop :=
  (∀ svc ∈ services.reduceOption, svc ∈ w.services) ∧ ∀ c ∈ members w.gatt services, c ∈ w.chars

/-- What an event needs: an attempt fits, or asks for nothing new once the
    database is finalised. -/
def Fits (w : Attempts) : Event → Prop
  | .finalize services ethermind answers =>
    if w.gatt.gattDbFinalized = true then w.Covered services
    else AttemptFits (w.gatt.withAnswers answers) services ethermind
  | _ => True

/-- An attempt that returns true left a complete database. -/
def AllOrNothing (w : Attempts) : Event → Prop
  | .finalize services ethermind answers =>
    (w.gatt.attempt services ethermind answers).1 = true →
      Complete (w.gatt.attempt services ethermind answers).2 services
  | _ => True

/-- What a successful attempt was given stays in the database. -/
structure Holds (w : Attempts) : Prop where
  valid : w.gatt.sdk.Valid
  opened : w.gatt.gattDbFinalized = false → w.services = [] ∧ w.chars = []
  service : ∀ svc ∈ w.services, ServiceInDatabase w.gatt svc
  char : ∀ c ∈ w.chars, InDatabase w.gatt c

theorem gatt_step (w : Attempts) (e : Event) : (w.step e).gatt = w.gatt.step e := by
  unfold step
  split
  · split_ifs <;> rfl
  · rfl

/-- One attempt. -/
theorem attempt_complete {w : Attempts} (h : w.Holds) {e : Event} (hfits : w.Fits e) :
    w.AllOrNothing e := by
  cases e with
  | finalize services ethermind answers =>
      intro hok
      by_cases hfin : w.gatt.gattDbFinalized = true
      · have hcovered : w.Covered services := by
          have hf := hfits
          rw [Fits, if_pos hfin] at hf
          exact hf
        have hkeeps := step_keeps w.gatt (.finalize services ethermind answers)
          (fun _ _ _ _ => hfin)
        have hframe := finalizes_attempt w.gatt services ethermind answers
        refine ⟨fun svc hmem => hkeeps.serviceInDatabase (h.service svc (hcovered.1 svc hmem)),
          fun c hmem => hkeeps.inDatabase (h.char c (hcovered.2 c ?_))⟩
        rw [members_congr hframe] at hmem
        exact hmem
      · rw [Fits, if_neg hfin] at hfits
        exact finalizeDatabase_complete ⟨h.valid.handles, h.valid.pending⟩
          (Bool.not_eq_true _ ▸ hfin) hfits hok
  | _ => exact True.intro

/-- An attempt that returns true says so. -/
theorem attempt_finalizes {s : Gatt} {services : List (Option SvcId)} {ethermind : Bool}
    {answers : List SdkAnswer} (hok : (s.attempt services ethermind answers).1 = true) :
    (s.attempt services ethermind answers).2.gattDbFinalized = true := by
  have hlegacy : ∀ t : Gatt, (t.finishLegacy services).1 = true →
      (t.finishLegacy services).2.gattDbFinalized = true := by
    intro t ht
    unfold Gatt.finishLegacy at ht ⊢
    split at ht
    · rfl
    · exact absurd ht Bool.false_ne_true
  unfold Gatt.attempt at hok ⊢
  generalize s.withAnswers answers = s0 at hok ⊢
  unfold Gatt.finalizeDatabase at hok ⊢
  split_ifs at hok ⊢ with hfin hempty hhost
  · exact hfin
  · exact hlegacy _ hok
  · simp only at hok ⊢
    split at hok
    · rfl
    · exact hlegacy _ hok

/-- And what it leaves for the later ones. -/
theorem holds_step {w : Attempts} (h : w.Holds) {e : Event} (hfits : w.Fits e) :
    (w.step e).Holds := by
  have hkept : Keeps w.gatt (w.gatt.step e) → Holds { w with gatt := w.gatt.step e } := fun hk =>
    ⟨step_valid w.gatt e h.valid,
      fun hopen => h.opened (by
        by_contra hfin
        rw [Bool.not_eq_false] at hfin
        exact absurd (hopen.symm.trans (hk.finalized hfin)) Bool.false_ne_true),
      fun svc hmem => hk.serviceInDatabase (h.service svc hmem),
      fun c hmem => hk.inDatabase (h.char c hmem)⟩
  -- only an attempt can finalize the database
  cases e with
  | finalize services ethermind answers =>
      -- a database that is final stays so
      by_cases hfin : w.gatt.gattDbFinalized = true
      · have hstep : w.step (.finalize services ethermind answers) =
            { w with gatt := w.gatt.step (.finalize services ethermind answers) } :=
          if_neg fun hc => absurd (hc.1.symm.trans hfin) Bool.false_ne_true
        rw [hstep]
        exact hkept (step_keeps w.gatt _ fun _ _ _ _ => hfin)
      rw [Bool.not_eq_true] at hfin
      by_cases hok : (w.gatt.attempt services ethermind answers).1 = true
      · have hstep : w.step (.finalize services ethermind answers) =
            { gatt := w.gatt.step (.finalize services ethermind answers),
              services := services.reduceOption, chars := members w.gatt services } :=
          if_pos ⟨hfin, hok⟩
        have hcomplete : Complete (w.gatt.attempt services ethermind answers).2 services :=
          attempt_complete h hfits hok
        rw [hstep]
        refine ⟨step_valid w.gatt _ h.valid, fun hopen => ?_, hcomplete.service, fun c hmem => ?_⟩
        · exact absurd (hopen.symm.trans (attempt_finalizes hok)) Bool.false_ne_true
        · refine hcomplete.characteristic c ?_
          rw [members_congr (finalizes_attempt w.gatt services ethermind answers)]
          exact hmem
      · -- Nothing was given to a successful attempt so far.
        have hstep : w.step (.finalize services ethermind answers) =
            { w with gatt := w.gatt.step (.finalize services ethermind answers) } :=
          if_neg fun hc => hok hc.2
        rcases h.opened hfin with ⟨hsvcs, hchars⟩
        rw [hstep]
        exact ⟨step_valid w.gatt _ h.valid, fun _ => ⟨hsvcs, hchars⟩,
          fun svc hmem => absurd (hsvcs ▸ hmem) List.not_mem_nil,
          fun c hmem => absurd (hchars ▸ hmem) List.not_mem_nil⟩
  | addCharacteristic svc c => exact hkept (step_keeps w.gatt _ fun _ _ _ he => nomatch he)
  | writeValue c data => exact hkept (step_keeps w.gatt _ fun _ _ _ he => nomatch he)
  | legacyNotice notice => exact hkept (step_keeps w.gatt _ fun _ _ _ he => nomatch he)
  | gattEvent event => exact hkept (step_keeps w.gatt _ fun _ _ _ he => nomatch he)
  | gattDb connHandle serviceId charId op =>
      exact hkept (step_keeps w.gatt _ fun _ _ _ he => nomatch he)

/-- Before any attempt. -/
def start (s : Gatt) : Attempts := { gatt := s }

theorem holds_start {s : Gatt} (h : s.Fresh) : (start s).Holds where
  valid := by
    change s.sdk.Valid
    rw [h.sdk]
    exact ⟨List.nodup_nil, fun _ hp => absurd hp List.not_mem_nil⟩
  opened _ := ⟨rfl, rfl⟩
  service _ hmem := absurd hmem List.not_mem_nil
  char _ hmem := absurd hmem List.not_mem_nil

/-- In a run whose attempts fit, every attempt that returns true left a
    complete database. -/
theorem attempts_all_or_nothing {s : Gatt} (h : s.Fresh) {es : List Event}
    (hfits : Always step Fits (start s) es) : Always step AllOrNothing (start s) es :=
  always_of_inv (I := Holds) (fun _ _ hw hok => attempt_complete hw hok)
    (fun _ _ hw hok => holds_step hw hok) (holds_start h) hfits

/-- Nothing is taken on at first, by either stack. The second attempt falls back to the legacy
    stack again, which creates the database now. -/
def refusedThenCreated : List Event :=
  [.finalize [some 0] true [.err, .err], .finalize [some 0] true [.err, .accepted [.own 0]]]

/-- There is nothing to add at first. The second attempt adds the battery to the Ethermind
    database with its descriptor, and the third finds it there. -/
def addedAndCovered : List Event :=
  [.finalize [] true [],
    .finalize [some 0] true [.success 16, .success 1, .success 0, .success 0, .success 0],
    .finalize [some 0] true []]

/-- The refused attempt flags the level, and nothing else. -/
theorem flagged_of_refused (d : CharId) :
    ((((start battery).step (.finalize [some 0] true [.err, .err])).gatt.withAnswers
      [.err, .accepted [.own 0]]).chars d).gattRegistered = true → d = 0 := by
  cases d with
  | zero => exact fun _ => rfl
  | succ d => exact fun h => absurd h Bool.false_ne_true

/-- The battery gets its whole database in both runs. -/
theorem battery_complete :
    Always step AllOrNothing (start battery) refusedThenCreated ∧
      Always step AllOrNothing (start battery) addedAndCovered := by
  -- while the database is open, fitting is a matter of the attempt alone
  have hclosed : ∀ w : Attempts, w.gatt.gattDbFinalized = false → ∀ services ethermind answers,
      AttemptFits (w.gatt.withAnswers answers) services ethermind →
      w.Fits (.finalize services ethermind answers) := by
    intro w hopen services ethermind answers hfits
    rw [Fits, if_neg (by rw [hopen]; exact Bool.false_ne_true)]
    exact hfits
  constructor
  -- refused first, and created by the second attempt
  · refine attempts_all_or_nothing battery_fresh ⟨?_, ?_, True.intro⟩
    · refine hclosed _ rfl _ _ _ ⟨legacyFits_of_none fun notices hmem => ?_, fun _ => Or.inr ?_⟩
      · simp [Gatt.withAnswers] at hmem
      · change Refusing [.err, .err]
        decide
    · refine hclosed _ (by decide +kernel) _ _ _
        ⟨⟨?_, fun _ => by decide, fun _ => by decide +kernel, ?_⟩, fun _ => Or.inr ?_⟩
      · intro notices hmem n hn
        obtain rfl : notices = [.own 0] := by simpa [Gatt.withAnswers] using hmem
        exact ⟨0, List.mem_singleton.1 hn⟩
      · intro _ b hb d hd _
        have hchar : ∀ b ∈ bindingsOf (((start battery).step
            (.finalize [some 0] true [.err, .err])).gatt.withAnswers
              [.err, .accepted [.own 0]]) 0 [0], b.characteristic = 0 := by
          decide +kernel
        rw [flagged_of_refused d hd, hchar b hb]
      · change Refusing [.err, .accepted [.own 0]]
        decide
  -- no service first, and then the Ethermind path with all its entries
  · refine attempts_all_or_nothing battery_fresh ⟨?_, ?_, ?_, True.intro⟩
    · refine hclosed _ rfl _ _ _ ⟨legacyFits_of_none fun notices hmem => ?_, fun _ => Or.inr ?_⟩
      · simp [Gatt.withAnswers] at hmem
      · change Refusing []
        decide
    · refine hclosed _ (by decide +kernel) _ _ _ ⟨legacyFits_of_none fun notices hmem => ?_,
        fun _ => Or.inl ⟨⟨fun c hc => ?_, fun svc hsvc => ?_⟩, fun c hc => ?_⟩⟩
      · simp [Gatt.withAnswers] at hmem
      · exact absurd hc Bool.false_ne_true
      · exact absurd hsvc Bool.false_ne_true
      · exact absurd hc Bool.false_ne_true
    · have hfinal : (((start battery).step (.finalize [] true [])).step
          (.finalize [some 0] true [.success 16, .success 1, .success 0, .success 0,
            .success 0])).gatt.gattDbFinalized = true := by
        decide +kernel
      rw [Fits, if_pos hfinal]
      exact ⟨by decide +kernel, by decide +kernel⟩

/-- Nothing is taken on in the first attempt, by either stack; the second finds
    the level flagged, adds a service without it and is told all went well. -/
def retried : List Event :=
  [.finalize [some 0] true [],
    .finalize [some 0] true [.success 16, .success 0, .success 0]]

/-- The level is not in the database that the second attempt reports. -/
theorem retry_incomplete : ¬ Always step AllOrNothing (start battery) retried := by
  intro h
  have hcomplete := h.2.1 (by decide)
  have hlevel := hcomplete.characteristic 0 (by decide)
  rcases (hlevel.ethermind (by decide)).1.entry with ⟨e, he, -⟩
  exact absurd he (List.not_mem_nil)

end Attempts

end BLE

end ArduinoBeken
