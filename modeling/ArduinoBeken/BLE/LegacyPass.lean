import ArduinoBeken.BLE.EthermindPass
import ArduinoBeken.BLE.LegacyTables

/-!
# The Legacy Pass

What `finalizeLegacyDatabase` does to the flags and handles of the objects.

A pass that gets to the end numbers every characteristic anew: `bindingsOf`
are the bindings it makes, in order. It stores the numbers in the objects as
it goes, whatever they stored before, and lists an object unless the lookup
finds one under these numbers. `Numbered` is the invariant of the loops.

The lookup is where the past comes in. An object that is registered already
and will be numbered later, or never, still has handles from an earlier pass
or from the other stack. When these are numbers of this pass the lookup finds
the wrong object, and `Clear` says that this does not happen.

A table is created when its completion arrives. The code cannot tell one
completion from another, so this half of the result needs all of them to
arrive in their own wait, and `OwnCompletions` says so.

## Main definitions

* `bindingsOf`: The bindings of a pass over some services.
* `Clear`: No object in the way of the numbers of a pass.
* `Numbered`: The objects a pass has numbered so far.
* `OwnCompletions`: Completions arrive in their own wait.

## Theorems

* `nodup_bindingsOf`: A pass numbers every characteristic differently.
* `numbered_addLegacyServices`: The loops number the objects.
* `created_addLegacyServices`: The loops create the tables.
* `clear_of_registers`: The other pass leaves nothing in the way.
-/

namespace ArduinoBeken

namespace BLE

/-- The numbers a binding stands for: profile and value attribute. -/
def LegacyCharBinding.pair (b : LegacyCharBinding) : Nat × Nat := (b.prfId, b.valueAttIdx)

/-- The bindings of a pass over some services, the first of which is at place
    `k`. -/
def bindingsOf (s : Gatt) : Nat → List SvcId → List LegacyCharBinding
  | _, [] => []
  | k, svc :: rest =>
    bindingsFrom s (profileId k) 1 (s.services svc).characteristics ++ bindingsOf s (k + 1) rest

theorem bindingsFrom_congr {s t : Gatt} (h : Finalizes s t) (prfId n : Nat) (cs : List CharId) :
    bindingsFrom t prfId n cs = bindingsFrom s prfId n cs := by
  induction cs generalizing n with
  | nil => rfl
  | cons c cs ih =>
      rw [bindingsFrom, bindingsFrom, ih, legacyBinding_congr (h.decl c).notifies,
        attributeKinds_congr (h.decl c).notifies]

theorem bindingsOf_congr {s t : Gatt} (h : Finalizes s t) (k : Nat) (services : List SvcId) :
    bindingsOf t k services = bindingsOf s k services := by
  induction services generalizing k with
  | nil => rfl
  | cons svc rest ih => rw [bindingsOf, bindingsOf, ih, bindingsFrom_congr h, (h.service svc).1]

theorem map_bindingsFrom (s : Gatt) (prfId n : Nat) (cs : List CharId) :
    (bindingsFrom s prfId n cs).map LegacyCharBinding.characteristic = cs := by
  induction cs generalizing n with
  | nil => rfl
  | cons c cs ih =>
      rw [bindingsFrom, List.map_cons, ih]
      rfl

/-- A pass binds the characteristics in their order. -/
theorem map_bindingsOf (s : Gatt) (k : Nat) (services : List SvcId) :
    (bindingsOf s k services).map LegacyCharBinding.characteristic =
      services.flatMap fun svc => (s.services svc).characteristics := by
  induction services generalizing k with
  | nil => rfl
  | cons svc rest ih => rw [bindingsOf, List.map_append, map_bindingsFrom, ih, List.flatMap_cons]

theorem mem_bindingsOf {s : Gatt} {k : Nat} {services : List SvcId} {b : LegacyCharBinding}
    (h : b ∈ bindingsOf s k services) :
    ∃ j svc, services[j]? = some svc ∧
      b ∈ bindingsFrom s (profileId (k + j)) 1 (s.services svc).characteristics := by
  induction services generalizing k with
  | nil => exact absurd h List.not_mem_nil
  | cons svc rest ih =>
      rcases List.mem_append.1 h with hhead | hrest
      · exact ⟨0, svc, rfl, hhead⟩
      · rcases ih hrest with ⟨j, x, hj, hb⟩
        exact ⟨j + 1, x, hj, by rwa [Nat.add_right_comm k 1 j] at hb⟩

/-- The value attributes of a table lie behind the attributes it held. -/
theorem lt_valueAttIdx (s : Gatt) (prfId n : Nat) (cs : List CharId)
    (h : n + (characteristicKinds s cs).length ≤ 65535) :
    ∀ b ∈ bindingsFrom s prfId n cs, n < b.valueAttIdx := by
  induction cs generalizing n with
  | nil => exact fun _ hb => absurd hb List.not_mem_nil
  | cons c cs ih =>
      rw [characteristicKinds_cons, List.length_append] at h
      have hlen := length_attributeKinds (s.chars c) c
      intro b hb
      rcases List.mem_cons.1 hb with rfl | hrest
      · change n < u16 (n + 1)
        rw [u16, Nat.mod_eq_of_lt (by split_ifs at hlen <;> omega)]
        omega
      · have hlt := ih _ (by omega) b hrest
        omega

theorem nodup_bindingsFrom (s : Gatt) (prfId n : Nat) (cs : List CharId)
    (h : n + (characteristicKinds s cs).length ≤ 65535) :
    ((bindingsFrom s prfId n cs).map LegacyCharBinding.pair).Nodup := by
  induction cs generalizing n with
  | nil => exact List.nodup_nil
  | cons c cs ih =>
      rw [characteristicKinds_cons, List.length_append] at h
      have hlen := length_attributeKinds (s.chars c) c
      have h2 : 2 ≤ (attributeKinds (s.chars c) c).length := by split_ifs at hlen <;> omega
      rw [bindingsFrom, List.map_cons, List.nodup_cons]
      refine ⟨fun hmem => ?_, ih _ (by omega)⟩
      rcases List.mem_map.1 hmem with ⟨b, hb, hpair⟩
      have hlt := lt_valueAttIdx s prfId _ cs (by omega) b hb
      have hval : b.valueAttIdx = u16 (n + 1) := congrArg Prod.snd hpair
      rw [u16, Nat.mod_eq_of_lt (by omega)] at hval
      omega

/-- A pass gives no two characteristics the same numbers, as long as the
    tables are short and the profile ids last. -/
theorem nodup_bindingsOf (s : Gatt) (k : Nat) (services : List SvcId)
    (hshort : ∀ svc ∈ services, attributeCount s svc ≤ 255) (hids : services.length ≤ 65536) :
    ((bindingsOf s k services).map LegacyCharBinding.pair).Nodup := by
  induction services generalizing k with
  | nil => exact List.nodup_nil
  | cons svc rest ih =>
      rw [List.length_cons] at hids
      have hlen : 1 + (characteristicKinds s (s.services svc).characteristics).length ≤ 65535 := by
        have h := hshort svc List.mem_cons_self
        rw [length_characteristicKinds]
        exact Nat.le_trans h (by decide)
      rw [bindingsOf, List.map_append]
      refine List.Nodup.append (nodup_bindingsFrom s _ 1 _ hlen)
        (ih (k + 1) (fun x hx => hshort x (List.mem_cons_of_mem svc hx)) (by omega)) ?_
      -- the bindings of two services differ in the profile, which is the place of the service
      intro p hp hq
      rcases List.mem_map.1 hp with ⟨b, hb, rfl⟩
      rcases List.mem_map.1 hq with ⟨b', hb', hpair⟩
      rcases mem_bindingsOf hb' with ⟨j, x, hj, hmem⟩
      have hlt := (List.getElem?_eq_some_iff.1 hj).1
      have h1 := prfId_bindingsFrom s _ 1 _ b hb
      have h2 := prfId_bindingsFrom s _ 1 _ b' hmem
      have h3 : b'.prfId = b.prfId := congrArg Prod.fst hpair
      have := profileId_inj (h2.symm.trans (h3.trans h1)) (by omega) (by omega)
      omega

/-! ## Numbering the objects -/

/-- No object is in the way of the numbers a pass gives out: they are all
    different, and where another object that is not numbered yet stores the
    numbers of a characteristic, the characteristic is listed anyway. -/
structure Clear (s : Gatt) (bindings : List LegacyCharBinding) : Prop where
  nodup : (bindings.map LegacyCharBinding.pair).Nodup
  ahead : ∀ done b rest, bindings = done ++ b :: rest → ∀ d, d ≠ b.characteristic →
    d ∉ done.map LegacyCharBinding.characteristic → (s.chars d).gattRegistered = true →
    s.storedPair d = b.pair → b.characteristic ∈ s.sCharacteristics

theorem Clear.of_append {s : Gatt} {bindings rest : List LegacyCharBinding}
    (h : Clear s (bindings ++ rest)) : Clear s bindings where
  nodup := by
    have hn := h.nodup
    rw [List.map_append] at hn
    exact hn.of_append_left
  ahead done b mid heq := h.ahead done b (mid ++ rest) (by rw [heq, List.append_assoc]; rfl)

/-- The objects a pass has numbered so far, compared with the state it started
    in. -/
structure Numbered (s t : Gatt) : Prop where
  named : ∀ c ∈ t.legacyBindings.map LegacyCharBinding.characteristic,
    (t.chars c).gattRegistered = true ∧ c ∈ t.sCharacteristics ∧
      ∃ b ∈ t.legacyBindings, b.characteristic = c ∧ t.storedPair c = b.pair
  other : ∀ c, c ∉ t.legacyBindings.map LegacyCharBinding.characteristic →
    (t.chars c).gattRegistered = (s.chars c).gattRegistered ∧ t.storedPair c = s.storedPair c
  listed : ∀ c ∈ s.sCharacteristics, c ∈ t.sCharacteristics
  stack : t.useLegacyStack = s.useLegacyStack

/-- Steps that touch neither flags, handles, list nor bindings. -/
theorem Numbered.of_same {s t u : Gatt} (h : Numbered s t) (hu : SamePlaces t u)
    (hb : u.legacyBindings = t.legacyBindings) : Numbered s u := by
  refine ⟨fun c hmem => ?_, fun c hno => ?_, fun c hmem => ?_, hu.stack.trans h.stack⟩
  · rw [hb] at hmem ⊢
    rw [hu.listed, (hu.flags c).1, (hu.flags c).2.1]
    exact h.named c hmem
  · rw [hb] at hno
    rw [(hu.flags c).1, (hu.flags c).2.1]
    exact h.other c hno
  · rw [hu.listed]
    exact h.listed c hmem

/-- Numbering one more object, whose binding is made already. -/
theorem numbered_flag {s t u : Gatt} (h : Numbered s t) (b : LegacyCharBinding)
    (hu : SamePlaces t u) (hb : u.legacyBindings = t.legacyBindings ++ [b])
    (hclear : Clear s u.legacyBindings) :
    Numbered s (u.flagCharacteristic b.characteristic b.prfId b.valueAttIdx) := by
  rcases flagCharacteristic_tables u b.characteristic b.prfId b.valueAttIdx with ⟨-, hbind, -⟩
  rcases flagCharacteristic_frame u b.characteristic b.prfId b.valueAttIdx with
    ⟨-, -, hstack, hkeep⟩
  rcases flagged_self u b.characteristic b.prfId b.valueAttIdx with ⟨hreg, hpair⟩
  have hmap : (u.flagCharacteristic b.characteristic b.prfId b.valueAttIdx).legacyBindings.map
      LegacyCharBinding.characteristic =
      t.legacyBindings.map LegacyCharBinding.characteristic ++ [b.characteristic] := by
    rw [hbind, hb, List.map_append, List.map_cons, List.map_nil]
  have hlisted : b.characteristic ∈
      (u.flagCharacteristic b.characteristic b.prfId b.valueAttIdx).sCharacteristics := by
    by_cases hin : b.characteristic ∈ t.sCharacteristics
    · refine hkeep _ ?_
      rwa [hu.listed]
    -- Another object under these numbers would have to be numbered later.
    refine listed_flagCharacteristic u b.characteristic _ _ fun d _ hd hsame => ?_
    rw [(hu.flags d).1] at hd
    rw [(hu.flags d).2.1] at hsame
    by_contra hne
    by_cases hdone : d ∈ t.legacyBindings.map LegacyCharBinding.characteristic
    · rcases (h.named d hdone).2.2 with ⟨b', hb', -, hpair'⟩
      have hn := hclear.nodup
      rw [hb, List.map_append, List.nodup_append'] at hn
      refine hn.2.2 (List.mem_map_of_mem hb') ?_
      rw [List.map_cons, List.map_nil, List.mem_singleton, ← hpair']
      exact hsame
    · rcases h.other d hdone with ⟨hreg', hpair'⟩
      have hahead := hclear.ahead t.legacyBindings b [] hb d hne hdone
        (by rw [← hreg']; exact hd) (by rw [← hpair']; exact hsame)
      exact hin (h.listed _ hahead)
  refine ⟨fun c hmem => ?_, fun c hno => ?_, fun c hmem => ?_,
    hstack.trans (hu.stack.trans h.stack)⟩
  -- who is numbered: those before and the one of this binding
  · rw [hmap, List.mem_append, List.mem_singleton] at hmem
    by_cases hc : c = b.characteristic
    · subst hc
      refine ⟨hreg, hlisted, b, ?_, rfl, hpair⟩
      rw [hbind, hb]
      exact List.mem_append_right _ (List.mem_singleton_self b)
    · rcases h.named c (hmem.resolve_right hc) with ⟨hcreg, hcl, b', hb', hbc, hcp⟩
      rw [Gatt.storedPair, flagged_of_ne u hc]
      change (u.chars c).gattRegistered = true ∧ _ ∧
        ∃ b : LegacyCharBinding, _ ∧ _ ∧ u.storedPair c = b.pair
      rw [(hu.flags c).1, (hu.flags c).2.1]
      refine ⟨hcreg, hkeep c (by rwa [hu.listed]), b', ?_, hbc, hcp⟩
      rw [hbind, hb]
      exact List.mem_append_left _ hb'
  -- the others are untouched
  · rw [hmap, List.mem_append, List.mem_singleton, not_or] at hno
    rw [Gatt.storedPair, flagged_of_ne u hno.2]
    change (u.chars c).gattRegistered = _ ∧ u.storedPair c = _
    rw [(hu.flags c).1, (hu.flags c).2.1]
    exact h.other c hno.1
  -- what is listed stays listed
  · refine hkeep c ?_
    rw [hu.listed]
    exact h.listed c hmem

theorem numbered_addLegacyCharacteristic {s t : Gatt} (h : Numbered s t) (prfId : Nat)
    (c : CharId) (charUuid : Nat)
    (hclear : Clear s (t.addLegacyCharacteristic prfId c charUuid).legacyBindings) :
    Numbered s (t.addLegacyCharacteristic prfId c charUuid) := by
  have hprep := samePlaces_prepareBuffer t c
  have hsame : SamePlaces t ((t.prepareBuffer c).appendLegacyAttributes prfId c charUuid) :=
    hprep.trans (SamePlaces.of_eq rfl rfl rfl rfl rfl rfl rfl)
  rw [Gatt.addLegacyCharacteristic, (flagCharacteristic_tables _ _ _ _).2.1] at hclear
  exact numbered_flag h
    (Gatt.legacyBinding ((t.prepareBuffer c).chars c) c prfId t.legacyAttDb.length) hsame rfl hclear

theorem numbered_addLegacyCharacteristics {s : Gatt} (prfId : Nat) (cs : List CharId) (t : Gatt)
    (h : Numbered s t)
    (hclear : Clear s (Gatt.addLegacyCharacteristics prfId cs t).2.legacyBindings) :
    Numbered s (Gatt.addLegacyCharacteristics prfId cs t).2 := by
  induction cs generalizing t with
  | nil => exact h
  | cons c cs ih =>
      unfold Gatt.addLegacyCharacteristics at hclear ⊢
      split
      · exact h
      · rename_i charUuid heq
        simp only [heq] at hclear
        rcases addLegacyCharacteristics_builds _ prfId cs
          (t.addLegacyCharacteristic prfId c charUuid) (Finalizes.refl _) with ⟨_, -, -, hbind, -⟩
        have hone := numbered_addLegacyCharacteristic h prfId c charUuid (by
          rw [hbind] at hclear
          exact hclear.of_append)
        exact ih _ hone hclear

theorem samePlaces_completeCreate (s : Gatt) (call status : Nat) :
    SamePlaces s (s.completeCreate call status) := by
  unfold Gatt.completeCreate
  split
  · exact SamePlaces.refl s
  · exact SamePlaces.of_eq rfl rfl rfl rfl rfl rfl rfl

theorem samePlaces_arrive (call : Nat) (notices : List Completion) (s : Gatt) :
    SamePlaces s (notices.foldl (Gatt.arrive call) s) := by
  induction notices generalizing s with
  | nil => exact SamePlaces.refl s
  | cons n ns ih =>
      rw [List.foldl_cons]
      refine SamePlaces.trans ?_ (ih _)
      cases n with
      | own status => exact samePlaces_completeCreate s call status
      | stale earlier status => exact samePlaces_completeCreate s earlier status

theorem samePlaces_createLegacyDb (s : Gatt) (cfg : DbCfg) :
    SamePlaces s (s.createLegacyDb cfg).2 := by
  unfold Gatt.createLegacyDb
  split
  · exact (SamePlaces.of_eq rfl rfl rfl rfl rfl rfl rfl :
      SamePlaces s ((s.createCall cfg).acceptCreate s.sdk.createCalls.length cfg)).trans
      (samePlaces_arrive _ _ _)
  · exact SamePlaces.of_eq rfl rfl rfl rfl rfl rfl rfl

/-- Opening a table and flagging a service leave the objects as they are
    numbered. -/
theorem Numbered.openTable {s t : Gatt} (h : Numbered s t) (svc : SvcId) (serviceUuid : Nat) :
    Numbered s (t.openTable svc serviceUuid) :=
  ⟨h.named, h.other, h.listed, h.stack⟩

theorem Numbered.closeTable {s t : Gatt} (h : Numbered s t) (svc : SvcId) (prfId : Nat) :
    Numbered s (t.closeTable svc prfId) :=
  ⟨h.named, h.other, h.listed, h.stack⟩

/-- The loops number the objects, as far as they get. -/
theorem numbered_addLegacyServices {s : Gatt} (services : List (Option SvcId)) (k : Nat)
    (t : Gatt) (h : Numbered s t)
    (hclear : Clear s (Gatt.addLegacyServices services (profileId k) t).2.legacyBindings) :
    Numbered s (Gatt.addLegacyServices services (profileId k) t).2 := by
  induction services generalizing k t with
  | nil => exact h
  | cons entry rest ih =>
      cases entry with
      | none => exact ih k t h hclear
      | some svc =>
          have hturn := legacyTurn t svc rest (profileId k)
          generalize Gatt.addLegacyServices (some svc :: rest) (profileId k) t = r at hturn hclear
          -- The characteristics of one service, if their bindings are clear.
          have hchars : ∀ serviceUuid ok u,
              Gatt.addLegacyCharacteristics (profileId k) (t.services svc).characteristics
                (t.openTable svc serviceUuid) = (ok, u) →
              Clear s u.legacyBindings → Numbered s u := by
            intro serviceUuid ok u hu hclear
            have hloop := numbered_addLegacyCharacteristics (profileId k)
              (t.services svc).characteristics _ (h.openTable svc serviceUuid)
            rw [hu] at hloop
            exact hloop hclear
          cases hturn with
          | badService => exact h
          | badCharacteristic serviceUuid u hu => exact hchars serviceUuid false u hu hclear
          | refused serviceUuid u v hu hcreate =>
              -- Handing over a table does not change what is bound.
              have hbind := (sdkOnly_createLegacyDb u
                (u.legacyDbCfg (profileId k) serviceUuid svc)).legacyBindings
              have hsame := samePlaces_createLegacyDb u
                (u.legacyDbCfg (profileId k) serviceUuid svc)
              rw [hcreate] at hbind hsame
              rw [hbind] at hclear
              exact (hchars serviceUuid true u hu hclear).of_same hsame hbind
          | created serviceUuid u v hu hcreate =>
              have hbind := (sdkOnly_createLegacyDb u
                (u.legacyDbCfg (profileId k) serviceUuid svc)).legacyBindings
              have hsame := samePlaces_createLegacyDb u
                (u.legacyDbCfg (profileId k) serviceUuid svc)
              rw [hcreate] at hbind hsame
              rw [profileId_succ] at hclear ⊢
              -- The service gets its number, and the next one follows.
              refine ih (k + 1) _ (Numbered.closeTable ?_ svc (profileId k)) hclear
              rcases built_addLegacyServices _ rest (k + 1) (v.closeTable svc (profileId k))
                (Finalizes.refl _) with ⟨_, _, -, -, hmore⟩
              rw [hmore] at hclear
              have hpre : Clear s v.legacyBindings := hclear.of_append
              rw [hbind] at hpre
              exact (hchars serviceUuid true u hu hpre).of_same hsame hbind

/-! ## Creating the tables -/

/-- Completions arrive in the wait for their own call. -/
def OwnCompletions (answers : List SdkAnswer) : Prop :=
  ∀ notices, .accepted notices ∈ answers → ∀ n ∈ notices, ∃ status, n = .own status

/-- Completions of a call that is not waiting change nothing. -/
theorem arrive_completed (call : Nat) (notices : List Completion) (s : Gatt)
    (hown : ∀ n ∈ notices, ∃ status, n = .own status)
    (h : ∀ p ∈ s.sdk.legacyPending, p.1 ≠ call) :
    notices.foldl (Gatt.arrive call) s = s := by
  induction notices with
  | nil => rfl
  | cons n ns ih =>
      rcases hown n List.mem_cons_self with ⟨status, rfl⟩
      have hnone : s.sdk.legacyPending.find? (fun p => p.1 == call) = none :=
        List.find?_eq_none.2 fun p hp => by
          rw [beq_iff_eq]
          exact h p hp
      have hsame : Gatt.arrive call s (.own status) = s := by
        simp only [Gatt.arrive, Gatt.completeCreate, hnone]
      rw [List.foldl_cons, hsame]
      exact ih fun m hm => hown m (List.mem_cons_of_mem _ hm)

/-- The completion of the call that was accepted last. -/
theorem completeCreate_accepted (s : Gatt) (call : Nat) (cfg : DbCfg) (status : Nat)
    (hold : ∀ p ∈ s.sdk.legacyPending, p.1 ≠ call) :
    (∀ p ∈ ((s.acceptCreate call cfg).completeCreate call status).sdk.legacyPending, p.1 ≠ call) ∧
      ((s.acceptCreate call cfg).completeCreate call status).legacyDbCreateStatus = status ∧
      (status = 0 →
        cfg ∈ ((s.acceptCreate call cfg).completeCreate call status).sdk.legacyCreated) := by
  have hfind : (s.acceptCreate call cfg).sdk.legacyPending.find? (fun p => p.1 == call) =
      some (call, cfg) := by
    have hnone : s.sdk.legacyPending.find? (fun p => p.1 == call) = none :=
      List.find?_eq_none.2 fun p hp => by
        rw [beq_iff_eq]
        exact hold p hp
    change (s.sdk.legacyPending ++ [(call, cfg)]).find? (fun p => p.1 == call) = _
    rw [List.find?_append, hnone, Option.none_or]
    exact List.find?_cons_of_pos (beq_self_eq_true call)
  simp only [Gatt.completeCreate, hfind, Gatt.noteCreateDb]
  refine ⟨fun p hp => ?_, True.intro, fun hzero => ?_⟩
  · exact bne_iff_ne.1 (List.mem_filter.1 hp).2
  · rw [if_pos hzero]
    exact List.mem_append_right _ (List.mem_singleton_self cfg)

/-- A table the code takes for created is created, when completions arrive in
    their own wait. -/
theorem createLegacyDb_created {s t : Gatt} {cfg : DbCfg}
    (h : s.createLegacyDb cfg = (true, t)) (hown : OwnCompletions s.sdk.answers)
    (hvalid : s.sdk.Valid) : cfg ∈ t.sdk.legacyCreated := by
  unfold Gatt.createLegacyDb at h
  split at h
  · rename_i notices hnext
    -- the answer taken is one of those the stack gives
    have hmem : SdkAnswer.accepted notices ∈ s.sdk.answers := by
      unfold Gatt.nextAnswer at hnext
      cases ha : s.sdk.answers with
      | nil =>
          rw [ha] at hnext
          exact absurd hnext SdkAnswer.noConfusion
      | cons a as =>
          rw [ha] at hnext
          rw [← hnext]
          exact List.mem_cons_self
    have hall := hown notices hmem
    have hold : ∀ p ∈ (s.createCall cfg).sdk.legacyPending, p.1 ≠ s.sdk.createCalls.length :=
      fun p hp => Nat.ne_of_lt (hvalid.pending p hp)
    unfold Gatt.waitForLegacyDatabaseCreated at h
    obtain ⟨hok, rfl⟩ := Prod.mk.inj h
    cases notices with
    | nil =>
        -- No completion in time: the flag is still as the reset left it.
        exact absurd hok Bool.false_ne_true
    | cons n ns =>
        -- the first notice is the completion of this very call
        rcases hall n List.mem_cons_self with ⟨status, rfl⟩
        rcases completeCreate_accepted (s.createCall cfg) s.sdk.createCalls.length cfg status hold
          with ⟨hgone, hstatus, hcreated⟩
        -- later notices are of this call as well, and change nothing more
        have hrest := arrive_completed s.sdk.createCalls.length ns
          (((s.createCall cfg).acceptCreate s.sdk.createCalls.length cfg).completeCreate
            s.sdk.createCalls.length status)
          (fun m hm => hall m (List.mem_cons_of_mem _ hm)) hgone
        rw [List.foldl_cons] at hok ⊢
        change (_ && (ns.foldl (Gatt.arrive s.sdk.createCalls.length)
          (((s.createCall cfg).acceptCreate s.sdk.createCalls.length cfg).completeCreate
            s.sdk.createCalls.length status)).legacyDbCreateStatus == 0) = true at hok
        change cfg ∈ (ns.foldl (Gatt.arrive s.sdk.createCalls.length)
          (((s.createCall cfg).acceptCreate s.sdk.createCalls.length cfg).completeCreate
            s.sdk.createCalls.length status)).sdk.legacyCreated
        rw [hrest] at hok ⊢
        rw [Bool.and_eq_true, beq_iff_eq, hstatus] at hok
        exact hcreated hok.2
  · exact absurd (Prod.mk.inj h).1 Bool.false_ne_true

theorem services_addLegacyCharacteristics (prfId : Nat) (cs : List CharId) (s : Gatt) :
    (Gatt.addLegacyCharacteristics prfId cs s).2.services = s.services := by
  induction cs generalizing s with
  | nil => rfl
  | cons c cs ih =>
      unfold Gatt.addLegacyCharacteristics
      split
      · rfl
      · rw [ih]
        exact (flagCharacteristic_frame _ _ _ _).1

/-- What a pass over some services has created and flagged when it gets to the
    end, the first of them being at place `k`. -/
structure Created (s0 : Gatt) (k : Nat) (services : List SvcId) (s r : Gatt) : Prop where
  tables : ∀ j svc, services[j]? = some svc →
    ∃ cfg ∈ r.sdk.legacyCreated, cfg.owner = svc ∧ IsTable s0 (k + j) cfg
  bindings : r.legacyBindings = s.legacyBindings ++ bindingsOf s0 k services
  flagged : ∀ svc ∈ services, (r.services svc).gattRegistered = true ∧
    ∃ j, services[j]? = some svc ∧ (r.services svc).gattServiceHandle = profileId (k + j)
  other : ∀ svc, svc ∉ services → r.services svc = s.services svc

/-- The first of some services, created and flagged before the rest. -/
theorem Created.cons {s0 s t u r : Gatt} {k serviceUuid : Nat} {svc : SvcId} {rest : List SvcId}
    (htable : IsTable s0 k (t.legacyDbCfg (profileId k) serviceUuid svc))
    (hbind : t.legacyBindings = s.legacyBindings ++
      bindingsFrom s0 (profileId k) 1 (s0.services svc).characteristics)
    (hservices : t.services = s.services) (honly : SdkOnly t u)
    (hcreated : t.legacyDbCfg (profileId k) serviceUuid svc ∈ u.sdk.legacyCreated)
    (hkept : ∀ cfg ∈ u.sdk.legacyCreated, cfg ∈ r.sdk.legacyCreated)
    (h : Created s0 (k + 1) rest (u.closeTable svc (profileId k)) r) :
    Created s0 k (svc :: rest) s r where
  tables j x hj := by
    cases j with
    -- The table of this service, which is kept to the end.
    | zero =>
        obtain rfl := Option.some.inj hj
        exact ⟨_, hkept _ hcreated, rfl, htable⟩
    | succ j =>
        have hnext := h.tables j x hj
        rwa [Nat.add_right_comm k 1 j] at hnext
  bindings := by
    rw [h.bindings]
    change u.legacyBindings ++ _ = _
    rw [honly.legacyBindings, hbind, List.append_assoc, bindingsOf]
  flagged x hx := by
    -- A service that comes later is flagged later.
    by_cases hrest : x ∈ rest
    · rcases h.flagged x hrest with ⟨hreg, j, hj, hhandle⟩
      exact ⟨hreg, j + 1, hj, by rwa [Nat.add_right_comm k 1 j] at hhandle⟩
    · obtain rfl := (List.mem_cons.1 hx).resolve_right hrest
      rw [h.other x hrest]
      simp only [Gatt.closeTable, Gatt.setService, Function.update_self]
      exact ⟨True.intro, 0, rfl, rfl⟩
  other x hx := by
    rw [List.mem_cons, not_or] at hx
    rw [h.other x hx.2]
    simp only [Gatt.closeTable, Gatt.setService, Function.update_of_ne hx.1]
    rw [honly.services, hservices]

/-- A pass that gets to the end created a table for every service, when
    completions arrive in their own wait. -/
theorem created_addLegacyServices (s0 : Gatt) (services : List (Option SvcId)) (k : Nat) (s : Gatt)
    (h : Finalizes s0 s) (hown : OwnCompletions s.sdk.answers) (hvalid : s.sdk.Valid)
    (hok : (Gatt.addLegacyServices services (profileId k) s).1 = true) :
    Created s0 k services.reduceOption s (Gatt.addLegacyServices services (profileId k) s).2 := by
  induction services generalizing k s with
  | nil =>
      exact ⟨fun _ _ hj => absurd hj.symm (Option.some_ne_none _), (List.append_nil _).symm,
        fun _ hx => absurd hx List.not_mem_nil, fun _ _ => rfl⟩
  | cons entry rest ih =>
      cases entry with
      | none =>
          rw [List.reduceOption_cons_of_none]
          exact ih k s h hown hvalid hok
      | some svc =>
          rw [List.reduceOption_cons_of_some]
          -- A pass that ends well has created the table of this service.
          rcases created_of_ok hok with ⟨serviceUuid, t, u, ht, hcreate, hpass⟩
          rcases openTable_builds h ht with ⟨hfin, htable, hbind, hsdk⟩
          have hservices : t.services = s.services := by
            have hs := services_addLegacyCharacteristics (profileId k)
              (s.services svc).characteristics (s.openTable svc serviceUuid)
            rw [ht] at hs
            exact hs
          have hcreated := createLegacyDb_created hcreate (by rw [hsdk]; exact hown)
            (by rw [hsdk]; exact hvalid)
          have honly := sdkOnly_createLegacyDb t (t.legacyDbCfg (profileId k) serviceUuid svc)
          rw [hcreate] at honly
          have hframe := honly.sdk
          rw [hsdk] at hframe
          -- The next service has the next number.
          rw [hpass, profileId_succ] at hok ⊢
          refine Created.cons htable hbind hservices honly hcreated
            (finalizes_closed.addLegacyServices rest (profileId (k + 1))
              (u.closeTable svc (profileId k))).sdk.created
            (ih (k + 1) _ ?_ ?_ (hframe.valid hvalid) hok)
          · -- What was finalized before stays so in the rest of the pass.
            exact (hfin.trans (finalizes_closed.sdkOnly honly)).trans
              (finalizes_setService u svc rfl rfl)
          · intro notices hmem
            exact hown notices (hframe.answers.subset hmem)

/-! ## What the other pass leaves -/

/-- No object that is registered stores numbers that a pass gives to another
    one. -/
def NumbersFree (s : Gatt) (services : List SvcId) : Prop :=
  ∀ b ∈ bindingsOf s 0 services, ∀ d, (s.chars d).gattRegistered = true →
    s.storedPair d = b.pair → d = b.characteristic

/-- When the Ethermind pass registered a prefix of the characteristics and
    listed them, it left nothing in the way: an object that still has to be
    numbered stands behind the one it would be taken for, which is listed
    then. -/
theorem clear_of_registers {s t : Gatt} {services : List SvcId} {cs : List CharId}
    (hfree : NumbersFree s services) (hregs : Registers cs s t)
    (hinit : cs <+: services.flatMap fun svc => (s.services svc).characteristics)
    (hlisted : ∀ c ∈ cs, c ∈ t.sCharacteristics)
    (hnodup : ((bindingsOf s 0 services).map LegacyCharBinding.pair).Nodup) :
    Clear t (bindingsOf s 0 services) where
  nodup := hnodup
  ahead done b rest heq d hne hdone hd hpair := by
    have hmem : b ∈ bindingsOf s 0 services := by
      rw [heq]
      exact List.mem_append_right done List.mem_cons_self
    -- a characteristic with the number is an old one, or one that was registered on the way
    rcases hregs.fresh d hd with hold | hnew
    · rw [(hregs.kept d hold).2] at hpair
      exact absurd (hfree b hmem d hold hpair) hne
    · rw [← map_bindingsOf s 0, heq, List.map_append, List.map_cons] at hinit
      have hseen : done.map LegacyCharBinding.characteristic ++ [b.characteristic] <+:
          done.map LegacyCharBinding.characteristic ++
            b.characteristic :: rest.map LegacyCharBinding.characteristic :=
        ⟨rest.map LegacyCharBinding.characteristic, by
          rw [List.append_assoc, List.singleton_append]⟩
      refine hlisted _ ?_
      rcases List.prefix_or_prefix_of_prefix hinit hseen with hshort | hlong
      · rcases List.mem_append.1 (hshort.subset hnew) with hd' | hd'
        · exact absurd hd' hdone
        · exact absurd (List.mem_singleton.1 hd') hne
      · exact hlong.subset (List.mem_append_right _ (List.mem_singleton_self _))

end BLE

end ArduinoBeken
