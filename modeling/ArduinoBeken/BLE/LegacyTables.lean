import Mathlib.Data.List.ReduceOption
import ArduinoBeken.BLE.Frame

/-!
# The Legacy Attribute Tables

What `finalizeLegacyDatabase` hands to `bk_ble_create_db`, and how its
bindings answer the requests that come back.

The tables of a pass and its bindings are built side by side: a service opens
a table, each characteristic puts two or three attributes into it, and the
indices of these go into a binding. `Built` is that construction as a
relation, with the profile ids counted from the first, and
`built_addLegacyServices` shows that the loops of the source follow it,
wherever they stop.

Two narrowing conversions stand between the construction and the stack: the
attribute count has eight bits, the profile id and the indices sixteen. The
count is the first to overflow. `legacy_tables_faithful_iff` says that it is
the only thing that goes wrong as long as there are profile ids for all
services.

## Main definitions

* `attributeKinds`, `layout`: The attributes of a characteristic and a table.
* `bindingsFrom`: The bindings of a list of characteristics.
* `Built`: Tables and bindings, built side by side.
* `LegacyTurn`: What one turn of the loop over the services can do.
* `tables`: The tables a pass hands over.
* `TableFaithful`: What a table, its bindings and the lookup agree on.

## Theorems

* `built_addLegacyServices`: The loops build tables and bindings.
* `filter_bindings`: A profile id picks the bindings of its table.
* `find_answers`: The lookup inside one table.
* `legacy_tables_faithful_iff`: The tables are faithful when they are short.
* `many_characteristics_truncated`: A table that is not.
-/

namespace ArduinoBeken

namespace BLE

/-! ## Layouts -/

/-- The attributes a characteristic takes up. -/
def attributeKinds (ch : BLECharacteristic) (c : CharId) : List AttKind :=
  [.charDecl c, .charValue c] ++ if ch.notifies then [.cccd c] else []

/-- The attributes of a list of characteristics. -/
def characteristicKinds (s : Gatt) (cs : List CharId) : List AttKind :=
  cs.flatMap fun c => attributeKinds (s.chars c) c

/-- The attributes of a service. -/
def layout (s : Gatt) (svc : SvcId) : List AttKind :=
  .serviceDecl svc :: characteristicKinds s (s.services svc).characteristics

/-- The bindings of a list of characteristics, in a table that holds `n`
    attributes so far. -/
def bindingsFrom (s : Gatt) (prfId : Nat) : Nat → List CharId → List LegacyCharBinding
  | _, [] => []
  | n, c :: cs =>
    Gatt.legacyBinding (s.chars c) c prfId n ::
      bindingsFrom s prfId (n + (attributeKinds (s.chars c) c).length) cs

theorem characteristicKinds_cons (s : Gatt) (c : CharId) (cs : List CharId) :
    characteristicKinds s (c :: cs) =
      attributeKinds (s.chars c) c ++ characteristicKinds s cs := rfl

/-- The profile id of the service at a place among the services. -/
def profileId (k : Nat) : Nat := u16 (kLegacyPrfTaskBase + k)

theorem profileId_succ (k : Nat) : u16 (profileId k + 1) = profileId (k + 1) := by
  unfold profileId u16
  omega

/-- Fewer places apart than there are profile ids, two ids differ. -/
theorem profileId_inj {k j : Nat} (h : profileId k = profileId j) (hk : k < j + 65536)
    (hj : j < k + 65536) : k = j := by
  unfold profileId u16 at h
  omega

/-- A table as the loop over a service hands it over. -/
structure IsTable (s : Gatt) (k : Nat) (cfg : DbCfg) : Prop where
  profile : cfg.prfTaskId = profileId k
  count : cfg.attDbNb = u8 cfg.attDb.length
  kinds : cfg.attDb.map AttDesc.kind = layout s cfg.owner

/-- The tables and the bindings of a pass over `m` services, of which the first
    is at place `k`. The pass may stop early, in the middle of a service or
    behind a table. -/
inductive Built (s : Gatt) : Nat → Nat → List DbCfg → List LegacyCharBinding → Prop
  | nil (k m : Nat) : Built s k m [] []
  | unfinished (k m : Nat) (bindings : List LegacyCharBinding)
      (h : ∀ b ∈ bindings, b.prfId = profileId k) : Built s k (m + 1) [] bindings
  | table (k m : Nat) (cfg : DbCfg) (cfgs : List DbCfg) (bindings : List LegacyCharBinding)
      (h : IsTable s k cfg) (hrest : Built s (k + 1) m cfgs bindings) :
      Built s k (m + 1) (cfg :: cfgs)
        (bindingsFrom s (profileId k) 1 (s.services cfg.owner).characteristics ++ bindings)

/-! ## The loops build them -/

theorem legacyBinding_congr {c d : BLECharacteristic} (h : d.notifies = c.notifies)
    (x : CharId) (prfId n : Nat) :
    Gatt.legacyBinding d x prfId n = Gatt.legacyBinding c x prfId n := by
  simp only [Gatt.legacyBinding, h]

theorem attributeKinds_congr {c d : BLECharacteristic} (h : d.notifies = c.notifies)
    (x : CharId) : attributeKinds d x = attributeKinds c x := by
  simp only [attributeKinds, h]

theorem kinds_legacyAttributes (ch : BLECharacteristic) (c : CharId) (charUuid : Nat) :
    (Gatt.legacyAttributes ch c charUuid).map AttDesc.kind = attributeKinds ch c := by
  unfold Gatt.legacyAttributes attributeKinds
  split_ifs <;> rfl

/-- Flagging a characteristic leaves the table, the bindings and the stacks. -/
theorem flagCharacteristic_tables (s : Gatt) (c : CharId) (sh ch : Nat) :
    (s.flagCharacteristic c sh ch).legacyAttDb = s.legacyAttDb ∧
      (s.flagCharacteristic c sh ch).legacyBindings = s.legacyBindings ∧
      (s.flagCharacteristic c sh ch).sdk = s.sdk := by
  unfold Gatt.flagCharacteristic Gatt.listCharacteristic
  split_ifs <;> exact ⟨rfl, rfl, rfl⟩

/-- One turn of the loop over the characteristics. -/
theorem addLegacyCharacteristic_builds (s : Gatt) (prfId : Nat) (c : CharId) (charUuid : Nat) :
    (s.addLegacyCharacteristic prfId c charUuid).legacyAttDb.map AttDesc.kind =
        s.legacyAttDb.map AttDesc.kind ++ attributeKinds (s.chars c) c ∧
      (s.addLegacyCharacteristic prfId c charUuid).legacyBindings =
        s.legacyBindings ++ [Gatt.legacyBinding (s.chars c) c prfId s.legacyAttDb.length] ∧
      (s.addLegacyCharacteristic prfId c charUuid).sdk = s.sdk := by
  have hnot : ((s.prepareBuffer c).chars c).notifies = (s.chars c).notifies :=
    ((finalizes_prepareBuffer s c).decl c).notifies
  unfold Gatt.addLegacyCharacteristic
  rcases flagCharacteristic_tables ((s.prepareBuffer c).appendLegacyAttributes prfId c charUuid) c
    prfId (u16 (s.legacyAttDb.length + 1)) with ⟨hdb, hbind, hsdk⟩
  rw [hdb, hbind, hsdk]
  refine ⟨?_, ?_, rfl⟩
  · rw [Gatt.appendLegacyAttributes, List.map_append, kinds_legacyAttributes,
      attributeKinds_congr hnot]
    rfl
  · rw [Gatt.appendLegacyAttributes, legacyBinding_congr hnot]
    rfl

/-- The loop over the characteristics builds the attributes and the bindings
    of those it gets to. -/
theorem addLegacyCharacteristics_builds (s0 : Gatt) (prfId : Nat) (cs : List CharId) (s : Gatt)
    (h : Finalizes s0 s) : ∃ done,
      ((Gatt.addLegacyCharacteristics prfId cs s).1 = true → done = cs) ∧
      (Gatt.addLegacyCharacteristics prfId cs s).2.legacyAttDb.map AttDesc.kind =
        s.legacyAttDb.map AttDesc.kind ++ characteristicKinds s0 done ∧
      (Gatt.addLegacyCharacteristics prfId cs s).2.legacyBindings =
        s.legacyBindings ++ bindingsFrom s0 prfId s.legacyAttDb.length done ∧
      (Gatt.addLegacyCharacteristics prfId cs s).2.sdk = s.sdk := by
  induction cs generalizing s with
  | nil =>
      refine ⟨[], fun _ => rfl, ?_, ?_, rfl⟩
      · exact (List.append_nil _).symm
      · exact (List.append_nil _).symm
  | cons c cs ih =>
      unfold Gatt.addLegacyCharacteristics
      split
      · -- A UUID that is not one stops the loop.
        refine ⟨[], fun hok => absurd hok Bool.false_ne_true, ?_, ?_, rfl⟩
        · exact (List.append_nil _).symm
        · exact (List.append_nil _).symm
      · rename_i charUuid _
        have hnot : (s.chars c).notifies = (s0.chars c).notifies := (h.decl c).notifies
        rcases addLegacyCharacteristic_builds s prfId c charUuid with ⟨hdb, hbind, hsdk⟩
        -- The table is longer by the attributes of this characteristic.
        rcases ih (s.addLegacyCharacteristic prfId c charUuid)
          (h.trans (finalizes_closed.addLegacyCharacteristic s prfId c charUuid)) with
          ⟨done, hall, hdb', hbind', hsdk'⟩
        have hlen : (s.addLegacyCharacteristic prfId c charUuid).legacyAttDb.length =
            s.legacyAttDb.length + (attributeKinds (s0.chars c) c).length := by
          have hcount := congrArg List.length hdb
          rw [List.length_append, List.length_map, List.length_map,
            attributeKinds_congr hnot] at hcount
          exact hcount
        refine ⟨c :: done, fun hok => by rw [hall hok], ?_, ?_, hsdk'.trans hsdk⟩
        · rw [hdb', hdb, characteristicKinds_cons, List.append_assoc, attributeKinds_congr hnot]
        · rw [hbind', hbind, hlen, legacyBinding_congr hnot, List.append_assoc]
          rfl

/-- A table that holds an attribute keeps it, so the check for an empty table
    never fails. -/
theorem legacyAttDb_not_isEmpty (prfId : Nat) (cs : List CharId) (s : Gatt)
    (h : s.legacyAttDb ≠ []) :
    ¬ (Gatt.addLegacyCharacteristics prfId cs s).2.legacyAttDb.isEmpty = true := by
  rcases addLegacyCharacteristics_builds s prfId cs s (Finalizes.refl s) with ⟨done, -, hdb, -, -⟩
  intro hempty
  rw [List.isEmpty_iff] at hempty
  rw [hempty, List.map_nil] at hdb
  exact h (List.map_eq_nil_iff.1 (List.append_eq_nil_iff.1 hdb.symm).1)

theorem createCalls_arrive (call : Nat) (notices : List Completion) (s : Gatt) :
    (notices.foldl (Gatt.arrive call) s).sdk.createCalls = s.sdk.createCalls := by
  have hone : ∀ (t : Gatt) (n status : Nat),
      (t.completeCreate n status).sdk.createCalls = t.sdk.createCalls := by
    intro t n status
    unfold Gatt.completeCreate
    split <;> rfl
  induction notices generalizing s with
  | nil => rfl
  | cons n ns ih =>
      rw [List.foldl_cons, ih]
      cases n with
      | own status => exact hone s call status
      | stale earlier status => exact hone s earlier status

/-- Every table handed over is logged. -/
theorem createCalls_createLegacyDb (s : Gatt) (cfg : DbCfg) :
    (s.createLegacyDb cfg).2.sdk.createCalls = s.sdk.createCalls ++ [cfg] := by
  unfold Gatt.createLegacyDb
  split
  · exact createCalls_arrive s.sdk.createCalls.length _ _
  · rfl

theorem prfId_bindingsFrom (s : Gatt) (prfId n : Nat) (cs : List CharId) :
    ∀ b ∈ bindingsFrom s prfId n cs, b.prfId = prfId := by
  induction cs generalizing n with
  | nil => exact fun b hb => absurd hb List.not_mem_nil
  | cons c cs ih =>
      intro b hb
      rcases List.mem_cons.1 hb with rfl | hrest
      · rfl
      · exact ih _ b hrest

/-- The table of a service when the loop opens it. -/
def Gatt.openTable (s : Gatt) (svc : SvcId) (serviceUuid : Nat) : Gatt :=
  { s with legacyAttDb := [{ kind := .serviceDecl svc, uuid := serviceUuid, perm := permRd }] }

/-- The service once its table is created. -/
def Gatt.closeTable (s : Gatt) (svc : SvcId) (prfId : Nat) : Gatt :=
  s.setService svc { s.services svc with gattRegistered := true, gattServiceHandle := prfId }

/-- What one turn of the loop over the services can do: turn the service down,
    stop at a characteristic, stop at the stack, or create the table and go
    on. -/
inductive LegacyTurn (s : Gatt) (svc : SvcId) (rest : List (Option SvcId)) (prfId : Nat) :
    Bool × Gatt → Prop
  | badService (h : parseUuid16 (s.services svc).uuid = none) :
      LegacyTurn s svc rest prfId (false, s)
  | badCharacteristic (serviceUuid : Nat) (t : Gatt)
      (h : Gatt.addLegacyCharacteristics prfId (s.services svc).characteristics
        (s.openTable svc serviceUuid) = (false, t)) : LegacyTurn s svc rest prfId (false, t)
  | refused (serviceUuid : Nat) (t u : Gatt)
      (h : Gatt.addLegacyCharacteristics prfId (s.services svc).characteristics
        (s.openTable svc serviceUuid) = (true, t))
      (hcreate : t.createLegacyDb (t.legacyDbCfg prfId serviceUuid svc) = (false, u)) :
      LegacyTurn s svc rest prfId (false, u)
  | created (serviceUuid : Nat) (t u : Gatt)
      (h : Gatt.addLegacyCharacteristics prfId (s.services svc).characteristics
        (s.openTable svc serviceUuid) = (true, t))
      (hcreate : t.createLegacyDb (t.legacyDbCfg prfId serviceUuid svc) = (true, u)) :
      LegacyTurn s svc rest prfId
        (Gatt.addLegacyServices rest (u16 (prfId + 1)) (u.closeTable svc prfId))

theorem legacyTurn (s : Gatt) (svc : SvcId) (rest : List (Option SvcId)) (prfId : Nat) :
    LegacyTurn s svc rest prfId (Gatt.addLegacyServices (some svc :: rest) prfId s) := by
  unfold Gatt.addLegacyServices
  -- The turn ends at the first step that fails.
  split
  · rename_i h
    exact .badService h
  rename_i serviceUuid _
  simp only
  have hne := legacyAttDb_not_isEmpty prfId (s.services svc).characteristics
    (s.openTable svc serviceUuid) (List.cons_ne_nil _ _)
  split
  · rename_i t h
    exact .badCharacteristic serviceUuid t h
  rename_i t h
  change ¬ (Gatt.addLegacyCharacteristics prfId (s.services svc).characteristics
    (s.openTable svc serviceUuid)).2.legacyAttDb.isEmpty = true at hne
  have h' : Gatt.addLegacyCharacteristics prfId (s.services svc).characteristics
    (s.openTable svc serviceUuid) = (true, t) := h
  rw [h'] at hne
  rw [if_neg hne]
  split
  · rename_i u hcreate
    exact .refused serviceUuid t u h hcreate
  · rename_i u hcreate
    exact .created serviceUuid t u h hcreate

/-- A pass that gets to the end created a table in each of its turns. -/
theorem created_of_ok {s : Gatt} {svc : SvcId} {rest : List (Option SvcId)} {prfId : Nat}
    (hok : (Gatt.addLegacyServices (some svc :: rest) prfId s).1 = true) :
    ∃ serviceUuid t u,
      Gatt.addLegacyCharacteristics prfId (s.services svc).characteristics
        (s.openTable svc serviceUuid) = (true, t) ∧
      t.createLegacyDb (t.legacyDbCfg prfId serviceUuid svc) = (true, u) ∧
      Gatt.addLegacyServices (some svc :: rest) prfId s =
        Gatt.addLegacyServices rest (u16 (prfId + 1)) (u.closeTable svc prfId) := by
  have hturn := legacyTurn s svc rest prfId
  generalize Gatt.addLegacyServices (some svc :: rest) prfId s = r at hturn hok ⊢
  cases hturn with
  | badService => exact absurd hok Bool.false_ne_true
  | badCharacteristic => exact absurd hok Bool.false_ne_true
  | refused => exact absurd hok Bool.false_ne_true
  | created serviceUuid t u ht hcreate => exact ⟨serviceUuid, t, u, ht, hcreate, rfl⟩

/-- The attributes and bindings of a service, when all its characteristics
    parse. -/
theorem openTable_builds {s0 s t : Gatt} (h : Finalizes s0 s) {svc : SvcId}
    {serviceUuid k : Nat}
    (ht : Gatt.addLegacyCharacteristics (profileId k) (s.services svc).characteristics
      (s.openTable svc serviceUuid) = (true, t)) :
    Finalizes s0 t ∧ IsTable s0 k (t.legacyDbCfg (profileId k) serviceUuid svc) ∧
      t.legacyBindings = s.legacyBindings ++
        bindingsFrom s0 (profileId k) 1 (s0.services svc).characteristics ∧
      t.sdk = s.sdk := by
  have hopen : Finalizes s0 (s.openTable svc serviceUuid) :=
    h.trans (Finalizes.of_eq rfl rfl rfl rfl (StackFrame.refl _))
  have hfin := hopen.trans (finalizes_closed.addLegacyCharacteristics (profileId k)
    (s.services svc).characteristics (s.openTable svc serviceUuid))
  rcases addLegacyCharacteristics_builds s0 (profileId k) (s.services svc).characteristics _ hopen
    with ⟨done, hall, hdb, hbind, hsdk⟩
  rw [ht] at hall hdb hbind hsdk hfin
  have hmembers : done = (s0.services svc).characteristics := (hall rfl).trans (h.service svc).1
  rw [hmembers] at hdb hbind
  exact ⟨hfin, ⟨rfl, rfl, by rw [Gatt.legacyDbCfg, layout, hdb]; rfl⟩, hbind, hsdk⟩

/-- The loops build tables and bindings, wherever they stop. -/
theorem built_addLegacyServices (s0 : Gatt) (services : List (Option SvcId)) (k : Nat) (s : Gatt)
    (h : Finalizes s0 s) : ∃ cfgs bindings,
      Built s0 k services.reduceOption.length cfgs bindings ∧
      (Gatt.addLegacyServices services (profileId k) s).2.sdk.createCalls =
        s.sdk.createCalls ++ cfgs ∧
      (Gatt.addLegacyServices services (profileId k) s).2.legacyBindings =
        s.legacyBindings ++ bindings := by
  induction services generalizing k s with
  | nil => exact ⟨[], [], .nil k _, (List.append_nil _).symm, (List.append_nil _).symm⟩
  | cons entry rest ih =>
      -- An entry without a service is passed over.
      cases entry with
      | none =>
          rw [List.reduceOption_cons_of_none]
          exact ih k s h
      | some svc =>
          rw [List.reduceOption_cons_of_some, List.length_cons]
          have hturn := legacyTurn s svc rest (profileId k)
          generalize hr : Gatt.addLegacyServices (some svc :: rest) (profileId k) s = r at hturn
          cases hturn with
          | badService =>
              exact ⟨[], [], .nil k _, (List.append_nil _).symm, (List.append_nil _).symm⟩
          | badCharacteristic serviceUuid t ht =>
              -- The table is opened, but it is not handed to the stack.
              have hopen : Finalizes s0 (s.openTable svc serviceUuid) :=
                h.trans (Finalizes.of_eq rfl rfl rfl rfl (StackFrame.refl _))
              rcases addLegacyCharacteristics_builds s0 (profileId k)
                (s.services svc).characteristics _ hopen with ⟨done, -, -, hbind, hsdk⟩
              rw [ht] at hbind hsdk
              refine ⟨[], _, .unfinished k _ _ (prfId_bindingsFrom s0 (profileId k) 1 done), ?_,
                hbind⟩
              rw [List.append_nil]
              exact congrArg Sdk.createCalls hsdk
          | refused serviceUuid t u ht hcreate =>
              -- The stack refuses the table, which counts as one that was handed over.
              rcases openTable_builds h ht with ⟨-, htable, hbind, hsdk⟩
              have hcalls :=
                createCalls_createLegacyDb t (t.legacyDbCfg (profileId k) serviceUuid svc)
              have honly := sdkOnly_createLegacyDb t (t.legacyDbCfg (profileId k) serviceUuid svc)
              rw [hcreate] at hcalls honly
              refine ⟨_, _, .table k _ _ [] [] htable (.nil _ _), ?_, ?_⟩
              · rw [hcalls, hsdk]
              · rw [List.append_nil]
                exact honly.legacyBindings.trans hbind
          | created serviceUuid t u ht hcreate =>
              -- The table is accepted, and the next service has the next number.
              rcases openTable_builds h ht with ⟨hfin, htable, hbind, hsdk⟩
              have hcalls :=
                createCalls_createLegacyDb t (t.legacyDbCfg (profileId k) serviceUuid svc)
              have honly := sdkOnly_createLegacyDb t (t.legacyDbCfg (profileId k) serviceUuid svc)
              rw [hcreate] at hcalls honly
              have hnext : Finalizes s0 (u.closeTable svc (profileId k)) :=
                (hfin.trans (finalizes_closed.sdkOnly honly)).trans
                  (finalizes_setService u svc rfl rfl)
              rw [profileId_succ]
              rcases ih (k + 1) _ hnext with ⟨cfgs, bindings, hbuilt, hcfgs, hbinds⟩
              refine ⟨_, _, .table k _ _ cfgs bindings htable hbuilt, ?_, ?_⟩
              · rw [hcfgs]
                change u.sdk.createCalls ++ cfgs = _
                rw [hcalls, hsdk, List.append_assoc]
                rfl
              · rw [hbinds]
                change u.legacyBindings ++ bindings = _
                rw [honly.legacyBindings, hbind, List.append_assoc]
                rfl

/-! ## A profile id picks its table's bindings -/

/-- Tables and bindings carry the profile ids of the places they are built
    for. -/
theorem built_range {s : Gatt} {k m : Nat} {cfgs : List DbCfg}
    {bindings : List LegacyCharBinding} (h : Built s k m cfgs bindings) :
    (∀ cfg ∈ cfgs, ∃ j, k ≤ j ∧ j < k + m ∧ IsTable s j cfg) ∧
      ∀ b ∈ bindings, ∃ j, k ≤ j ∧ j < k + m ∧ b.prfId = profileId j := by
  induction h with
  | nil k m =>
      exact ⟨fun _ hcfg => absurd hcfg List.not_mem_nil, fun _ hb => absurd hb List.not_mem_nil⟩
  | unfinished k m bindings hb =>
      exact ⟨fun _ hcfg => absurd hcfg List.not_mem_nil,
        fun b hmem => ⟨k, Nat.le_refl k, by omega, hb b hmem⟩⟩
  | table k m cfg cfgs bindings htable _ ih =>
      constructor
      · intro cfg' hcfg'
        rcases List.mem_cons.1 hcfg' with rfl | hrest
        · exact ⟨k, Nat.le_refl k, by omega, htable⟩
        · rcases ih.1 cfg' hrest with ⟨j, h1, h2, hj⟩
          exact ⟨j, by omega, by omega, hj⟩
      · intro b hb
        rcases List.mem_append.1 hb with hhead | hrest
        · exact ⟨k, Nat.le_refl k, by omega, prfId_bindingsFrom s _ 1 _ b hhead⟩
        · rcases ih.2 b hrest with ⟨j, h1, h2, hj⟩
          exact ⟨j, by omega, by omega, hj⟩

/-- As long as the profile ids last, the id of a table picks its bindings. -/
theorem filter_bindings {s : Gatt} {k m : Nat} {cfgs : List DbCfg}
    {bindings : List LegacyCharBinding} (h : Built s k m cfgs bindings) (hm : m ≤ 65536) :
    ∀ cfg ∈ cfgs, bindings.filter (fun b => b.prfId == cfg.prfTaskId) =
      bindingsFrom s cfg.prfTaskId 1 (s.services cfg.owner).characteristics := by
  induction h with
  | nil k m => exact fun _ hcfg => absurd hcfg List.not_mem_nil
  | unfinished k m bindings hb => exact fun _ hcfg => absurd hcfg List.not_mem_nil
  | table k m cfg cfgs bindings htable hbuilt ih =>
      intro cfg' hcfg'
      rw [List.filter_append]
      -- The bindings of this table have its number, and those of later tables have another one.
      rcases List.mem_cons.1 hcfg' with rfl | hrest
      · have hown : (bindingsFrom s (profileId k) 1 (s.services cfg'.owner).characteristics).filter
            (fun b => b.prfId == cfg'.prfTaskId) =
            bindingsFrom s (profileId k) 1 (s.services cfg'.owner).characteristics := by
          refine List.filter_eq_self.2 fun b hb => ?_
          rw [prfId_bindingsFrom s _ 1 _ b hb, htable.profile, beq_self_eq_true]
        have hother : bindings.filter (fun b => b.prfId == cfg'.prfTaskId) = [] := by
          refine List.filter_eq_nil_iff.2 fun b hb => ?_
          rcases (built_range hbuilt).2 b hb with ⟨j, h1, h2, hj⟩
          rw [hj, htable.profile, beq_iff_eq]
          intro heq
          have := profileId_inj heq (by omega) (by omega)
          omega
        rw [hown, hother, List.append_nil, htable.profile]
      · rcases (built_range hbuilt).1 cfg' hrest with ⟨j, h1, h2, hj⟩
        -- The bindings in front belong to an earlier table.
        have hother : (bindingsFrom s (profileId k) 1 (s.services cfg.owner).characteristics).filter
            (fun b => b.prfId == cfg'.prfTaskId) = [] := by
          refine List.filter_eq_nil_iff.2 fun b hb => ?_
          rw [prfId_bindingsFrom s _ 1 _ b hb, hj.profile, beq_iff_eq]
          intro heq
          have := profileId_inj heq (by omega) (by omega)
          omega
        rw [hother, List.nil_append]
        exact ih (by omega) cfg' hrest

/-! ## The lookup inside one table -/

/-- The indices of a binding are those of its own attributes. -/
def Own (s : Gatt) (kinds : List AttKind) (b : LegacyCharBinding) : Prop :=
  kinds[b.valueAttIdx]? = some (.charValue b.characteristic) ∧
    if (s.chars b.characteristic).notifies then
      kinds[b.descAttIdx]? = some (.cccd b.characteristic)
    else b.descAttIdx = 0xFFFF

theorem length_attributeKinds (ch : BLECharacteristic) (c : CharId) :
    (attributeKinds ch c).length = if ch.notifies then 3 else 2 := by
  unfold attributeKinds
  split_ifs <;> rfl

/-- The attributes of a characteristic, inside a table. -/
theorem getElem?_attributeKinds (pre rest : List AttKind) (ch : BLECharacteristic) (c : CharId)
    (j : Nat) (h : j < (attributeKinds ch c).length) :
    (pre ++ (attributeKinds ch c ++ rest))[pre.length + j]? = (attributeKinds ch c)[j]? := by
  rw [List.getElem?_append_right (Nat.le_add_right _ _), Nat.add_sub_cancel_left,
    List.getElem?_append_left h]

theorem attributeKinds_charValue {ch : BLECharacteristic} {c x : CharId} {j : Nat}
    (h : (attributeKinds ch c)[j]? = some (.charValue x)) : j = 1 := by
  unfold attributeKinds at h
  split_ifs at h
  · rcases j with _ | _ | _ | j
    · exact absurd (Option.some.inj h) AttKind.noConfusion
    · rfl
    · exact absurd (Option.some.inj h) AttKind.noConfusion
    · exact absurd h (Option.some_ne_none _).symm
  · rcases j with _ | _ | j
    · exact absurd (Option.some.inj h) AttKind.noConfusion
    · rfl
    · exact absurd h (Option.some_ne_none _).symm

theorem attributeKinds_cccd {ch : BLECharacteristic} {c x : CharId} {j : Nat}
    (h : (attributeKinds ch c)[j]? = some (.cccd x)) : j = 2 ∧ ch.notifies = true := by
  unfold attributeKinds at h
  split_ifs at h with hnot
  · rcases j with _ | _ | _ | j
    · exact absurd (Option.some.inj h) AttKind.noConfusion
    · exact absurd (Option.some.inj h) AttKind.noConfusion
    · exact ⟨rfl, hnot⟩
    · exact absurd h (Option.some_ne_none _).symm
  · rcases j with _ | _ | j
    · exact absurd (Option.some.inj h) AttKind.noConfusion
    · exact absurd (Option.some.inj h) AttKind.noConfusion
    · exact absurd h (Option.some_ne_none _).symm

/-- The binding of the next characteristic indexes its own attributes. -/
theorem own_legacyBinding (s : Gatt) (prfId : Nat) (c : CharId) (pre rest : List AttKind)
    (h : pre.length + (attributeKinds (s.chars c) c).length ≤ 65535) :
    Own s (pre ++ (attributeKinds (s.chars c) c ++ rest))
      (Gatt.legacyBinding (s.chars c) c prfId pre.length) := by
  have hlen := length_attributeKinds (s.chars c) c
  by_cases hnot : (s.chars c).notifies = true
  · rw [if_pos hnot] at hlen
    have hv : u16 (pre.length + 1) = pre.length + 1 := Nat.mod_eq_of_lt (by omega)
    have hd : u16 (pre.length + 2) = pre.length + 2 := Nat.mod_eq_of_lt (by omega)
    have hkinds : attributeKinds (s.chars c) c = [.charDecl c, .charValue c, .cccd c] := by
      rw [attributeKinds, if_pos hnot]
      rfl
    simp only [Own, Gatt.legacyBinding, hv, hd, hnot, if_true]
    rw [getElem?_attributeKinds _ _ _ _ 1 (by omega), getElem?_attributeKinds _ _ _ _ 2 (by omega),
      hkinds]
    exact ⟨rfl, rfl⟩
  · rw [if_neg hnot] at hlen
    have hv : u16 (pre.length + 1) = pre.length + 1 := Nat.mod_eq_of_lt (by omega)
    simp only [Own, Gatt.legacyBinding, hv, hnot, if_false, Bool.false_eq_true]
    rw [getElem?_attributeKinds _ _ _ _ 1 (by omega)]
    exact ⟨rfl, True.intro⟩

/-- The bindings of a table index their own attributes, as long as the table
    is short enough for sixteen bits. -/
theorem own_bindingsFrom (s : Gatt) (prfId : Nat) (cs : List CharId) (pre : List AttKind)
    (h : pre.length + (characteristicKinds s cs).length ≤ 65535) :
    ∀ b ∈ bindingsFrom s prfId pre.length cs, Own s (pre ++ characteristicKinds s cs) b := by
  induction cs generalizing pre with
  | nil => exact fun _ hb => absurd hb List.not_mem_nil
  | cons c cs ih =>
      rw [characteristicKinds_cons, List.length_append] at h
      intro b hb
      rw [characteristicKinds_cons]
      rcases List.mem_cons.1 hb with rfl | hrest
      · exact own_legacyBinding s prfId c pre _ (by omega)
      · rw [← List.length_append] at hrest
        rw [← List.append_assoc]
        exact ih _ (by rw [List.length_append]; omega) b hrest

/-- Every value attribute and every CCCD is indexed by a binding. -/
theorem bindingsFrom_complete (s : Gatt) (prfId : Nat) (cs : List CharId) (pre : List AttKind)
    (h : pre.length + (characteristicKinds s cs).length ≤ 65535) (i : Nat) (x : CharId)
    (hi : pre.length ≤ i) :
    ((pre ++ characteristicKinds s cs)[i]? = some (.charValue x) →
      ∃ b ∈ bindingsFrom s prfId pre.length cs, b.valueAttIdx = i) ∧
    ((pre ++ characteristicKinds s cs)[i]? = some (.cccd x) →
      ∃ b ∈ bindingsFrom s prfId pre.length cs, b.descAttIdx = i) := by
  -- by induction on the characteristics, each with its own attributes in front
  induction cs generalizing pre with
  | nil =>
      have hnone : (pre ++ characteristicKinds s [])[i]? = none := by
        rw [List.getElem?_eq_none_iff]
        simpa only [characteristicKinds, List.flatMap_nil, List.append_nil] using hi
      rw [hnone]
      exact ⟨fun hk => absurd hk.symm (Option.some_ne_none _),
        fun hk => absurd hk.symm (Option.some_ne_none _)⟩
  | cons c cs ih =>
      rw [characteristicKinds_cons, List.length_append] at h
      rw [characteristicKinds_cons]
      have hlen := length_attributeKinds (s.chars c) c
      -- The attribute is one of this characteristic, or of those behind it.
      by_cases hin : i < pre.length + (attributeKinds (s.chars c) c).length
      · obtain ⟨j, rfl⟩ := Nat.exists_eq_add_of_le hi
        rw [getElem?_attributeKinds _ _ _ _ j (by omega)]
        refine ⟨fun hk => ⟨_, List.mem_cons_self, ?_⟩, fun hk => ⟨_, List.mem_cons_self, ?_⟩⟩
        -- an index that fits 16 bits is not cut off
        · rw [attributeKinds_charValue hk]
          exact Nat.mod_eq_of_lt (by split_ifs at hlen <;> omega)
        · rcases attributeKinds_cccd hk with ⟨rfl, hnot⟩
          rw [if_pos hnot] at hlen
          simp only [Gatt.legacyBinding, hnot, if_true]
          exact Nat.mod_eq_of_lt (by omega)
      -- the bindings behind it start where its attributes end
      · rw [← List.append_assoc]
        rcases ih (pre ++ attributeKinds (s.chars c) c) (by rw [List.length_append]; omega)
          (by rw [List.length_append]; omega) with ⟨hvalue, hcccd⟩
        rw [List.length_append] at hvalue hcccd
        constructor
        · intro hk
          rcases hvalue hk with ⟨b, hb, hbi⟩
          exact ⟨b, List.mem_cons_of_mem _ hb, hbi⟩
        · intro hk
          rcases hcccd hk with ⟨b, hb, hbi⟩
          exact ⟨b, List.mem_cons_of_mem _ hb, hbi⟩

/-! ## Faithful tables -/

/-- The tables a pass hands over. -/
def tables (s : Gatt) (services : List (Option SvcId)) : List DbCfg :=
  (s.finalizeLegacyDatabase services).2.sdk.createCalls.drop s.sdk.createCalls.length

/-- The number of attributes a service takes: its declaration, and two or three
    for each characteristic. -/
def attributeCount (s : Gatt) (svc : SvcId) : Nat :=
  1 + ((s.services svc).characteristics.map fun c =>
    if (s.chars c).notifies then 3 else 2).sum

/-- What the lookup of a request by its index should answer. -/
def Answers (found : Option LegacyCharBinding) (i : Nat) : AttKind → Prop
  | .charValue c => ∃ b, found = some b ∧ b.characteristic = c ∧ b.valueAttIdx = i
  | .cccd c => ∃ b, found = some b ∧ b.characteristic = c ∧ b.descAttIdx = i
  | _ => found = none

/-- A table handed over in full, whose bindings index their own attributes and
    are found by them. -/
structure TableFaithful (s after : Gatt) (cfg : DbCfg) : Prop where
  count : cfg.attDbNb = cfg.attDb.length
  kinds : cfg.attDb.map AttDesc.kind = layout s cfg.owner
  own : ∀ b ∈ after.legacyBindings, b.prfId = cfg.prfTaskId → Own s (layout s cfg.owner) b
  lookup : ∀ i kind, (layout s cfg.owner)[i]? = some kind →
    Answers (after.findLegacyBindingByWrite cfg.prfTaskId i) i kind

theorem length_characteristicKinds (s : Gatt) (cs : List CharId) :
    (characteristicKinds s cs).length =
      (cs.map fun c => if (s.chars c).notifies then 3 else 2).sum := by
  induction cs with
  | nil => rfl
  | cons c cs ih =>
      rw [characteristicKinds_cons, List.length_append, ih, length_attributeKinds, List.map_cons,
        List.sum_cons]

theorem length_layout (s : Gatt) (svc : SvcId) :
    (layout s svc).length = attributeCount s svc := by
  rw [layout, List.length_cons, length_characteristicKinds, attributeCount, Nat.add_comm]

/-- The state behind a pass is the state behind its loop. -/
theorem finalizeLegacyDatabase_snd (s : Gatt) (services : List (Option SvcId)) :
    (s.finalizeLegacyDatabase services).2 = (Gatt.addLegacyServices services kLegacyPrfTaskBase
      { s.ensureNoticeCallback with legacyAttDb := [], legacyBindings := [] }).2 := by
  unfold Gatt.finalizeLegacyDatabase
  simp only
  split <;> rename_i heq <;> rw [heq]

/-- A pass builds what it hands over. -/
theorem built_finalizeLegacyDatabase (s : Gatt) (services : List (Option SvcId)) :
    Built s 0 services.reduceOption.length (tables s services)
      (s.finalizeLegacyDatabase services).2.legacyBindings := by
  have hstart :
      Finalizes s { s.ensureNoticeCallback with legacyAttDb := [], legacyBindings := [] } :=
    Finalizes.of_eq rfl rfl rfl rfl (StackFrame.refl _)
  rcases built_addLegacyServices s services 0 _ hstart with ⟨cfgs, bindings, hbuilt, hcalls, hbind⟩
  have hafter : (s.finalizeLegacyDatabase services).2 = (Gatt.addLegacyServices services
      (profileId 0) { s.ensureNoticeCallback with legacyAttDb := [], legacyBindings := [] }).2 :=
    finalizeLegacyDatabase_snd s services
  have htables : tables s services = cfgs := by
    rw [tables, hafter, hcalls]
    exact List.drop_left
  rw [htables, hafter, hbind]
  exact hbuilt

/-- The lookup in the bindings of one table, as long as the table is short
    enough. -/
theorem find_answers {s : Gatt} {svc : SvcId} (prfId : Nat) (h : attributeCount s svc ≤ 65535)
    {i : Nat} {kind : AttKind} (hk : (layout s svc)[i]? = some kind) :
    Answers ((bindingsFrom s prfId 1 (s.services svc).characteristics).find? fun b =>
      b.valueAttIdx == i || b.descAttIdx == i) i kind := by
  -- no index reaches the value that stands for none
  have hlen : [AttKind.serviceDecl svc].length +
      (characteristicKinds s (s.services svc).characteristics).length ≤ 65535 := by
    rw [length_characteristicKinds]
    exact h
  have hlt : i < 65535 := by
    have hi := (List.getElem?_eq_some_iff.1 hk).1
    rw [length_layout] at hi
    omega
  have hown := own_bindingsFrom s prfId _ _ hlen
  -- Whatever is found indexes an attribute of its own kind, and this is it.
  have hfound : ∀ b, (bindingsFrom s prfId 1 (s.services svc).characteristics).find?
      (fun b => b.valueAttIdx == i || b.descAttIdx == i) = some b →
      (b.valueAttIdx = i ∧ kind = .charValue b.characteristic) ∨
        (b.descAttIdx = i ∧ kind = .cccd b.characteristic) := by
    intro b hb
    rcases hown b (List.mem_of_find?_eq_some hb) with ⟨hvalue, hdesc⟩
    have hmatch := List.find?_some hb
    rw [Bool.or_eq_true, beq_iff_eq, beq_iff_eq] at hmatch
    rcases hmatch with hv | hd
    · rw [hv] at hvalue
      exact Or.inl ⟨hv, Option.some.inj (hk.symm.trans hvalue)⟩
    · split_ifs at hdesc
      · rw [hd] at hdesc
        exact Or.inr ⟨hd, Option.some.inj (hk.symm.trans hdesc)⟩
      · omega
  -- And a value attribute or a CCCD is found.
  have hsome : ∀ b ∈ bindingsFrom s prfId 1 (s.services svc).characteristics,
      (b.valueAttIdx = i ∨ b.descAttIdx = i) →
      ∃ b', (bindingsFrom s prfId 1 (s.services svc).characteristics).find?
        (fun b => b.valueAttIdx == i || b.descAttIdx == i) = some b' := by
    intro b hb hi
    refine Option.isSome_iff_exists.1 (List.find?_isSome.2 ⟨b, hb, ?_⟩)
    rw [Bool.or_eq_true, beq_iff_eq, beq_iff_eq]
    exact hi
  -- the service declaration is neither, so the index is not zero
  have hpos : ∀ x, kind = .charValue x ∨ kind = .cccd x → 1 ≤ i := by
    intro x hx
    rcases Nat.eq_zero_or_pos i with rfl | hpos
    · have hdecl : AttKind.serviceDecl svc = kind := Option.some.inj hk
      rw [← hdecl] at hx
      exact absurd hx (by simp only [reduceCtorEq, or_self, not_false_eq_true])
    · exact hpos
  -- a value or a CCCD has its binding, a declaration none
  cases kind with
  | charValue c =>
      rcases (bindingsFrom_complete s prfId _ _ hlen i c (hpos c (Or.inl rfl))).1 hk with
        ⟨b, hb, hbi⟩
      rcases hsome b hb (Or.inl hbi) with ⟨b', hb'⟩
      rcases hfound b' hb' with ⟨hv, hc⟩ | ⟨-, hc⟩
      · exact ⟨b', hb', (AttKind.charValue.inj hc).symm, hv⟩
      · exact absurd hc AttKind.noConfusion
  | cccd c =>
      rcases (bindingsFrom_complete s prfId _ _ hlen i c (hpos c (Or.inr rfl))).2 hk with
        ⟨b, hb, hbi⟩
      rcases hsome b hb (Or.inr hbi) with ⟨b', hb'⟩
      rcases hfound b' hb' with ⟨-, hc⟩ | ⟨hd, hc⟩
      · exact absurd hc AttKind.noConfusion
      · exact ⟨b', hb', (AttKind.cccd.inj hc).symm, hd⟩
  | serviceDecl x =>
      refine Option.eq_none_iff_forall_ne_some.2 fun b hb => ?_
      rcases hfound b hb with ⟨-, hc⟩ | ⟨-, hc⟩ <;> exact absurd hc AttKind.noConfusion
  | charDecl x =>
      refine Option.eq_none_iff_forall_ne_some.2 fun b hb => ?_
      rcases hfound b hb with ⟨-, hc⟩ | ⟨-, hc⟩ <;> exact absurd hc AttKind.noConfusion

/-- The tables of a pass are faithful exactly when each of them has at most 255
    attributes, as long as there are profile ids for all services. -/
theorem legacy_tables_faithful_iff (s : Gatt) (services : List (Option SvcId))
    (hids : services.reduceOption.length ≤ 65536) :
    (∀ cfg ∈ tables s services, TableFaithful s (s.finalizeLegacyDatabase services).2 cfg) ↔
      ∀ cfg ∈ tables s services, attributeCount s cfg.owner ≤ 255 := by
  have hbuilt := built_finalizeLegacyDatabase s services
  refine forall₂_congr fun cfg hcfg => ?_
  rcases (built_range hbuilt).1 cfg hcfg with ⟨j, -, -, htable⟩
  -- The table has as many attributes as the service counts.
  have hlength : cfg.attDb.length = attributeCount s cfg.owner := by
    rw [← length_layout, ← htable.kinds, List.length_map]
  constructor
  · -- The count is kept in 8 bits, so it is right up to 255 only.
    intro hf
    have hcount := hf.count
    rw [htable.count, hlength, u8] at hcount
    omega
  · -- Up to 255 attributes no index is cut off.
    intro hshort
    have hfilter := filter_bindings hbuilt hids cfg hcfg
    have hlen : [AttKind.serviceDecl cfg.owner].length +
        (characteristicKinds s (s.services cfg.owner).characteristics).length ≤ 65535 := by
      rw [length_characteristicKinds]
      exact Nat.le_trans hshort (by decide)
    refine ⟨?_, htable.kinds, fun b hb hprf => ?_, fun i kind hk => ?_⟩
    · rw [htable.count, hlength]
      exact Nat.mod_eq_of_lt (by omega)
    · refine own_bindingsFrom s cfg.prfTaskId _ _ hlen b ?_
      change b ∈ bindingsFrom s cfg.prfTaskId 1 (s.services cfg.owner).characteristics
      rw [← hfilter]
      exact List.mem_filter.2 ⟨hb, beq_iff_eq.2 hprf⟩
    · have hanswers := find_answers cfg.prfTaskId (Nat.le_trans hshort (by decide)) hk
      rw [← hfilter, List.find?_filter] at hanswers
      simp only [Bool.decide_and, Bool.decide_eq_true] at hanswers
      exact hanswers

/-- The battery service is handed over as it is. -/
theorem battery_tables_faithful :
    (tables battery [some 0]).length = 1 ∧ ∀ cfg ∈ tables battery [some 0],
      TableFaithful battery (battery.finalizeLegacyDatabase [some 0]).2 cfg := by
  refine ⟨by decide, (legacy_tables_faithful_iff battery [some 0] (by decide)).2 fun cfg _ => ?_⟩
  change attributeCount battery 0 ≤ 255
  decide

theorem addLegacyCharacteristics_parses (prfId : Nat) (cs : List CharId) (s : Gatt)
    (h : ∀ c ∈ cs, parseUuid16 (s.chars c).uuid ≠ none) :
    (Gatt.addLegacyCharacteristics prfId cs s).1 = true := by
  induction cs generalizing s with
  | nil => rfl
  | cons c cs ih =>
      unfold Gatt.addLegacyCharacteristics
      split
      · rename_i hnone
        exact absurd hnone (h c List.mem_cons_self)
      · refine ih _ fun d hd => ?_
        rw [((finalizes_closed.addLegacyCharacteristic s prfId c _).decl d).uuid]
        exact h d (List.mem_cons_of_mem c hd)

/-- The turn of the loop for a service whose UUIDs parse logs a table. -/
theorem addLegacyServices_logs (s : Gatt) (k : Nat) (svc : SvcId)
    (hsvc : parseUuid16 (s.services svc).uuid ≠ none)
    (hcs : ∀ c ∈ (s.services svc).characteristics, parseUuid16 (s.chars c).uuid ≠ none) :
    ∃ cfg, (Gatt.addLegacyServices [some svc] (profileId k) s).2.sdk.createCalls =
      s.sdk.createCalls ++ [cfg] := by
  have hturn := legacyTurn s svc [] (profileId k)
  generalize Gatt.addLegacyServices [some svc] (profileId k) s = r at hturn
  -- With usable UUIDs only the stack can end the turn, and it has been asked then.
  cases hturn with
  | badService h => exact absurd h hsvc
  | badCharacteristic serviceUuid t ht =>
      have hok := addLegacyCharacteristics_parses (profileId k) (s.services svc).characteristics
        (s.openTable svc serviceUuid) hcs
      rw [ht] at hok
      exact absurd hok Bool.false_ne_true
  | refused serviceUuid t u ht hcreate =>
      rcases openTable_builds (Finalizes.refl s) ht with ⟨-, -, -, hsdk⟩
      have hcalls := createCalls_createLegacyDb t (t.legacyDbCfg (profileId k) serviceUuid svc)
      rw [hcreate, hsdk] at hcalls
      exact ⟨_, hcalls⟩
  | created serviceUuid t u ht hcreate =>
      rcases openTable_builds (Finalizes.refl s) ht with ⟨-, -, -, hsdk⟩
      have hcalls := createCalls_createLegacyDb t (t.legacyDbCfg (profileId k) serviceUuid svc)
      rw [hcreate, hsdk] at hcalls
      exact ⟨_, hcalls⟩

/-- A service whose UUIDs parse is handed over. -/
theorem tables_ne_nil (s : Gatt) (svc : SvcId) (hsvc : parseUuid16 (s.services svc).uuid ≠ none)
    (hcs : ∀ c ∈ (s.services svc).characteristics, parseUuid16 (s.chars c).uuid ≠ none) :
    tables s [some svc] ≠ [] := by
  have hafter := finalizeLegacyDatabase_snd s [some svc]
  rcases addLegacyServices_logs
    { s.ensureNoticeCallback with legacyAttDb := [], legacyBindings := [] } 0 svc hsvc hcs with
    ⟨cfg, hcfg⟩
  rw [tables, hafter, show kLegacyPrfTaskBase = profileId 0 from rfl, hcfg]
  change (s.sdk.createCalls ++ [cfg]).drop s.sdk.createCalls.length ≠ []
  rw [List.drop_left]
  exact List.cons_ne_nil cfg []

/-- A service of 128 characteristics, each of them read only. -/
def manyCharacteristics : Gatt where
  chars _ := .new "2A19".toList bleRead 1 true
  services _ := { uuid := "180F".toList, characteristics := List.range 128 }

theorem attributeCount_many (svc : SvcId) : attributeCount manyCharacteristics svc = 257 := by
  change 1 + ((List.range 128).map fun _ => 2).sum = 257
  rw [List.map_const', List.length_range, List.sum_replicate_nat]

/-- Its table has 257 attributes, and the stack is told of one. -/
theorem many_characteristics_truncated :
    ¬ ∀ cfg ∈ tables manyCharacteristics [some 0],
      TableFaithful manyCharacteristics
        (manyCharacteristics.finalizeLegacyDatabase [some 0]).2 cfg := by
  intro h
  have hne : tables manyCharacteristics [some 0] ≠ [] :=
    tables_ne_nil manyCharacteristics 0 (by decide) (fun c _ => by
      change parseUuid16 "2A19".toList ≠ none
      decide)
  rcases List.exists_mem_of_ne_nil _ hne with ⟨cfg, hcfg⟩
  have hf := h cfg hcfg
  have hlength : cfg.attDb.length = 257 := by
    rw [← attributeCount_many cfg.owner, ← length_layout, ← hf.kinds, List.length_map]
  rcases (built_range (built_finalizeLegacyDatabase _ _)).1 cfg hcfg with ⟨j, -, -, htable⟩
  have hcount := htable.count.symm.trans hf.count
  rw [hlength] at hcount
  exact absurd hcount (by decide)

end BLE

end ArduinoBeken
