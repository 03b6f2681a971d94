import Mathlib.Logic.Function.Basic
import ArduinoBeken.BLE.Characteristic

/-!
# The GATT Registry

`BLEGattRegistry`, translated from `utility/BLEGattRegistry.cpp`: its static
fields, the services and characteristics it reaches through pointers, and the
two Bluetooth stacks it drives. Objects are identified by numbers and live in
the maps `chars` and `services`.

The stacks are not part of the repository, so every answer they give is an
input. `Sdk.answers` lists the answers of one attempt in call order, and an
exhausted list refuses. What a successful answer does is the stack's own
contract: a service handle is new among services, a characteristic goes into
a service the stack knows and gets a handle new in that service, a descriptor
goes to a characteristic the stack knows, and an answer that breaks this is
no success. `legacyCreated` and the `eth` fields are what the stacks hold in
the end, which the repository's code never sees.

`bk_ble_create_db` completes by a notice. A completion belongs to one
accepted profile, and it may arrive in the wait of a later one: the code
tells the two apart by nothing, and `Completion.stale` is such an arrival.

The calls into the stack that hand bytes to a peer are the output of a step.
`preparations` is a log the code does not keep: the characteristics whose
buffer was prepared, in the order of the `ensureGattValueBuffer` calls.

## Main definitions

* `Gatt`: The registry, the objects and the stacks.
* `findCharacteristic`: The registry's lookup by stored handles.
* `findLegacyBindingByWrite`: The lookup by profile and attribute index.
* `finalizeLegacyDatabase`: The pass over `bk_ble_create_db`.
* `finalizeEthermindDatabase`: The pass over `bk_ble_gatt_db_add_service`.
* `finalizeDatabase`: One attempt, with the fallback from one to the other.
* `notifyCharacteristic`: Handing a notification to the stack in use.
* `arduinoBleLegacyNoticeCb`: The legacy stack's notices.
* `arduinoBleGattDbHandler`: The other stack's attribute accesses.
* `step`: One event of the sketch, a stack or a peer.
-/

namespace ArduinoBeken

namespace BLE

/-- A characteristic of the sketch, by its number. -/
abbrev CharId := Nat
/-- A service of the sketch, by its number. -/
abbrev SvcId := Nat

/-- A service as the sketch builds it, with its place in the Ethermind database. -/
structure BLEService where
  uuid : List Char
  characteristics : List CharId := []
  gattServiceHandle : Nat := 0
  gattRegistered : Bool := false
  deriving Repr, DecidableEq

/-- A characteristic already in the service is not added twice. -/
def BLEService.addCharacteristic (svc : BLEService) (c : CharId) : BLEService :=
  if c ∈ svc.characteristics then svc
  else { svc with characteristics := svc.characteristics ++ [c] }

/-- What an attribute of a legacy table stands for. The stack knows it by the
    UUID and by the context pointer. -/
inductive AttKind
  | serviceDecl (svc : SvcId)
  | charDecl (c : CharId)
  | charValue (c : CharId)
  | cccd (c : CharId)
  deriving Repr, DecidableEq

/-- `ble_attm_desc_t`, with the two bytes of the UUID that are ever set. -/
structure AttDesc where
  kind : AttKind
  uuid : Nat
  perm : Nat
  extPerm : Nat := 0
  maxSize : Nat := 0
  deriving Repr, DecidableEq

/-- `bk_ble_db_cfg`. `owner` is the service the table was built for. -/
structure DbCfg where
  prfTaskId : Nat
  uuid : Nat
  attDbNb : Nat
  attDb : List AttDesc
  owner : SvcId
  deriving Repr, DecidableEq

/-- The attributes the stack reads out of a table: as many as it is told. -/
def DbCfg.registered (cfg : DbCfg) : List AttDesc := cfg.attDb.take cfg.attDbNb

/-- Where a characteristic stands in the legacy attribute table. -/
structure LegacyCharBinding where
  characteristic : CharId
  prfId : Nat
  valueAttIdx : Nat
  descAttIdx : Nat
  deriving Repr, DecidableEq

/-- A characteristic in the Ethermind database. -/
structure EthermindChar where
  serviceHandle : Nat
  charHandle : Nat
  uuid : Nat
  perm : Nat
  property : Nat
  owner : CharId
  deriving Repr, DecidableEq

/-- A `BLE_5_CREATE_DB` notice: for the call the code is waiting for, or for
    an earlier one, named by its place among all the calls. -/
inductive Completion
  | own (status : Nat)
  | stale (call : Nat) (status : Nat)
  deriving Repr, DecidableEq

/-- One answer of a stack. `success` carries the handle a call puts out, and
    `accepted` the notices that arrive while the code waits for one. -/
inductive SdkAnswer
  | err
  | success (handle : Nat)
  | accepted (notices : List Completion)
  deriving Repr, DecidableEq

/-- What the two stacks hold. -/
structure Sdk where
  answers : List SdkAnswer := []
  ethServices : List (Nat × SvcId) := []
  ethChars : List EthermindChar := []
  ethCccds : List (Nat × Nat) := []
  ethCompleted : Bool := false
  ethCallback : Bool := false
  createCalls : List DbCfg := []
  legacyPending : List (Nat × DbCfg) := []
  legacyCreated : List DbCfg := []
  deriving Repr

/-- The registry's fields, the objects it points to and the stacks. -/
structure Gatt where
  chars : CharId → BLECharacteristic
  services : SvcId → BLEService
  sCharacteristics : List CharId := []
  gattDbFinalized : Bool := false
  useLegacyStack : Bool := true
  eventCallbackSet : Bool := false
  noticeCallbackSet : Bool := false
  connHandle : Nat := 0xFF
  legacyAttDb : List AttDesc := []
  legacyBindings : List LegacyCharBinding := []
  legacyDbCreateDone : Bool := false
  legacyDbCreateStatus : Nat := 0xFF
  preparations : List CharId := []
  sdk : Sdk := {}

/-- The handle while no peer is connected. -/
def kInvalidConnHandle : Nat := 0xFF
/-- The first profile id of the legacy tables. -/
def kLegacyPrfTaskBase : Nat := 11
/-- The UUID of a client characteristic configuration. -/
def gattClientConfig : Nat := 0x2902

/-! ## Properties and permissions -/

/-- One bit of a mask, when the property asks for it. -/
def flagIf (properties property flag : Nat) : Nat :=
  if properties &&& property ≠ 0 then flag else 0

/-- The property bits of the Ethermind database. -/
def mapGattProperties (properties : Nat) : Nat :=
  flagIf properties bleRead 0x02 ||| flagIf properties bleWriteWithoutResponse 0x04 |||
  flagIf properties bleWrite 0x08 ||| flagIf properties bleNotify 0x10 |||
  flagIf properties bleIndicate 0x20 ||| flagIf properties bleBroadcast 0x01

/-- The permission bits of the Ethermind database. A characteristic without one can be read. -/
def mapGattPermissions (properties : Nat) : Nat :=
  let perm := flagIf properties bleRead 0x0001 |||
    flagIf properties (bleWrite ||| bleWriteWithoutResponse) 0x0010
  if perm = 0 then 0x0001 else perm

/-- `BK_BLE_PERM_SET(RD, ENABLE)`. -/
def permRd : Nat := 0x0200
/-- `BK_BLE_PERM_SET(WRITE_COMMAND, ENABLE)`. -/
def permWriteCommand : Nat := 0x0400
/-- `BK_BLE_PERM_SET(WRITE_REQ, ENABLE)`. -/
def permWriteReq : Nat := 0x0800
/-- `BK_BLE_PERM_SET(NTF, ENABLE)`. -/
def permNtf : Nat := 0x1000
/-- `BK_BLE_PERM_SET(IND, ENABLE)`. -/
def permInd : Nat := 0x2000
/-- `BK_BLE_PERM_SET(RI, ENABLE)`. -/
def permRi : Nat := 0x8000

/-- The permission bits of the legacy table. -/
def mapLegacyCharPerm (properties : Nat) : Nat :=
  let perm := flagIf properties bleRead permRd ||| flagIf properties bleNotify permNtf |||
    flagIf properties bleIndicate permInd ||| flagIf properties bleWrite permWriteReq |||
    flagIf properties bleWriteWithoutResponse permWriteCommand
  if perm = 0 then permRd else perm

/-! ## Lookups -/

namespace Gatt

/-- The registry with another state of one characteristic. -/
def setChar (s : Gatt) (c : CharId) (ch : BLECharacteristic) : Gatt :=
  { s with chars := Function.update s.chars c ch }

/-- `ensureGattValueBuffer` on one of the characteristics. -/
def prepareBuffer (s : Gatt) (c : CharId) : Gatt :=
  { s.setChar c (s.chars c).ensureGattValueBuffer with
    preparations := s.preparations ++ [c] }

/-- The registry with another state of one service. -/
def setService (s : Gatt) (svc : SvcId) (sv : BLEService) : Gatt :=
  { s with services := Function.update s.services svc sv }

/-- The first listed characteristic that is flagged registered and stores the
    two handles. -/
def findCharacteristic (s : Gatt) (serviceHandle charHandle : Nat) : Option CharId :=
  s.sCharacteristics.find? fun c =>
    (s.chars c).gattRegistered && (s.chars c).gattServiceHandle == serviceHandle &&
      (s.chars c).gattCharHandle == charHandle

/-- List the characteristic, unless a lookup by its handles finds one. -/
def listCharacteristic (s : Gatt) (c : CharId) (serviceHandle charHandle : Nat) : Gatt :=
  if (s.findCharacteristic serviceHandle charHandle).isNone then
    { s with sCharacteristics := s.sCharacteristics ++ [c] }
  else s

/-- Store the handles in the object, flag it, and list it. -/
def flagCharacteristic (s : Gatt) (c : CharId) (serviceHandle charHandle : Nat) : Gatt :=
  (s.setChar c { s.chars c with
    gattServiceHandle := serviceHandle
    gattCharHandle := charHandle
    gattRegistered := true }).listCharacteristic c serviceHandle charHandle

/-- The first binding of a characteristic. -/
def findLegacyBindingByCharacteristic (s : Gatt) (c : CharId) : Option LegacyCharBinding :=
  s.legacyBindings.find? fun b => b.characteristic == c

/-- The first binding that a write to an attribute of a profile is taken for, by the value's
index or by that of the descriptor. -/
def findLegacyBindingByWrite (s : Gatt) (prfId attIdx : Nat) : Option LegacyCharBinding :=
  s.legacyBindings.find? fun b =>
    b.prfId == prfId && (b.valueAttIdx == attIdx || b.descAttIdx == attIdx)

/-- The event callback is registered with the Ethermind host. -/
def ensureEventCallback (s : Gatt) : Gatt := { s with eventCallbackSet := true }

/-- The notice callback is registered with the legacy stack. -/
def ensureNoticeCallback (s : Gatt) : Gatt := { s with noticeCallbackSet := true }

/-! ## Calls into the stacks -/

/-- The next answer of the stack. -/
def nextAnswer (s : Gatt) : SdkAnswer := s.sdk.answers.headD .err

/-- The state once that answer has been given. -/
def answered (s : Gatt) : Gatt := { s with sdk := { s.sdk with answers := s.sdk.answers.tail } }

/-- `bk_ble_gatt_db_add_service`. The stack gives no handle out twice. -/
def bkBleGattDbAddService (s : Gatt) (svc : SvcId) : Option Nat × Gatt :=
  match s.nextAnswer with
  | .success h =>
    if u16 h ∈ s.sdk.ethServices.map Prod.fst then (none, s.answered)
    else (some (u16 h), { s.answered with sdk := { s.answered.sdk with
      ethServices := s.sdk.ethServices ++ [(u16 h, svc)] } })
  | _ => (none, s.answered)

/-- The handle pairs in use in the Ethermind database. -/
def ethHandles (s : Gatt) : List (Nat × Nat) :=
  s.sdk.ethChars.map fun e => (e.serviceHandle, e.charHandle)

/-- `bk_ble_gatt_db_add_char`. The service is one of the database, and the handle a new one of
it. -/
def bkBleGattDbAddCharacteristic (s : Gatt) (serviceHandle charUuid perm property : Nat)
    (c : CharId) : Option Nat × Gatt :=
  match s.nextAnswer with
  | .success h =>
    if serviceHandle ∈ s.sdk.ethServices.map Prod.fst ∧
        (serviceHandle, u16 h) ∉ s.ethHandles then
      (some (u16 h), { s.answered with sdk := { s.answered.sdk with
        ethChars := s.sdk.ethChars ++
          [{ serviceHandle := serviceHandle, charHandle := u16 h, uuid := charUuid,
             perm := perm, property := property, owner := c }] } })
    else (none, s.answered)
  | _ => (none, s.answered)

/-- `bk_ble_gatt_db_add_char_descriptor`, for a CCCD. -/
def bkBleGattDbAddCharacteristicDescriptor (s : Gatt) (serviceHandle charHandle : Nat) :
    Bool × Gatt :=
  match s.nextAnswer with
  | .success _ =>
    if (serviceHandle, charHandle) ∈ s.ethHandles then
      (true, { s.answered with sdk := { s.answered.sdk with
        ethCccds := s.sdk.ethCccds ++ [(serviceHandle, charHandle)] } })
    else (false, s.answered)
  | _ => (false, s.answered)

/-- `bk_ble_gatt_db_add_completed`. -/
def bkBleGattDbAddCompleted (s : Gatt) : Bool × Gatt :=
  match s.nextAnswer with
  | .success _ =>
    (true, { s.answered with sdk := { s.answered.sdk with ethCompleted := true } })
  | _ => (false, s.answered)

/-- `bk_ble_gatt_db_set_callback`. -/
def bkBleGattDbSetCallback (s : Gatt) : Bool × Gatt :=
  match s.nextAnswer with
  | .success _ =>
    (true, { s.answered with sdk := { s.answered.sdk with ethCallback := true } })
  | _ => (false, s.answered)

/-- The `BLE_5_CREATE_DB` branch of the notice callback. -/
def noteCreateDb (s : Gatt) (status : Nat) : Gatt :=
  { s with legacyDbCreateStatus := status, legacyDbCreateDone := true }

/-- An accepted call completes: the stack holds its profile when the status is
    zero, and the code sees the status. -/
def completeCreate (s : Gatt) (call status : Nat) : Gatt :=
  match s.sdk.legacyPending.find? fun p => p.1 == call with
  | none => s
  | some p =>
    ({ s with sdk := { s.sdk with
        legacyPending := s.sdk.legacyPending.filter fun q => q.1 != call
        legacyCreated := if status = 0 then s.sdk.legacyCreated ++ [p.2]
          else s.sdk.legacyCreated } }).noteCreateDb status

/-- A notice that arrives in the wait for a call. -/
def arrive (call : Nat) (s : Gatt) : Completion → Gatt
  | .own status => s.completeCreate call status
  | .stale earlier status => s.completeCreate earlier status

/-- The two variables that the notice callback sets are made ready for a wait. -/
def resetLegacyDbWaitState (s : Gatt) : Gatt :=
  { s with legacyDbCreateDone := false, legacyDbCreateStatus := 0xFF }

/-- The wait for a completion: the flag is looked at twenty-five times, twenty
    milliseconds apart, and every notice before the look that finds it set
    has been handled by then. -/
def waitForLegacyDatabaseCreated (s : Gatt) (call : Nat) (notices : List Completion) :
    Bool × Gatt :=
  let s := notices.foldl (arrive call) s
  (s.legacyDbCreateDone && s.legacyDbCreateStatus == 0, s)

/-- The state in which a call of `bk_ble_create_db` is made, once it is logged
    and answered. -/
def createCall (s : Gatt) (cfg : DbCfg) : Gatt :=
  { s.resetLegacyDbWaitState.answered with sdk := { s.answered.sdk with
      createCalls := s.sdk.createCalls ++ [cfg] } }

/-- The stack accepts the table and will complete it by a notice. -/
def acceptCreate (s : Gatt) (call : Nat) (cfg : DbCfg) : Gatt :=
  { s with sdk := { s.sdk with legacyPending := s.sdk.legacyPending ++ [(call, cfg)] } }

/-- `bk_ble_create_db` and the wait for its completion. -/
def createLegacyDb (s : Gatt) (cfg : DbCfg) : Bool × Gatt :=
  match s.nextAnswer with
  | .accepted notices =>
    ((s.createCall cfg).acceptCreate s.sdk.createCalls.length cfg).waitForLegacyDatabaseCreated
      s.sdk.createCalls.length notices
  | _ => (false, s.createCall cfg)

/-! ## The Ethermind pass -/

/-- Adding the CCCD comes last, after the characteristic is flagged. -/
def registerCharacteristicInGatt (s : Gatt) (svc : SvcId) (c : CharId) : Bool × Gatt :=
  if (s.chars c).gattRegistered then (true, s)
  else if !(s.services svc).gattRegistered then (false, s)
  else match parseUuid16 (s.chars c).uuid with
  | none => (false, s)
  | some charUuid =>
    let s := s.prepareBuffer c
    let properties := (s.chars c).properties
    let serviceHandle := (s.services svc).gattServiceHandle
    match s.bkBleGattDbAddCharacteristic serviceHandle charUuid
        (mapGattPermissions properties) (mapGattProperties properties) c with
    | (none, s) => (false, s)
    | (some charHandle, s) =>
      let s := s.flagCharacteristic c serviceHandle charHandle
      if (s.chars c).notifies then
        s.bkBleGattDbAddCharacteristicDescriptor serviceHandle charHandle
      else (true, s)

/-- The loop of `registerService` over the characteristics. The branch for a
    registered service skips the registered ones, which registering does by
    itself. -/
def registerCharacteristics (svc : SvcId) : List CharId → Gatt → Bool × Gatt
  | [], s => (true, s)
  | c :: cs, s =>
    match s.registerCharacteristicInGatt svc c with
    | (false, s) => (false, s)
    | (true, s) => registerCharacteristics svc cs s

/-- A service goes to the Ethermind database, then its characteristics. One that is flagged as
registered is not added again. -/
def registerService (s : Gatt) (svc : SvcId) : Bool × Gatt :=
  if (s.services svc).gattRegistered then
    registerCharacteristics svc (s.services svc).characteristics s
  else match parseUuid16 (s.services svc).uuid with
  | none => (false, s)
  | some _ =>
    match s.bkBleGattDbAddService svc with
    | (none, s) => (false, s)
    | (some handle, s) =>
      let s := s.setService svc
        { s.services svc with gattServiceHandle := handle, gattRegistered := true }
      registerCharacteristics svc (s.services svc).characteristics s

/-- The loop over the services. A null pointer is skipped. -/
def registerServices : List (Option SvcId) → Gatt → Bool × Gatt
  | [], s => (true, s)
  | none :: rest, s => registerServices rest s
  | some svc :: rest, s =>
    match s.registerService svc with
    | (false, s) => (false, s)
    | (true, s) => registerServices rest s

/-- The services are registered, the database is completed, and its handler is set. -/
def finalizeEthermindDatabase (s : Gatt) (services : List (Option SvcId)) : Bool × Gatt :=
  match registerServices services s.ensureEventCallback with
  | (false, s) => (false, s)
  | (true, s) =>
    match s.bkBleGattDbAddCompleted with
    | (false, s) => (false, s)
    | (true, s) => s.bkBleGattDbSetCallback

/-! ## The legacy pass -/

/-- The attributes of one characteristic: declaration, value, and a CCCD when
    it notifies. -/
def legacyAttributes (ch : BLECharacteristic) (c : CharId) (charUuid : Nat) : List AttDesc :=
  [{ kind := .charDecl c, uuid := 0x2803, perm := permRd },
   { kind := .charValue c, uuid := charUuid, perm := mapLegacyCharPerm ch.properties,
     extPerm := permRi,
     maxSize := if ch.gattReadDataLen = 0 then 1 else ch.gattReadDataLen }] ++
  if ch.notifies then
    [{ kind := .cccd c, uuid := gattClientConfig, perm := permRd ||| permWriteReq }]
  else []

/-- The indices of a characteristic's value attribute and of its CCCD, in a
    table that holds `n` attributes so far. -/
def legacyBinding (ch : BLECharacteristic) (c : CharId) (prfId n : Nat) : LegacyCharBinding :=
  { characteristic := c, prfId := prfId, valueAttIdx := u16 (n + 1),
    descAttIdx := if ch.notifies then u16 (n + 2) else 0xFFFF }

/-- The attributes of a characteristic go to the end of the table, and its binding with them. -/
def appendLegacyAttributes (s : Gatt) (prfId : Nat) (c : CharId) (charUuid : Nat) : Gatt :=
  { s with
    legacyAttDb := s.legacyAttDb ++ legacyAttributes (s.chars c) c charUuid
    legacyBindings := s.legacyBindings ++
      [legacyBinding (s.chars c) c prfId s.legacyAttDb.length] }

/-- One turn of the loop over the characteristics, after the UUID parsed. The
    value attribute follows the declaration, the CCCD follows the value. -/
def addLegacyCharacteristic (s : Gatt) (prfId : Nat) (c : CharId) (charUuid : Nat) : Gatt :=
  ((s.prepareBuffer c).appendLegacyAttributes prfId c charUuid).flagCharacteristic c prfId
    (u16 (s.legacyAttDb.length + 1))

/-- The characteristics of a service, one after the other, up to one without a 16-bit UUID. -/
def addLegacyCharacteristics (prfId : Nat) : List CharId → Gatt → Bool × Gatt
  | [], s => (true, s)
  | c :: cs, s =>
    match parseUuid16 (s.chars c).uuid with
    | none => (false, s)
    | some charUuid =>
      addLegacyCharacteristics prfId cs (s.addLegacyCharacteristic prfId c charUuid)

/-- The configuration handed to `bk_ble_create_db`: the attribute count is
    eight bits wide. -/
def legacyDbCfg (s : Gatt) (prfId serviceUuid : Nat) (svc : SvcId) : DbCfg :=
  { prfTaskId := prfId, uuid := serviceUuid, attDbNb := u8 s.legacyAttDb.length,
    attDb := s.legacyAttDb, owner := svc }

/-- The loop over the services, counting profile ids in sixteen bits. -/
def addLegacyServices : List (Option SvcId) → Nat → Gatt → Bool × Gatt
  | [], _, s => (true, s)
  | none :: rest, prfId, s => addLegacyServices rest prfId s
  | some svc :: rest, prfId, s =>
    match parseUuid16 (s.services svc).uuid with
    | none => (false, s)
    | some serviceUuid =>
      let s : Gatt := { s with legacyAttDb :=
        [{ kind := .serviceDecl svc, uuid := serviceUuid, perm := permRd }] }
      match addLegacyCharacteristics prfId (s.services svc).characteristics s with
      | (false, s) => (false, s)
      | (true, s) =>
        if s.legacyAttDb.isEmpty then (false, s)
        else match s.createLegacyDb (s.legacyDbCfg prfId serviceUuid svc) with
        | (false, s) => (false, s)
        | (true, s) =>
          addLegacyServices rest (u16 (prfId + 1)) (s.setService svc
            { s.services svc with gattRegistered := true, gattServiceHandle := prfId })

/-- The legacy tables are built from nothing. Without a binding the database has failed. -/
def finalizeLegacyDatabase (s : Gatt) (services : List (Option SvcId)) : Bool × Gatt :=
  let s : Gatt := { s.ensureNoticeCallback with legacyAttDb := [], legacyBindings := [] }
  match addLegacyServices services kLegacyPrfTaskBase s with
  | (false, s) => (false, s)
  | (true, s) => (!s.legacyBindings.isEmpty, s)

/-! ## One attempt -/

/-- `finalizeLegacyDatabase` as `finalizeDatabase` ends with it. -/
def finishLegacy (s : Gatt) (services : List (Option SvcId)) : Bool × Gatt :=
  match finalizeLegacyDatabase { s with useLegacyStack := true } services with
  | (true, s) => (true, { s with gattDbFinalized := true })
  | (false, s) => (false, s)

/-- One attempt. `ethermind` is the answer of `usesEthermindStack`. -/
def finalizeDatabase (s : Gatt) (services : List (Option SvcId)) (ethermind : Bool) :
    Bool × Gatt :=
  if s.gattDbFinalized then (true, s)
  else if services.isEmpty then (false, s)
  else
    let s := s.ensureNoticeCallback.ensureEventCallback
    if !ethermind then s.finishLegacy services
    else match finalizeEthermindDatabase { s with useLegacyStack := false } services with
    | (true, s) => (true, { s with gattDbFinalized := true })
    | (false, s) => s.finishLegacy services

end Gatt

/-! ## Handlers -/

/-- A call into a stack that hands bytes to a peer: the buffer behind the
    pointer and the length passed with it. -/
inductive StackCall
  | readResponseValue (connIdx len : Nat) (value : List UInt8) (prfId attIdx : Nat)
  | gattReadResp (connHandle : Nat) (value : Option (List UInt8)) (len : Nat)
  | sendNotiValue (c : CharId) (connIdx len : Nat) (value : List UInt8) (prfId attIdx : Nat)
  | sendNotify (c : CharId) (connHandle serviceHandle charHandle : Nat) (value : List UInt8)
      (len : Nat)
  deriving Repr, DecidableEq

/-- The bytes a buffer and a length stand for; `none` when the length runs past
    the buffer. -/
def bytesAt (value : List UInt8) (len : Nat) : Option (List UInt8) :=
  if len ≤ value.length then some (value.take len) else none

/-- The bytes a call hands to the peer. -/
def StackCall.bytes : StackCall → Option (List UInt8)
  | .readResponseValue _ len value _ _ => bytesAt value len
  | .gattReadResp _ value len => bytesAt (value.getD []) len
  | .sendNotiValue _ _ len value _ _ => bytesAt value len
  | .sendNotify _ _ _ _ value len => bytesAt value len

/-- The characteristic a call notifies a peer of. -/
def StackCall.notified : StackCall → Option CharId
  | .sendNotiValue c _ _ _ _ _ => some c
  | .sendNotify c _ _ _ _ _ => some c
  | _ => none

/-- A write request: the bytes from the received pointer on, and the received
    length. -/
structure WriteReq where
  prfId : Nat
  attIdx : Nat
  value : Option (List UInt8)
  len : Nat
  deriving Repr

/-- The notices of the legacy stack. A null parameter is `none`. -/
inductive LegacyNotice
  | stackOk
  | connect (connIdx : Option Nat)
  | disconnect
  | attInfoReq
  | read (req : Option (Nat × Nat × Nat))
  | createDb (call status : Nat)
  | write (req : Option WriteReq)
  | other
  deriving Repr

/-- The events of the other stack. -/
inductive GattEvent
  | connect (connHandle : Option Nat)
  | disconnect
  | other
  deriving Repr

/-- The attribute accesses the other stack reports. -/
inductive GattDbOp
  | peerRead
  | cliCnfgWrite (value : List UInt8)
  | peerWrite (value : Option (List UInt8)) (len : Nat)
  | other
  deriving Repr

/-- The little-endian value of the first two bytes at a pointer. -/
def cccdConfig (value : List UInt8) : Nat :=
  (value.getD 1 0).toNat * 256 + (value.getD 0 0).toNat

/-- The configurations that enable a characteristic: notification alone or
    indication alone. -/
def cccdEnables (config : Nat) : Bool := config == 1 || config == 2

namespace Gatt

/-- A peer is connected. -/
def isConnected (s : Gatt) : Bool := s.connHandle != kInvalidConnHandle

/-- The handle of the peer that is connected. -/
def setConnectionHandle (s : Gatt) (connHandle : Nat) : Gatt := { s with connHandle := connHandle }

/-- Hand the value to the stack in use, when the characteristic is registered,
    subscribed to, declared to notify, and a peer is connected. -/
def notifyCharacteristic (s : Gatt) (c : CharId) : List StackCall :=
  let ch := s.chars c
  if !ch.gattRegistered || !ch.notifyEnabled then []
  else if !ch.notifies then []
  else if s.connHandle = kInvalidConnHandle then []
  else match ch.gattReadDataPtr with
  | none => []
  | some value =>
    if ch.gattReadDataLen = 0 then []
    else if s.useLegacyStack then
      match s.findLegacyBindingByCharacteristic c with
      | none => []
      | some b =>
        [.sendNotiValue c s.connHandle ch.gattReadDataLen value b.prfId b.valueAttIdx]
    else
      [.sendNotify c s.connHandle ch.gattServiceHandle ch.gattCharHandle value
        ch.gattReadDataLen]

/-- The sketch's `writeValue`. A null pointer or a negative length is `none`
    and is turned away before anything is stored. -/
def writeValue (s : Gatt) (c : CharId) (data : Option (List UInt8)) : Gatt × List StackCall :=
  match data with
  | none => (s, [])
  | some bytes =>
    let s := s.setChar c ((s.chars c).storeValueBytes (some bytes))
    (s, s.notifyCharacteristic c)

/-- The `BLE_5_READ_EVENT` branch. -/
def legacyRead (s : Gatt) (connIdx prfId attIdx : Nat) : List StackCall :=
  match s.findLegacyBindingByWrite prfId attIdx with
  | none => []
  | some b =>
    let ch := s.chars b.characteristic
    let answer := if attIdx = b.descAttIdx then (some ch.cccdValue, 2)
      else (ch.gattReadDataPtr, ch.gattReadDataLen)
    match answer with
    | (some value, len) =>
      if 0 < len then [.readResponseValue connIdx len value prfId attIdx] else []
    | (none, _) => []

/-- The `BLE_5_WRITE_EVENT` branch. -/
def legacyWrite (s : Gatt) (req : WriteReq) : Gatt :=
  match s.findLegacyBindingByWrite req.prfId req.attIdx with
  | none => s
  | some b =>
    let ch := s.chars b.characteristic
    if req.attIdx = b.descAttIdx then
      s.setChar b.characteristic
        (ch.setNotifyEnabled (cccdEnables (cccdConfig (req.value.getD []))))
    else if req.attIdx = b.valueAttIdx then
      s.setChar b.characteristic (ch.writeFromPeer (req.value.map (·.take req.len)))
    else s

/-- The notices of the legacy stack, with the calls that the callback makes. A notice without
its parameter is passed over. -/
def arduinoBleLegacyNoticeCb (s : Gatt) : LegacyNotice → Gatt × List StackCall
  | .connect (some connIdx) => (s.setConnectionHandle connIdx, [])
  | .disconnect => (s.setConnectionHandle kInvalidConnHandle, [])
  | .read (some (connIdx, prfId, attIdx)) => (s, s.legacyRead connIdx prfId attIdx)
  | .createDb call status => (s.completeCreate call status, [])
  | .write (some req) => (s.legacyWrite req, [])
  | _ => (s, [])

/-- The events of the Ethermind host. -/
def arduinoBleGattEventCb (s : Gatt) : GattEvent → Gatt
  | .connect (some connHandle) => s.setConnectionHandle connHandle
  | .disconnect => s.setConnectionHandle kInvalidConnHandle
  | _ => s

/-- The requests of the Ethermind database, by service and characteristic. -/
def arduinoBleGattDbHandler (s : Gatt) (connHandle serviceId charId : Nat) (op : GattDbOp) :
    Gatt × List StackCall :=
  match s.findCharacteristic serviceId charId with
  | none => (s, [])
  | some c =>
    let ch := s.chars c
    match op with
    | .peerRead => (s, [.gattReadResp connHandle ch.gattReadDataPtr ch.gattReadDataLen])
    | .cliCnfgWrite value =>
      (s.setChar c (ch.setNotifyEnabled (cccdEnables (cccdConfig value))), [])
    | .peerWrite value len => (s.setChar c (ch.writeFromPeer (value.map (·.take len))), [])
    | .other => (s, [])

end Gatt

/-! ## The system -/

/-- Everything that can happen to the registry. -/
inductive Event
  | addCharacteristic (svc : SvcId) (c : CharId)
  | finalize (services : List (Option SvcId)) (ethermind : Bool) (answers : List SdkAnswer)
  | writeValue (c : CharId) (data : Option (List UInt8))
  | legacyNotice (notice : LegacyNotice)
  | gattEvent (event : GattEvent)
  | gattDb (connHandle serviceId charId : Nat) (op : GattDbOp)
  deriving Repr

namespace Gatt

/-- The answers the stacks give from here on. -/
def withAnswers (s : Gatt) (answers : List SdkAnswer) : Gatt :=
  { s with sdk := { s.sdk with answers := answers } }

/-- One attempt, with the answers the stacks give during it. -/
def attempt (s : Gatt) (services : List (Option SvcId)) (ethermind : Bool)
    (answers : List SdkAnswer) : Bool × Gatt :=
  (s.withAnswers answers).finalizeDatabase services ethermind

/-- One event: the state after it and the calls that hand bytes to a peer. -/
def react (s : Gatt) : Event → Gatt × List StackCall
  | .addCharacteristic svc c => (s.setService svc ((s.services svc).addCharacteristic c), [])
  | .finalize services ethermind answers => ((s.attempt services ethermind answers).2, [])
  | .writeValue c data => s.writeValue c data
  | .legacyNotice notice => s.arduinoBleLegacyNoticeCb notice
  | .gattEvent event => (s.arduinoBleGattEventCb event, [])
  | .gattDb connHandle serviceId charId op =>
    s.arduinoBleGattDbHandler connHandle serviceId charId op

/-- The registry behind an event. -/
def step (s : Gatt) (e : Event) : Gatt := (s.react e).1

/-- The calls that an event makes to the stack. -/
def calls (s : Gatt) (e : Event) : List StackCall := (s.react e).2

end Gatt

/-- The registry before anything happened: objects as their constructors left
    them, nothing registered. -/
structure Gatt.Fresh (s : Gatt) : Prop where
  chars : ∀ c, (s.chars c).gattRegistered = false ∧ (s.chars c).notifyEnabled = false ∧
    (s.chars c).cccdValue = [0, 0]
  services : ∀ svc, (s.services svc).gattRegistered = false
  sCharacteristics : s.sCharacteristics = []
  gattDbFinalized : s.gattDbFinalized = false
  connHandle : s.connHandle = kInvalidConnHandle
  legacyBindings : s.legacyBindings = []
  sdk : s.sdk = {}

/-- A battery service on one characteristic, a byte that can be read and
    notified. -/
def battery : Gatt where
  chars _ := .new "2A19".toList (bleRead ||| bleNotify) 1 true
  services _ := { uuid := "180F".toList, characteristics := [0] }

theorem battery_fresh : battery.Fresh :=
  ⟨fun _ => ⟨rfl, rfl, rfl⟩, fun _ => rfl, rfl, rfl, rfl, rfl, rfl⟩

/-- Its database, created by the legacy stack. -/
def batteryCreated : Event := .finalize [some 0] false [.accepted [.own 0]]

end BLE

end ArduinoBeken
