import ArduinoBeken.WiFi.Scan
import Mathlib

/-!
# Choosing among Several Networks

`WiFiMulti` holds up to ten access points. `run` scans, looks through what was found, and
connects to the strongest network that is one of them and can be used: an open one, or one
with a passphrase.

Two things keep it from that. The index that runs over the networks is an `int8_t`, so with
more than 127 of them it wraps and the loop never ends (`looks_once_iff`). And for a network
only the access point added last under its name is considered, so one without a passphrase
hides an earlier one with it (`selects_strongest_iff`).

## Main definitions

* `WiFiMulti.addAP`, `WiFiMulti.run`: The two calls.
* `scanLoop`: The loop over the networks.
* `LooksOnce`: It ends, and looks at each network once.
* `SelectsStrongest`: The connection is to the strongest network that can be used.

## Theorems

* `scanLoop_spec`, `scanLoop_endless`: What the loop looks at, and when it does not end.
* `looks_once_iff`: It ends exactly for up to 127 networks.
* `chosen_step`, `chosen_upto`: What has been chosen among the networks looked at.
* `selects_strongest_iff`: The exact condition for the selection.
* `endless_scan`, `hidden_passphrase`: A scan and a list for which it fails.
-/

namespace ArduinoBeken

namespace WiFi.Multi

open Scan (ScanApEntry ApInfo AuthMode mapSecurity copyEntry)

/-- `WifiAPlist_t`. -/
structure WifiAp where
  ssid : List Char
  passphrase : Option (List Char) := none
deriving DecidableEq, Repr

/-- The entries of `_aplist` up to `_ap_count`. -/
structure WiFiMulti where
  aplist : List WifiAp := []
deriving DecidableEq, Repr

/-- The networks that are kept. -/
def kMaxAps : Nat := 10

/-- A call of `addAP`, with what the two allocations do. -/
structure AddCall where
  ssid : Option (List Char)
  passphrase : Option (List Char) := none
  malloc : Bool × Bool := (true, true)
deriving DecidableEq, Repr

/-- `addAP`: the network is kept if there is room and its texts have their lengths. -/
def WiFiMulti.addAP (m : WiFiMulti) (call : AddCall) : WiFiMulti × Bool :=
  match call.ssid with
  | none => (m, false)
  | some ssid =>
      if ssid = [] ∨ ssid.length > 31 ∨ m.aplist.length ≥ kMaxAps then (m, false)
      else if call.passphrase.any (fun p => p.length > 64) then (m, false)
      else if call.malloc.1 = false then (m, false)
      else
        match call.passphrase with
        | some (c :: cs) =>
            if call.malloc.2 = false then (m, false)
            else ({ m with aplist := m.aplist ++ [⟨ssid, some (c :: cs)⟩] }, true)
        | _ => ({ m with aplist := m.aplist ++ [⟨ssid, none⟩] }, true)

/-- The list that calls of `addAP` build. -/
def built (calls : List AddCall) : WiFiMulti :=
  calls.foldl (fun m call => (m.addAP call).1) {}

/-- `wl_status_t`. -/
inductive WlStatus where
  | idleStatus
  | noSsidAvail
  | scanCompleted
  | connected
  | connectFailed
  | connectionLost
  | disconnected
deriving DecidableEq, Repr

/-- The arguments of `WiFi.begin`. -/
structure Connection where
  ssid : List Char
  passphrase : Option (List Char)
  channel : Int
  bssid : List UInt8
deriving DecidableEq, Repr

/-- The calls of `WiFi` that `run` makes. -/
inductive WiFiCall where
  | disconnect
  | scanNetworks
  | scanDelete
  | begin (c : Connection)
deriving DecidableEq, Repr

/-- The strength before the first candidate. -/
def INT_MIN : Int := -2147483648

/-- The result of a scan that is not done. -/
def WIFI_SCAN_RUNNING : Int := -1

/-- The result of a scan that failed. -/
def WIFI_SCAN_FAILED : Int := -2

/-- The four variables of the best network so far. -/
structure Best where
  network : Option WifiAp := none
  db : Int := INT_MIN
  bssid : List UInt8 := List.replicate 6 0
  channel : Int := 0
deriving DecidableEq, Repr

/-- What `run` finds: the status and the name of the network at its start, the status after
`disconnect`, the result of the scan if it succeeds, and after `begin` the status, and turn by
turn the time since then and the status that is read next. -/
structure RunEnv where
  status : WlStatus := .disconnected
  ssid : List Char := []
  statusAfter : WlStatus := .disconnected
  scan : Option (List ApInfo) := none
  begun : WlStatus := .idleStatus
  readings : List (UInt32 × WlStatus) := []
deriving DecidableEq, Repr

/-- `WiFi.scanNetworks` in the scan's own model. -/
def scanNetworks : Option (List ApInfo) → Scan.World × Int
  | none => ({}, WIFI_SCAN_FAILED)
  | some found => ({ result := found } : Scan.World).storeResult true true

/-- The loop over the access points, from the last one on, for one network. -/
def tryEntries (ssidScan : List Char) (secScan : AuthMode) (rssiScan : Int)
    (bssidScan : List UInt8) (chanScan : Int) : List WifiAp → Best → Best
  | [], best => best
  | entry :: rest, best =>
      if ssidScan = entry.ssid then
        if rssiScan > best.db then
          if secScan = .open_ ∨ entry.passphrase ≠ none then
            { network := some entry, db := rssiScan, bssid := bssidScan, channel := chanScan }
          else best
        else best
      else tryEntries ssidScan secScan rssiScan bssidScan chanScan rest best

/-- The body of the loop over the networks; the index is passed on as a `uint32_t`. -/
def lookAt (w : Scan.World) (aplist : List WifiAp) (i : Int) (best : Best) : Best :=
  match w.getNetworkInfo (i % 2 ^ 32).toNat with
  | none => best
  | some (ssid, sec, rssi, bssid, chan) =>
      tryEntries ssid sec rssi bssid (chan.toNat : Int) aplist.reverse best

/-- The loop over the networks, with the indices it looks at. Its own index is an `int8_t`.
The first argument bounds its turns; `none` stands for too many. -/
def scanLoop (w : Scan.World) (aplist : List WifiAp) (scanResult : Int) :
    Nat → Int → Best → Option (Best × List Int)
  | 0, _, _ => none
  | turns + 1, i, best =>
      if i < scanResult then
        (scanLoop w aplist scanResult turns (Int.bmod (i + 1) 256) (lookAt w aplist i best)).map
          fun out => (out.1, i :: out.2)
      else some (best, [])

/-- The loop after `begin`. -/
def waitConnected (connectTimeout : UInt32) : WlStatus → List (UInt32 × WlStatus) → WlStatus
  | status, [] => status
  | status, (elapsed, next) :: rest =>
      if status ≠ .connected ∧ status ≠ .noSsidAvail ∧ status ≠ .connectFailed ∧
          elapsed ≤ connectTimeout then
        waitConnected connectTimeout next rest
      else status

/-- The status that is returned, the calls that were made, and the four variables behind the
loop over the networks. -/
structure Outcome where
  ret : WlStatus
  calls : List WiFiCall
  selected : Best := {}
deriving DecidableEq, Repr

/-- The part of `run` behind the loop over the networks. -/
def connectBest (connectTimeout : UInt32) (env : RunEnv) (status : WlStatus)
    (calls : List WiFiCall) (best : Best) : Outcome :=
  match best.network with
  | none => ⟨status, calls ++ [.scanDelete], best⟩
  | some network =>
      ⟨waitConnected connectTimeout env.begun env.readings, calls ++ [.scanDelete,
        .begin ⟨network.ssid, network.passphrase, best.channel, best.bssid⟩], best⟩

/-- The part of `run` behind `scanNetworks`, where `turns` bounds the loop over the networks;
`status` and `calls` are what there is until then. -/
def afterScan (turns : Nat) (m : WiFiMulti) (connectTimeout : UInt32) (env : RunEnv)
    (status : WlStatus) (calls : List WiFiCall) (w : Scan.World) (scanResult : Int) :
    Option Outcome :=
  if scanResult = WIFI_SCAN_RUNNING then some { ret := .noSsidAvail, calls := calls }
  else if 0 ≤ scanResult then
    if 0 < scanResult then
      (scanLoop w m.aplist scanResult turns 0 {}).map fun out =>
        connectBest connectTimeout env status calls out.1
    else some (connectBest connectTimeout env status calls {})
  else some { ret := status, calls := calls ++ [.disconnect, .scanNetworks] }

/-- `run` is already connected to one of its networks. -/
def WiFiMulti.Settled (m : WiFiMulti) (env : RunEnv) : Prop :=
  env.status = .connected ∧ ∃ entry ∈ m.aplist, env.ssid = entry.ssid

instance (m : WiFiMulti) (env : RunEnv) : Decidable (m.Settled env) := by
  unfold WiFiMulti.Settled
  infer_instance

/-- `run`: nothing is done while the station is connected, else there is a scan, and a choice.
-/
def WiFiMulti.run (turns : Nat) (m : WiFiMulti) (connectTimeout : UInt32) (env : RunEnv) :
    Option Outcome :=
  if m.Settled env then some { ret := env.status, calls := [] }
  else
    let scanned := scanNetworks env.scan
    if env.status = .connected then
      afterScan turns m connectTimeout env env.statusAfter [.disconnect, .scanNetworks]
        scanned.1 scanned.2
    else
      afterScan turns m connectTimeout env env.status [.scanNetworks] scanned.1 scanned.2

/-! ### The loop over the networks -/

/-- The loop ends, and has looked at each index below the count once. -/
def LooksOnce (w : Scan.World) (aplist : List WifiAp) (scanResult : Int) (best : Best) : Prop :=
  ∃ turns out, scanLoop w aplist scanResult turns 0 best = some out ∧
    out.2 = (List.range scanResult.toNat).map Int.ofNat

/-- The count is narrowed to 16 bits, and the networks are given out by their index. -/
theorem scanNetworks_some (found : List ApInfo) :
    (scanNetworks (some found)).2 = Int.bmod found.length 65536 ∧
      ∀ i, (scanNetworks (some found)).1.getNetworkInfo i =
        ((found.map copyEntry)[i]?).map ScanApEntry.info := by
  have hstore : scanNetworks (some found) =
      if found.length = 0 then ({ result := found }, 0)
      else ({ result := found, aps := some (found.map copyEntry), ap_num := found.length },
        Int.bmod found.length 65536) := rfl
  rw [hstore]
  by_cases hempty : found.length = 0
  · rw [if_pos hempty, List.length_eq_zero_iff.1 hempty]
    exact ⟨rfl, fun i => rfl⟩
  · rw [if_neg hempty]
    -- An index within the count gives the network there.
    refine ⟨by simp only, fun i => ?_⟩
    unfold Scan.World.getNetworkInfo Scan.World.getScanInfoByIndex
    by_cases hend : found.length ≤ i
    · rw [if_pos hend, List.getElem?_eq_none (by rw [List.length_map]; exact hend)]
    · rw [if_neg hend]
      rfl

/-- An index up to 127 is counted on. -/
theorem next_index (i : Nat) (hi : i < 127) :
    Int.bmod ((i : Int) + 1) 256 = ((i + 1 : Nat) : Int) := by
  rw [Int.bmod_def]
  omega

/-- An index is never more than 127. -/
theorem index_le (i : Int) : Int.bmod i 256 ≤ 127 := by
  have := Int.bmod_lt (x := i) (m := 256) (by decide)
  omega

/-- With more networks than that, no number of turns is enough. -/
theorem scanLoop_endless (w : Scan.World) (aplist : List WifiAp) (scanResult : Int)
    (hmany : 127 < scanResult) (turns : Nat) (i : Int) (hi : i ≤ 127) (best : Best) :
    scanLoop w aplist scanResult turns i best = none := by
  induction turns generalizing i best with
  | zero => rfl
  | succ turns ih =>
      -- The next index is again at most 127, and below the count.
      rw [scanLoop, if_pos (by omega), ih _ (index_le _)]
      rfl

/-- From an index on, the networks that are left are looked at in turn. -/
theorem scanLoop_spec (w : Scan.World) (aplist : List WifiAp) (count : Nat) (hfew : count ≤ 127)
    (turns i : Nat) (hi : i ≤ count) (hturns : count - i < turns) (best : Best) :
    scanLoop w aplist count turns i best =
      some ((List.range' i (count - i)).foldl (fun b (k : Nat) => lookAt w aplist k b) best,
        (List.range' i (count - i)).map Int.ofNat) := by
  induction turns generalizing i best with
  | zero => exact absurd hturns (Nat.not_lt_zero _)
  | succ turns ih =>
      rw [scanLoop]
      by_cases hlast : i < count
      · -- This network is looked at, and the rest by the induction.
        have hleft : count - i = (count - (i + 1)) + 1 := by omega
        rw [if_pos (by omega), next_index i (by omega), ih (i + 1) hlast (by omega), hleft,
          List.range'_succ]
        rfl
      · have hleft : count - i = 0 := by omega
        rw [if_neg (by omega), hleft]
        rfl

/-- The loop ends, having looked at each network once, exactly for up to 127 networks. -/
theorem looks_once_iff (w : Scan.World) (aplist : List WifiAp) (scanResult : Int)
    (best : Best) : LooksOnce w aplist scanResult best ↔ scanResult ≤ 127 := by
  constructor
  · rintro ⟨turns, out, hloop, -⟩
    by_contra hmany
    rw [scanLoop_endless w aplist scanResult (by omega) turns 0 (by decide) best] at hloop
    exact nomatch hloop
  · intro hfew
    by_cases hneg : scanResult < 0
    · -- A result below zero: the loop is not entered.
      refine ⟨1, (best, []), ?_, ?_⟩
      · rw [scanLoop, if_neg (by omega)]
      · rw [Int.toNat_of_nonpos (by omega)]
        rfl
    · obtain ⟨count, rfl⟩ := Int.eq_ofNat_of_zero_le (Int.not_lt.1 hneg)
      have hcount : count ≤ 127 := by omega
      refine ⟨count + 1, _, scanLoop_spec w aplist count hcount (count + 1) 0 (Nat.zero_le _)
        (by omega) best, ?_⟩
      rw [Int.toNat_natCast, List.range_eq_range', Nat.sub_zero]

/-- A scan that finds 128 networks. -/
theorem endless_scan :
    ¬ LooksOnce (scanNetworks (some (List.replicate 128 ⟨['a'], [], -50, 1, 0⟩))).1
      [⟨['a'], none⟩] (scanNetworks (some (List.replicate 128 ⟨['a'], [], -50, 1, 0⟩))).2 {} := by
  rintro ⟨turns, out, hloop, -⟩
  have hresult : (scanNetworks (some (List.replicate 128 ⟨['a'], [], -50, 1, 0⟩))).2 = 128 := by
    rw [(scanNetworks_some _).1, List.length_replicate]
    rfl
  rw [hresult, scanLoop_endless _ _ _ (by decide) turns 0 (by decide)] at hloop
  exact nomatch hloop

/-! ### The selection -/

/-- An access point can be used for a network. -/
def Usable (e : ScanApEntry) (entry : WifiAp) : Prop :=
  mapSecurity e.security = .open_ ∨ entry.passphrase ≠ none

instance (e : ScanApEntry) (entry : WifiAp) : Decidable (Usable e entry) := by
  unfold Usable
  infer_instance

/-- A network that was found, and an access point of its name that can be used for it. -/
structure Pair (m : WiFiMulti) (found : List ApInfo) (e : ScanApEntry) (entry : WifiAp) : Prop where
  mem_found : e ∈ found.map copyEntry
  mem_aplist : entry ∈ m.aplist
  ssid_eq : e.ssid = entry.ssid
  usable : Usable e entry

/-- The connection to a network, as an access point. -/
def connection (e : ScanApEntry) (entry : WifiAp) : Connection :=
  ⟨entry.ssid, entry.passphrase, (e.channel.toNat : Int), e.bssid⟩

/-- The connection is to the network of a pair, with the strongest signal of all pairs; there
is none without a pair. -/
def Selects (m : WiFiMulti) (found : List ApInfo) (out : Outcome) : Prop :=
  ((∃ e entry, Pair m found e entry) → ∃ e entry, Pair m found e entry ∧
    (∀ e' entry', Pair m found e' entry' → e'.rssi ≤ e.rssi) ∧ out.selected.db = e.rssi ∧
    ∀ c, WiFiCall.begin c ∈ out.calls ↔ c = connection e entry) ∧
  ((¬ ∃ e entry, Pair m found e entry) → ∀ c, WiFiCall.begin c ∉ out.calls)

/-- A run that gets the result of a scan ends, and selects among what was found. -/
def SelectsStrongest (m : WiFiMulti) (connectTimeout : UInt32) (env : RunEnv) : Prop :=
  ∀ found, env.scan = some found → ¬ m.Settled env →
    ∃ turns out, m.run turns connectTimeout env = some out ∧ Selects m found out

/-- The access point of a name that was added last. -/
def lastAdded (aplist : List WifiAp) (ssid : List Char) : Option WifiAp :=
  aplist.reverse.find? fun entry => ssid = entry.ssid

/-- A network that can be used with the access point of its name that was added last. -/
def Candidate (aplist : List WifiAp) (e : ScanApEntry) (entry : WifiAp) : Prop :=
  lastAdded aplist e.ssid = some entry ∧ Usable e entry

/-- The networks up to the count as it is reported. -/
def counted (found : List ApInfo) : List ScanApEntry :=
  (found.map copyEntry).take (Int.bmod found.length 65536).toNat

/-- No more than 127 networks are reported, and each pair has a network among them that is at
least as strong, and can be used with the access point of its name that was added last. -/
def Fair (m : WiFiMulti) (env : RunEnv) : Prop :=
  ∀ found, env.scan = some found → ¬ m.Settled env →
    Int.bmod found.length 65536 ≤ 127 ∧
    ∀ e entry, Pair m found e entry → ∃ e' ∈ counted found, ∃ entry',
      Candidate m.aplist e' entry' ∧ INT_MIN < e'.rssi ∧ e.rssi ≤ e'.rssi

theorem tryEntries_eq (ssid : List Char) (sec : AuthMode) (rssi : Int) (bssid : List UInt8)
    (chan : Int) (entries : List WifiAp) (best : Best) :
    tryEntries ssid sec rssi bssid chan entries best =
      match entries.find? (fun entry => ssid = entry.ssid) with
      | none => best
      | some entry =>
          if rssi > best.db ∧ (sec = .open_ ∨ entry.passphrase ≠ none) then
            ⟨some entry, rssi, bssid, chan⟩
          else best := by
  induction entries with
  | nil => rfl
  | cons entry rest ih =>
      -- The first entry of the name decides, better or not: the loop is left behind it.
      rw [tryEntries, List.find?_cons]
      by_cases hssid : ssid = entry.ssid
      · rw [if_pos hssid, decide_eq_true hssid]
        by_cases hrssi : rssi > best.db
        · by_cases huse : sec = .open_ ∨ entry.passphrase ≠ none
          · rw [if_pos hrssi, if_pos huse]
            exact (if_pos ⟨hrssi, huse⟩).symm
          · rw [if_pos hrssi, if_neg huse]
            exact (if_neg fun h => huse h.2).symm
        · rw [if_neg hrssi]
          exact (if_neg fun h => hrssi h.1).symm
      · rw [if_neg hssid, decide_eq_false hssid]
        exact ih

/-- What has been chosen among the networks looked at: nothing is stronger, and it is one of
them unless nothing was chosen. -/
structure Chosen (aplist : List WifiAp) (looked : List ScanApEntry) (best : Best) : Prop where
  bound : ∀ e ∈ looked, ∀ entry, Candidate aplist e entry → e.rssi ≤ best.db
  source : best = {} ∨ ∃ e ∈ looked, ∃ entry, Candidate aplist e entry ∧ INT_MIN < e.rssi ∧
    best = ⟨some entry, e.rssi, e.bssid, (e.channel.toNat : Int)⟩

theorem Chosen.min_le {aplist : List WifiAp} {looked : List ScanApEntry} {best : Best}
    (h : Chosen aplist looked best) : INT_MIN ≤ best.db := by
  rcases h.source with rfl | ⟨e, -, entry, -, hmin, rfl⟩
  · exact Int.le_refl _
  · exact Int.le_of_lt hmin

/-- One more network. -/
theorem chosen_step {aplist : List WifiAp} {looked : List ScanApEntry} {best : Best}
    (h : Chosen aplist looked best) (e : ScanApEntry) :
    Chosen aplist (looked ++ [e]) (tryEntries e.ssid (mapSecurity e.security) e.rssi e.bssid
      (e.channel.toNat : Int) aplist.reverse best) := by
  rw [tryEntries_eq]
  -- A network without a stronger candidate leaves what was chosen.
  have hkeep : (∀ entry, Candidate aplist e entry → e.rssi ≤ best.db) →
      Chosen aplist (looked ++ [e]) best := by
    intro hnew
    constructor
    · intro e' he' entry hcand
      rcases List.mem_append.1 he' with he' | he'
      · exact h.bound e' he' entry hcand
      · obtain rfl := List.mem_singleton.1 he'
        exact hnew entry hcand
    · rcases h.source with rfl | ⟨e', he', entry, hcand, hmin, rfl⟩
      · exact Or.inl rfl
      · exact Or.inr ⟨e', List.mem_append_left _ he', entry, hcand, hmin, rfl⟩
  cases hlast : lastAdded aplist e.ssid with
  | none =>
      rw [lastAdded] at hlast
      rw [hlast]
      refine hkeep fun entry hcand => ?_
      exact nomatch hlast.symm.trans hcand.1
  | some entry =>
      have hfind := hlast
      rw [lastAdded] at hfind
      rw [hfind]
      simp only
      -- The network takes the place of the best one, or it is not better.
      by_cases hbetter : e.rssi > best.db ∧
          (mapSecurity e.security = .open_ ∨ entry.passphrase ≠ none)
      · rw [if_pos hbetter]
        constructor
        · intro e' he' entry' hcand
          rcases List.mem_append.1 he' with he' | he'
          · exact Int.le_of_lt (Int.lt_of_le_of_lt (h.bound e' he' entry' hcand) hbetter.1)
          · obtain rfl := List.mem_singleton.1 he'
            exact Int.le_refl _
        · exact Or.inr ⟨e, List.mem_append_right _ (List.mem_singleton_self e), entry,
            ⟨hlast, hbetter.2⟩, Int.lt_of_le_of_lt h.min_le hbetter.1, rfl⟩
      · rw [if_neg hbetter]
        refine hkeep fun entry' hcand => ?_
        obtain rfl := Option.some.inj (hlast.symm.trans hcand.1)
        exact Int.not_lt.1 fun hlt => hbetter ⟨hlt, hcand.2⟩

/-- What has been chosen up to a count. -/
theorem chosen_upto (w : Scan.World) (aplist : List WifiAp) (entries : List ScanApEntry)
    (hinfo : ∀ i, w.getNetworkInfo i = (entries[i]?).map ScanApEntry.info) (count : Nat)
    (hcount : count ≤ entries.length) (hfew : count ≤ 127) :
    Chosen aplist (entries.take count)
      ((List.range count).foldl (fun b (k : Nat) => lookAt w aplist k b) {}) := by
  induction count with
  | zero => exact ⟨fun e he => absurd he List.not_mem_nil, Or.inl rfl⟩
  | succ count ih =>
      have hlook : ∀ best, lookAt w aplist count best =
          tryEntries entries[count].ssid (mapSecurity entries[count].security)
            entries[count].rssi entries[count].bssid (entries[count].channel.toNat : Int)
            aplist.reverse best := by
        intro best
        -- The index is passed on as an unsigned number.
        have hindex : ((count : Int) % 2 ^ 32).toNat = count := by omega
        rw [lookAt, hindex, hinfo, List.getElem?_eq_getElem hcount]
        rfl
      rw [List.range_succ, List.foldl_append, List.take_succ_eq_append_getElem hcount,
        List.foldl_cons, List.foldl_nil, hlook]
      exact chosen_step (ih (Nat.le_of_succ_le hcount) (Nat.le_of_succ_le hfew)) _

/-- More turns than are needed change nothing. -/
theorem scanLoop_mono (w : Scan.World) (aplist : List WifiAp) (scanResult : Int)
    (turns turns' : Nat) (hle : turns ≤ turns') (i : Int) (best : Best) (out : Best × List Int)
    (h : scanLoop w aplist scanResult turns i best = some out) :
    scanLoop w aplist scanResult turns' i best = some out := by
  induction turns generalizing turns' i best out with
  | zero => exact nomatch h
  | succ turns ih =>
      cases turns' with
      | zero => exact absurd hle (Nat.not_succ_le_zero _)
      | succ turns' =>
          rw [scanLoop] at h ⊢
          by_cases hi : i < scanResult
          · rw [if_pos hi] at h ⊢
            rcases Option.map_eq_some_iff.1 h with ⟨rest, hrest, rfl⟩
            rw [ih turns' (Nat.le_of_succ_le_succ hle) _ _ rest hrest]
            rfl
          · rw [if_neg hi] at h ⊢
            exact h

theorem lastAdded_spec {aplist : List WifiAp} {ssid : List Char} {entry : WifiAp}
    (h : lastAdded aplist ssid = some entry) : entry ∈ aplist ∧ ssid = entry.ssid := by
  unfold lastAdded at h
  have hssid := List.find?_some h
  exact ⟨List.mem_reverse.1 (List.mem_of_find?_eq_some h), of_decide_eq_true hssid⟩

theorem counted_subset (found : List ApInfo) {e : ScanApEntry} (h : e ∈ counted found) :
    e ∈ found.map copyEntry :=
  List.mem_of_mem_take h

/-- A selection from what was counted is right just if each pair has a candidate that is as
strong. -/
theorem selects_iff (m : WiFiMulti) (found : List ApInfo) (connectTimeout : UInt32)
    (env : RunEnv) (status : WlStatus) (calls : List WiFiCall) (best : Best)
    (hcalls : ∀ c, WiFiCall.begin c ∉ calls) (h : Chosen m.aplist (counted found) best) :
    Selects m found (connectBest connectTimeout env status calls best) ↔
      ∀ e entry, Pair m found e entry → ∃ e' ∈ counted found, ∃ entry',
        Candidate m.aplist e' entry' ∧ INT_MIN < e'.rssi ∧ e.rssi ≤ e'.rssi := by
  rcases h.source with rfl | ⟨e₀, he₀, entry₀, hcand, hmin, rfl⟩
  · -- nothing was chosen, so there is no candidate
    have hnone : ∀ c,
        WiFiCall.begin c ∉ (connectBest connectTimeout env status calls {}).calls := by
      intro c hc
      rcases List.mem_append.1 hc with hc | hc
      · exact hcalls c hc
      · exact nomatch List.mem_singleton.1 hc
    constructor
    · rintro ⟨hsome, -⟩ e entry hpair
      rcases hsome ⟨e, entry, hpair⟩ with ⟨e', entry', -, -, -, hbegin⟩
      exact absurd ((hbegin _).2 rfl) (hnone _)
    · intro hall
      -- a network of a pair stronger than the least number would have been chosen
      refine ⟨?_, fun _ => hnone⟩
      rintro ⟨e, entry, hpair⟩
      rcases hall e entry hpair with ⟨e', he', entry', hcand', hmin', -⟩
      exact absurd hmin' (Int.not_lt.2 (h.bound e' he' entry' hcand'))
  · -- The network that was chosen is one of a pair itself.
    rcases lastAdded_spec hcand.1 with ⟨hmem, hssid⟩
    have hpair₀ : Pair m found e₀ entry₀ := ⟨counted_subset found he₀, hmem, hssid, hcand.2⟩
    constructor
    -- a connection that is right is to a network of a pair, and to the strongest
    · rintro ⟨hsome, -⟩ e entry hpair
      rcases hsome ⟨e, entry, hpair⟩ with ⟨e', entry', -, hmax, hdb, -⟩
      -- No pair is stronger than the connection, so the network of the connection serves.
      refine ⟨e₀, he₀, entry₀, hcand, hmin, ?_⟩
      have hle := hmax e entry hpair
      rw [← hdb] at hle
      exact hle
    -- and the other way round, the one chosen is at least as strong as every pair
    · intro hall
      refine ⟨fun _ => ⟨e₀, entry₀, hpair₀, ?_, rfl, ?_⟩, fun hnot => absurd ⟨_, _, hpair₀⟩ hnot⟩
      · intro e entry hpair
        rcases hall e entry hpair with ⟨e', he', entry', hcand', -, hle⟩
        exact Int.le_trans hle (h.bound e' he' entry' hcand')
      · intro c
        constructor
        · intro hc
          rcases List.mem_append.1 hc with hc | hc
          · exact absurd hc (hcalls c)
          · rcases List.mem_cons.1 hc with hc | hc
            · exact nomatch hc
            · exact WiFiCall.begin.inj (List.mem_singleton.1 hc)
        · rintro rfl
          exact List.mem_append_right _ (List.mem_cons_of_mem _ (List.mem_singleton_self _))

/-- No connection is right just if there is no pair. -/
theorem selects_nothing_iff (m : WiFiMulti) (found : List ApInfo) (out : Outcome)
    (hout : ∀ c, WiFiCall.begin c ∉ out.calls) :
    Selects m found out ↔ ∀ e entry, ¬ Pair m found e entry := by
  constructor
  · rintro ⟨hsome, -⟩ e entry hpair
    rcases hsome ⟨e, entry, hpair⟩ with ⟨e', entry', -, -, -, hbegin⟩
    exact hout _ ((hbegin _).2 rfl)
  · intro hnone
    refine ⟨?_, fun _ => hout⟩
    rintro ⟨e, entry, hpair⟩
    exact absurd hpair (hnone e entry)

/-- The count is no more than the number of networks. -/
theorem count_le (found : List ApInfo) :
    (Int.bmod found.length 65536).toNat ≤ (found.map copyEntry).length := by
  rw [List.length_map, Int.bmod_def]
  split <;> omega

section

variable (m : WiFiMulti) (connectTimeout : UInt32) (env : RunEnv) (status : WlStatus)
  (calls : List WiFiCall) (w : Scan.World)

/-- A result below zero is not a count, and no connection is made. -/
theorem afterScan_of_neg (hcalls : ∀ c, WiFiCall.begin c ∉ calls) (count : Int)
    (hneg : count < 0) :
    ∃ out, (∀ turns, afterScan turns m connectTimeout env status calls w count = some out) ∧
      ∀ c, WiFiCall.begin c ∉ out.calls := by
  unfold afterScan
  simp only [if_neg (Int.not_le.2 hneg)]
  by_cases hrunning : count = WIFI_SCAN_RUNNING
  · simp only [if_pos hrunning]
    exact ⟨_, fun _ => rfl, hcalls⟩
  · simp only [if_neg hrunning]
    refine ⟨_, fun _ => rfl, fun c hc => ?_⟩
    rcases List.mem_append.1 hc with hc | hc
    · exact hcalls c hc
    · simp at hc

theorem afterScan_of_count (count : Int) (hcount : 0 ≤ count) (turns : Nat) :
    afterScan turns m connectTimeout env status calls w count =
      if 0 < count then
        (scanLoop w m.aplist count turns 0 {}).map fun out =>
          connectBest connectTimeout env status calls out.1
      else some (connectBest connectTimeout env status calls {}) := by
  have hrunning : ¬ count = WIFI_SCAN_RUNNING := by
    unfold WIFI_SCAN_RUNNING
    omega
  unfold afterScan
  rw [if_neg hrunning, if_pos hcount]

/-- With more networks than 127, it does not end. -/
theorem afterScan_of_many (count : Int) (hmany : 127 < count) (turns : Nat) :
    afterScan turns m connectTimeout env status calls w count = none := by
  rw [afterScan_of_count m connectTimeout env status calls w count (by omega),
    if_pos (by omega), scanLoop_endless w m.aplist count hmany turns 0 (by decide)]
  rfl

/-- Up to 127 networks are looked at, and the best of them is connected to. However many turns
there are, a run that ends has chosen the same. -/
theorem afterScan_of_few (n : Nat) (hfew : n ≤ 127) (best : Best)
    (hbest : (List.range n).foldl (fun b (k : Nat) => lookAt w m.aplist k b) {} = best) :
    afterScan (n + 1) m connectTimeout env status calls w n =
        some (connectBest connectTimeout env status calls best) ∧
      ∀ turns out, afterScan turns m connectTimeout env status calls w n = some out →
        out = connectBest connectTimeout env status calls best := by
  have hafter := afterScan_of_count m connectTimeout env status calls w n (Int.natCast_nonneg n)
  by_cases hpos : 0 < (n : Int)
  · have hloop := scanLoop_spec w m.aplist n hfew (n + 1) 0 (Nat.zero_le n) (by omega) {}
    rw [Nat.sub_zero, ← List.range_eq_range', hbest] at hloop
    simp only [if_pos hpos] at hafter
    refine ⟨(hafter (n + 1)).trans (congrArg (Option.map _) hloop), fun turns out h => ?_⟩
    rw [hafter] at h
    rcases Option.map_eq_some_iff.1 h with ⟨out', hout', rfl⟩
    -- The two runs of the loop are compared at the larger of their bounds.
    have hfirst := scanLoop_mono w m.aplist n turns (max turns (n + 1)) (Nat.le_max_left _ _)
      0 {} out' hout'
    have hsecond := scanLoop_mono w m.aplist n (n + 1) (max turns (n + 1)) (Nat.le_max_right _ _)
      0 {} _ hloop
    rw [Option.some.inj (hfirst.symm.trans hsecond)]
  · -- There is no network, and the loop is not entered.
    obtain rfl : n = 0 := by omega
    have hnone : best = {} := hbest.symm
    rw [hnone]
    simp only [if_neg hpos] at hafter
    refine ⟨hafter 1, fun turns out h => ?_⟩
    rw [hafter] at h
    exact (Option.some.inj h).symm

end

/-- What follows the scan selects the strongest network, exactly for up to 127 networks with
a candidate for each pair. -/
theorem afterScan_selects_iff (m : WiFiMulti) (found : List ApInfo) (connectTimeout : UInt32)
    (env : RunEnv) (status : WlStatus) (calls : List WiFiCall) (w : Scan.World)
    (hcalls : ∀ c, WiFiCall.begin c ∉ calls)
    (hinfo : ∀ i, w.getNetworkInfo i = ((found.map copyEntry)[i]?).map ScanApEntry.info) :
    (∃ turns out, afterScan turns m connectTimeout env status calls w
      (Int.bmod found.length 65536) = some out ∧ Selects m found out) ↔
      Int.bmod found.length 65536 ≤ 127 ∧
      ∀ e entry, Pair m found e entry → ∃ e' ∈ counted found, ∃ entry',
        Candidate m.aplist e' entry' ∧ INT_MIN < e'.rssi ∧ e.rssi ≤ e'.rssi := by
  have hchosen := chosen_upto w m.aplist (found.map copyEntry) hinfo
    (Int.bmod found.length 65536).toNat (count_le found)
  have hselects := selects_iff m found connectTimeout env status calls
  unfold counted at hselects ⊢
  -- from here on the count is any number of sixteen bits
  generalize (Int.bmod found.length 65536) = count at hchosen hselects ⊢
  by_cases hneg : count < 0
  · -- nothing is looked at
    have hempty : (found.map copyEntry).take count.toNat = [] := by
      rw [Int.toNat_of_nonpos (by omega), List.take_zero]
    rcases afterScan_of_neg m connectTimeout env status calls w hcalls count hneg with
      ⟨out₀, hafter, hout⟩
    rw [hempty]
    constructor
    · rintro ⟨turns, out, h, hsel⟩
      obtain rfl := Option.some.inj ((hafter turns).symm.trans h)
      rw [selects_nothing_iff m found _ hout] at hsel
      exact ⟨by omega, fun e entry hpair => absurd hpair (hsel e entry)⟩
    · rintro ⟨-, hall⟩
      refine ⟨0, out₀, hafter 0, (selects_nothing_iff m found out₀ hout).2 ?_⟩
      intro e entry hpair
      rcases hall e entry hpair with ⟨e', he', -⟩
      exact absurd he' List.not_mem_nil
  -- up to 127 the index reaches the count, beyond it wraps and the loop goes on for ever
  · by_cases hfew : count ≤ 127
    · obtain ⟨n, rfl⟩ := Int.eq_ofNat_of_zero_le (Int.not_lt.1 hneg)
      rw [Int.toNat_natCast] at hchosen hselects ⊢
      have hiff := hselects _ hcalls (hchosen (by omega))
      rcases afterScan_of_few m connectTimeout env status calls w n (by omega) _ rfl with
        ⟨hdone, hends⟩
      constructor
      · rintro ⟨turns, out, h, hsel⟩
        rw [hends turns out h] at hsel
        exact ⟨hfew, hiff.1 hsel⟩
      · rintro ⟨-, hall⟩
        exact ⟨n + 1, _, hdone, hiff.2 hall⟩
    · refine iff_of_false ?_ fun h => hfew h.1
      rintro ⟨turns, out, h, -⟩
      rw [afterScan_of_many m connectTimeout env status calls w count (by omega) turns] at h
      exact nomatch h

/-- A run that gets the result of a scan, and what it takes to select rightly. -/
theorem run_selects_iff (m : WiFiMulti) (connectTimeout : UInt32) (env : RunEnv)
    (found : List ApInfo) (hscan : env.scan = some found) (hnew : ¬ m.Settled env) :
    (∃ turns out, m.run turns connectTimeout env = some out ∧ Selects m found out) ↔
      Int.bmod found.length 65536 ≤ 127 ∧
      ∀ e entry, Pair m found e entry → ∃ e' ∈ counted found, ∃ entry',
        Candidate m.aplist e' entry' ∧ INT_MIN < e'.rssi ∧ e.rssi ≤ e'.rssi := by
  rcases scanNetworks_some found with ⟨hresult, hinfo⟩
  -- Connected to another network, it disconnects first; then both ways are one.
  have hrun : ∀ turns, m.run turns connectTimeout env =
      if env.status = .connected then
        afterScan turns m connectTimeout env env.statusAfter [.disconnect, .scanNetworks]
          (scanNetworks (some found)).1 (Int.bmod found.length 65536)
      else
        afterScan turns m connectTimeout env env.status [.scanNetworks]
          (scanNetworks (some found)).1 (Int.bmod found.length 65536) := by
    intro turns
    rw [WiFiMulti.run, if_neg hnew, hscan, ← hresult]
  simp only [hrun]
  by_cases hconnected : env.status = .connected
  · simp only [if_pos hconnected]
    exact afterScan_selects_iff m found connectTimeout env _ _ _ (by simp) hinfo
  · simp only [if_neg hconnected]
    exact afterScan_selects_iff m found connectTimeout env _ _ _ (by simp) hinfo

/-- A run that gets the result of a scan connects to the strongest network that can be used,
exactly where it is fair. -/
theorem selects_strongest_iff (calls : List AddCall) (connectTimeout : UInt32) (env : RunEnv) :
    SelectsStrongest (built calls) connectTimeout env ↔ Fair (built calls) env :=
  forall_congr' fun found => forall_congr' fun hscan => forall_congr' fun hnew =>
    run_selects_iff (built calls) connectTimeout env found hscan hnew

/-- Two calls of `addAP` for one network, the second without the passphrase. -/
def passphraseThenNone : List AddCall :=
  [{ ssid := some ['h'], passphrase := some ['k'] }, { ssid := some ['h'] }]

/-- The network is found, and needs the passphrase. -/
def securedFound : RunEnv :=
  { scan := some [⟨['h'], [1, 2, 3, 4, 5, 6], -50, 6, 5⟩] }

/-- The call without the passphrase hides the one with it. -/
theorem hidden_passphrase :
    ¬ SelectsStrongest (built passphraseThenNone) 5000 securedFound := by
  intro h
  have hpair : Pair (built passphraseThenNone) [⟨['h'], [1, 2, 3, 4, 5, 6], -50, 6, 5⟩]
      ⟨['h'], [1, 2, 3, 4, 5, 6], -50, 6, 5⟩ ⟨['h'], some ['k']⟩ :=
    ⟨by decide, by decide, rfl, Or.inr (by decide)⟩
  -- By the condition there would be a candidate as strong as the pair.
  have hall := ((run_selects_iff _ 5000 securedFound _ rfl (by decide)).1 (h _ rfl (by decide))).2
  rcases hall _ _ hpair with ⟨e', he', entry', ⟨hlast, huse⟩, -, -⟩
  have hcounted : counted [⟨['h'], [1, 2, 3, 4, 5, 6], -50, 6, 5⟩] =
      [⟨['h'], [1, 2, 3, 4, 5, 6], -50, 6, 5⟩] := by decide
  rw [hcounted] at he'
  obtain rfl := List.mem_singleton.1 he'
  -- the entry added last has no passphrase, and the network is not open
  obtain rfl : (⟨['h'], none⟩ : WifiAp) = entry' := Option.some.inj hlast
  exact absurd huse (by decide)

end WiFi.Multi

end ArduinoBeken
