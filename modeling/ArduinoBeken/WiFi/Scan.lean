import ArduinoBeken.Library.Run

/-!
# The Scan for Networks

`scanNetworks` drains a semaphore, starts a scan, and waits for the semaphore, which
a handler of the scan-done event gives. Semaphore and handler are only there from the
first wait on. Scans of the SDK have numbers here: each `bk_wifi_scan_start` starts
the next one, and so does whoever else scans. A scan completes with what it found,
and its event is handled some time later, or never, or again.

The event does not say whose it is. So a call gets its own scan if no event of
another scan is handled between draining and waiting, and it misses none if its own
event finds the handler (`faithful_of_undisturbed`).

## Main definitions

* `World`, `Event`: The semaphore, the call under way, and the scans of the SDK.
* `World.storeResult`, `World.getNetworkInfo`: What a call returns and stores.
* `Faithful`: The law.
* `Undisturbed`: Events that reach the call whose scan they are of.

## Theorems

* `inv_step`: What holds while a call waits.
* `faithful_of_undisturbed`: The law along a run.
-/

namespace ArduinoBeken

namespace WiFi.Scan

/-- `wifi_scan_ap_info_t`. -/
structure ApInfo where
  ssid : List Char
  bssid : List UInt8
  rssi : Int
  channel : UInt8
  security : Nat
deriving DecidableEq, Repr

/-- A network that was found. -/
structure ScanApEntry where
  ssid : List Char
  bssid : List UInt8
  rssi : Int
  channel : UInt8
  security : UInt8
deriving DecidableEq, Repr

/-- An entry of `_aps` from one of the result. -/
def copyEntry (a : ApInfo) : ScanApEntry where
  ssid := a.ssid.take 32
  bssid := a.bssid
  rssi := a.rssi
  channel := a.channel
  security := UInt8.ofNat a.security

/-- `WF_AP_AUTH_MODE_E`, as far as it is used. -/
inductive AuthMode where
  | open_
  | wep
  | wpaPsk
  | wpa2Psk
  | wpaWpa3Sae
  | wpaWpa2Psk
deriving DecidableEq, Repr

/-- `wifiBkIdkMapSecurity`. -/
def mapSecurity (security : UInt8) : AuthMode :=
  if security = 0 then .open_
  else if security = 1 then .wep
  else if security ≤ 4 then .wpaPsk
  else if security ≤ 7 then .wpa2Psk
  else if security ≤ 9 then .wpaWpa3Sae
  else .wpaWpa2Psk

/-- What `getNetworkInfo` gives out of an entry: SSID, encryption, RSSI, BSSID and
channel. -/
def ScanApEntry.info (e : ScanApEntry) : List Char × AuthMode × Int × List UInt8 × UInt8 :=
  (e.ssid, mapSecurity e.security, e.rssi, e.bssid, e.channel)

/-- Where a call of `scanNetworks` is, with the number of its scan. -/
inductive Place where
  | drained
  | started (own : Nat)
  | waiting (own : Nat)
  | signalled (own : Nat)
deriving DecidableEq, Repr

/-- `sem` is `s_scan_done_sem` with whether it is given, and `handler` says that the
SDK has the handler. The scans of the SDK that run have their numbers, those that are
complete what they found besides, and `result` is what the last of them found. `fired`
is history: the event of the call's own scan has been handled since its start. -/
structure World where
  sem : Option Bool := none
  event_registered : Bool := false
  handler : Bool := false
  aps : Option (List ScanApEntry) := none
  ap_num : Nat := 0
  call : Option Place := none
  scans : Nat := 0
  running : List Nat := []
  completed : List (Nat × List ApInfo) := []
  result : List ApInfo := []
  fired : Bool := false
deriving DecidableEq, Repr

/-- What happens. The events of a call carry what the SDK answers. -/
inductive Event where
  | scanNetworks
  | start (ok : Bool)
  | ready (init register : Bool)
  | wait (timeout : Bool)
  | getResult (ok malloc : Bool)
  | otherScan
  | complete (k : Nat) (found : List ApInfo)
  | fire (k : Nat)
deriving DecidableEq, Repr

namespace World

/-- The results of the last scan are freed. -/
def scanDelete (w : World) : World :=
  { w with aps := none, ap_num := 0 }

/-- The loop ends with the semaphore not given. -/
def drainScanSemaphore (w : World) : World :=
  { w with sem := w.sem.map fun _ => false }

/-- The semaphore is made, and the callback registered once, whether that succeeds or not. -/
def ensureScanEventReady (w : World) (init register : Bool) : World :=
  let w := if w.sem = none ∧ init then { w with sem := some false } else w
  if w.event_registered then w
  else { w with handler := register, event_registered := true }

/-- The handler is called and finds a semaphore. -/
def listening (w : World) : Bool :=
  w.handler && w.sem.isSome

/-- `scanDoneEventHandler`, if it is registered. -/
def scanDoneEventHandler (w : World) : World :=
  if w.listening then { w with sem := some true } else w

/-- The last part of `scanNetworks`, and what it returns. -/
def storeResult (w : World) (ok malloc : Bool) : World × Int :=
  if ok then
    if w.result.length = 0 then (w, 0)
    else if malloc then
      ({ w with aps := some (w.result.map copyEntry), ap_num := w.result.length },
        (w.result.length : Int).bmod 65536)
    else ({ w with aps := none, ap_num := 0 }, -2)
  else (w, -2)

/-- The result at an index. -/
def getScanInfoByIndex (w : World) (i : Nat) : Option ScanApEntry :=
  if w.ap_num ≤ i then none else w.aps.bind fun aps => aps[i]?

/-- `getNetworkInfo`, with what it gives out if it returns true. -/
def getNetworkInfo (w : World) (i : Nat) :
    Option (List Char × AuthMode × Int × List UInt8 × UInt8) :=
  (w.getScanInfoByIndex i).map ScanApEntry.info

end World

/-- One move of the call or of the SDK. -/
def step (w : World) : Event → World
  | .scanNetworks =>
    match w.call with
    | none => { w.scanDelete.drainScanSemaphore with call := some .drained }
    | some _ => w
  | .start ok =>
    -- the start goes to the SDK behind the drained semaphore only
    match w.call with
    | some .drained =>
      if ok then
        { w with
          scans := w.scans + 1, running := w.running ++ [w.scans + 1]
          call := some (.started (w.scans + 1)), fired := false }
      else { w with call := none }
    | _ => w
  | .ready init register =>
    -- the semaphore and the callback are made ready behind the start
    match w.call with
    | some (.started own) =>
      { w.ensureScanEventReady init register with call := some (.waiting own) }
    | _ => w
  | .wait timeout =>
    -- a semaphore that is given ends the wait, whoever gave it
    match w.call with
    | some (.waiting own) =>
      if w.sem = some true then { w with sem := some false, call := some (.signalled own) }
      else if timeout then { w with call := none }
      else w
    | _ => w
  | .getResult ok malloc =>
    match w.call with
    | some (.signalled _) => { (w.storeResult ok malloc).1 with call := none }
    | _ => w
  -- a scan that somebody else has started
  | .otherScan => { w with scans := w.scans + 1, running := w.running ++ [w.scans + 1] }
  | .complete k found =>
    if k ∈ w.running then
      { w with
        running := w.running.erase k, completed := (k, found) :: w.completed, result := found }
    else w
  | .fire k =>
    -- the event of a complete scan reaches the handler once it is registered
    if k ∈ w.completed.map Prod.fst then
      let own := w.call = some (.started k) ∨ w.call = some (.waiting k)
      { w.scanDoneEventHandler with fired := w.fired || decide own }
    else w

/-! ### The law -/

/-- The scan that a call is about, from its start on. -/
def Place.scan : Place → Option Nat
  | .drained => none
  | .started own | .waiting own | .signalled own => some own

/-- A wait that ends at the timeout has missed no event of its own scan. A count that
is returned is that of the networks the call's own scan found, which are stored and
given out by their index. -/
def Faithful (w : World) : Event → Prop
  | .wait timeout => ∀ own, w.call = some (.waiting own) → w.sem ≠ some true → timeout = true →
      w.fired = false
  | .getResult ok malloc => ∀ own, w.call = some (.signalled own) →
      0 ≤ (w.storeResult ok malloc).2 →
      ∃ found, (own, found) ∈ w.completed ∧ (w.storeResult ok malloc).2 = found.length ∧
        ∀ i, (step w (.getResult ok malloc)).getNetworkInfo i =
          (found[i]?).map fun a => (copyEntry a).info
  | _ => True

/-- Between draining and waiting the handler gives the semaphore for the events of the
call's own scan, and for all of them, no scan completes between this one and the
reading of its result, and the count returned is the number. -/
def Undisturbed (w : World) : Event → Prop
  | .fire k => k ∈ w.completed.map Prod.fst →
      match w.call with
      | some .drained => w.listening = false
      | some (.started own) | some (.waiting own) => w.listening = true ↔ k = own
      | _ => True
  | .complete _ _ => ∀ place, w.call = some place → ∀ own, place.scan = some own →
      own ∉ w.completed.map Prod.fst
  | .getResult _ _ => w.result.length < 65536
  | _ => True

/-! ### While a call waits -/

/-- The scan of a call that has started. -/
def World.own (w : World) : Option Nat :=
  w.call.bind Place.scan

/-- Before its scan the semaphore of a call is not given. From then on what its scan
found, if it is complete, is the result of the SDK, and the semaphore is given when
the event has come, and only if the scan is complete. -/
structure Inv (w : World) : Prop where
  completed : ∀ p ∈ w.completed, p.1 ≤ w.scans
  running : ∀ k ∈ w.running, k ≤ w.scans
  deleted : w.call ≠ none → w.aps = none ∧ w.ap_num = 0
  drained : w.call = some .drained → w.sem ≠ some true
  result : ∀ own, w.own = some own → ∀ found, (own, found) ∈ w.completed → w.result = found
  given : ∀ own, w.call = some (.started own) ∨ w.call = some (.waiting own) →
    w.sem = some true → own ∈ w.completed.map Prod.fst
  fired : ∀ own, w.call = some (.started own) ∨ w.call = some (.waiting own) →
    w.fired = true → w.sem = some true
  signalled : ∀ own, w.call = some (.signalled own) → own ∈ w.completed.map Prod.fst

theorem inv_scanNetworks (w : World) (h : Inv w) : Inv (step w .scanNetworks) := by
  simp only [step]
  split
  · refine ⟨h.completed, h.running, fun _ => ⟨rfl, rfl⟩, ?_, ?_, ?_, ?_, ?_⟩
    · intro _
      cases hsem : w.sem with
      | none => simp [World.drainScanSemaphore, World.scanDelete, hsem]
      | some given => simp [World.drainScanSemaphore, World.scanDelete, hsem]
    all_goals simp [World.own, Place.scan]
  · exact h

theorem inv_start (w : World) (ok : Bool) (h : Inv w) : Inv (step w (.start ok)) := by
  simp only [step]
  split
  · next hcall =>
    split
    · -- The number of the new scan is one that no complete scan has.
      have hnew : ∀ found, (w.scans + 1, found) ∉ w.completed := by
        intro found hmem
        have := h.completed _ hmem
        omega
      refine ⟨?_, ?_, ?_, ?_, ?_, ?_, ?_, ?_⟩
      · exact fun p hp => Nat.le_succ_of_le (h.completed p hp)
      -- the scans that run are those before and the new one
      · intro k hk
        rcases List.mem_append.1 hk with hold | hlast
        · exact Nat.le_succ_of_le (h.running k hold)
        · exact Nat.le_of_eq (List.mem_singleton.1 hlast)
      · exact fun _ => h.deleted (by rw [hcall]; simp)
      · exact fun hno => absurd hno (by simp)
      -- so what is in the result is not taken for it
      · intro own hown found hmem
        have hsame : w.scans + 1 = own := Option.some.inj hown
        rw [← hsame] at hmem
        exact absurd hmem (hnew found)
      · exact fun own _ hgiven => absurd hgiven (h.drained hcall)
      · exact fun own _ hno => absurd hno (by simp)
      · exact fun own hno => absurd hno (by simp)
    · refine ⟨h.completed, h.running, fun hno => absurd rfl hno, ?_, ?_, ?_, ?_, ?_⟩
      all_goals simp [World.own]
  · exact h

/-- Getting ready does not give the semaphore or take it. -/
theorem ensureScanEventReady_frame (w : World) (init register : Bool) :
    ∃ sem registered handler, (sem = some true ↔ w.sem = some true) ∧
      w.ensureScanEventReady init register =
        { w with sem := sem, event_registered := registered, handler := handler } := by
  have hsem : ∃ sem, (sem = some true ↔ w.sem = some true) ∧
      (if w.sem = none ∧ init = true then { w with sem := some false } else w) =
        { w with sem := sem } := by
    split
    · next hnone => exact ⟨some false, by rw [hnone.1]; simp, rfl⟩
    · exact ⟨w.sem, Iff.rfl, rfl⟩
  rcases hsem with ⟨sem, hsame, heq⟩
  simp only [World.ensureScanEventReady, heq]
  split
  · exact ⟨sem, w.event_registered, w.handler, hsame, rfl⟩
  · exact ⟨sem, true, register, hsame, rfl⟩

theorem inv_ready (w : World) (init register : Bool) (h : Inv w) :
    Inv (step w (.ready init register)) := by
  simp only [step]
  split
  · next own hcall =>
    rcases ensureScanEventReady_frame w init register with ⟨sem, registered, handler, hsem, heq⟩
    have hown : w.own = some own := by
      rw [World.own, hcall]
      rfl
    rw [heq]
    -- making ready gives the semaphore to nobody
    refine ⟨h.completed, h.running, ?_, ?_, ?_, ?_, ?_, ?_⟩
    · exact fun _ => h.deleted (by rw [hcall]; simp)
    · exact fun hno => absurd hno (by simp)
    · intro own' hown'
      have hsame : own = own' := Option.some.inj hown'
      exact h.result own' (hown.trans (congrArg some hsame))
    · rintro own' (hno | hwaiting) hgiven
      · exact absurd hno (by simp)
      · have hsame : own = own' := Place.waiting.inj (Option.some.inj hwaiting)
        exact h.given own' (Or.inl (by rw [hcall, hsame])) (hsem.1 hgiven)
    · rintro own' - hfired
      exact hsem.2 (h.fired own (Or.inl hcall) hfired)
    · exact fun own' hno => absurd hno (by simp)
  · exact h

theorem inv_wait (w : World) (timeout : Bool) (h : Inv w) : Inv (step w (.wait timeout)) := by
  simp only [step]
  split
  · next own hcall =>
    have hown : w.own = some own := by
      rw [World.own, hcall]
      rfl
    split
    · next hgiven =>
      -- the semaphore was given
      refine ⟨h.completed, h.running, ?_, ?_, ?_, ?_, ?_, ?_⟩
      · exact fun _ => h.deleted (by rw [hcall]; simp)
      · exact fun hno => absurd hno (by simp)
      · intro own' hown'
        have hsame : own = own' := Option.some.inj hown'
        exact h.result own' (hown.trans (congrArg some hsame))
      · exact fun own' hno => absurd hno (by simp)
      · exact fun own' hno => absurd hno (by simp)
      · intro own' hsignalled
        have hsame : own = own' := Place.signalled.inj (Option.some.inj hsignalled)
        exact h.given own' (Or.inr (by rw [hcall, hsame])) hgiven
    · -- the wait has timed out, or it goes on
      split
      · refine ⟨h.completed, h.running, fun hno => absurd rfl hno, ?_, ?_, ?_, ?_, ?_⟩
        all_goals simp [World.own]
      · exact h
  · exact h

theorem inv_getResult (w : World) (ok malloc : Bool) (h : Inv w) :
    Inv (step w (.getResult ok malloc)) := by
  simp only [step]
  split
  · have hsame : (w.storeResult ok malloc).1.completed = w.completed ∧
        (w.storeResult ok malloc).1.running = w.running ∧
        (w.storeResult ok malloc).1.scans = w.scans := by
      unfold World.storeResult
      repeat' split
      all_goals exact ⟨rfl, rfl, rfl⟩
    rcases hsame with ⟨hcompleted, hrunning, hscans⟩
    refine ⟨?_, ?_, fun hno => absurd rfl hno, ?_, ?_, ?_, ?_, ?_⟩
    · simp only [hcompleted, hscans]
      exact h.completed
    · simp only [hrunning, hscans]
      exact h.running
    all_goals simp [World.own]
  · exact h

theorem inv_otherScan (w : World) (h : Inv w) : Inv (step w .otherScan) := by
  refine ⟨?_, ?_, h.deleted, h.drained, h.result, h.given, h.fired, h.signalled⟩
  · exact fun p hp => Nat.le_succ_of_le (h.completed p hp)
  · intro k hk
    rcases List.mem_append.1 hk with hold | hlast
    · exact Nat.le_succ_of_le (h.running k hold)
    · exact Nat.le_of_eq (List.mem_singleton.1 hlast)

/-- A scan completes before the call's own has, if it does while there is one. -/
theorem inv_complete (w : World) (k : Nat) (found : List ApInfo) (h : Inv w)
    (hcond : Undisturbed w (.complete k found)) : Inv (step w (.complete k found)) := by
  simp only [step]
  split
  · next hruns =>
    refine ⟨?_, ?_, h.deleted, h.drained, ?_, ?_, h.fired, ?_⟩
    · intro p hp
      rcases List.mem_cons.1 hp with hnew | hold
      · rw [hnew]
        exact h.running k hruns
      · exact h.completed p hold
    · exact fun k' hk => h.running k' (List.mem_of_mem_erase hk)
    -- the call's own scan is still to complete, so the result was not its own before
    · intro own hown found' hmem
      have hfresh : own ∉ w.completed.map Prod.fst := by
        rcases Option.bind_eq_some_iff.1 hown with ⟨place, hplace, hscan⟩
        exact hcond place hplace own hscan
      rcases List.mem_cons.1 hmem with hnew | hold
      · exact (Prod.mk.inj hnew).2.symm
      · exact absurd (List.mem_map_of_mem (f := Prod.fst) hold) hfresh
    · exact fun own hcall hgiven => List.mem_cons_of_mem _ (h.given own hcall hgiven)
    · exact fun own hcall => List.mem_cons_of_mem _ (h.signalled own hcall)
  · exact h

/-- An event that the handler takes for that of the call's scan is that. -/
theorem inv_fire (w : World) (k : Nat) (h : Inv w) (hcond : Undisturbed w (.fire k)) :
    Inv (step w (.fire k)) := by
  simp only [step]
  split
  · next hdone =>
    have hlaw := hcond hdone
    -- the handler gives the semaphore while it listens
    have hheard : w.scanDoneEventHandler =
        { w with sem := if w.listening = true then some true else w.sem } := by
      unfold World.scanDoneEventHandler
      split
      · rfl
      · rfl
    -- and it listens just where the event is that of the call's scan
    have hmine : ∀ own, w.call = some (.started own) ∨ w.call = some (.waiting own) →
        (w.listening = true ↔ k = own) := by
      rintro own (hcall | hcall)
      · rw [hcall] at hlaw
        exact hlaw
      · rw [hcall] at hlaw
        exact hlaw
    rw [hheard]
    refine ⟨h.completed, h.running, h.deleted, ?_, h.result, ?_, ?_, h.signalled⟩
    -- before the start there is no scan of the call, so no event may be heard
    · intro hdrained
      have hdrained' : w.call = some .drained := hdrained
      rw [hdrained'] at hlaw
      simp only [hlaw, Bool.false_eq_true, if_false]
      exact h.drained hdrained'
    -- the semaphore is given now by the call's own scan, or was before
    · intro own hcall hgiven
      by_cases hlistening : w.listening = true
      · rw [← (hmine own hcall).1 hlistening]
        exact hdone
      · simp only [if_neg hlistening] at hgiven
        exact h.given own hcall hgiven
    · intro own hcall hfired
      by_cases hlistening : w.listening = true
      · simp only [if_pos hlistening]
      · simp only [if_neg hlistening]
        refine h.fired own hcall ?_
        -- The event was not that of the call's scan, which the handler would have heard.
        have hother : k ≠ own := fun hsame => hlistening ((hmine own hcall).2 hsame)
        have hnot : ¬(w.call = some (.started k) ∨ w.call = some (.waiting k)) := by
          rcases hcall with hcall | hcall
          · have hcall' : w.call = some (.started own) := hcall
            simp [hcall', Ne.symm hother]
          · have hcall' : w.call = some (.waiting own) := hcall
            simp [hcall', Ne.symm hother]
        simpa [hnot] using hfired
  · exact h

theorem inv_step (w : World) (e : Event) (h : Inv w) (hcond : Undisturbed w e) :
    Inv (step w e) := by
  cases e with
  | scanNetworks => exact inv_scanNetworks w h
  | start ok => exact inv_start w ok h
  | ready init register => exact inv_ready w init register h
  | wait timeout => exact inv_wait w timeout h
  | getResult ok malloc => exact inv_getResult w ok malloc h
  | otherScan => exact inv_otherScan w h
  | complete k found => exact inv_complete w k found h hcond
  | fire k => exact inv_fire w k h hcond

/-! ### What a call returns -/

/-- A count of so few that is not negative is the number itself. -/
theorem bmod_eq_of_nonneg (n : Nat) (hn : n < 65536) (h : 0 ≤ (n : Int).bmod 65536) :
    (n : Int).bmod 65536 = n := by
  rw [Int.bmod_def] at h ⊢
  split
  · omega
  · omega

/-- What is given out behind storing the result of the SDK. -/
theorem getNetworkInfo_storeResult (w : World) (ok malloc : Bool)
    (hdeleted : w.aps = none ∧ w.ap_num = 0) (hn : w.result.length < 65536)
    (h : 0 ≤ (w.storeResult ok malloc).2) :
    (w.storeResult ok malloc).2 = w.result.length ∧
      ∀ i, (w.storeResult ok malloc).1.getNetworkInfo i =
        (w.result[i]?).map fun a => (copyEntry a).info := by
  unfold World.storeResult at h ⊢
  split at h
  · next hok =>
    rw [if_pos hok]
    split at h
    · next hempty =>
      rw [if_pos hempty]
      refine ⟨by rw [hempty]; rfl, fun i => ?_⟩
      have hnil : w.result = [] := List.length_eq_zero_iff.1 hempty
      simp [World.getNetworkInfo, World.getScanInfoByIndex, hdeleted.2, hnil]
    · next hsome =>
      rw [if_neg hsome]
      split at h
      · next hmalloc =>
        rw [if_pos hmalloc]
        simp only [] at h ⊢
        -- the count is returned as an `int16_t`
        refine ⟨bmod_eq_of_nonneg w.result.length hn h, fun i => ?_⟩
        simp only [World.getNetworkInfo, World.getScanInfoByIndex]
        split
        · next hend => rw [List.getElem?_eq_none hend]; rfl
        · simp [Function.comp_def]
      · exact absurd h (by simp)
  · exact absurd h (by simp)

theorem faithful_of_inv (w : World) (e : Event) (h : Inv w) (hcond : Undisturbed w e) :
    Faithful w e := by
  cases e with
  | wait timeout =>
      intro own hcall hsem _
      cases hfired : w.fired with
      | false => rfl
      | true => exact absurd (h.fired own (Or.inr hcall) hfired) hsem
  | getResult ok malloc =>
      intro own hcall hcount
      have hdeleted := h.deleted (by rw [hcall]; simp)
      -- the call was signalled, so its scan was completed
      rcases List.mem_map.1 (h.signalled own hcall) with ⟨⟨own', found⟩, hmem, hsame⟩
      have hown : w.own = some own := by
        rw [World.own, hcall]
        rfl
      have hmine : (own, found) ∈ w.completed := by
        rw [← hsame]
        exact hmem
      have hresult := h.result own hown found hmine
      have hstored := getNetworkInfo_storeResult w ok malloc hdeleted hcond hcount
      refine ⟨found, hmine, by rw [← hresult]; exact hstored.1, ?_⟩
      rw [← hresult]
      simp only [step, hcall]
      exact hstored.2
  | _ => exact True.intro

/-- Along every order of calls, of scans that complete, and of their events, early, late
or repeated, a call that returns a count has the networks of its own scan, and it does
not end at the timeout once the event of its scan has come, if no call is disturbed. -/
theorem faithful_of_undisturbed (es : List Event) (h : EventRun.Always step Undisturbed {} es) :
    EventRun.Always step Faithful {} es := by
  have hstart : Inv {} := by
    refine ⟨?_, ?_, ?_, ?_, ?_, ?_, ?_, ?_⟩
    all_goals simp [World.own]
  exact EventRun.always_of_inv (I := Inv) faithful_of_inv inv_step hstart h

/-- The first of two scans ends at the timeout, and its event comes before the second
one is started. -/
theorem two_scans_faithful :
    EventRun.Always step Faithful {}
      [.scanNetworks, .start true, .ready true true, .wait true, .complete 1 [],
        .fire 1, .scanNetworks, .start true, .ready true true,
        .complete 2 [⟨['a'], [], -40, 6, 7⟩], .fire 2, .wait true, .getResult true true] := by
  refine faithful_of_undisturbed _ ⟨True.intro, True.intro, True.intro, True.intro, ?_, ?_,
    True.intro, True.intro, True.intro, ?_, ?_, True.intro, ?_, True.intro⟩
  · exact fun place hno => (nomatch hno)
  · exact fun _ => True.intro
  · intro place hplace own hown
    cases hplace
    cases hown
    decide
  · exact fun _ => ⟨fun _ => rfl, fun _ => rfl⟩
  · exact (by decide : 1 < 65536)

/-- The first scan of all completes and its event comes before there is a handler. -/
theorem first_scan_missed : ¬ ∀ es, EventRun.Always step Faithful {} es := by
  intro hall
  have hrun := hall [.scanNetworks, .start true, .complete 1 [], .fire 1, .ready true true,
    .wait true]
  exact absurd (hrun.2.2.2.2.2.1 1 (by decide) (by decide) rfl) (by decide)

/-- The event of a scan that ended at the timeout ends the next one, which returns
what the first one found. -/
example :
    let w := EventRun.run step {} [.scanNetworks, .start true, .ready true true, .wait true,
      .scanNetworks, .start true, .ready true true, .complete 1 [⟨['a'], [], -40, 6, 7⟩], .fire 1,
      .wait true]
    w.call = some (.signalled 2) ∧ (w.storeResult true true).2 = 1 := by decide

end WiFi.Scan

end ArduinoBeken
