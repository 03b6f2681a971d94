import ArduinoBeken.Http.HeaderBlock
import ArduinoBeken.Http.Targets

/-!
# Open Connections

What the parts of the model do to the client object in use and to the
connections of all client objects. Reading, and an error, leave the target and the
object as they are, and each connection as it is or closed (`SameTarget`). An `end`
that closes the connection drops the object (`World.dropped`).

## Main definitions

* `Opened`, `World.opened`: Where the connection of an object goes to, while it is
  open.
* `SameTarget`: The same target and objects, with fewer connections.
* `World.dropped`: A client without its object.
* `Route`, `World.route`: What a request is written to.

## Theorems

* `opened_withLink`: A connection that is read from.
* `disconnect_ending`, `ended_endMixed`: `end`.
* `opened_connect`, `secure_connect`: What `connect` connects.
* `route_ready`: What the request of a step is written to.
-/

namespace ArduinoBeken

namespace Http

open Arrivals

/-- Where a connection goes to, and the configuration it was opened with. -/
structure Opened where
  host : Text
  port : Nat
  config : Option TlsConfig
deriving DecidableEq, Repr

/-- What a client object is, and how it is configured. -/
structure Settings where
  secure : Bool
  config : Option TlsConfig
deriving DecidableEq, Repr

/-- The kind and the certificates of an object. -/
def NetObject.settings (n : NetObject) : Settings :=
  ⟨n.secure, n.config⟩

/-- The connection of a client object, while it is open. -/
def NetObject.opened (n : NetObject) : Option Opened :=
  if Http.connected n.link then
    n.connection.map fun conn => ⟨conn.host, conn.port, conn.config⟩
  else none

namespace World

/-- What the connection of an object was opened with. -/
def opened (w : World) (o : Nat) : Option Opened :=
  (w.objects o).opened

/-- The same target and client objects. Connections may have been closed. -/
structure SameTarget (w w' : World) : Prop where
  host : w'.http.host = w.http.host
  port : w'.http.port = w.http.port
  client : w'.http.client = w.http.client
  tcpDeprecated : w'.http.tcpDeprecated = w.http.tcpDeprecated
  transportTraits : w'.http.transportTraits = w.http.transportTraits
  asked : w'.asked = w.asked
  settings : ∀ o, (w'.objects o).settings = (w.objects o).settings
  opened : ∀ o, w'.opened o = w.opened o ∨ w'.opened o = none

theorem SameTarget.refl (w : World) : SameTarget w w :=
  ⟨rfl, rfl, rfl, rfl, rfl, rfl, fun _ => rfl, fun _ => Or.inl rfl⟩

theorem SameTarget.trans {w v w' : World} (h : SameTarget w v) (h' : SameTarget v w') :
    SameTarget w w' := by
  refine ⟨h'.host.trans h.host, h'.port.trans h.port, h'.client.trans h.client,
    h'.tcpDeprecated.trans h.tcpDeprecated, h'.transportTraits.trans h.transportTraits,
    h'.asked.trans h.asked, fun o => (h'.settings o).trans (h.settings o), ?_⟩
  intro o
  rcases h'.opened o with hsame | hnone
  · rw [hsame]
    exact h.opened o
  · exact Or.inr hnone

end World

/-! ### Connections -/

/-- A connection that is read from goes where it went, or is closed. -/
theorem NetObject.opened_withLink (n : NetObject) (link : Link)
    (h : connected link = true → connected n.link = true) :
    (n.withLink link).opened = n.opened ∨ (n.withLink link).opened = none := by
  cases link with
  | none => exact Or.inr rfl
  | some s =>
      cases hconn : n.connection with
      | none =>
          right
          simp only [NetObject.opened, NetObject.withLink, NetObject.link, hconn, Option.map_none]
          exact ite_self _
      | some conn =>
          have hlink : (n.withLink (some s)).link = some s := by
            simp only [NetObject.link, NetObject.withLink, hconn, Option.map_some]
          by_cases hs : connected (some s) = true
          · left
            rw [NetObject.opened, NetObject.opened, hlink, if_pos hs, if_pos (h hs)]
            simp only [NetObject.withLink, hconn, Option.map_some]
          · right
            rw [NetObject.opened, hlink, if_neg hs]

namespace World

/-- The connection of the client in use, while it is open. -/
theorem opened_of_disconnected (w : World) (o : Nat) (ho : w.http.client = some o)
    (h : w.connected = false) : w.opened o = none := by
  unfold connected link at h
  rw [ho] at h
  rw [opened, NetObject.opened, if_neg (by rw [h]; exact Bool.false_ne_true)]

theorem connected_of_opened (w : World) (o : Nat) (ho : w.http.client = some o)
    (h : w.opened o ≠ none) : w.connected = true := by
  by_contra hconn
  exact h (opened_of_disconnected w o ho (Bool.not_eq_true _ ▸ hconn))

/-- While it is connected the client in use has a connection to somewhere. -/
theorem opened_of_connected (w : World) (h : w.connected = true) :
    ∃ o t, w.http.client = some o ∧ w.opened o = some t := by
  unfold connected link at h
  cases hclient : w.http.client with
  | none =>
      rw [hclient] at h
      exact absurd h Bool.false_ne_true
  | some o =>
      rw [hclient] at h
      cases hconn : (w.objects o).connection with
      | none =>
          simp only [NetObject.link, hconn, Option.map_none] at h
          exact absurd h Bool.false_ne_true
      | some conn =>
          refine ⟨o, ⟨conn.host, conn.port, conn.config⟩, rfl, ?_⟩
          rw [opened, NetObject.opened, if_pos h, hconn]
          rfl

theorem sameTarget_withLink (w : World) (link : Link)
    (h : Http.connected link = true → w.connected = true) : SameTarget w (w.withLink link) := by
  unfold withLink
  -- without an object there is no link to set
  cases hclient : w.http.client with
  | none => exact SameTarget.refl w
  | some o =>
      have hlink : Http.connected link = true → Http.connected (w.objects o).link = true := by
        intro hl
        have hw := h hl
        unfold connected World.link at hw
        rwa [hclient] at hw
      refine ⟨rfl, rfl, rfl, rfl, rfl, rfl, fun o' => ?_, fun o' => ?_⟩
      · by_cases ho : o' = o
        · subst ho
          simp only [Function.update_self]
          rfl
        · simp only [Function.update_of_ne ho]
      · by_cases ho : o' = o
        · subst ho
          simp only [opened, Function.update_self]
          exact NetObject.opened_withLink _ link hlink
        · left
          simp only [opened, Function.update_of_ne ho]

/-- A change of fields that no target is made of. -/
theorem sameTarget_fields (w : World) (http : HTTPClient) (pending : Option Pending)
    (credentialHost : Text) (hhost : http.host = w.http.host) (hport : http.port = w.http.port)
    (hclient : http.client = w.http.client) (hown : http.tcpDeprecated = w.http.tcpDeprecated)
    (htraits : http.transportTraits = w.http.transportTraits) :
    SameTarget w { w with http, pending, credentialHost } :=
  ⟨hhost, hport, hclient, hown, htraits, rfl, fun _ => rfl, fun _ => Or.inl rfl⟩

end World

/-! ### Reading -/

/-- Only an open connection is open afterwards. -/
theorem connected_returnError (link : Link) (error : Int)
    (h : connected (returnError link error) = true) : connected link = true := by
  unfold returnError at h
  split at h
  · exact absurd h Bool.false_ne_true
  · exact h

/-- A disconnect that keeps the object, seen from the client. -/
theorem HTTPClient.disconnect_keeping (c : HTTPClient) (link : Link) :
    (c.disconnect link true).1 = c ∧
      (connected (c.disconnect link true).2 = true → connected link = true) := by
  unfold HTTPClient.disconnect
  by_cases hconn : connected link = true
  · rw [if_pos hconn]
    split
    · exact ⟨rfl, id⟩
    · exact ⟨rfl, fun _ => hconn⟩
  · rw [if_neg hconn]
    exact ⟨rfl, id⟩

/-- Reading a body sets the size only, and opens nothing. -/
theorem writeToStream_keeps (c : HTTPClient) (link : Link) (k : Sink) :
    ∃ size, (writeToStream c link k).http = { c with size := size } ∧
      (connected (writeToStream c link k).link = true → connected link = true) := by
  -- the end of a body keeps the rest, even where it disconnects
  have hend : ∀ (size : Int) (k' : Sink) (s : Source Char) (complete : Bool)
      (result : Option Int),
      (bodyEnd { c with size := size } k' s complete result).http = { c with size := size } := by
    intro size k' s complete result
    cases result with
    | none => rfl
    | some r =>
        unfold bodyEnd
        by_cases hr : r < 0 ∧ complete = false
        · simp only [if_pos hr]
        · simp only [if_neg hr]
          exact (HTTPClient.disconnect_keeping _ _).1
  unfold writeToStream
  cases link with
  | none => exact ⟨c.size, rfl, id⟩
  | some s =>
      by_cases hs : s.connected = true
      · simp only [if_pos hs]
        split
        · exact ⟨c.size, hend c.size _ _ _ _, fun _ => hs⟩
        · exact ⟨_, hend _ _ _ _ _, fun _ => hs⟩
      · simp only [if_neg hs]
        exact ⟨c.size, rfl, id⟩

theorem getString_keeps (c : HTTPClient) (link : Link) :
    ∃ size, (getString c link).1 = { c with size := size } ∧
      (connected (getString c link).2.1 = true → connected link = true) := by
  unfold getString
  split
  · exact writeToStream_keeps c link {}
  · exact ⟨c.size, rfl, id⟩

namespace World

theorem sameTarget_returnCode (w : World) (code : Int) : SameTarget w (w.returnCode code) := by
  have hlink := sameTarget_withLink w (Http.returnError w.link code)
    (connected_returnError w.link code)
  exact hlink.trans (sameTarget_fields _ _ none _ rfl rfl rfl rfl rfl)

/-- The client without its object, which is closed. -/
def dropped (w : World) : World :=
  { w.closed with
    http := w.http.withObjects none none
      (if w.http.tcpDeprecated.isSome then none else w.http.transportTraits) }

/-- A disconnect that drops the object, if it closes the connection. -/
theorem disconnect_ending (w : World) :
    w.disconnect false =
      if w.connected = true ∧ (w.http.reuse && w.http.canReuse) = false then w.dropped else w := by
  have hclient : w.http.disconnect w.link false =
      if w.connected = true ∧ (w.http.reuse && w.http.canReuse) = false then
        (w.dropped.http, none)
      else (w.http, w.link) := by
    unfold HTTPClient.disconnect connected
    -- a connection that may be reused stays, and one that may not is dropped
    by_cases hconn : Http.connected w.link = true
    · by_cases hreuse : (w.http.reuse && w.http.canReuse) = true
      · rw [if_pos hconn, if_pos hreuse, if_neg (by rw [hreuse]; exact fun h => nomatch h.2)]
      · have hcloses : Http.connected w.link = true ∧ (w.http.reuse && w.http.canReuse) = false :=
          ⟨hconn, Bool.not_eq_true _ ▸ hreuse⟩
        rw [if_pos hconn, if_neg hreuse, if_pos hcloses, if_neg Bool.false_ne_true, dropped]
        by_cases hown : w.http.tcpDeprecated.isSome = true
        · rw [if_pos hown, if_pos hown]
          rfl
        · -- There is no object of its own to be dropped.
          have hnone : w.http.tcpDeprecated = none := by
            rwa [Bool.not_eq_true, Option.isSome_eq_false_iff, Option.isNone_iff_eq_none] at hown
          rw [if_neg hown, if_neg hown, HTTPClient.withObjects, ← hnone]
    · rw [if_neg hconn, if_neg fun h => hconn h.1]
  unfold disconnect
  rw [hclient]
  split
  · rfl
  · simp only [withLink_link]

/-- What `end` leaves of a client that mixes two kinds of `begin`. -/
structure Ended (w w' : World) (mixed : Bool) : Prop where
  host : w'.http.host = w.http.host
  port : w'.http.port = w.http.port
  asked : w'.asked = w.asked
  client : w'.http.client = if mixed && w.connected then none else w.http.client
  tcpDeprecated : w'.http.tcpDeprecated =
    if mixed && w.connected then none else w.http.tcpDeprecated
  transportTraits : (mixed && w.connected) = false →
    w'.http.transportTraits = w.http.transportTraits
  settings : ∀ o, (w'.objects o).settings = (w.objects o).settings
  opened : ∀ o, w'.opened o =
    if mixed = true ∧ w.http.client = some o then none else w.opened o

/-- The connection of the client in use is closed, and no other. -/
theorem opened_closed (w : World) (o : Nat) :
    w.closed.opened o = if w.http.client = some o then none else w.opened o := by
  unfold closed withLink opened
  cases w.http.client with
  | none => rfl
  | some o' =>
      by_cases ho : o' = o
      · subst ho
        simp only [Function.update_self, if_true]
        rfl
      · rw [if_neg fun h => ho (Option.some.inj h)]
        simp only [Function.update_of_ne (Ne.symm ho)]

theorem settings_closed (w : World) (o : Nat) :
    (w.closed.objects o).settings = (w.objects o).settings :=
  (sameTarget_withLink w none (fun h => absurd h Bool.false_ne_true)).settings o

theorem ended_endMixed (w : World) (mixed : Bool) : Ended w (w.endMixed mixed) mixed := by
  unfold endMixed
  -- ended for a mix of objects, or left alone
  cases mixed with
  | false =>
      rw [if_neg Bool.false_ne_true]
      refine ⟨rfl, rfl, rfl, rfl, rfl, fun _ => rfl, fun _ => rfl, fun o => ?_⟩
      rw [if_neg fun h => Bool.false_ne_true h.1]
  | true =>
      let v : World := { w with http := { w.http with canReuse := false } }
      have hclosed : v.closed = { w.closed with http := v.http } := by
        refine (closed_aside w v.http w.credentialHost rfl).trans ?_
        rw [← (sameCalls_withLink w none).credentialHost]
        rfl
      have hconn : v.connected = w.connected := rfl
      have hdisc := disconnect_ending v
      rw [if_pos rfl, finish]
      -- connected, it is dropped
      by_cases h : w.connected = true
      · rw [if_pos ⟨hconn.trans h, Bool.and_false _⟩, dropped, hclosed] at hdisc
        have hdrops : (true && w.connected) = true := h
        rw [hdisc]
        refine ⟨rfl, rfl, (sameCalls_withLink w none).asked, (if_pos hdrops).symm,
          (if_pos hdrops).symm, fun hno => absurd (hdrops.symm.trans hno) (by decide),
          fun o => settings_closed w o, fun o => ?_⟩
        simp only [true_and]
        exact opened_closed w o
      · rw [if_neg fun hno => h (hconn.symm.trans hno.1)] at hdisc
        have hkeeps : ¬(true && w.connected) = true := h
        rw [hdisc]
        refine ⟨rfl, rfl, rfl, (if_neg hkeeps).symm, (if_neg hkeeps).symm, fun _ => rfl,
          fun _ => rfl, fun o => ?_⟩
        -- What is not connected has nothing open.
        by_cases ho : w.http.client = some o
        · rw [if_pos ⟨rfl, ho⟩]
          exact opened_of_disconnected w o ho (Bool.not_eq_true _ ▸ h)
        · rw [if_neg fun hno => ho hno.2]
          rfl

/-- What aiming at a URL does, if it is one. -/
structure Turned (w w' : World) (u : Option Url) : Prop where
  host : w'.http.host = (u.map Url.host).getD w.http.host
  port : w'.http.port = (u.bind Url.port).getD w.http.port
  client : w'.http.client = w.http.client
  tcpDeprecated : w'.http.tcpDeprecated = w.http.tcpDeprecated
  transportTraits : w'.http.transportTraits = w.http.transportTraits
  asked : w'.asked = w.asked
  settings : ∀ o, (w'.objects o).settings = (w.objects o).settings
  opened : ∀ o, w.http.client = some o →
    w'.opened o = if w'.http.host = w.http.host then w.opened o else none

theorem turned_aim (w : World) (protocol : Text) (u : Url) :
    Turned w (w.aim protocol u) (some u) := by
  unfold aim
  by_cases h : w.http.host ≠ u.host ∧ w.connected = true
  · simp only [if_pos h]
    refine ⟨rfl, rfl, rfl, rfl, rfl, (sameCalls_withLink w none).asked,
      fun o => settings_closed w o, fun o ho => ?_⟩
    have hhost : ¬u.host = w.http.host := fun hno => h.1 hno.symm
    exact (opened_closed w o).trans ((if_pos ho).trans (if_neg hhost).symm)
  · simp only [if_neg h]
    refine ⟨rfl, rfl, rfl, rfl, rfl, rfl, fun _ => rfl, fun o ho => ?_⟩
    by_cases hhost : u.host = w.http.host
    · exact (if_pos hhost).symm
    · -- Another host, so there was no connection to close.
      have hnone : w.opened o = none := by
        refine opened_of_disconnected w o ho ?_
        by_contra hconn
        exact h ⟨fun hno => hhost hno.symm, Bool.not_eq_false _ ▸ hconn⟩
      exact hnone.trans (if_neg hhost).symm

theorem turned_beginInternal (w : World) (url expectedProtocol : Text) :
    Turned w (w.beginInternal url expectedProtocol).1 (urlTarget [expectedProtocol] url) ∧
      (w.beginInternal url expectedProtocol).2 = (urlTarget [expectedProtocol] url).isSome := by
  have hprotocol : ∀ http : HTTPClient, http = { w.http with protocol := http.protocol } →
      Turned w { w with http } none := by
    intro http hhttp
    rw [hhttp]
    refine ⟨rfl, rfl, rfl, rfl, rfl, rfl, fun _ => rfl, fun o _ => ?_⟩
    rw [if_pos rfl]
    rfl
  rw [beginInternal_eq]
  cases urlTarget [expectedProtocol] url with
  | some u => exact ⟨turned_aim w expectedProtocol u, rfl⟩
  | none =>
      refine ⟨?_, rfl⟩
      simp only []
      split
      · exact hprotocol _ rfl
      · exact hprotocol w.http rfl

/-- `verify` changes the configuration of one object, and no connection. -/
theorem verify_objects (w : World) (o : Nat) :
    (w.verify.objects o).secure = (w.objects o).secure ∧ w.verify.opened o = w.opened o := by
  unfold verify
  split
  next own config o' hown htraits hclient =>
    split
    · by_cases ho : o = o'
      · subst ho
        simp only [opened, Function.update_self]
        exact ⟨trivial, rfl⟩
      · simp only [opened, Function.update_of_ne ho]
        exact ⟨trivial, trivial⟩
    · exact ⟨rfl, rfl⟩
  next => exact ⟨rfl, rfl⟩

/-! ### What a request is written to -/

end World

/-- The connection that a request is written to, by its host and port, and whether
it is one of a `WiFiClientSecure`. -/
structure Route where
  secure : Bool
  host : Text
  port : Nat
deriving DecidableEq, Repr

namespace World

/-- Where a request would be written now. -/
def route (w : World) : Option Route :=
  w.http.client.bind fun o =>
    (w.opened o).map fun t => ⟨(w.objects o).secure, t.host, t.port⟩

/-- The client object in use is a `WiFiClientSecure`, or there is none and one would be
made. -/
def overTls (w : World) : Bool :=
  match w.http.client with
  | some o => (w.objects o).secure
  | none =>
    match w.http.transportTraits with
    | some traits => decide (traits ≠ .plain)
    | none => false

/-- No connection of the client in use is open but to its host. -/
def AtHost (w : World) : Prop :=
  ∀ route ∈ w.route, route.host = w.http.host

/-- No connection of the client in use is open but to its host and port. -/
def Placed (w : World) : Prop :=
  ∀ route ∈ w.route, route.host = w.http.host ∧ route.port = w.http.port

instance (w : World) : Decidable w.AtHost :=
  inferInstanceAs (Decidable (∀ route ∈ _, _ = _))

instance (w : World) : Decidable w.Placed :=
  inferInstanceAs (Decidable (∀ route ∈ _, _ ∧ _))

/-- What is open of the client in use behind `connect` was open before, or has been
opened to the host and port. -/
theorem opened_connect (w : World) (r : Reply) (o : Nat) (t : Opened)
    (ho : (w.connect r).1.http.client = some o) (ht : (w.connect r).1.opened o = some t) :
    (w.http.client = some o ∧ w.opened o = some t) ∨
      (t.host = w.http.host ∧ t.port = w.http.port) := by
  unfold connect at ho ht
  -- an open connection is used again, to whatever it was opened
  by_cases hconn : w.connected = true
  · rw [if_pos hconn] at ho ht
    have hsame := sameTarget_withLink w (w.link.map Source.discard) (fun _ => hconn)
    refine Or.inl ⟨hsame.client.symm.trans ho, ?_⟩
    rcases hsame.opened o with hopened | hnone
    · exact hopened.symm.trans ht
    · exact absurd (hnone.symm.trans ht) (fun hno => nomatch hno)
  · rw [if_neg hconn] at ho ht
    -- An object that is made has nothing open.
    have hcreated : w.create.verify.http.client = some o → w.create.verify.opened o = some t →
        w.http.client = some o ∧ w.opened o = some t := by
      intro ho ht
      rw [w.create.verify_frame.1] at ho
      rw [(w.create.verify_objects o).2] at ht
      unfold create at ho ht
      split at ho
      next traits htraits hclient =>
        have hfresh : w.fresh = o := Option.some.inj ho
        subst hfresh
        simp only [htraits, hclient, opened, Function.update_self] at ht
        exact absurd ht (fun hno => by cases hno)
      -- otherwise the object was there before
      next hno =>
        refine ⟨ho, ?_⟩
        split at ht
        next traits htraits hclient => exact absurd hclient (hno traits htraits)
        next => exact ht
    rcases w.create_frame with ⟨client, dep, hhttp, -⟩
    have hverify := w.create.verify_frame.1
    simp only [] at ho ht
    split at ho
    next hnone => exact absurd (hnone.symm.trans ho) (fun hno => by cases hno)
    next o' ho' =>
      simp only [ho'] at ht
      split at ho
      next hundefined =>
        rw [if_pos hundefined] at ht
        exact Or.inl (hcreated ho ht)
      next hundefined =>
        rw [if_neg hundefined] at ht
        split at ho
        next hconnects =>
          rw [if_pos hconnects] at ht
          have ho'' : w.create.verify.http.client = some o := ho
          rw [hverify] at ho''
          have heq : o' = o := Option.some.inj (ho'.symm.trans ho'')
          subst heq
          simp only [opened, openConnection, Function.update_self] at ht
          obtain rfl := Option.some.inj ht
          refine Or.inr ⟨?_, ?_⟩ <;> simp only [hverify, hhttp] <;> rfl
        next hconnects =>
          rw [if_neg hconnects] at ht
          exact Or.inl (hcreated ho ht)

/-- What is connected is of the kind of the object in use, or of the one that is made. -/
theorem secure_connect (w : World) (r : Reply) (o : Nat)
    (ho : (w.connect r).1.http.client = some o) :
    ((w.connect r).1.objects o).secure = w.overTls := by
  unfold connect at ho ⊢
  by_cases hconn : w.connected = true
  · rw [if_pos hconn] at ho ⊢
    have hsame := sameTarget_withLink w (w.link.map Source.discard) (fun _ => hconn)
    rw [overTls, hsame.client.symm.trans ho]
    exact congrArg Settings.secure (hsame.settings o)
  · rw [if_neg hconn] at ho ⊢
    -- the kind is that of the object that is there, or of the traits it is made from
    have hcreate : ∀ o, w.create.http.client = some o →
        (w.create.objects o).secure = w.overTls := by
      intro o ho
      unfold create at ho ⊢
      split at ho
      next traits htraits hclient =>
        have hfresh : w.fresh = o := Option.some.inj ho
        subst hfresh
        simp only [overTls, hclient, htraits, Function.update_self]
      next hno => rw [overTls, ho]
    have hverify : ∀ o, w.create.verify.http.client = some o →
        (w.create.verify.objects o).secure = w.overTls := by
      intro o ho
      rw [w.create.verify_frame.1] at ho
      exact (w.create.verify_objects o).1.trans (hcreate o ho)
    simp only [] at ho ⊢
    split at ho
    next hnone => exact absurd (hnone.symm.trans ho) (fun hno => by cases hno)
    next o' ho' =>
      split at ho
      next hundefined =>
        rw [if_pos hundefined]
        exact hverify o ho
      next hundefined =>
        rw [if_neg hundefined]
        split at ho
        next hconnects =>
          have hkept := hverify o ho
          have ho'' : w.create.verify.http.client = some o := ho
          rw [w.create.verify_frame.1] at ho''
          have heq : o' = o := Option.some.inj (ho'.symm.trans ho'')
          subst heq
          rw [if_pos hconnects]
          simp only [openConnection, Function.update_self]
          exact hkept
        next hconnects =>
          rw [if_neg hconnects]
          exact hverify o ho

/-- What a request is written to. -/
theorem route_ready (w w' : World) (p : Pending) (r : Reply) (h : w.ready p r = some w') :
    ∃ route, w'.route = some route ∧ route.secure = w.overTls ∧
      (w.route = some route ∨ (route.host = w.http.host ∧ route.port = w.http.port)) := by
  -- a request is ready when connecting succeeds and the connection lasts through the preparation
  have hready : w.ready p r =
      if ({ w with http := w.http.wipeHeaders }.connect r).2 = true then
        (if (({ w with http := w.http.wipeHeaders }.connect r).1.prepare p r).connected = true then
          some (({ w with http := w.http.wipeHeaders }.connect r).1.prepare p r) else none)
      else none := rfl
  rw [hready] at h
  have hopened := opened_connect { w with http := w.http.wipeHeaders } r
  have hsecure := secure_connect { w with http := w.http.wipeHeaders } r
  generalize { w with http := w.http.wipeHeaders }.connect r = c at h hopened hsecure
  split at h
  · split at h
    next hconn =>
      obtain rfl := Option.some.inj h
      rcases opened_of_connected _ hconn with ⟨o, t, ho, ht⟩
      have ho' : c.1.http.client = some o := by
        rw [prepare_http] at ho
        exact ho
      have hobjects : (c.1.prepare p r).objects = c.1.objects := by rw [prepare_http]
      have ht' : c.1.opened o = some t := by
        rw [opened, hobjects] at ht
        exact ht
      refine ⟨⟨((c.1.prepare p r).objects o).secure, t.host, t.port⟩, ?_, ?_, ?_⟩
      · rw [route, ho, Option.bind_some, ht, Option.map_some]
      · rw [hobjects]
        exact hsecure o ho'
      -- the route is the one that was there, or the one just opened
      · rcases hopened o t ho' ht' with ⟨hclient, hold⟩ | hnew
        · left
          have hclient' : w.http.client = some o := hclient
          have hold' : w.opened o = some t := hold
          have hkind : ((c.1.prepare p r).objects o).secure = (w.objects o).secure := by
            rw [hobjects, hsecure o ho', overTls, hclient]
          rw [route, hclient', Option.bind_some, hold', Option.map_some, hkind]
        · exact Or.inr hnew
    next => exact absurd h (fun hno => nomatch hno)
  · exact absurd h (fun hno => nomatch hno)

/-- A request of a client that is at its host is written to that host. -/
theorem host_ready (w w' : World) (p : Pending) (r : Reply) (hw : w.AtHost)
    (h : w.ready p r = some w') :
    ∃ route, w'.route = some route ∧ route.secure = w.overTls ∧ route.host = w.http.host := by
  rcases route_ready w w' p r h with ⟨route, hroute, hsecure, hold | hnew⟩
  · exact ⟨route, hroute, hsecure, hw route hold⟩
  · exact ⟨route, hroute, hsecure, hnew.1⟩

end World

end Http

end ArduinoBeken
