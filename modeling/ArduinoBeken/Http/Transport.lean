import ArduinoBeken.Http.Request
import ArduinoBeken.Net.WiFiClient

/-!
# The Client over a Socket

The connection of an `HTTPClient`, down to the calls that a `WiFiClient` makes to
the socket layer. Everything the socket answers is a parameter, so that any
behaviour of the network is some choice of them. A call that has to wait takes its
answers from a list, and has not returned when they are used up.

Three fields of a client object are history: the number of its present
connection, the numbers of those on which a call has returned an error, and whether
a byte has been read on such a connection afterwards.

## Main definitions

* `Transport`: A client object with its history.
* `Poll`: What the socket answers to one look at it.
* `Transport.available`, `Transport.connected`, `Transport.readStringUntil`,
  `Transport.readBytes`, `Transport.write`, `Transport.connect`: What the code does
  with it.
* `World`: The `HTTPClient` and the client objects.
* `World.returnError`, `World.disconnect`, `World.connect`: The ends of a connection
  and its beginning.
* `Transport.Used`: What reading, writing and closing leave as it was.
* `lineIn`: The line that a socket brings.

## Theorems

* `returnError_closed`: An error leaves no open connection.
* `readStringUntil_line`: What an open connection reads is the line.
-/

namespace ArduinoBeken

namespace Http

namespace Exits

/-! ### A client object -/

/-- What the socket answers to one look at it. -/
structure Poll where
  fionread : Option Nat
  peek : Net.RecvAnswer

/-- A plain client object, with what became of its sockets as history. -/
structure Transport where
  net : Net.WiFiClient := {}
  serial : Nat := 0
  failures : List Nat := []
  leaked : Bool := false
deriving DecidableEq, Repr

/-- Bytes as the code reads them. -/
def textOf (bytes : List UInt8) : Text :=
  bytes.map fun b => Char.ofNat b.toNat

/-- The bytes of a text. -/
def bytesOf (s : Text) : List UInt8 :=
  s.map fun c => UInt8.ofNat c.toNat

namespace Transport

/-- `WiFiClient::connected`. -/
def isOpen (t : Transport) : Bool :=
  t.net.connected && decide (0 ≤ t.net.fd)

/-- `WiFiClient::available`. -/
def available (t : Transport) (p : Poll) : Transport × Nat :=
  let o := t.net.available p.fionread p.peek
  ({ t with net := o.client }, o.result)

/-- `HTTPClient::connected`, of a client object. -/
def connected (t : Transport) (p : Poll) : Transport × Bool :=
  let a := t.available p
  if 0 < a.2 then (a.1, true) else (a.1, a.1.isOpen)

/-- `read()`, with `none` for -1. -/
def read (t : Transport) (answer : Net.RecvAnswer) : Transport × Option UInt8 :=
  let o := t.net.read answer 1
  match o.result.2 with
  | [] => ({ t with net := o.client }, none)
  | value :: _ =>
    ({ t with net := o.client, leaked := t.leaked || decide (t.serial ∈ t.failures) }, some value)

/-- `readStringUntil`. It takes answers until it has run out of time. -/
def readStringUntil (t : Transport) (terminator : UInt8) :
    List Net.RecvAnswer → Transport × List UInt8
  | [] => (t, [])
  | answer :: answers =>
    let r := t.read answer
    match r.2 with
    | none => r.1.readStringUntil terminator answers
    | some c =>
      if c = terminator then (r.1, [])
      else
        let rest := r.1.readStringUntil terminator answers
        (rest.1, c :: rest.2)

/-- `readBytes`. -/
def readBytes (t : Transport) (length : Nat) : List Net.RecvAnswer → Transport × List UInt8
  | [] => (t, [])
  | answer :: answers =>
    if length = 0 then (t, [])
    else
      let r := t.read answer
      match r.2 with
      | none => r.1.readBytes length answers
      | some c =>
        let rest := r.1.readBytes (length - 1) answers
        (rest.1, c :: rest.2)

/-- `WiFiClient::write`. -/
def write (t : Transport) (answers : Nat → Net.SendAnswer) (buf : List UInt8) : Transport × Nat :=
  let o := t.net.write answers buf
  ({ t with net := o.client }, o.result)

/-- `WiFiClient::stop`. -/
def stop (t : Transport) : Transport :=
  { t with net := t.net.stop.client }

/-- `connect`: a connection that is opened has a number of its own. -/
def connect (t : Transport) (answers : Net.TcpAnswers) (host : Text) (port : Nat) :
    Transport × Bool :=
  let o := t.net.connectHost answers (some host) (UInt16.ofNat port)
  if o.result = 0 then ({ t with net := o.client }, false)
  else ({ t with net := o.client, serial := t.serial + 1 }, true)

/-- A call has returned an error. -/
def fail (t : Transport) : Transport :=
  { t with failures := t.serial :: t.failures }

end Transport

/-! ### The client -/

/-- The `HTTPClient` with its client objects. -/
structure World where
  http : HTTPClient := {}
  objects : Nat → Transport := fun _ => {}
  fresh : Nat := 0

namespace World

/-- The client object in use. -/
def transport (w : World) : Option Transport :=
  w.http.client.map w.objects

/-- Something is done with the client object in use, if there is one. -/
def withTransport (w : World) (f : Transport → Transport) : World :=
  match w.http.client with
  | some o => { w with objects := Function.update w.objects o (f (w.objects o)) }
  | none => w

/-- `connected`, by a look at the socket. -/
def connected (w : World) (p : Poll) : World × Bool :=
  (w.withTransport fun t => (t.connected p).1,
    match w.transport with
    | some t => (t.connected p).2
    | none => false)

/-- `returnError`: behind an error a client that is connected is stopped. -/
def returnError (w : World) (error : Int) (p : Poll) : World :=
  if error < 0 then
    let c := w.connected p
    if c.2 then c.1.withTransport Transport.stop else c.1
  else w

/-- `disconnect(true)`. What is left is not read, `flush` does nothing. -/
def disconnect (w : World) (p left : Poll) : World :=
  let c := w.connected p
  if c.2 then
    let w := c.1.withTransport fun t => (t.available left).1
    if w.http.reuse && w.http.canReuse then w else w.withTransport Transport.stop
  else c.1

/-- What comes of a call of `connect`. -/
inductive Dialled where
  | connected
  | refused
  | waiting
  | undefined
deriving DecidableEq, Repr

/-- `verify` takes the object in use for a `WiFiClientSecure`. -/
def castsPlain (w : World) : Bool :=
  w.http.tcpDeprecated.isSome &&
    match w.http.transportTraits with
    | some (.tls _) => true
    | _ => false

/-- What a call of `connect` meets. -/
structure Dial where
  poll : Poll
  drain : List (Poll × Net.RecvAnswer)
  verified : Bool
  answers : Net.TcpAnswers

/-- What is still there of an earlier response is read and dropped. The loop is over
when nothing is available, and has not ended when the list has. -/
def drainLoop (t : Transport) : List (Poll × Net.RecvAnswer) → Transport × Bool
  | [] => (t, false)
  | (p, answer) :: rest =>
    let a := t.available p
    if 0 < a.2 then drainLoop (a.1.read answer).1 rest else (a.1, true)

/-- A client object is made, if there is none and it is known how. -/
def create (w : World) : World :=
  match w.http.transportTraits, w.http.client with
  | some _, none =>
    { w with
      http := { w.http with tcpDeprecated := some w.fresh, client := some w.fresh }
      objects := Function.update w.objects w.fresh {}
      fresh := w.fresh + 1 }
  | _, _ => w

/-- `connect`. All client objects are plain ones. -/
def connect (w : World) (d : Dial) : World × Dialled :=
  let c := w.connected d.poll
  if c.2 then
    (c.1.withTransport fun t => (drainLoop t d.drain).1,
      match c.1.transport with
      | some t => if (drainLoop t d.drain).2 then .connected else .waiting
      | none => .waiting)
  else
    let w := c.1.create
    match w.transport with
    | none => (w, .refused)
    | some t =>
      if w.castsPlain then (w, .undefined)
      else if w.http.tcpDeprecated.isSome && !d.verified then
        (w.withTransport Transport.stop, .refused)
      else
        (w.withTransport fun t => (t.connect d.answers w.http.host w.http.port).1,
          if (t.connect d.answers w.http.host w.http.port).2 then .connected else .refused)

end World

/-! ### What is left as it was -/

namespace Transport

/-- Nothing is to be read on a connection on which a call has failed, and nothing was. -/
structure Sound (t : Transport) : Prop where
  clean : t.leaked = false
  past : ∀ n ∈ t.failures, n ≤ t.serial
  closed : t.serial ∈ t.failures → t.isOpen = false

/-- Reading, writing and closing open no connection. -/
structure Used (t t' : Transport) : Prop where
  serial : t'.serial = t.serial
  failures : t'.failures = t.failures
  closed : t.isOpen = false → t'.isOpen = false
  leaked : (t.serial ∈ t.failures → t.isOpen = false) → t'.leaked = t.leaked

theorem Used.refl (t : Transport) : Used t t :=
  ⟨rfl, rfl, id, fun _ => rfl⟩

/-- Using a transport twice is using it. -/
theorem Used.trans {t u v : Transport} (h : Used t u) (g : Used u v) : Used t v := by
  refine ⟨g.serial.trans h.serial, g.failures.trans h.failures, fun hc => g.closed (h.closed hc),
    fun hsafe => ?_⟩
  have hsafe' : u.serial ∈ u.failures → u.isOpen = false := by
    rw [h.serial, h.failures]
    exact fun hmem => h.closed (hsafe hmem)
  rw [g.leaked hsafe', h.leaked hsafe]

/-- A use keeps the invariant. -/
theorem Used.sound {t t' : Transport} (h : Used t t') (hsound : t.Sound) : t'.Sound := by
  refine ⟨?_, ?_, ?_⟩
  · rw [h.leaked hsound.closed]
    exact hsound.clean
  · rw [h.serial, h.failures]
    exact hsound.past
  · rw [h.serial, h.failures]
    exact fun hmem => h.closed (hsound.closed hmem)

/-- A transport is closed exactly if it is not connected or has no descriptor. -/
theorem isOpen_eq_false (t : Transport) :
    t.isOpen = false ↔ t.net.connected = false ∨ t.net.fd < 0 := by
  rw [isOpen, Bool.and_eq_false_iff, decide_eq_false_iff_not, Int.not_le]

/-- Any change of the client that closes the transport is a use of it. -/
theorem used_of_closed (t : Transport) (net : Net.WiFiClient)
    (h : { t with net := net : Transport }.isOpen = false) : Used t { t with net := net } :=
  ⟨rfl, rfl, fun _ => h, fun _ => rfl⟩

/-- `stop` closes the transport. -/
theorem stop_closed (t : Transport) : t.stop.isOpen = false := by
  rw [isOpen_eq_false]
  unfold stop Net.WiFiClient.stop
  split
  · exact Or.inl rfl
  · exact Or.inl rfl

/-- A socket call leaves the client or stops it. -/
theorem used_of_net (t : Transport) (net : Net.WiFiClient)
    (h : net = t.net ∨ net = t.net.stop.client) : Used t { t with net := net } := by
  rcases h with h | h
  · rw [h]
    exact Used.refl t
  · rw [h]
    exact used_of_closed t _ (stop_closed t)

/-- `stop` is a use of the transport. -/
theorem stop_used (t : Transport) : Used t t.stop :=
  used_of_net t _ (Or.inr rfl)

/-- `available` is a use of the transport. -/
theorem available_used (t : Transport) (p : Poll) : Used t (t.available p).1 := by
  refine used_of_net t _ ?_
  unfold Net.WiFiClient.available
  split
  · exact Or.inl rfl
  · split
    · exact Or.inl rfl
    · split
      · exact Or.inl rfl
      · exact Or.inr rfl
      · exact Or.inl rfl
      · exact Or.inl rfl

/-- `connected` is a use of the transport. -/
theorem connected_used (t : Transport) (p : Poll) : Used t (t.connected p).1 := by
  unfold connected
  simp only
  split
  · exact available_used t p
  · exact available_used t p

/-- `write` is a use of the transport. -/
theorem write_used (t : Transport) (answers : Nat → Net.SendAnswer) (buf : List UInt8) :
    Used t (t.write answers buf).1 := by
  refine used_of_net t _ ?_
  unfold Net.WiFiClient.write
  split
  · exact Or.inl rfl
  · simp only
    split
    · exact Or.inr rfl
    · exact Or.inl rfl

/-- A byte comes from an open connection only. -/
theorem read_used (t : Transport) (answer : Net.RecvAnswer) : Used t (t.read answer).1 := by
  have hnet : (t.net.read answer 1).client = t.net ∨
      (t.net.read answer 1).client = t.net.stop.client := by
    unfold Net.WiFiClient.read
    split
    · exact Or.inl rfl
    · split
      · exact Or.inl rfl
      · exact Or.inr rfl
      · exact Or.inl rfl
      · exact Or.inr rfl
  have hused := used_of_net t _ hnet
  unfold read
  simp only
  cases hresult : (t.net.read answer 1).result.2 with
  | nil => exact hused
  | cons value rest =>
      refine ⟨rfl, rfl, hused.closed, fun hsafe => ?_⟩
      -- A byte comes over an open connection only.
      have hopen : t.isOpen = true := by
        by_contra hclosed
        have hidle := (isOpen_eq_false t).1 (by simpa using hclosed)
        unfold Net.WiFiClient.read at hresult
        rw [if_pos (by tauto)] at hresult
        exact absurd hresult (by simp)
      have hno : t.serial ∉ t.failures := fun hmem => by
        rw [hsafe hmem] at hopen
        exact absurd hopen (by simp)
      simp only [hno, decide_false, Bool.or_false]

/-- Reading a line is a use of the transport. -/
theorem readStringUntil_used (t : Transport) (terminator : UInt8) (answers : List Net.RecvAnswer) :
    Used t (t.readStringUntil terminator answers).1 := by
  induction answers generalizing t with
  | nil => exact Used.refl t
  | cons answer answers ih =>
      have hread := read_used t answer
      simp only [readStringUntil]
      split
      · exact hread.trans (ih _)
      · split
        · exact hread
        · exact hread.trans (ih _)

/-- The line that a socket brings, as long as it lasts. -/
def lineIn : List Net.RecvAnswer → List UInt8
  | [] => []
  | .received c _ :: answers => if c = 10 then [] else c :: lineIn answers
  | .wouldBlock :: answers => lineIn answers
  | .closedByPeer :: _ | .error :: _ => []

/-- A closed transport has no line. -/
theorem readStringUntil_closed (t : Transport) (answers : List Net.RecvAnswer)
    (h : t.isOpen = false) : (t.readStringUntil 10 answers).2 = [] := by
  induction answers generalizing t with
  | nil => rfl
  | cons answer answers ih =>
      have hread : t.read answer = (t, none) := by
        unfold read Net.WiFiClient.read
        rw [if_pos (by rcases (isOpen_eq_false t).1 h with hno | hno <;> simp [hno])]
      simp only [readStringUntil, hread]
      exact ih t h

/-- What an open connection reads is the line. The induction is on the answers. -/
theorem readStringUntil_line (t : Transport) (answers : List Net.RecvAnswer)
    (h : t.isOpen = true) : (t.readStringUntil 10 answers).2 = lineIn answers := by
  -- by induction on the answers of the socket
  induction answers generalizing t with
  | nil => rfl
  | cons answer answers ih =>
      have hbusy : ¬(t.net.connected = false ∨ t.net.fd < 0 ∨ 1 = 0) := by
        have hopen := (isOpen_eq_false t).not.1 (by rw [h]; exact Bool.noConfusion)
        simpa using hopen
      -- behind a stop the connection is closed
      have hstop : ∀ net, net = t.net.stop.client →
          ({ t with net := net } : Transport).isOpen = false := by
        rintro net rfl
        exact stop_closed t
      cases answer with
      | received c rest =>
          have hread : (t.read (.received c rest)).1.isOpen = true ∧
              (t.read (.received c rest)).2 = some c := by
            unfold read Net.WiFiClient.read
            rw [if_neg hbusy]
            exact ⟨h, rfl⟩
          simp only [readStringUntil, hread.2, lineIn]
          split
          · rfl
          · rw [ih _ hread.1]
      | wouldBlock =>
          have hread : t.read .wouldBlock = (t, none) := by
            unfold read Net.WiFiClient.read
            rw [if_neg hbusy]
          simp only [readStringUntil, hread, lineIn]
          exact ih t h
      -- Behind the end of the connection nothing is read.
      | closedByPeer =>
          have hread : t.read .closedByPeer = ({ t with net := t.net.stop.client }, none) := by
            unfold read Net.WiFiClient.read
            rw [if_neg hbusy]
          simp only [readStringUntil, hread, lineIn]
          exact readStringUntil_closed _ _ (hstop _ rfl)
      | error =>
          have hread : t.read .error = ({ t with net := t.net.stop.client }, none) := by
            unfold read Net.WiFiClient.read
            rw [if_neg hbusy]
          simp only [readStringUntil, hread, lineIn]
          exact readStringUntil_closed _ _ (hstop _ rfl)

/-- Reading bytes is a use of the transport. -/
theorem readBytes_used (t : Transport) (length : Nat) (answers : List Net.RecvAnswer) :
    Used t (t.readBytes length answers).1 := by
  induction answers generalizing t length with
  | nil => exact Used.refl t
  | cons answer answers ih =>
      have hread := read_used t answer
      simp only [readBytes]
      split
      · exact Used.refl t
      · split
        · exact hread.trans (ih _ _)
        · exact hread.trans (ih _ _)

/-- A closed transport has nothing to read. -/
theorem available_of_closed (t : Transport) (p : Poll) (h : t.isOpen = false) :
    (t.available p).2 = 0 := by
  have hidle := (isOpen_eq_false t).1 h
  unfold available Net.WiFiClient.available
  rw [if_pos hidle]

/-- An open transport does not take the early return of a read. -/
theorem busy_of_open (t : Transport) (h : t.isOpen = true) :
    ¬(t.net.connected = false ∨ t.net.fd < 0) := by
  rw [← isOpen_eq_false, h]
  exact Bool.noConfusion

/-- What has something to read is open, and a look at it does not stop it. -/
theorem available_of_pending (t : Transport) (p : Poll) (h : 0 < (t.available p).2) :
    t.isOpen = true ∧ (t.available p).1 = t := by
  have hopen : t.isOpen = true := by
    by_contra hclosed
    rw [available_of_closed t p (by simpa using hclosed)] at h
    exact absurd h (Nat.lt_irrefl 0)
  have hbusy := t.busy_of_open hopen
  refine ⟨hopen, ?_⟩
  unfold available Net.WiFiClient.available at h ⊢
  rw [if_neg hbusy] at h ⊢
  cases hfionread : p.fionread with
  | some pending => rfl
  | none =>
      rw [hfionread] at h
      cases hpeek : p.peek with
      | closedByPeer =>
          rw [hpeek] at h
          exact absurd h (by simp)
      | _ => rfl

/-- A connection that is not open is not connected, whatever the socket answers. -/
theorem connected_of_closed (t : Transport) (p : Poll) (h : t.isOpen = false) :
    (t.connected p).2 = false := by
  unfold connected
  simp only [available_of_closed t p h, Nat.lt_irrefl, if_false]
  exact (available_used t p).closed h

/-- Only a connection that is open is connected. -/
theorem isOpen_of_connected (t : Transport) (p : Poll) (h : (t.connected p).2 = true) :
    (t.connected p).1.isOpen = true := by
  unfold connected at h ⊢
  simp only at h ⊢
  by_cases hpending : 0 < (t.available p).2
  · rw [if_pos hpending]
    have hsame := available_of_pending t p hpending
    rw [hsame.2]
    exact hsame.1
  · rw [if_neg hpending] at h ⊢
    exact h

/-- A new connection is one on which nothing has failed. -/
theorem connect_sound (t : Transport) (answers : Net.TcpAnswers) (host : Text) (port : Nat)
    (h : t.Sound) : (t.connect answers host port).1.Sound ∧
      ((t.connect answers host port).2 = true →
        (t.connect answers host port).1.serial ∉ (t.connect answers host port).1.failures) := by
  unfold connect
  simp only
  split
  next hzero =>
    -- Nothing was connected, and what was open before is closed.
    refine ⟨?_, fun hno => absurd hno (by simp)⟩
    refine Used.sound ?_ h
    unfold Net.WiFiClient.connectHost at hzero ⊢
    split at hzero
    next ip _ _ hip =>
      refine used_of_closed t _ ((isOpen_eq_false _).2 ?_)
      unfold Net.WiFiClient.connectIp at hzero ⊢
      simp only at hzero ⊢
      split at hzero
      next hfd =>
        rw [if_pos hfd]
        exact Or.inr hfd
      next hfd =>
        rw [if_neg hfd]
        split at hzero
        next hrefused =>
          rw [if_pos hrefused]
          exact (isOpen_eq_false _).1 (stop_closed { t with net := { t.net.stop.client with
            fd := answers.lwipSocket } })
        next => exact absurd hzero (by simp)
    next hno =>
      cases hip : answers.hostByName with
      | none => exact Used.refl t
      | some ip => exact absurd hip (hno _ ip rfl)
  next =>
    -- The new connection has a number that no failure has.
    have hnew : t.serial + 1 ∉ t.failures := fun hmem => by
      have hpast := h.past _ hmem
      omega
    exact ⟨⟨h.clean, fun n hn => Nat.le_succ_of_le (h.past n hn), fun hmem => absurd hmem hnew⟩,
      fun _ => hnew⟩

end Transport

namespace World

/-! ### The client object in use -/

/-- No client object has anything left of an exchange that failed. -/
def Sound (w : World) : Prop :=
  ∀ o, (w.objects o).Sound

/-- The client object in use, if any, is not open. -/
def Closed (w : World) : Prop :=
  ∀ t ∈ w.transport, t.isOpen = false

/-- The transport is the one that was put in place. -/
theorem transport_withTransport (w : World) (f : Transport → Transport) :
    (w.withTransport f).transport = w.transport.map f := by
  unfold withTransport transport
  cases hclient : w.http.client with
  | none => simp only [hclient, Option.map_none]
  | some o => simp only [hclient, Option.map_some, Function.update_self]

/-- Changing the transport leaves the object's fields alone. -/
theorem http_withTransport (w : World) (f : Transport → Transport) :
    (w.withTransport f).http = w.http := by
  unfold withTransport
  split
  · rfl
  · rfl

/-- A change that keeps the transport's invariant keeps the state's. -/
theorem sound_of_transport (w : World) (f : Transport → Transport)
    (hf : ∀ t ∈ w.transport, t.Sound → (f t).Sound) (h : w.Sound) : (w.withTransport f).Sound := by
  unfold withTransport
  unfold transport at hf
  cases hclient : w.http.client with
  | none => exact h
  | some o =>
      intro o'
      by_cases ho : o' = o
      · subst ho
        simp only [Function.update_self]
        exact hf _ (by rw [hclient]; rfl) (h o')
      · simp only [Function.update_of_ne ho]
        exact h o'

/-- A use of the transport keeps the invariant. -/
theorem withTransport_sound (w : World) (f : Transport → Transport)
    (hf : ∀ t ∈ w.transport, t.Used (f t)) (h : w.Sound) : (w.withTransport f).Sound :=
  w.sound_of_transport f (fun t ht => (hf t ht).sound) h

/-! ### The end of a call -/

/-- Asking whether the client is connected keeps the invariant. -/
theorem connected_sound (w : World) (p : Poll) (h : w.Sound) : (w.connected p).1.Sound :=
  w.withTransport_sound _ (fun t _ => t.connected_used p) h

/-- Asking whether the client is connected leaves the object's fields alone. -/
theorem connected_http (w : World) (p : Poll) : (w.connected p).1.http = w.http :=
  w.http_withTransport _

/-- Asking whether the client is connected asks its transport. -/
theorem connected_transport (w : World) (p : Poll) :
    (w.connected p).1.transport = w.transport.map fun t => (t.connected p).1 :=
  w.transport_withTransport _

/-- The client is connected exactly if it has a transport that is. -/
theorem connected_eq_true (w : World) (p : Poll) :
    (w.connected p).2 = true ↔ ∃ t, w.transport = some t ∧ (t.connected p).2 = true := by
  unfold connected
  cases w.transport with
  | none => simp
  | some t => simp

/-- A closed connection is not a connected one. -/
theorem connected_of_closed (w : World) (p : Poll) (h : w.Closed) : (w.connected p).2 = false := by
  rw [← Bool.not_eq_true, connected_eq_true]
  intro ⟨t, ht, hconnected⟩
  rw [t.connected_of_closed p (h t ht)] at hconnected
  exact absurd hconnected (by simp)

/-- Behind a look that finds it not connected, the connection is not open. -/
theorem closed_of_not_connected (w : World) (p : Poll) (h : (w.connected p).2 = false) :
    (w.connected p).1.Closed := by
  intro t' ht'
  rw [connected_transport] at ht'
  rcases Option.map_eq_some_iff.1 ht' with ⟨t, ht, rfl⟩
  have hno : (t.connected p).2 = false := by
    rw [← Bool.not_eq_true]
    intro hyes
    rw [(w.connected_eq_true p).2 ⟨t, ht, hyes⟩] at h
    exact absurd h (by simp)
  unfold Transport.connected at hno ⊢
  simp only at hno ⊢
  split at hno
  · exact absurd hno (by simp)
  next hnothing =>
    rw [if_neg hnothing]
    exact hno

theorem stop_closed (w : World) : (w.withTransport Transport.stop).Closed := by
  intro t' ht'
  rw [transport_withTransport] at ht'
  rcases Option.map_eq_some_iff.1 ht' with ⟨t, -, rfl⟩
  exact t.stop_closed

/-- An error leaves no open connection. -/
theorem returnError_closed (w : World) (error : Int) (p : Poll) (h : error < 0) :
    (w.returnError error p).Closed := by
  unfold returnError
  rw [if_pos h]
  by_cases hconnected : (w.connected p).2 = true
  · simp only [if_pos hconnected]
    exact stop_closed _
  · simp only [if_neg hconnected]
    exact w.closed_of_not_connected p (by simpa using hconnected)

/-- `returnError` keeps the invariant. -/
theorem returnError_sound (w : World) (error : Int) (p : Poll) (h : w.Sound) :
    (w.returnError error p).Sound := by
  have hconnected := w.connected_sound p h
  unfold returnError
  split
  · simp only
    split
    · exact withTransport_sound _ _ (fun t _ => t.stop_used) hconnected
    · exact hconnected
  · exact h

/-- `disconnect` keeps the invariant. -/
theorem disconnect_sound (w : World) (p left : Poll) (h : w.Sound) :
    (w.disconnect p left).Sound := by
  have hconnected := w.connected_sound p h
  have hleft := withTransport_sound (w.connected p).1 (fun t => (t.available left).1)
    (fun t _ => t.available_used left) hconnected
  unfold disconnect
  simp only
  split
  · split
    · exact hleft
    · exact withTransport_sound _ _ (fun t _ => t.stop_used) hleft
  · exact hconnected

/-! ### The beginning of a connection -/

/-- Draining what is left only uses the transport. -/
theorem drainLoop_used (t : Transport) (drain : List (Poll × Net.RecvAnswer)) :
    t.Used (drainLoop t drain).1 := by
  induction drain generalizing t with
  | nil => exact Transport.Used.refl t
  | cons turn drain ih =>
      have havailable := t.available_used turn.1
      simp only [drainLoop]
      split
      · exact (havailable.trans (Transport.read_used _ turn.2)).trans (ih _)
      · exact havailable

/-- Making the client keeps the invariant. -/
theorem create_sound (w : World) (h : w.Sound) : w.create.Sound := by
  unfold create
  split
  · intro o
    by_cases ho : o = w.fresh
    · subst ho
      simp only [Function.update_self]
      exact ⟨rfl, fun n hn => absurd hn (by simp), fun hmem => absurd hmem (by simp)⟩
    · simp only [Function.update_of_ne ho]
      exact h o
  · exact h

/-- A request that gets its connection gets one on which nothing has failed. -/
theorem connect_sound (w : World) (d : Dial) (h : w.Sound) :
    (w.connect d).1.Sound ∧
      ((w.connect d).2 = .connected → ∀ t ∈ (w.connect d).1.transport, t.serial ∉ t.failures) := by
  have hconnected := w.connected_sound d.poll h
  unfold connect
  simp only
  -- a connection that is open is drained and used
  cases hopen : (w.connected d.poll).2 with
  | true =>
      simp only [if_true]
      refine ⟨withTransport_sound _ _ (fun t _ => drainLoop_used t d.drain) hconnected, ?_⟩
      intro _ t ht hmem
      -- the connection in use was open, and so is none on which a call has failed
      rcases (w.connected_eq_true d.poll).1 hopen with ⟨u, hu, hyes⟩
      rw [transport_withTransport, connected_transport, hu] at ht
      simp only [Option.map_some, Option.mem_some_iff] at ht
      subst ht
      have hused := drainLoop_used (u.connected d.poll).1 d.drain
      rw [hused.serial, hused.failures] at hmem
      have hsound : (u.connected d.poll).1.Sound :=
        (u.connected_used d.poll).sound (by
          rcases Option.map_eq_some_iff.1 hu with ⟨o, -, rfl⟩
          exact h o)
      have hclosed := hsound.closed hmem
      rw [u.isOpen_of_connected d.poll hyes] at hclosed
      exact absurd hclosed (by simp)
  | false =>
      simp only [Bool.false_eq_true, if_false]
      have hcreated := create_sound _ hconnected
      -- otherwise an object is made, or is there already
      cases htransport : (w.connected d.poll).1.create.transport with
      | none => exact ⟨hcreated, fun hno => absurd hno (by simp)⟩
      | some t =>
          simp only
          split
          · exact ⟨hcreated, fun hno => absurd hno (by simp)⟩
          -- a refused verification stops the object
          · split
            · exact ⟨withTransport_sound _ _ (fun t _ => t.stop_used) hcreated,
                fun hno => absurd hno (by simp)⟩
            · have ht : t.Sound := by
                rcases Option.map_eq_some_iff.1 htransport with ⟨o, -, rfl⟩
                exact hcreated o
              refine ⟨sound_of_transport _ _ (fun u _ hu => (u.connect_sound _ _ _ hu).1) hcreated,
                ?_⟩
              intro hyes u hu
              rw [transport_withTransport, htransport] at hu
              simp only [Option.map_some, Option.mem_some_iff] at hu
              subst hu
              refine (t.connect_sound _ _ _ ht).2 ?_
              by_contra hno
              simp only [if_neg hno] at hyes
              exact absurd hyes (by simp)

/-- The object that `connect` makes has nothing else of the client's changed. -/
theorem create_http (w : World) : ∃ client dep,
    w.create.http = { w.http with client := client, tcpDeprecated := dep } := by
  unfold create
  split
  · exact ⟨_, _, rfl⟩
  · exact ⟨w.http.client, w.http.tcpDeprecated, rfl⟩

/-- `connect` changes the client and its deprecated pointer alone. -/
theorem connect_http (w : World) (d : Dial) : ∃ client dep,
    (w.connect d).1.http = { w.http with client := client, tcpDeprecated := dep } := by
  have hsame : ∃ client dep, w.http = { w.http with client := client, tcpDeprecated := dep } :=
    ⟨w.http.client, w.http.tcpDeprecated, rfl⟩
  rcases create_http (w.connected d.poll).1 with ⟨client, dep, hcreate⟩
  rw [connected_http] at hcreate
  unfold connect
  simp only
  split
  · rw [http_withTransport, connected_http]
    exact hsame
  · split
    · exact ⟨client, dep, hcreate⟩
    · split
      · exact ⟨client, dep, hcreate⟩
      · split
        · exact ⟨client, dep, (http_withTransport _ _).trans hcreate⟩
        · exact ⟨client, dep, (http_withTransport _ _).trans hcreate⟩

/-- A client without certificates takes no object for what it is not. -/
theorem connect_defined (w : World) (d : Dial) (h : ∀ config, w.http.transportTraits ≠
    some (.tls config)) : (w.connect d).2 ≠ .undefined := by
  rcases create_http (w.connected d.poll).1 with ⟨client, dep, hcreate⟩
  rw [connected_http] at hcreate
  -- no object is taken for a secure one
  have hplain : (w.connected d.poll).1.create.castsPlain = false := by
    unfold castsPlain
    rw [hcreate]
    cases htraits : w.http.transportTraits with
    | none => simp
    | some traits =>
        cases traits with
        | plain => simp
        | tls config => exact absurd htraits (h config)
  unfold connect
  simp only
  split
  · split
    · split <;> simp
    · simp
  · split
    · simp
    · rw [hplain]
      simp only [Bool.false_eq_true, if_false]
      split
      · simp
      · split <;> simp

end World

end Exits

end Http

end ArduinoBeken
