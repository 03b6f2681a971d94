import ArduinoBeken.Library.Ownership
import ArduinoBeken.Net.WiFiClient
import ArduinoBeken.Tls.StartStages

/-!
# How One Client Treats its Descriptor

A client acquires descriptors from lwIP and releases them with `lwip_close`;
the other calls it makes do not matter here. A plain client holds what its
`_fd` says, so whatever it does is within the discipline of ownership.

A secure client holds at most the descriptor in its context, but the field
may also name one it does not hold: `stop_ssl_socket` leaves it zero. Its
methods are within the discipline as long as no teardown meets such a field,
no new connection is made over a held descriptor, and no handshake ends with
verification flags set.

## Main definitions

* `acts`: The acquisitions and releases among the calls.
* `WiFiClient.held`: What a plain client holds.
* `SecureKept`: What is known of a secure client that holds `r`.
* `Torn`: The field names a descriptor that is not held.

## Theorems

* `plain_conducts`: Every method of a plain client is within the discipline.
* `secure_stop_conducts`, `io_conducts`, `startClient_conducts`: The methods
  of a secure client, under their conditions.
-/

namespace ArduinoBeken.Net

open EventRun (run Always)
open Ownership (Act Ledger)
open Ownership.Ledger (act Lawful Possible Sound Conducts conducts_nil conducts_acquire
  conducts_release)
open Tls (WiFiClientSecure IoSteps ConnectEnv SslArgs Bundle Started SocketExit SocketOpen
  startClient_started establish)

/-- What a call does to the pool of descriptors. -/
def SocketCall.act : SocketCall → Option (Act Int)
  | .opened fd => some (.acquire fd)
  | .closed fd => some (.release fd)
  | _ => none

/-- What calls do to sockets. -/
def acts (calls : List SocketCall) : List (Act Int) :=
  calls.filterMap SocketCall.act

@[simp]
theorem acts_nil : acts [] = [] := rfl

@[simp]
theorem acts_append (calls calls' : List SocketCall) :
    acts (calls ++ calls') = acts calls ++ acts calls' :=
  List.filterMap_append

@[simp]
theorem acts_opened (fd : Int) (calls : List SocketCall) :
    acts (.opened fd :: calls) = .acquire fd :: acts calls := rfl

@[simp]
theorem acts_connecting (fd : Int) (ip : UInt32) (port : UInt16) (calls : List SocketCall) :
    acts (.connecting fd ip port :: calls) = acts calls := rfl

@[simp]
theorem acts_sent (fd : Int) (bytes : List UInt8) (calls : List SocketCall) :
    acts (.sent fd bytes :: calls) = acts calls := rfl

@[simp]
theorem acts_closed (fd : Int) (calls : List SocketCall) :
    acts (.closed fd :: calls) = .release fd :: acts calls := rfl

theorem acts_tls (call : SocketCall) (calls : List SocketCall) (h : call.isTls = true) :
    acts (call :: calls) = acts calls := by
  cases call with
  | sslWritten | sslRead => rfl
  | _ => exact absurd h (by simp [SocketCall.isTls])

/-- What a plain client holds. -/
def WiFiClient.held (c : WiFiClient) : Option Int :=
  if 0 ≤ c.fd then some c.fd else none

/-- The public methods of a plain client that touch its socket. -/
inductive PlainCall where
  | connectIp (answers : TcpAnswers) (ip : UInt32) (port : UInt16)
  | connectHost (answers : TcpAnswers) (host : Option (List Char)) (port : UInt16)
  | write (answers : Nat → SendAnswer) (buf : List UInt8)
  | read (answer : RecvAnswer) (size : Nat)
  | available (fionread : Option Nat) (peek : RecvAnswer)
  | stop

/-- A call of the plain client, with what it does to sockets. -/
def WiFiClient.perform (c : WiFiClient) : PlainCall → WiFiClient × List SocketCall
  | .connectIp answers ip port =>
      ((c.connectIp answers ip port).client, (c.connectIp answers ip port).calls)
  | .connectHost answers host port =>
      ((c.connectHost answers host port).client, (c.connectHost answers host port).calls)
  | .write answers buf => ((c.write answers buf).client, (c.write answers buf).calls)
  | .read answer size => ((c.read answer size).client, (c.read answer size).calls)
  | .available fionread peek =>
      ((c.available fionread peek).client, (c.available fionread peek).calls)
  | .stop => (c.stop.client, c.stop.calls)

section Plain

variable (o : Nat) (l : Ledger Nat Int) (c : WiFiClient) (hl : l.Sound) (hc : l.holds o = c.held)

theorem WiFiClient.held_open (h : ¬ c.fd < 0) : c.held = some c.fd :=
  if_pos (Int.not_lt.1 h)

theorem WiFiClient.held_none (h : c.fd < 0) : c.held = none :=
  if_neg (Int.not_le.2 h)

theorem WiFiClient.stop_held : c.stop.client.held = none := by
  unfold WiFiClient.stop
  by_cases hfd : 0 ≤ c.fd
  · simp only [if_pos hfd]
    rfl
  · simp only [if_neg hfd]
    exact if_neg hfd

include hl hc in
theorem plain_stop_conducts : Conducts o l (acts c.stop.calls) c.stop.client.held := by
  rw [WiFiClient.stop_held]
  unfold WiFiClient.stop
  by_cases hfd : 0 ≤ c.fd
  · rw [WiFiClient.held, if_pos hfd] at hc
    simp only [if_pos hfd, acts_closed, acts_nil]
    exact conducts_release o l c.fd hl hc
  · rw [WiFiClient.held, if_neg hfd] at hc
    simp only [if_neg hfd, acts_nil]
    exact hc ▸ conducts_nil o l hl

include hl hc in
/-- A connect first closes what it has, so the new descriptor is its only one. -/
theorem plain_connectIp_conducts (answers : TcpAnswers) (ip : UInt32) (port : UInt16)
    (hpool : Always (act o) Possible l (acts (c.connectIp answers ip port).calls)) :
    Conducts o l (acts (c.connectIp answers ip port).calls)
      (c.connectIp answers ip port).client.held := by
  -- The socket that was held is closed first.
  have hstop := plain_stop_conducts o l c hl hc
  rw [WiFiClient.stop_held] at hstop
  unfold WiFiClient.connectIp at hpool ⊢
  by_cases hfd : answers.lwipSocket < 0
  · simp only [if_pos hfd]
    exact (WiFiClient.held_none { c.stop.client with fd := answers.lwipSocket } hfd).symm ▸ hstop
  simp only [if_neg hfd] at hpool ⊢
  -- The new socket is acquired while nothing is held.
  have hopen : ∀ rest, Always (act o) Possible l
      (acts (c.stop.calls ++ ([.opened answers.lwipSocket,
        .connecting answers.lwipSocket ip port] ++ rest))) →
      Conducts o (run (act o) l (acts c.stop.calls)) [.acquire answers.lwipSocket]
        (some answers.lwipSocket) := by
    intro rest hpool
    rw [acts_append, EventRun.always_append] at hpool
    exact conducts_acquire o _ _ hstop.sound hstop.holds hpool.2.1
  -- A connect that fails closes the socket again.
  by_cases hconn : answers.lwipConnect ≠ 0
  · simp only [if_pos hconn] at hpool ⊢
    rw [List.append_assoc] at hpool ⊢
    have hacquire := hopen _ hpool
    rw [acts_append]
    refine hstop.append _ _ _ _ _ _ ?_
    refine hacquire.append _ _ _ _ _ _ ?_
    have hheld := WiFiClient.held_open { c.stop.client with fd := answers.lwipSocket } hfd
    exact plain_stop_conducts o _ _ hacquire.sound (hacquire.holds.trans hheld.symm)
  · simp only [if_neg hconn] at hpool ⊢
    have hacquire := hopen [] hpool
    rw [acts_append, WiFiClient.held_open _ hfd]
    exact hstop.append _ _ _ _ _ _ hacquire

/-- The loop of `write` only sends. -/
theorem acts_sendLoop (fd : Int) (answers : Nat → SendAnswer) (turn : Nat) (buf : List UInt8)
    (left retries : Nat) :
    acts (WiFiClient.sendLoop fd answers turn buf left retries).1 = [] := by
  -- by the cases of the loop: the end, bytes taken, an error, a retry, the last retry
  induction turn, left, retries using WiFiClient.sendLoop.induct fd answers buf with
  | case1 turn left retries h =>
      unfold WiFiClient.sendLoop
      rw [if_pos h]
      rfl
  | case2 turn left retries h count hanswer taken ih =>
      unfold WiFiClient.sendLoop
      rw [if_neg h, hanswer]
      simp only [acts_sent]
      exact ih
  | case3 turn left retries h hanswer =>
      unfold WiFiClient.sendLoop
      rw [if_neg h, hanswer]
      rfl
  | case4 turn left retries h hanswer ih =>
      unfold WiFiClient.sendLoop
      rw [if_neg h, hanswer]
      exact ih
  | case5 turn left retries h hanswer =>
      unfold WiFiClient.sendLoop
      rw [if_neg h, hanswer]
      rfl

include hl hc in
/-- A method that does nothing to the pool, or stops the client. -/
theorem plain_keep_or_stop (c' : WiFiClient) (calls : List SocketCall)
    (h : (c' = c ∧ acts calls = []) ∨ (c' = c.stop.client ∧ acts calls = acts c.stop.calls)) :
    Conducts o l (acts calls) c'.held := by
  rcases h with ⟨rfl, hacts⟩ | ⟨rfl, hacts⟩
  · rw [hacts]
    exact hc ▸ conducts_nil o l hl
  · rw [hacts]
    exact plain_stop_conducts o l c hl hc

theorem write_keep_or_stop (answers : Nat → SendAnswer) (buf : List UInt8) :
    ((c.write answers buf).client = c ∧ acts (c.write answers buf).calls = []) ∨
      ((c.write answers buf).client = c.stop.client ∧
        acts (c.write answers buf).calls = acts c.stop.calls) := by
  unfold WiFiClient.write
  split
  · exact Or.inl ⟨rfl, rfl⟩
  · simp only
    split
    · exact Or.inr ⟨rfl, by rw [acts_append, acts_sendLoop, List.nil_append]⟩
    · exact Or.inl ⟨rfl, acts_sendLoop _ _ _ _ _ _⟩

theorem read_keep_or_stop (answer : RecvAnswer) (size : Nat) :
    ((c.read answer size).client = c ∧ acts (c.read answer size).calls = []) ∨
      ((c.read answer size).client = c.stop.client ∧
        acts (c.read answer size).calls = acts c.stop.calls) := by
  unfold WiFiClient.read
  split
  · exact Or.inl ⟨rfl, rfl⟩
  · cases answer with
    | received first rest => exact Or.inl ⟨rfl, rfl⟩
    | closedByPeer => exact Or.inr ⟨rfl, rfl⟩
    | wouldBlock => exact Or.inl ⟨rfl, rfl⟩
    | error => exact Or.inr ⟨rfl, rfl⟩

theorem available_keep_or_stop (fionread : Option Nat) (peek : RecvAnswer) :
    ((c.available fionread peek).client = c ∧ acts (c.available fionread peek).calls = []) ∨
      ((c.available fionread peek).client = c.stop.client ∧
        acts (c.available fionread peek).calls = acts c.stop.calls) := by
  unfold WiFiClient.available
  split
  · exact Or.inl ⟨rfl, rfl⟩
  · cases fionread with
    | some pending => exact Or.inl ⟨rfl, rfl⟩
    | none =>
        cases peek with
        | received first rest => exact Or.inl ⟨rfl, rfl⟩
        | closedByPeer => exact Or.inr ⟨rfl, rfl⟩
        | wouldBlock => exact Or.inl ⟨rfl, rfl⟩
        | error => exact Or.inl ⟨rfl, rfl⟩

include hl hc in
/-- Whatever a plain client does is within the discipline. -/
theorem plain_conducts (call : PlainCall)
    (hpool : Always (act o) Possible l (acts (c.perform call).2)) :
    Conducts o l (acts (c.perform call).2) (c.perform call).1.held := by
  cases call with
  | connectIp answers ip port => exact plain_connectIp_conducts o l c hl hc answers ip port hpool
  | connectHost answers host port =>
      simp only [WiFiClient.perform, WiFiClient.connectHost] at hpool ⊢
      split
      · rename_i ip hip
        simp only [hip] at hpool
        exact plain_connectIp_conducts o l c hl hc answers ip port hpool
      · exact plain_keep_or_stop o l c hl hc c [] (Or.inl ⟨rfl, rfl⟩)
  | write answers buf =>
      exact plain_keep_or_stop o l c hl hc _ _ (write_keep_or_stop c answers buf)
  | read answer size => exact plain_keep_or_stop o l c hl hc _ _ (read_keep_or_stop c answer size)
  | available fionread peek =>
      exact plain_keep_or_stop o l c hl hc _ _ (available_keep_or_stop c fionread peek)
  | stop => exact plain_stop_conducts o l c hl hc

end Plain

/-! ### Secure clients -/

/-- What is known of a secure client that holds `r`: it is the descriptor in
the context, and with the flag up there is one. -/
structure SecureKept (c : WiFiClientSecure) (r : Option Int) : Prop where
  socket : ∀ fd, r = some fd → c.sslclient.socket = fd ∧ 0 ≤ fd
  connected : c.connected = true → r ≠ none

/-- The context names a descriptor that is not the one held. -/
def Torn (c : WiFiClientSecure) (r : Option Int) : Prop :=
  0 ≤ c.sslclient.socket ∧ r ≠ some c.sslclient.socket

section Secure

variable (o : Nat) (l : Ledger Nat Int) (c : WiFiClientSecure) (hl : l.Sound)

theorem secureKept_none (hc : c.connected = false) : SecureKept c none :=
  ⟨fun _ h => absurd h (by simp), fun h => absurd (hc.symm.trans h) (by simp)⟩

include hl in
/-- A teardown closes the descriptor that is held, unless the context names
another one. -/
theorem secure_stop_conducts (hk : SecureKept c (l.holds o)) (htorn : ¬ Torn c (l.holds o)) :
    Conducts o l (acts c.stop.calls) none ∧ SecureKept c.stop.client none := by
  rw [WiFiClientSecure.stop_calls, WiFiClientSecure.stop_client]
  by_cases hsock : 0 ≤ c.sslclient.socket
  · have hheld : l.holds o = some c.sslclient.socket := by
      by_contra hne
      exact htorn ⟨hsock, hne⟩
    simp only [if_pos hsock, acts_closed, acts_nil]
    exact ⟨conducts_release o l _ hl hheld, secureKept_none _ rfl⟩
  · have hheld : l.holds o = none := by
      by_contra hne
      rcases Option.ne_none_iff_exists'.1 hne with ⟨fd, hfd⟩
      exact hsock ((hk.socket fd hfd).1 ▸ (hk.socket fd hfd).2)
    have hconn : c.connected = false := by
      by_contra hc
      exact hk.connected (by simpa using hc) hheld
    simp only [if_neg hsock, acts_nil]
    exact ⟨hheld ▸ conducts_nil o l hl, secureKept_none _ hconn⟩

/-- A connected client is never torn. -/
theorem not_torn_of_connected (r : Option Int) (hk : SecureKept c r) (hc : c.connected = true) :
    ¬ Torn c r := by
  rintro ⟨-, hne⟩
  rcases Option.ne_none_iff_exists'.1 (hk.connected hc) with ⟨fd, hfd⟩
  exact hne ((hk.socket fd hfd).1 ▸ hfd)

/-- Reading and writing stop a connected client at most. -/
theorem io_conducts (d : WiFiClientSecure) (calls : List SocketCall) (h : IoSteps c calls d) :
    ∀ l : Ledger Nat Int, l.Sound → SecureKept c (l.holds o) →
      ∃ r, Conducts o l (acts calls) r ∧ SecureKept d r := by
  induction h with
  | done c => exact fun l hl hk => ⟨_, conducts_nil o l hl, hk⟩
  | look c d calls peeked _ ih => exact fun l hl hk => ih l hl ⟨hk.socket, hk.connected⟩
  | tls c d call calls hcall _ ih =>
      intro l hl hk
      rw [acts_tls call calls hcall]
      exact ih l hl hk
  | stop c d calls hc _ ih =>
      intro l hl hk
      rcases secure_stop_conducts o l c hl hk (not_torn_of_connected c _ hk hc) with ⟨hstop, hk'⟩
      rcases ih _ hstop.sound (hstop.holds.symm ▸ hk') with ⟨r, hrest, hd⟩
      refine ⟨r, ?_, hd⟩
      rw [acts_append]
      exact hstop.append _ _ _ _ _ _ hrest

/-- The state in which a connect may start: with nothing to trust it only tears
down; otherwise no descriptor is held, and a handshake that completes is not
followed by verification flags. -/
def MayStart (c : WiFiClientSecure) (r : Option Int) (env : ConnectEnv) (crts : Option Bundle)
    (args : SslArgs) : Prop :=
  if args.noTrust then ¬ Torn c r
  else
    r = none ∧ (env.verifyResult = 0 ∨ ∀ a, establish env crts args c.sslclient ≠ .ok a)

/-- The teardown after a failed stage follows what the stages did. -/
theorem giveUp_conducts (ret : Int) (b : Tls.Attempt) (r : Option Int)
    (hstages : Conducts o l (acts b.calls) r)
    (hk : SecureKept { c with sslclient := b.ctx, lastError := ret } r)
    (htorn : ¬ Torn { c with sslclient := b.ctx, lastError := ret } r) :
    Conducts o l (acts (c.giveUp ret b).calls) none ∧
      SecureKept (c.giveUp ret b).client none := by
  rcases secure_stop_conducts o _ { c with sslclient := b.ctx, lastError := ret } hstages.sound
    (hstages.holds.symm ▸ hk) (hstages.holds.symm ▸ htorn) with ⟨hstop, hkept⟩
  refine ⟨?_, hkept⟩
  simp only [WiFiClientSecure.giveUp, acts_append]
  exact hstages.append _ _ _ _ _ _ hstop

include hl in
theorem startClient_conducts (env : ConnectEnv) (crts : Option Bundle) (args : SslArgs)
    (hk : SecureKept c (l.holds o)) (hmay : MayStart c (l.holds o) env crts args)
    (hpool : Always (act o) Possible l (acts (c.startClient env crts args).calls)) :
    ∃ r, Conducts o l (acts (c.startClient env crts args).calls) r ∧
      SecureKept (c.startClient env crts args).client r := by
  cases startClient_started c env crts args with
  | refused htrust hout =>
      rw [MayStart, if_pos htrust] at hmay
      rw [hout]
      exact ⟨none, giveUp_conducts o l c (-1) _ _ (conducts_nil o l hl)
        ⟨hk.socket, hk.connected⟩ hmay⟩
  -- The stage that failed says what became of the socket.
  | failed ret b htrust hret hstages hexit hout =>
      rw [MayStart, if_neg htrust] at hmay
      rw [hmay.1] at hk
      have hdown : c.connected = false := by
        by_contra hc
        exact hk.connected (by simpa using hc) rfl
      rw [hout] at hpool ⊢
      refine ⟨none, ?_⟩
      -- There was no socket, it was closed again, or it is still open.
      cases hexit with
      | noSocket hfd hsock hcalls =>
          refine giveUp_conducts o l c ret b none ?_ (secureKept_none _ hdown) ?_
          · rw [hcalls]
            exact hmay.1 ▸ conducts_nil o l hl
          · rintro ⟨hle, -⟩
            simp only [hsock] at hle
            omega
      | noTcp hfd htcp hsock hcalls =>
          simp only [WiFiClientSecure.giveUp, hcalls, acts_opened, List.cons_append] at hpool
          have hacquire := conducts_acquire o l _ hl hmay.1 hpool.1
          refine giveUp_conducts o l c ret b none ?_ (secureKept_none _ hdown) ?_
          · rw [hcalls]
            exact hacquire.append _ _ _ _ _ _
              (conducts_release o _ _ hacquire.sound hacquire.holds)
          · rintro ⟨hle, -⟩
            simp only [hsock] at hle
            omega
      | noSession hfd htcp hsock hcalls =>
          simp only [WiFiClientSecure.giveUp, hcalls, acts_opened, List.cons_append] at hpool
          refine giveUp_conducts o l c ret b (some env.lwipSocket) ?_ ?_ ?_
          · rw [hcalls]
            exact conducts_acquire o l _ hl hmay.1 hpool.1
          · refine ⟨fun fd hfd' => ?_, fun _ => by simp⟩
            cases hfd'
            exact ⟨hsock, hfd⟩
          · rintro ⟨-, hne⟩
            exact hne (congrArg some hsock.symm)
  -- A connection that is not verified is ruled out here.
  | unverified b htrust hopen hstages hflags hout =>
      rw [MayStart, if_neg htrust] at hmay
      exact absurd hstages (hmay.2.resolve_left hflags b)
  | succeeded b htrust hopen hflags hstages hout =>
      rw [MayStart, if_neg htrust] at hmay
      rw [hout] at hpool ⊢
      simp only [hopen.calls, acts_opened] at hpool
      -- The socket is acquired and held.
      refine ⟨some env.lwipSocket, ?_, ?_, fun _ => by simp⟩
      · simp only [hopen.calls, acts_opened, acts_connecting, acts_nil]
        exact conducts_acquire o l _ hl hmay.1 hpool.1
      · intro fd hfd
        cases hfd
        exact ⟨hopen.socket, hopen.fd⟩

/-- The state in which a method may be called. -/
def MayCall (d : Tls.Device) (r : Option Int) : Tls.Call → Prop
  | .stop => ¬ Torn d.client r
  | .connect env overload =>
      match d.client.arguments env overload with
      | none => True
      | some args => MayStart d.client r env d.crts args
  | _ => True

/-- What a secure client does where it may is within the discipline. -/
theorem secure_conducts (d : Tls.Device) (call : Tls.Call) (hl : l.Sound)
    (hk : SecureKept d.client (l.holds o)) (hmay : MayCall d (l.holds o) call)
    (hpool : Always (act o) Possible l (acts (d.perform call).calls)) :
    ∃ r, Conducts o l (acts (d.perform call).calls) r ∧
      SecureKept (d.perform call).client.client r := by
  cases hio : call.isIo with
  | true => exact io_conducts o _ _ _ (d.perform_io call hio).1 l hl hk
  | false =>
      -- Only a connect and a stop touch the socket.
      cases call with
      | set setting =>
          rcases d.assign_connection setting with ⟨hconn, hctx, -⟩
          refine ⟨_, conducts_nil o l hl, ?_, ?_⟩
          · simpa only [Tls.Device.perform, hctx] using hk.socket
          · simpa only [Tls.Device.perform, hconn] using hk.connected
      | setCertificate clientCa => exact ⟨_, conducts_nil o l hl, hk.socket, hk.connected⟩
      | setPrivateKey privateKey => exact ⟨_, conducts_nil o l hl, hk.socket, hk.connected⟩
      | connect env overload =>
          simp only [MayCall] at hmay
          simp only [Tls.Device.perform, Tls.Device.finish, WiFiClientSecure.connectBy_eq]
            at hpool ⊢
          cases hargs : d.client.arguments env overload with
          | none => exact ⟨_, conducts_nil o l hl, hk.socket, hk.connected⟩
          | some args =>
              rw [hargs] at hmay hpool
              exact startClient_conducts o l (d.client.timed overload) hl env d.crts args
                ⟨hk.socket, hk.connected⟩ hmay hpool
      | stop => exact ⟨none, secure_stop_conducts o l d.client hl hk hmay⟩
      | _ => exact absurd hio (by simp [Tls.Call.isIo])

end Secure

end ArduinoBeken.Net
