import Mathlib.Data.List.Infix
import ArduinoBeken.Library.Run
import ArduinoBeken.Tls.FailedConnect

/-!
# The Receive Stream of a Session

What `read()` and `read(buf, n)` deliver during a session should be a prefix of
the bytes `mbedtls_ssl_read` produced in it. The client merges a look-ahead of
one byte with reads of blocks, so the relation to keep is that the bytes
produced are the bytes delivered followed by the byte looked ahead at.

Two things break it. `read()` asks for one byte in a buffer that holds 255 and
returns the buffer for any result that is not negative, so at the end of the
stream it makes up a byte, for its caller or for `peek`. And a connect clears
the look-ahead only by way of `stop`, and only when there is a socket.

## Main definitions

* `Reading`: A device with the bytes produced and delivered in this session.
* `Faithful`: The law of one call.
* `Careful`: The calls that stay clear of both.

## Theorems

* `readBuf_effect`: What a read of a block does.
* `read_effect`, `timedRead_effect`: What the one-byte operations do.
* `step_aligned`: Careful calls keep the stream aligned.
* `careful_faithful`: The law holds along every run of careful calls.
-/

namespace ArduinoBeken.Tls

open Net (SocketCall Outcome)
open Polling (Timed)
open EventRun (run Always)

/-- The bytes that mbedTLS gave in these calls. -/
def received (calls : List SocketCall) : List UInt8 :=
  calls.flatMap fun
    | .sslRead _ bytes => bytes
    | _ => []

/-- The bytes that a call hands to the sketch for good. -/
def Call.delivered (reply : Reply) : Call → List UInt8
  | .read _ => if 0 ≤ reply.ret then [UInt8.ofNat reply.ret.toNat] else []
  | .readBuf _ _ => reply.bytes.take reply.ret.toNat
  | _ => []

/-- A device with what passed in the current session. -/
structure Reading extends Device where
  produced : List UInt8 := []
  delivered : List UInt8 := []

namespace Reading

/-- A connect that starts begins a new session. -/
def step (s : Reading) (call : Call) : Reading :=
  let out := s.toDevice.perform call
  match call with
  | .connect env overload =>
      match s.client.arguments env overload with
      | none => { s with toDevice := out.client }
      | some _ => { toDevice := out.client }
  | call =>
      { toDevice := out.client
        produced := s.produced ++ received out.calls
        delivered := s.delivered ++ call.delivered out.result }

/-- The law of a call: the bytes delivered are a prefix of those produced in
the session, `read()` returns no byte where mbedTLS gave none, and the byte
that `peek` shows is the one to be delivered next. -/
def Faithful (s : Reading) (call : Call) : Prop :=
  (s.step call).delivered <+: (s.step call).produced ∧
    match call with
    | .read _ =>
        s.client.peeked = none → received (s.toDevice.perform call).calls = [] →
          (s.toDevice.perform call).result.ret < 0
    | .peek _ =>
        (s.step call).delivered = s.delivered ∧
          (0 ≤ (s.toDevice.perform call).result.ret →
            s.delivered ++ [UInt8.ofNat (s.toDevice.perform call).result.ret.toNat] <+:
              (s.step call).produced)
    | _ => True

/-- A connect whose TCP connection stands when it fails. -/
def FailsConnected (env : ConnectEnv) (crts : Option Bundle) (args : SslArgs)
    (ctx : SslClientContext) : Prop :=
  0 ≤ env.lwipSocket ∧ ¬ env.tcpFails ∧ (startSslClient env crts args ctx).1 < 0

/-- No one-byte read is answered by the end of the stream, and no connect meets
a look-ahead unless it fails before or after the TCP connection. -/
def Careful (s : Reading) (call : Call) : Prop :=
  match call with
  | .read answer =>
      s.client.connected = true → s.client.peeked = none → answer ≠ .endOfStream
  | .peek answers =>
      s.client.connected = true → s.client.peeked = none →
        answers.inTime.headD answers.last ≠ .endOfStream
  | .connect env overload =>
      s.client.peeked ≠ none →
        match s.client.arguments env overload with
        | none => True
        | some args => args.noTrust ∨ FailsConnected env s.crts args s.client.sslclient
  | _ => True

end Reading

/-! ### What the reads do -/

/-- The effect of a read of a block: nothing, bytes after the look-ahead, or
the look-ahead before a failure that stops the client. -/
inductive ReadEffect (c : WiFiClientSecure) (out : Outcome WiFiClientSecure (Int × List UInt8)) :
    Prop where
  | nothing (hclient : out.client = c) (hret : out.result.1 ≤ 0) (hbytes : out.result.2 = [])
      (hcalls : received out.calls = [])
  | kept (hc : c.connected = true) (hclient : out.client = { c with peeked := none })
      (hbytes : out.result.2 = c.peeked.toList ++ received out.calls)
      (hret : out.result.1 = out.result.2.length)
  | stopped (hc : c.connected = true)
      (hclient : out.client = (WiFiClientSecure.stop { c with peeked := none }).client)
      (hbytes : out.result.2 = c.peeked.toList) (hcalls : received out.calls = [])
      (hnone : c.peeked = none → out.result.1 < 0) (hsome : c.peeked ≠ none → out.result.1 = 1)

theorem received_stop (c : WiFiClientSecure) : received c.stop.calls = [] := by
  rw [WiFiClientSecure.stop_calls]
  split <;> rfl

@[simp]
theorem received_nil : received [] = [] := rfl

@[simp]
theorem received_sslRead (fd : Int) (bytes : List UInt8) (calls : List SocketCall) :
    received (.sslRead fd bytes :: calls) = bytes ++ received calls := rfl

namespace WiFiClientSecure

theorem readBuf_effect (c : WiFiClientSecure) (answer : SslRead) (size : Nat) :
    ReadEffect c (c.readBuf answer size) := by
  unfold readBuf
  by_cases hsize : size = 0
  · simp only [if_pos hsize]
    exact .nothing rfl (Int.le_refl 0) rfl rfl
  simp only [if_neg hsize]
  -- not connected: nothing is read
  by_cases hc : c.connected = false
  · simp only [if_pos hc]
    exact .nothing rfl (by simp) rfl rfl
  simp only [if_neg hc]
  have hc' : c.connected = true := by simpa using hc
  by_cases hrest : size - c.peeked.toList.length = 0
  · -- the look-ahead is all that was asked for
    simp only [if_pos hrest]
    cases hpeek : c.peeked with
    | none => exact absurd hrest (by simp [hpeek, hsize])
    | some b => exact .kept hc' rfl (by simp [hpeek]) rfl
  · simp only [if_neg hrest]
    cases answer with
    | data first rest =>
        have hres : ¬ SslRead.code (size - c.peeked.toList.length) (.data first rest) < 0 := by
          simp only [SslRead.code]
          omega
        simp only [if_neg hres]
        refine .kept hc' rfl (by simp [SslRead.bytes]) ?_
        simp only [SslRead.code, SslRead.bytes, List.length_append]
        omega
    -- the end of the stream is no error, so the client stays up
    | endOfStream =>
        simp only [SslRead.code, Int.lt_irrefl, if_false]
        exact .kept hc' rfl (by simp [SslRead.bytes]) (by simp [SslRead.bytes])
    -- an error stops the client, and what the look-ahead gave is still delivered
    | failed n =>
        have hres : SslRead.code (size - c.peeked.toList.length) (.failed n) < 0 :=
          Int.negSucc_lt_zero n
        simp only [if_pos hres]
        refine .stopped hc' rfl rfl ?_ ?_ ?_
        · simp [SslRead.bytes, received_stop]
        · intro hpeek
          simp only [hpeek, Option.toList_none, if_true]
          exact Int.negSucc_lt_zero n
        · intro hpeek
          rcases Option.ne_none_iff_exists'.1 hpeek with ⟨b, hb⟩
          simp [hb]

/-- A disconnected client reads nothing. -/
theorem readBuf_disconnected (c : WiFiClientSecure) (answer : SslRead) (hc : c.connected = false) :
    c.readBuf answer 1 = ⟨(-1, []), c, []⟩ := by
  simp [readBuf, hc]

theorem read_disconnected (c : WiFiClientSecure) (answer : SslRead) (hc : c.connected = false) :
    c.read answer = ⟨-1, c, []⟩ := by
  simp [read, readBuf_disconnected c answer hc]

/-- `timedRead` on a disconnected client waits for nothing. -/
theorem poll_disconnected (c : WiFiClientSecure) (calls : List SocketCall)
    (answers : Timed SslRead) (hc : c.connected = false) :
    Polling.poll timedReadTurn timedReadLate answers (c, calls) = ((c, calls), -1) := by
  have h := Polling.poll_rule (fun s => s = (c, calls)) (fun s r => s = (c, calls) ∧ r = -1)
    timedReadTurn timedReadLate ?_ ?_ ?_ answers (c, calls) rfl
  · exact Prod.ext h.1 h.2
  · rintro s answer s' r rfl hturn
    simp [timedReadTurn, read_disconnected c answer hc] at hturn
  · rintro s answer s' rfl hturn
    simpa [timedReadTurn, read_disconnected c answer hc] using hturn.symm
  · rintro s answer rfl
    simp [timedReadLate, read_disconnected c answer hc]

/-- Only a connected client looks ahead. -/
def Ahead (c : WiFiClientSecure) : Prop :=
  c.peeked ≠ none → c.connected = true

theorem stop_peeked (c : WiFiClientSecure) (hs : c.Sane) (ha : c.Ahead) :
    c.stop.client.peeked = none := by
  rw [stop_client]
  by_cases hsock : 0 ≤ c.sslclient.socket
  · simp only [if_pos hsock]
  · simp only [if_neg hsock]
    by_contra hpeek
    exact hsock (hs (ha hpeek))

/-- The effect of a one-byte read that the end of the stream does not answer:
a byte, or a client that is disconnected. -/
inductive ByteEffect (c : WiFiClientSecure) (out : Outcome WiFiClientSecure Int) : Prop where
  | byte (b : UInt8) (hc : c.connected = true) (hret : out.result = b.toNat)
      (hclient : out.client = { c with peeked := none })
      (hbyte : c.peeked.toList ++ received out.calls = [b])
  | nothing (hret : out.result < 0) (hpeek : c.peeked = none)
      (hc : out.client.connected = false) (hpeeked : out.client.peeked = none)
      (hcalls : received out.calls = [])

theorem read_effect (c : WiFiClientSecure) (answer : SslRead) (hs : c.Sane) (ha : c.Ahead)
    (h : c.connected = true → c.peeked = none → answer ≠ .endOfStream) :
    ByteEffect c (c.read answer) := by
  -- Without a connection nothing is read, and no byte was peeked.
  by_cases hc : c.connected = false
  · have hnone : c.peeked = none := by
      by_contra hpeek
      exact absurd (ha hpeek) (by simp [hc])
    rw [read_disconnected c answer hc]
    exact .nothing (by simp) hnone hc hnone rfl
  have hc' : c.connected = true := by simpa using hc
  cases hpeek : c.peeked with
  -- A byte that was peeked is given out first.
  | some b =>
      have hread : c.readBuf answer 1 = ⟨(1, [b]), { c with peeked := none }, []⟩ := by
        simp [readBuf, hc', hpeek]
      refine .byte b hc' ?_ ?_ ?_
      · simp [read, hread]
      · simp [read, hread]
      · simp [read, hread, hpeek]
  | none =>
      cases answer with
      | data first rest =>
          -- Otherwise one byte is taken from the session.
          have hread : c.readBuf (.data first rest) 1 =
              ⟨(1, [first]), { c with peeked := none }, [.sslRead c.sslclient.socket [first]]⟩ := by
            simp [readBuf, hc', hpeek, SslRead.code, SslRead.bytes]
          refine .byte first hc' ?_ ?_ ?_
          · simp [read, hread]
          · simp [read, hread]
          · simp [read, hread, hpeek]
      | endOfStream => exact absurd rfl (h hc' hpeek)
      -- An error closes the connection.
      | failed n =>
          have hneg : Int.negSucc n < 0 := Int.negSucc_lt_zero n
          have hread : c.readBuf (.failed n) 1 =
              ⟨(Int.negSucc n, []), (stop { c with peeked := none }).client,
                [.sslRead c.sslclient.socket []] ++ (stop { c with peeked := none }).calls⟩ := by
            simp [readBuf, hc', hpeek, SslRead.code, SslRead.bytes]
          have hs' : Sane { c with peeked := none } := hs
          refine .nothing ?_ hpeek ?_ ?_ ?_
          · simp [read, hread]
          · simp only [read, hread]
            exact stop_connected _ hs'
          · simp only [read, hread]
            exact stop_peeked _ hs' fun hp => absurd rfl hp
          · simp [read, hread, received_stop]

/-- `timedRead` from a connected client without look-ahead is settled by the
first answer, unless that is the end of the stream. -/
theorem timedRead_effect (c : WiFiClientSecure) (answers : Timed SslRead) (hs : c.Sane)
    (ha : c.Ahead)
    (h : c.connected = true → c.peeked = none →
      answers.inTime.headD answers.last ≠ .endOfStream) :
    ByteEffect c (c.timedRead answers) := by
  rcases answers with ⟨inTime, last⟩
  -- No answer came in time: the last one is taken.
  cases inTime with
  | nil =>
      have hread := c.read_effect last hs ha h
      cases hread with
      | byte b hc hret hclient hbyte =>
          refine .byte b hc ?_ hclient ?_
          · simp [timedRead, timedReadLate, hret]
          · simpa [timedRead, timedReadLate] using hbyte
      | nothing hret hpeek hc hpeeked hcalls =>
          refine .nothing ?_ hpeek hc hpeeked ?_
          · simp only [timedRead, Polling.poll_none_in_time, timedReadLate]
            rw [if_neg (by omega)]
            decide
          · simpa [timedRead, timedReadLate] using hcalls
  -- The first answer settles the read, byte or not.
  | cons answer rest =>
      have hread := c.read_effect answer hs ha h
      cases hread with
      | byte b hc hret hclient hbyte =>
          have hturn : timedReadTurn (c, []) answer =
              (((c.read answer).client, [] ++ (c.read answer).calls),
                some (c.read answer).result) := by
            simp [timedReadTurn, hret]
          refine .byte b hc ?_ ?_ ?_
          · simp only [timedRead, Polling.poll_settled _ _ _ _ _ _ _ _ hturn, hret]
          · simp only [timedRead, Polling.poll_settled _ _ _ _ _ _ _ _ hturn, hclient]
          · simpa [timedRead, Polling.poll_settled _ _ _ _ _ _ _ _ hturn] using hbyte
      | nothing hret hpeek hc hpeeked hcalls =>
          have hturn : timedReadTurn (c, []) answer =
              (((c.read answer).client, [] ++ (c.read answer).calls), none) := by
            simp only [timedReadTurn, if_neg (by omega : ¬ 0 ≤ (c.read answer).result)]
          refine .nothing ?_ hpeek ?_ ?_ ?_
          · simp [timedRead, Polling.poll_again _ _ _ _ _ _ _ hturn, poll_disconnected _ _ _ hc]
          · simp [timedRead, Polling.poll_again _ _ _ _ _ _ _ hturn, poll_disconnected _ _ _ hc, hc]
          · simp [timedRead, Polling.poll_again _ _ _ _ _ _ _ hturn, poll_disconnected _ _ _ hc,
              hpeeked]
          · simp [timedRead, Polling.poll_again _ _ _ _ _ _ _ hturn, poll_disconnected _ _ _ hc,
              hcalls]

/-- Writing and looking what is available read nothing, and keep the client or
stop it. -/
theorem write_effect (c : WiFiClientSecure) (answers : Timed Int) :
    received (c.write answers).calls = [] ∧
      ((c.write answers).client = c ∨ (c.write answers).client = c.stop.client) := by
  unfold write
  by_cases hc : c.connected = false
  · simp [if_pos hc]
  simp only [if_neg hc]
  split
  · refine ⟨?_, Or.inr rfl⟩
    change received c.stop.calls = []
    exact received_stop c
  · exact ⟨rfl, Or.inl rfl⟩

theorem available_effect (c : WiFiClientSecure) (pending : Pending) :
    received (c.available pending).calls = [] ∧
      ((c.available pending).client = c ∨ (c.available pending).client = c.stop.client) := by
  unfold available
  by_cases hc : c.connected = false
  · simp [if_pos hc]
  simp only [if_neg hc]
  split
  · exact ⟨rfl, Or.inl rfl⟩
  · split
    · split
      · exact ⟨received_stop c, Or.inr rfl⟩
      · exact ⟨rfl, Or.inl rfl⟩
    · exact ⟨rfl, Or.inl rfl⟩

/-- A connect that starts drops the look-ahead, unless it meets one and keeps
its old socket or gets none. -/
theorem startClient_peeked (c : WiFiClientSecure) (env : ConnectEnv) (crts : Option Bundle)
    (args : SslArgs) (hs : c.Sane) (ha : c.Ahead)
    (h : c.peeked ≠ none → args.noTrust ∨ Reading.FailsConnected env crts args c.sslclient) :
    (c.startClient env crts args).client.peeked = none := by
  by_cases hpeek : c.peeked = none
  · -- nothing puts a byte there
    cases startClient_started c env crts args with
    | refused _ hout => simp [hout, giveUp, stop_client, hpeek]
    | failed _ _ _ _ _ _ hout => simp [hout, giveUp, stop_client, hpeek]
    | unverified _ _ _ _ _ hout => simp [hout, giveUp, stop_client, hpeek]
    | succeeded _ _ _ _ _ hout => simp [hout, hpeek]
  cases startClient_started c env crts args with
  -- a refusal stops the client, which empties the look-ahead where it was connected
  | refused htrust hout =>
      rw [hout]
      exact stop_peeked { c with sslclient := c.sslclient, lastError := -1 } hs ha
  | failed ret b htrust hret hstages hexit hout =>
      rcases (h hpeek).resolve_left htrust with ⟨hfd, htcp, -⟩
      have hsock : 0 ≤ b.ctx.socket := by
        cases hexit with
        | noSocket hfd' hsock hcalls => omega
        | noTcp hfd' htcp' hsock hcalls => exact absurd htcp' htcp
        | noSession hfd' htcp' hsock hcalls => omega
      simp [hout, giveUp, stop_client, hsock]
  -- an unverified session is stopped, and the descriptor is 0 by then
  | unverified b htrust hopen hstages hflags hout =>
      simp [hout, giveUp, stop_client, stopSslSocket]
  -- a session that stands keeps no look-ahead from before
  | succeeded b htrust hopen hflags hstages hout =>
      rcases (h hpeek).resolve_left htrust with ⟨-, -, hret⟩
      simp only [startSslClient, if_neg htrust, hstages, hopen.socket] at hret
      exact absurd hopen.fd (Int.not_le.2 hret)

end WiFiClientSecure

/-! ### The stream of a session -/

namespace Reading

/-- The bytes produced are those delivered and the one looked ahead at, as long
as the session lasts. -/
structure Aligned (s : Reading) : Prop where
  sane : s.client.Sane
  ahead : s.client.Ahead
  whole : s.client.connected = true → s.produced = s.delivered ++ s.client.peeked.toList
  part : s.delivered <+: s.produced

/-- A client that is down with nothing looked ahead at delivers no more. -/
theorem Aligned.down (s : Reading) (d : Device) (h : s.Aligned) (hc : d.client.connected = false)
    (hpeek : d.client.peeked = none) :
    Aligned { s with toDevice := d } where
  sane := fun hc' => absurd (hc.symm.trans hc') (by simp)
  ahead := fun hp => absurd hpeek hp
  whole := fun hc' => absurd (hc.symm.trans hc') (by simp)
  part := h.part

theorem Aligned.stopped (s : Reading) (h : s.Aligned) :
    Aligned { s with client := s.client.stop.client } :=
  h.down s { s.toDevice with client := s.client.stop.client }
    (WiFiClientSecure.stop_connected _ h.sane) (WiFiClientSecure.stop_peeked _ h.sane h.ahead)

/-- A call that neither reads nor delivers, and keeps or stops the client. -/
theorem Aligned.quiet (s : Reading) (h : s.Aligned) (call : Call)
    (hstep : s.step call =
      { toDevice := (s.toDevice.perform call).client
        produced := s.produced ++ received (s.toDevice.perform call).calls
        delivered := s.delivered ++ call.delivered (s.toDevice.perform call).result })
    (hcrts : (s.toDevice.perform call).client.crts = s.crts)
    (hcalls : received (s.toDevice.perform call).calls = [])
    (hdelivered : call.delivered (s.toDevice.perform call).result = [])
    (hclient : (s.toDevice.perform call).client.client = s.client ∨
      (s.toDevice.perform call).client.client = s.client.stop.client) :
    (s.step call).Aligned := by
  rw [hstep, hcalls, hdelivered, List.append_nil, List.append_nil]
  have hdevice : (s.toDevice.perform call).client =
      { client := (s.toDevice.perform call).client.client, crts := s.crts } := by
    rw [← hcrts]
  rw [hdevice]
  rcases hclient with hkept | hstopped
  · rw [hkept]
    exact h
  · rw [hstopped]
    exact h.stopped

theorem aligned_set (s : Reading) (h : s.Aligned) (setting : Setting) :
    (s.step (.set setting)).Aligned := by
  rcases s.toDevice.assign_connection setting with ⟨hc, hctx, hpeek⟩
  simp only [step, Device.perform, received_nil, Call.delivered, List.append_nil]
  constructor
  · simp only [WiFiClientSecure.Sane, hc, hctx]
    exact h.sane
  · simp only [WiFiClientSecure.Ahead, hc, hpeek]
    exact h.ahead
  · simp only [hc, hpeek]
    exact h.whole
  · exact h.part

theorem aligned_connect (s : Reading) (h : s.Aligned) (env : ConnectEnv) (overload : Overload)
    (hok : s.Careful (.connect env overload)) : (s.step (.connect env overload)).Aligned := by
  simp only [Careful] at hok
  simp only [step, Device.perform, Device.finish, WiFiClientSecure.connectBy_eq]
  cases hargs : s.client.arguments env overload with
  | none => exact ⟨h.sane, h.ahead, h.whole, h.part⟩
  | some args =>
      simp only [hargs] at hok
      have hpeek := (s.client.timed overload).startClient_peeked env s.crts args h.sane h.ahead hok
      refine ⟨WiFiClientSecure.sane_startClient _ _ _ _, fun hp => absurd hpeek hp, ?_, ?_⟩
      · intro _
        simp only [hpeek, Option.toList_none, List.append_nil]
      · exact List.prefix_refl _

theorem aligned_readBuf (s : Reading) (h : s.Aligned) (answer : SslRead) (size : Nat) :
    (s.step (.readBuf answer size)).Aligned := by
  simp only [step, Device.perform, Device.finish, Call.delivered]
  cases s.client.readBuf_effect answer size with
  | nothing hclient hret hbytes hcalls =>
      rw [hclient, hbytes, hcalls]
      simpa using h
  -- the answer counts the bytes from the look-ahead and from the session
  | kept hc hclient hbytes hret =>
      have hwhole := h.whole hc
      have htake : (s.client.readBuf answer size).result.2.take
          (s.client.readBuf answer size).result.1.toNat =
            s.client.peeked.toList ++ received (s.client.readBuf answer size).calls := by
        rw [hret, Int.toNat_natCast, List.take_length, hbytes]
      rw [htake, hclient, hwhole]
      refine ⟨h.sane, fun hp => absurd rfl hp, fun _ => ?_, ?_⟩
      · simp
      · simp
  | stopped hc hclient hbytes hcalls hnone hsome =>
      -- what was delivered before is in front of what was produced
      have hpre : s.delivered ++ s.client.peeked.toList <+: s.produced := by
        rw [h.whole hc]
      have hdown : Aligned { s with
          client := (WiFiClientSecure.stop { s.client with peeked := none }).client } :=
        h.down s { s.toDevice with
            client := (WiFiClientSecure.stop { s.client with peeked := none }).client }
          (WiFiClientSecure.stop_connected _ h.sane)
          (WiFiClientSecure.stop_peeked _ h.sane fun hp => absurd rfl hp)
      rw [hclient, hcalls, hbytes, List.append_nil]
      refine ⟨hdown.sane, hdown.ahead, fun hc' => ?_, ?_⟩
      · exact absurd hc'
          (by simp [WiFiClientSecure.stop_connected { s.client with peeked := none } h.sane])
      · exact ((List.prefix_append_right_inj _).2 (List.take_prefix _ _)).trans hpre

/-- A byte read is the next one of the stream. -/
theorem aligned_byte (s : Reading) (h : s.Aligned) (b : UInt8) (got : List UInt8)
    (hc : s.client.connected = true) (hbyte : s.client.peeked.toList ++ got = [b]) :
    Aligned { s with
      client := { s.client with peeked := none }
      produced := s.produced ++ got
      delivered := s.delivered ++ [b] } := by
  have hwhole : s.produced ++ got = s.delivered ++ [b] := by
    rw [h.whole hc, List.append_assoc, hbyte]
  refine ⟨h.sane, fun hp => absurd rfl hp, fun _ => ?_, ?_⟩
  · simpa using hwhole
  · simp [hwhole]

theorem aligned_read (s : Reading) (h : s.Aligned) (answer : SslRead)
    (hok : s.Careful (.read answer)) : (s.step (.read answer)).Aligned := by
  simp only [step, Device.perform, Device.finish]
  cases s.client.read_effect answer h.sane h.ahead hok with
  | byte b hc hret hclient hbyte =>
      have hdelivered : (Call.read answer).delivered { ret := (s.client.read answer).result } =
          [b] := by
        simp [Call.delivered, hret]
      rw [hdelivered, hclient]
      exact aligned_byte s h b _ hc hbyte
  | nothing hret hpeek hc hpeeked hcalls =>
      have hdelivered : (Call.read answer).delivered { ret := (s.client.read answer).result } =
          [] :=
        if_neg (Int.not_le.2 hret)
      rw [hdelivered, hcalls, List.append_nil, List.append_nil]
      exact h.down s { s.toDevice with client := (s.client.read answer).client } hc hpeeked

/-- Looking ahead puts the byte read into the look-ahead. -/
theorem aligned_peek (s : Reading) (h : s.Aligned) (answers : Timed SslRead)
    (hok : s.Careful (.peek answers)) : (s.step (.peek answers)).Aligned := by
  simp only [step, Device.perform, Device.finish, Call.delivered, List.append_nil]
  -- a byte looked at before is looked at again
  cases hpeek : s.client.peeked with
  | some b =>
      simp only [WiFiClientSecure.peek, hpeek, received_nil, List.append_nil]
      exact h
  | none =>
      simp only [WiFiClientSecure.peek, hpeek]
      cases s.client.timedRead_effect answers h.sane h.ahead hok with
      | byte b hc hret hclient hbyte =>
          simp only [hpeek, Option.toList_none, List.nil_append] at hbyte
          have hwhole := h.whole hc
          simp only [hpeek, Option.toList_none, List.append_nil] at hwhole
          rw [hret, hclient, hbyte, if_pos (by omega), Int.toNat_natCast, UInt8.ofNat_toNat]
          refine ⟨h.sane, fun _ => hc, fun _ => ?_, ?_⟩
          · simp [hwhole]
          · exact h.part.trans (List.prefix_append _ _)
      -- no byte came, and the client may be down
      | nothing hret hpeek' hc hpeeked hcalls =>
          rw [hcalls, if_neg (by omega), List.append_nil]
          exact h.down s { s.toDevice with
            client := { (s.client.timedRead answers).client with peeked := none } } hc rfl

/-- Careful calls keep the stream aligned. -/
theorem step_aligned (s : Reading) (call : Call) (h : s.Aligned) (hok : s.Careful call) :
    (s.step call).Aligned := by
  -- only a connection and the reading calls touch the stream
  cases call with
  | set setting => exact aligned_set s h setting
  | setCertificate clientCa =>
      simpa [step, Device.perform, Call.delivered] using
        Aligned.mk (s := { s with client := s.client.setCertificate clientCa })
          h.sane h.ahead h.whole h.part
  | setPrivateKey privateKey =>
      simpa [step, Device.perform, Call.delivered] using
        Aligned.mk (s := { s with client := s.client.setPrivateKey privateKey })
          h.sane h.ahead h.whole h.part
  | connect env overload => exact aligned_connect s h env overload hok
  | stop => exact h.quiet s .stop rfl rfl (received_stop _) rfl (Or.inr rfl)
  | write answers =>
      have heffect := s.client.write_effect answers
      exact h.quiet s (.write answers) rfl rfl heffect.1 rfl heffect.2
  | read answer => exact aligned_read s h answer hok
  | readBuf answer size => exact aligned_readBuf s h answer size
  | peek answers => exact aligned_peek s h answers hok
  | available pending =>
      have heffect := s.client.available_effect pending
      exact h.quiet s (.available pending) rfl rfl heffect.1 rfl heffect.2
  | connected => exact h.quiet s .connected rfl rfl rfl rfl (Or.inl rfl)

/-- Between two reads of a byte the law is that of the prefix alone. -/
theorem faithful_read (s : Reading) (h : s.Aligned) (answer : SslRead)
    (hok : s.Careful (.read answer)) : s.Faithful (.read answer) := by
  refine ⟨(step_aligned s (.read answer) h hok).part, fun hpeek hnone => ?_⟩
  cases s.client.read_effect answer h.sane h.ahead hok with
  | byte b hc hret hclient hbyte =>
      have hgot : received (s.client.read answer).calls = [] := hnone
      simp [hpeek, hgot] at hbyte
  | nothing hret _ hc hpeeked hcalls => exact hret

theorem faithful_peek (s : Reading) (h : s.Aligned) (answers : Timed SslRead)
    (hok : s.Careful (.peek answers)) : s.Faithful (.peek answers) := by
  refine ⟨(step_aligned s (.peek answers) h hok).part, List.append_nil _, fun hret => ?_⟩
  simp only [step, Device.perform, Device.finish] at hret ⊢
  cases hpeek : s.client.peeked with
  | some b =>
      have hc := h.ahead (by simp [hpeek])
      have hwhole := h.whole hc
      simp only [hpeek, Option.toList_some] at hwhole
      simp [WiFiClientSecure.peek, hpeek, hwhole]
  | none =>
      simp only [WiFiClientSecure.peek, hpeek] at hret ⊢
      cases s.client.timedRead_effect answers h.sane h.ahead hok with
      | byte b hc hret' hclient hbyte =>
          have hwhole := h.whole hc
          simp only [hpeek, Option.toList_none, List.nil_append, List.append_nil] at hbyte hwhole
          simp [hret', hbyte, hwhole]
      | nothing hret' _ hc hpeeked hcalls => omega

/-- A careful call obeys the law where the stream is aligned. -/
theorem faithful_of_careful (s : Reading) (call : Call) (h : s.Aligned) (hok : s.Careful call) :
    s.Faithful call := by
  have hpart := (step_aligned s call h hok).part
  cases call with
  | read answer => exact faithful_read s h answer hok
  | peek answers => exact faithful_peek s h answers hok
  | _ => exact ⟨hpart, trivial⟩

theorem aligned_ofSocket (sock : Int) : Aligned { client := .ofSocket sock } :=
  ⟨fun h => of_decide_eq_true h, fun hp => absurd rfl hp, fun _ => rfl, List.prefix_refl _⟩

/-- Along a run of careful calls every call obeys the law: what is delivered in
a session is a prefix of what mbedTLS produced in it. -/
theorem careful_faithful (sock : Int) (calls : List Call)
    (h : Always step Careful { client := .ofSocket sock } calls) :
    Always step Faithful { client := .ofSocket sock } calls :=
  EventRun.always_of_inv faithful_of_careful step_aligned (aligned_ofSocket sock) h

/-- A session in which a byte is looked at, read, and a block read after it. -/
def lookedAhead : List Call :=
  [.set .insecure, .connect (.smooth 1 (.offering .unauthenticated)) (.host ['h'] 443),
    .peek ⟨[], .data 72 []⟩, .read .endOfStream, .readBuf (.data 73 [74]) 8,
    .readBuf .endOfStream 8]

theorem lookedAhead_faithful : Always step Faithful { client := .ofSocket (-1) } lookedAhead := by
  refine careful_faithful (-1) lookedAhead ⟨trivial, ?_, ?_, ?_, trivial, trivial, trivial⟩
  · exact fun hpeek => absurd rfl hpeek
  · exact fun _ _ => by decide
  · -- the look-ahead answers this read, so the end of the stream is not seen
    exact fun _ hpeek => absurd hpeek (by decide)

/-- A session whose stream ends before anything was read. -/
def endedAtOnce : List Call :=
  [.set .insecure, .connect (.smooth 1 (.offering .unauthenticated)) (.host ['h'] 443),
    .read .endOfStream]

/-- At the end of the stream `read()` returns 255, a byte nobody sent. -/
theorem end_of_stream_reads_byte : ¬ Always step Faithful { client := .new } endedAtOnce :=
  fun h => absurd (h.2.2.1.2 rfl rfl) (by decide)

end Reading

end ArduinoBeken.Tls
