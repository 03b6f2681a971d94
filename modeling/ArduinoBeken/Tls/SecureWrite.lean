import ArduinoBeken.Tls.FailedConnect

/-!
# Writing over a Session

`WiFiClientSecure::write` with the buffer it is given and the clock it reads. Of a plain
client a result says how many bytes of the buffer went out, zero for a buffer with bytes
in it says that the client is disconnected now, and an empty buffer does nothing. A
secure client keeps the first two. It hands an empty buffer to mbedTLS as well, which
answers that it took no byte, and that is what the loop waits over until its time is
past and the session is given up.

A call that returns went through turns of which only the last ended it, so it is a call of
`WiFiClientSecure.write` with the answers of these turns (`writeBuf_timed`).

## Main definitions

* `SslWrite`, `Turn`: What a turn of the loop meets.
* `sendData`, `WiFiClientSecure.writeBuf`: The loop, and the call.
* `WriteContract`: What is promised.
* `Use`: The calls of a sketch before.

## Theorems

* `sendData_taken`: What the loop hands over.
* `writeBuf_timed`: The call by the answers alone.
* `write_contract_iff`: The promise.
-/

namespace ArduinoBeken.Tls

open Net (SocketCall Outcome)
open EventRun (run)
open Polling (Timed poll pollFrom)

/-- What `mbedtls_ssl_write` answers: it takes some bytes, as many as there are at most,
or none, or has to wait, or fails with the code `-(n + 1)`. -/
inductive SslWrite where
  | taken (count : Nat)
  | nothing
  | wantRead
  | wantWrite
  | failed (n : Nat)
deriving DecidableEq, Repr

namespace SslWrite

/-- The return value for so many bytes. -/
def code (len : Nat) : SslWrite → Int
  | .taken count => min (count + 1) len
  | .nothing => 0
  | .wantRead => MBEDTLS_ERR_SSL_WANT_READ
  | .wantWrite => MBEDTLS_ERR_SSL_WANT_WRITE
  | .failed n => Int.negSucc n

/-- The bytes that are taken. -/
def bytes (data : List UInt8) (answer : SslWrite) : List UInt8 :=
  data.take (answer.code data.length).toNat

end SslWrite

/-- A turn of the loop: the answer, and `millis()` behind it. -/
structure Turn where
  answer : SslWrite
  clock : UInt32
deriving DecidableEq, Repr

/-- The time of the loop is past. -/
def Turn.late (start : UInt32) (timeout : Nat) (t : Turn) : Prop :=
  timeout < (t.clock - start).toNat

instance (start : UInt32) (timeout : Nat) (t : Turn) : Decidable (t.late start timeout) :=
  inferInstanceAs (Decidable (_ < _))

/-- The answer is an error, and none that asks to try again. -/
def Turn.fatal (len : Nat) (t : Turn) : Prop :=
  ¬wants (t.answer.code len) ∧ t.answer.code len < 0

instance (len : Nat) (t : Turn) : Decidable (t.fatal len) :=
  inferInstanceAs (Decidable (_ ∧ _))

/-- The loop of `send_ssl_data`, and the bytes that mbedTLS takes on the way. Where the
turns are over it has not returned. -/
def sendData (start : UInt32) (timeout : Nat) (data : List UInt8) :
    List Turn → Option (Int × List UInt8)
  | [] => none
  | t :: turns =>
    let ret := t.answer.code data.length
    let bytes := t.answer.bytes data
    if 0 < ret then some (ret, bytes)
    else if t.late start timeout then some (-1, bytes)
    else if t.fatal data.length then some (ret, bytes)
    else (sendData start timeout data turns).map fun out => (out.1, bytes ++ out.2)

/-- A call of `write` that has returned, with the bytes that mbedTLS took. -/
structure Written extends Outcome WiFiClientSecure Int where
  taken : List UInt8

/-- `write(const uint8_t *, size_t)`. -/
def WiFiClientSecure.writeBuf (c : WiFiClientSecure) (start : UInt32) (buf : List UInt8)
    (turns : List Turn) : Option Written :=
  if c.connected = false then some ⟨⟨0, c, []⟩, []⟩
  else
    (sendData start c.sslclient.socketTimeout buf turns).map fun out =>
      let calls := [.sslWritten c.sslclient.socket]
      if out.1 < 0 then ⟨⟨0, c.stop.client, calls ++ c.stop.calls⟩, out.2⟩
      else ⟨⟨out.1, c, calls⟩, out.2⟩

/-- What is promised of a `write` that has returned: the bytes that were taken are as
many of the first ones as the result says; zero for a buffer with bytes in it leaves the
client disconnected, with its socket closed and its session torn down; and an empty
buffer leaves a connected client connected. -/
structure WriteContract (c : WiFiClientSecure) (buf : List UInt8) (w : Written) : Prop where
  count : 0 ≤ w.result ∧ w.result ≤ buf.length
  taken : w.taken = buf.take w.result.toNat
  gaveUp : buf ≠ [] → w.result = 0 → w.client.isConnected = false ∧
    (c.connected = true →
      .closed c.sslclient.socket ∈ w.calls ∧ w.client.sslclient.sslCtx = .zero)
  keeps : buf = [] → c.connected = true → w.client.isConnected = true

/-! ### The loop -/

theorem code_le (len : Nat) (answer : SslWrite) : answer.code len ≤ len := by
  cases answer with
  | taken count => exact Int.min_le_right _ _
  | nothing => exact Int.natCast_nonneg len
  | wantRead =>
      exact Int.le_trans (show MBEDTLS_ERR_SSL_WANT_READ ≤ 0 by decide) (Int.natCast_nonneg len)
  | wantWrite =>
      exact Int.le_trans (show MBEDTLS_ERR_SSL_WANT_WRITE ≤ 0 by decide) (Int.natCast_nonneg len)
  | failed n => exact Int.le_trans (Int.le_of_lt (Int.negSucc_lt_zero n)) (Int.natCast_nonneg len)

/-- Only an answer that says so takes bytes. -/
theorem bytes_of_nonpos (data : List UInt8) (answer : SslWrite)
    (h : ¬0 < answer.code data.length) : answer.bytes data = [] := by
  have hzero : (answer.code data.length).toNat = 0 := by omega
  rw [SslWrite.bytes, hzero, List.take_zero]

/-- The loop ends with a count of bytes that were taken, the first ones, or with an error
and none. -/
theorem sendData_taken (start : UInt32) (timeout : Nat) (data : List UInt8)
    (turns : List Turn) (ret : Int) (bytes : List UInt8)
    (h : sendData start timeout data turns = some (ret, bytes)) :
    (0 < ret ∧ ret ≤ data.length ∧ bytes = data.take ret.toNat) ∨ (ret < 0 ∧ bytes = []) := by
  induction turns generalizing bytes with
  | nil => exact absurd h (fun hno => nomatch hno)
  | cons t turns ih =>
      simp only [sendData] at h
      -- A turn ends the loop with bytes, too late or with an error, or goes on.
      by_cases hpos : 0 < t.answer.code data.length
      · rw [if_pos hpos] at h
        rcases Prod.mk.inj (Option.some.inj h) with ⟨rfl, rfl⟩
        exact Or.inl ⟨hpos, code_le _ _, rfl⟩
      · rw [if_neg hpos, bytes_of_nonpos data t.answer hpos] at h
        by_cases hlate : t.late start timeout
        · rw [if_pos hlate] at h
          rcases Prod.mk.inj (Option.some.inj h) with ⟨rfl, rfl⟩
          exact Or.inr ⟨by decide, rfl⟩
        · rw [if_neg hlate] at h
          by_cases hfatal : t.fatal data.length
          · rw [if_pos hfatal] at h
            rcases Prod.mk.inj (Option.some.inj h) with ⟨rfl, rfl⟩
            exact Or.inr ⟨hfatal.2, rfl⟩
          · rw [if_neg hfatal] at h
            rcases Option.map_eq_some_iff.1 h with ⟨out, hout, heq⟩
            rcases Prod.mk.inj heq with ⟨rfl, rfl⟩
            exact ih out.2 hout

/-- Of an empty buffer nothing is taken, so the loop ends at a turn that is late or an
error, if there is one. -/
theorem sendData_empty (start : UInt32) (timeout : Nat) (turns : List Turn) :
    sendData start timeout [] turns = none ↔
      ∀ t ∈ turns, ¬t.late start timeout ∧ ¬t.fatal 0 := by
  induction turns with
  | nil => exact iff_of_true rfl (fun t ht => absurd ht List.not_mem_nil)
  | cons t turns ih =>
      have hpos : ¬0 < t.answer.code 0 := by
        have := code_le 0 t.answer
        omega
      simp only [sendData, List.length_nil, if_neg hpos, List.forall_mem_cons]
      by_cases hlate : t.late start timeout
      · rw [if_pos hlate]
        exact iff_of_false (fun hno => nomatch hno) (fun hno => hno.1.1 hlate)
      · rw [if_neg hlate]
        by_cases hfatal : t.fatal 0
        · rw [if_pos hfatal]
          exact iff_of_false (fun hno => nomatch hno) (fun hno => hno.1.2 hfatal)
        · rw [if_neg hfatal, Option.map_eq_none_iff, ih]
          exact ⟨fun hrest => ⟨⟨hlate, hfatal⟩, hrest⟩, fun hall => hall.2⟩

/-- A loop that ends is the one that is given the answers before the turn that ends it, and
the answer of that. -/
theorem sendData_timed (start : UInt32) (timeout : Nat) (data : List UInt8)
    (turns : List Turn) (out : Int × List UInt8)
    (h : sendData start timeout data turns = some out) :
    ∃ answers : Timed Int, sendSslData answers = out.1 := by
  -- by induction on the turns of the loop
  induction turns generalizing out with
  | nil => exact absurd h (fun hno => nomatch hno)
  | cons t turns ih =>
      simp only [sendData] at h
      -- A turn that ends the loop is the last answer, any other one in time.
      by_cases hpos : 0 < t.answer.code data.length
      · rw [if_pos hpos] at h
        refine ⟨⟨[], t.answer.code data.length⟩, ?_⟩
        rw [sendSslData, Polling.poll_none_in_time, writeLate, if_pos hpos, ← Option.some.inj h]
      · rw [if_neg hpos] at h
        by_cases hlate : t.late start timeout
        · rw [if_pos hlate] at h
          refine ⟨⟨[], t.answer.code data.length⟩, ?_⟩
          rw [sendSslData, Polling.poll_none_in_time, writeLate, if_neg hpos, ← Option.some.inj h]
        · rw [if_neg hlate] at h
          -- any error but the two that ask for a retry ends it
          by_cases hfatal : t.fatal data.length
          · rw [if_pos hfatal] at h
            refine ⟨⟨[t.answer.code data.length], 0⟩, ?_⟩
            have hturn : writeTurn () (t.answer.code data.length) =
                ((), some (t.answer.code data.length)) := by
              rw [writeTurn, if_neg hpos]
              exact if_pos hfatal
            rw [sendSslData, Polling.poll_settled _ _ _ _ _ _ _ _ hturn, ← Option.some.inj h]
          · rw [if_neg hfatal] at h
            rcases Option.map_eq_some_iff.1 h with ⟨out', hout, rfl⟩
            rcases ih out' hout with ⟨answers, hanswers⟩
            refine ⟨⟨t.answer.code data.length :: answers.inTime, answers.last⟩, ?_⟩
            have hturn : writeTurn () (t.answer.code data.length) = ((), none) := by
              rw [writeTurn, if_neg hpos]
              exact if_neg hfatal
            rw [sendSslData, Polling.poll_again _ _ _ _ _ _ _ hturn]
            exact hanswers

namespace WiFiClientSecure

/-- A call that returns is the one that is given its answers. -/
theorem writeBuf_timed (c : WiFiClientSecure) (start : UInt32) (buf : List UInt8)
    (turns : List Turn) (w : Written) (h : c.writeBuf start buf turns = some w) :
    ∃ answers : Timed Int, c.write answers = w.toOutcome := by
  unfold writeBuf at h
  by_cases hc : c.connected = false
  · rw [if_pos hc] at h
    rw [← Option.some.inj h]
    exact ⟨⟨[], 0⟩, if_pos hc⟩
  · rw [if_neg hc] at h
    rcases Option.map_eq_some_iff.1 h with ⟨out, hout, rfl⟩
    rcases sendData_timed _ _ _ _ _ hout with ⟨answers, hanswers⟩
    refine ⟨answers, ?_⟩
    rw [write, if_neg hc, hanswers]
    simp only []
    split
    · rfl
    · rfl

/-! ### The calls before -/

/-- `setTimeout`. -/
def setTimeout (c : WiFiClientSecure) (ms : UInt32) : WiFiClientSecure :=
  { c with
    timeout := ms.toInt32.toInt
    sslclient := { c.sslclient with
      socketTimeout := ms.toNat
      sslConf := { c.sslclient.sslConf with readTimeout := ms.toNat } } }

end WiFiClientSecure

/-- What a sketch does with a client: the calls, and setting the timeout. -/
inductive Use where
  | call (call : Call)
  | setTimeout (ms : UInt32)

/-- A call before the write. -/
def Device.use (d : Device) : Use → Device
  | .call call => (d.perform call).client
  | .setTimeout ms => { d with client := d.client.setTimeout ms }

/-- No call leaves a client with the flag up and no socket. -/
theorem sane_use (d : Device) (u : Use) (h : d.client.Sane) : (d.use u).client.Sane := by
  cases u with
  | setTimeout ms => exact h
  -- the calls that use the session, and then the others
  | call call =>
      by_cases hio : call.isIo = true
      · exact WiFiClientSecure.sane_io _ _ _ (d.perform_io call hio).1 h
      · cases call with
        | set setting =>
            have hkept := d.assign_connection setting
            intro hc
            simp only [Device.use, Device.perform, hkept.1, hkept.2] at hc ⊢
            exact h hc
        | setCertificate clientCa => exact h
        | setPrivateKey privateKey => exact h
        | connect env overload =>
            simp only [Device.use, Device.perform, Device.finish, WiFiClientSecure.connectBy_eq]
            cases d.client.arguments env overload with
            | none => exact h
            | some args => exact WiFiClientSecure.sane_startClient _ _ _ _
        | stop => exact WiFiClientSecure.sane_stop _
        | _ => exact absurd rfl hio

/-- The client after some calls, from a new one or one with a socket. -/
def clientAfter (sock : Int) (uses : List Use) : WiFiClientSecure :=
  (run Device.use { client := .ofSocket sock } uses).client

theorem sane_clientAfter (sock : Int) (uses : List Use) : (clientAfter sock uses).Sane :=
  EventRun.inv_run (I := fun d : Device => d.client.Sane) sane_use
    (fun h => of_decide_eq_true h) uses

/-! ### The promise -/

/-- A call that gave up keeps the promise unless the buffer was empty. -/
theorem contract_gaveUp (c : WiFiClientSecure) (h : c.Sane) (hc : c.connected = true)
    (buf : List UInt8) (calls : List SocketCall) :
    WriteContract c buf ⟨⟨0, c.stop.client, calls ++ c.stop.calls⟩, []⟩ ↔ buf ≠ [] := by
  have hdown := c.stop_connected h
  refine ⟨fun hlaw hbuf => ?_, fun hbuf => ?_⟩
  · have hkept : c.stop.client.connected = true := hlaw.keeps hbuf hc
    rw [hdown] at hkept
    exact absurd hkept (fun hno => nomatch hno)
  · refine ⟨⟨Int.le_refl 0, Int.natCast_nonneg _⟩, rfl, fun _ _ => ⟨hdown, fun _ => ⟨?_, ?_⟩⟩,
      fun hno => absurd hno hbuf⟩
    · rw [c.stop_calls, if_pos (h hc)]
      exact List.mem_append_right _ (List.mem_singleton_self _)
    · rw [c.stop_client]

/-- Whatever calls were made before, a `write` keeps the promise unless it is one of a
connected client with an empty buffer that returns. -/
theorem write_contract_iff (sock : Int) (uses : List Use) (start : UInt32) (buf : List UInt8)
    (turns : List Turn) :
    (∀ w, (clientAfter sock uses).writeBuf start buf turns = some w →
      WriteContract (clientAfter sock uses) buf w) ↔
    (buf = [] → (clientAfter sock uses).connected = true →
      ∀ t ∈ turns, ¬t.late start (clientAfter sock uses).sslclient.socketTimeout ∧
        ¬t.fatal 0) := by
  have hsane := sane_clientAfter sock uses
  generalize clientAfter sock uses = c at hsane
  unfold WiFiClientSecure.writeBuf
  -- by the connection, and then by how the loop ends
  by_cases hc : c.connected = false
  · rw [if_pos hc]
    refine iff_of_true ?_ (fun _ hno => absurd (hc.symm.trans hno) (fun hno => nomatch hno))
    intro w hw
    rw [← Option.some.inj hw]
    refine ⟨⟨Int.le_refl 0, Int.natCast_nonneg _⟩, rfl, fun _ _ => ⟨hc, ?_⟩, ?_⟩
    · exact fun hno => absurd (hc.symm.trans hno) (fun hno => nomatch hno)
    · exact fun _ hno => absurd (hc.symm.trans hno) (fun hno => nomatch hno)
  · rw [if_neg hc]
    have hc' : c.connected = true := by simpa using hc
    -- the loop may go on for ever, and the law says nothing then
    cases hrun : sendData start c.sslclient.socketTimeout buf turns with
    | none =>
        refine iff_of_true (fun w hw => absurd hw (fun hno => nomatch hno)) ?_
        rintro rfl -
        exact (sendData_empty _ _ _).1 hrun
    | some out =>
        rcases out with ⟨ret, bytes⟩
        simp only [Option.map_some, Option.some.injEq, forall_eq']
        have hempty : buf = [] → ¬∀ t ∈ turns,
            ¬t.late start c.sslclient.socketTimeout ∧ ¬t.fatal 0 := by
          rintro rfl hall
          rw [(sendData_empty _ _ _).2 hall] at hrun
          exact absurd hrun (fun hno => nomatch hno)
        rcases sendData_taken _ _ _ _ _ _ hrun with ⟨hpos, hle, hbytes⟩ | ⟨hneg, hbytes⟩
        · -- Something was taken, so the buffer has bytes in it.
          rw [if_neg (by omega)]
          have hbuf : buf ≠ [] := by
            rintro rfl
            rw [List.length_nil] at hle
            omega
          refine iff_of_true ?_ (fun hno => absurd hno hbuf)
          refine ⟨⟨Int.le_of_lt hpos, hle⟩, hbytes, fun _ hno => ?_, fun hno => absurd hno hbuf⟩
          simp only [] at hno
          omega
        · rw [if_pos hneg, hbytes, contract_gaveUp c hsane hc']
          exact ⟨fun hbuf hno => absurd hno hbuf, fun hall hbuf => hempty hbuf (hall hbuf hc')⟩

/-- An empty buffer, and a clock that goes on. -/
theorem empty_write_disconnects :
    ¬∀ w, (clientAfter 3 [.setTimeout 1000]).writeBuf 0 [] [⟨.nothing, 0⟩, ⟨.nothing, 1002⟩] =
      some w → WriteContract (clientAfter 3 [.setTimeout 1000]) [] w := by
  intro h
  have hkept := (h _ rfl).keeps rfl rfl
  exact absurd hkept (by decide)

end ArduinoBeken.Tls
