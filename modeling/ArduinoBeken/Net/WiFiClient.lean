import Mathlib.Data.List.Basic

/-!
# The Plain TCP Client

A `WiFiClient` owns at most one lwIP descriptor, which it closes in `stop`.
The calls it makes to the socket layer are recorded in order, since what they
are applied to is what matters about them; what the socket layer answers is a
parameter of each method.

`write` sends until everything is gone, giving up after ten answers in a row
that ask to try again; it is a recursion on what is left and on the tries.

## Main definitions

* `SocketCall`: The calls to the socket layer and to TLS that have an effect.
* `Outcome`: What a method returns, and what it did on the way.
* `WiFiClient`: The client object.
* `TcpAnswers`: What the socket layer answers to one connect.
* `WiFiClient.connectIp`, `WiFiClient.write`, `WiFiClient.read`, ...: The
  methods.
-/

namespace ArduinoBeken.Net

/-- The calls that change what is open or what passes over it: those to lwIP,
and to mbedTLS over a session on a socket, with the bytes it gave. -/
inductive SocketCall where
  | opened (fd : Int)
  | connecting (fd : Int) (ip : UInt32) (port : UInt16)
  | sent (fd : Int) (bytes : List UInt8)
  | sslWritten (fd : Int)
  | sslRead (fd : Int) (bytes : List UInt8)
  | closed (fd : Int)
deriving DecidableEq, Repr

/-- The call is one to mbedTLS. -/
def SocketCall.isTls : SocketCall → Bool
  | .sslWritten _ | .sslRead _ _ => true
  | _ => false

/-- A method's result, the object after it, and its calls to lwIP in order. -/
structure Outcome (γ ρ : Type) where
  result : ρ
  client : γ
  calls : List SocketCall

/-- A `WiFiClient` object. -/
structure WiFiClient where
  fd : Int := -1
  connected : Bool := false
  timeoutMs : Nat := 3000
deriving DecidableEq, Repr

/-- What the socket layer answers to one `connect`. -/
structure TcpAnswers where
  hostByName : Option UInt32
  lwipSocket : Int
  lwipConnect : Int

/-- What `lwip_send` answers; only `EAGAIN` and `EWOULDBLOCK` are retried. -/
inductive SendAnswer where
  | sent (count : Nat)
  | nothing
  | wouldBlock
  | error
deriving DecidableEq, Repr

/-- What `lwip_recv` answers. -/
inductive RecvAnswer where
  | received (first : UInt8) (rest : List UInt8)
  | closedByPeer
  | wouldBlock
  | error
deriving DecidableEq, Repr

namespace WiFiClient

/-- `WiFiClient(int fd)`. -/
def ofFd (fd : Int) : WiFiClient := { fd := fd, connected := decide (0 ≤ fd) }

/-- `stop`: the descriptor is closed if there is one. -/
def stop (c : WiFiClient) : Outcome WiFiClient Unit :=
  if 0 ≤ c.fd then ⟨(), { c with fd := -1, connected := false }, [.closed c.fd]⟩
  else ⟨(), { c with connected := false }, []⟩

/-- `connect(IPAddress, uint16_t, int32_t)`. -/
def connectIp (c : WiFiClient) (answers : TcpAnswers) (ip : UInt32) (port : UInt16) :
    Outcome WiFiClient Int :=
  let stopped := c.stop
  let c := { stopped.client with fd := answers.lwipSocket }
  if c.fd < 0 then ⟨0, c, stopped.calls⟩
  else
    let calls := stopped.calls ++ [.opened c.fd, .connecting c.fd ip port]
    if answers.lwipConnect ≠ 0 then
      let failed := c.stop
      ⟨0, failed.client, calls ++ failed.calls⟩
    else ⟨1, { c with connected := true }, calls⟩

/-- `connect(const char *, uint16_t, int32_t)`; `none` is a null pointer. -/
def connectHost (c : WiFiClient) (answers : TcpAnswers) (host : Option (List Char))
    (port : UInt16) : Outcome WiFiClient Int :=
  match host, answers.hostByName with
  | some _, some ip => c.connectIp answers ip port
  | _, _ => ⟨0, c, []⟩

/-- The loop of `write`: `left` bytes of `buf` are still to go, and the client
is stopped only by an error. The Boolean says whether it was. -/
def sendLoop (fd : Int) (answers : Nat → SendAnswer) (turn : Nat) (buf : List UInt8)
    (left retries : Nat) : List SocketCall × Nat × Bool :=
  if left = 0 ∨ retries = 0 then ([], left, false)
  else
    match answers turn with
    | .sent count =>
        -- lwip_send accepts at most what it is offered, and here at least a byte
        let taken := min (count + 1) left
        let sent := (buf.drop (buf.length - left)).take taken
        let rest := sendLoop fd answers (turn + 1) buf (left - taken) 10
        (.sent fd sent :: rest.1, rest.2)
    | .nothing => ([], left, false)
    | .wouldBlock => sendLoop fd answers (turn + 1) buf left (retries - 1)
    | .error => ([], left, true)
termination_by (left, retries)
decreasing_by
  all_goals simp only [Prod.lex_def, not_or] at *
  · exact Or.inl (by omega)
  · exact Or.inr ⟨trivial, by omega⟩

/-- `write` of a client with a connection. -/
def write (c : WiFiClient) (answers : Nat → SendAnswer) (buf : List UInt8) :
    Outcome WiFiClient Nat :=
  if c.connected = false ∨ c.fd < 0 ∨ buf = [] then ⟨0, c, []⟩
  else
    let (calls, left, failed) := sendLoop c.fd answers 0 buf buf.length 10
    let sentTotal := buf.length - left
    if failed ∨ sentTotal = 0 then ⟨sentTotal, c.stop.client, calls ++ c.stop.calls⟩
    else ⟨sentTotal, c, calls⟩

/-- `read(uint8_t *, size_t)`; the second component is what lands in the
buffer. -/
def read (c : WiFiClient) (answer : RecvAnswer) (size : Nat) :
    Outcome WiFiClient (Int × List UInt8) :=
  if c.connected = false ∨ c.fd < 0 ∨ size = 0 then ⟨(0, []), c, []⟩
  else
    match answer with
    | .received first rest =>
        let bytes := (first :: rest).take size
        ⟨(bytes.length, bytes), c, []⟩
    | .closedByPeer => ⟨(0, []), c.stop.client, c.stop.calls⟩
    | .wouldBlock => ⟨(0, []), c, []⟩
    | .error => ⟨(0, []), c.stop.client, c.stop.calls⟩

/-- `available()`: `FIONREAD` when lwIP has it, else a peek at the socket. -/
def available (c : WiFiClient) (fionread : Option Nat) (peek : RecvAnswer) :
    Outcome WiFiClient Nat :=
  if c.connected = false ∨ c.fd < 0 then ⟨0, c, []⟩
  else
    match fionread with
    | some pending => ⟨pending, c, []⟩
    | none =>
        match peek with
        | .received _ _ => ⟨1, c, []⟩
        | .closedByPeer => ⟨0, c.stop.client, c.stop.calls⟩
        | .wouldBlock => ⟨0, c, []⟩
        | .error => ⟨0, c, []⟩

end WiFiClient

end ArduinoBeken.Net
