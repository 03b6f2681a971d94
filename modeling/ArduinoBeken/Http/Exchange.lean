import ArduinoBeken.Http.BlockCopy
import ArduinoBeken.Http.Transport

/-!
# Requests and Bodies over a Socket

The two kinds of `sendRequest` and `writeToStream`, with every exit they have. What
a turn of a loop meets is a record of its own, and a call is given lists of them; it
has not returned when a list is used up before its loop is over.

The bytes that the loops carry do not matter to the connection, and the loops count
them only. What a stream of the caller takes, and whether it sets an error, is
anything.

## Main definitions

* `World.sendHeader`, `payloadLoop`, `World.handleHeaderResponse`, `World.setURL`: The
  parts of a request.
* `World.sendRequest`: The request with a payload, and its redirects.
* `uploadLoop`, `World.sendRequestStream`: The request with a stream.
* `blockLoop`, `chunkLoop`, `World.writeToStream`: The body.
-/

namespace ArduinoBeken

namespace Http

namespace Exits

/-- `HTTPC_ERROR_NO_STREAM`. -/
def errorNoStream : Int := -6

/-! ### The parts of a request -/

/-- The headers that the code adds to a request. -/
def prepareHeaders (c : HTTPClient) (size : Nat) (moment : Moment) : HTTPClient :=
  let c := if size = 0 then c
    else c.addHeader "Content-Length".toList (Http.World.decimal size) false true
  let cookies := c.cookieJar.map (generateCookieString c.host c.secure moment.now)
  let c := { c with cookieJar := cookies.map Prod.fst }
  match cookies.bind Prod.snd with
  | some cookie_string => c.addHeader "Cookie".toList cookie_string false true
  | none => c

/-- The header block gets what the code adds of its own. -/
def World.prepare (w : World) (size : Nat) (moment : Moment) : World :=
  { w with http := prepareHeaders w.http size moment }

/-- What a head that is sent meets. -/
structure HeadScript where
  poll : Poll
  answers : Nat → Net.SendAnswer

/-- `sendHeader`: the head goes out if the client is connected. -/
def World.sendHeader (w : World) (type : Text) (s : HeadScript) : World × Bool :=
  let c := w.connected s.poll
  if !c.2 then (c.1, false)
  else
    let w := { c.1 with http := { c.1.http with
      base64Authorization := withoutChar c.1.http.base64Authorization '\n' } }
    let header := bytesOf (headOf w.http type)
    (w.withTransport fun t => (t.write s.answers header).1,
      match w.transport with
      | some t => decide ((t.write s.answers header).2 = header.length)
      | none => false)

/-- What two writes of a payload meet. -/
structure PayloadTurn where
  first : Nat → Net.SendAnswer
  second : Nat → Net.SendAnswer

/-- The loop that sends a payload: whether all of it has gone. -/
def payloadLoop (t : Transport) (payload : List UInt8) :
    List PayloadTurn → Transport × Option Bool
  | [] => (t, if payload = [] then some true else none)
  | turn :: turns =>
    if payload = [] then (t, some true)
    else
      let sent := t.write turn.first payload
      if sent.2 = 0 then
        let sent := sent.1.write turn.second payload
        if sent.2 = 0 then (sent.1, some false)
        else payloadLoop sent.1 (payload.drop sent.2) turns
      else payloadLoop sent.1 (payload.drop sent.2) turns

/-- The loop over the payload. -/
def World.sendPayload (w : World) (payload : List UInt8) (turns : List PayloadTurn) :
    World × Option Bool :=
  match w.transport with
  | some t =>
    (w.withTransport fun t => (payloadLoop t payload turns).1, (payloadLoop t payload turns).2)
  | none => (w, some false)

/-- What a turn of the loop over a head meets. -/
structure HeadTurn where
  poll : Poll
  ready : Poll
  answers : List Net.RecvAnswer
  late : Bool

/-- The loop over the lines of a head. -/
def headLoop (lib : TimeLibrary) (moment : Moment) (host : Text) (st : HeadState) (t : Transport) :
    List HeadTurn → Transport × Answer × Option Int
  | [] => (t, st.answer, none)
  | turn :: turns =>
    let c := t.connected turn.poll
    if c.2 then
      let a := c.1.available turn.ready
      if 0 < a.2 then
        let r := a.1.readStringUntil 10 turn.answers
        let headerLine := trim (textOf r.2)
        let st := readLine lib moment host st headerLine
        if headerLine = [] then (r.1, (finishHead st).1, some (finishHead st).2)
        else headLoop lib moment host st r.1 turns
      else if turn.late then (a.1, st.answer, some errorReadTimeout)
      else headLoop lib moment host st a.1 turns
    else (c.1, st.answer, some errorConnectionLost)

/-- What the head of a response meets. -/
structure ResponseScript where
  poll : Poll
  moment : Moment
  turns : List HeadTurn

/-- `handleHeaderResponse`, if the client is connected. -/
def World.handleHeaderResponse (lib : TimeLibrary) (w : World) (s : ResponseScript) :
    World × Option Int :=
  let c := w.connected s.poll
  match c.2, c.1.transport with
  | true, some t =>
    let r := headLoop lib s.moment c.1.http.host { answer := c.1.http.unanswered } t s.turns
    let w := c.1.withTransport fun _ => r.1
    ({ w with http := w.http.answered r.2.1 }, r.2.2)
  | _, _ => (c.1, some errorNotConnected)

/-- What following a redirect meets. -/
structure UrlScript where
  poll : Poll
  left : Poll

/-- `setURL`, with `none` where it reads freed memory: `beginInternal` is given the
text of `_protocol`, and sets `_protocol` before it compares with it. -/
def World.setURL (w : World) (url : Text) (s : UrlScript) : World × Option Bool :=
  if isPath url then ({ w with http := { w.http.clear with uri := url } }, some true)
  else if !startsWith url (w.http.protocol ++ [':']) then (w, some false)
  else
    let port := if namesPort url then w.http.port else portFor w.http.protocol
    let w := { w with http := { w.http with port := port, canReuse := true } }
    (w.disconnect s.poll s.left, none)

/-- How a call ends: with a value, not yet, or in what the language leaves undefined. -/
inductive CallEnd where
  | returned (value : Int)
  | waiting
  | undefined
deriving DecidableEq, Repr

/-! ### Requests with a payload -/

/-- What one turn of the loop in `sendRequest` meets. `last` is the look at the socket
at its end, if the call returns. -/
structure Round where
  dial : World.Dial
  moment : Moment
  head : HeadScript
  payload : List PayloadTurn
  response : ResponseScript
  url : UrlScript
  last : Poll

/-- `return returnError(..)`. -/
def World.giveUp (w : World) (error : Int) (p : Poll) : World × CallEnd :=
  (w.returnError error p, .returned error)

/-- How far one turn comes: to the code of a response, to an error that ends the call, to
something that has not happened yet, or to a client that is taken for another one. -/
inductive Sent where
  | response (code : Int)
  | failed (error : Int)
  | waiting
  | undefined
deriving DecidableEq, Repr

/-- The loop from its start to the response. -/
def World.sendOnce (lib : TimeLibrary) (w : World) (p : Pending) (r : Round) : World × Sent :=
  let w := { w with http := w.http.wipeHeaders }
  let c := w.connect r.dial
  match c.2 with
  | .waiting => (c.1, .waiting)
  | .undefined => (c.1, .undefined)
  | .refused => (c.1, .failed errorConnectionRefused)
  | .connected =>
    let h := (c.1.prepare p.payload.length r.moment).sendHeader p.type r.head
    if !h.2 then (h.1, .failed errorSendHeaderFailed)
    else
      let sent := h.1.sendPayload (bytesOf p.payload) r.payload
      match sent.2 with
      | none => (sent.1, .waiting)
      | some false => (sent.1, .failed errorSendPayloadFailed)
      | some true =>
        let a := sent.1.handleHeaderResponse lib r.response
        match a.2 with
        | none => (a.1, .waiting)
        | some code => (a.1, .response code)

/-- `sendRequest`, from the turn that the arguments and the counter are in. -/
def World.sendRequest (lib : TimeLibrary) (w : World) (p : Pending) :
    List Round → World × CallEnd
  | [] => (w, .waiting)
  | r :: rounds =>
    let s := w.sendOnce lib p r
    match s.2 with
    | .waiting => (s.1, .waiting)
    | .undefined => (s.1, .undefined)
    | .failed error => s.1.giveUp error r.last
    | .response code =>
      match Http.World.redirect { http := s.1.http } p code with
      | some p' =>
        let u := s.1.setURL s.1.http.location r.url
        match u.2 with
        | none => (u.1, .undefined)
        | some false => u.1.giveUp code r.last
        | some true => u.1.sendRequest lib p' rounds
      | none => s.1.giveUp code r.last

/-! ### Requests with a stream -/

/-- What a turn of the upload meets: the two looks at the stream, what the buffer holds
behind the read and how much of it was read, and the two writes. -/
structure UploadTurn where
  poll : Poll
  ready : Int
  available : Int
  buff : List UInt8
  bytesRead : Nat
  first : Nat → Net.SendAnswer
  second : Nat → Net.SendAnswer
  writeError : Bool

/-- How many bytes a turn asks for. -/
def readBytesOf (available len buffSize : Int) : Int :=
  let readBytes := if 0 < len ∧ len < available then len else available
  if buffSize < readBytes then buffSize else readBytes

/-- The loop of an upload: the bytes written, or the error. -/
def uploadLoop (buffSize len bytesWritten : Int) (t : Transport) :
    List UploadTurn → Transport × Option (Int × Bool)
  | [] => (t, none)
  | turn :: turns =>
    let c := t.connected turn.poll
    if c.2 && decide (-1 < turn.ready) && decide (Wanting len) then
      if turn.available = 0 then uploadLoop buffSize len bytesWritten c.1 turns
      else
        let readBytes := readBytesOf turn.available len buffSize
        let sent := c.1.write turn.first (turn.buff.take turn.bytesRead)
        let bytesWritten := addInt bytesWritten sent.2
        let len' := if 0 < len then len - readBytes else len
        if sent.2 = turn.bytesRead then
          if turn.writeError then (sent.1, some (bytesWritten, true))
          else uploadLoop buffSize len' bytesWritten sent.1 turns
        else
          let leftBytes := readBytes - sent.2
          let again := sent.1.write turn.second ((turn.buff.drop sent.2).take leftBytes.toNat)
          let bytesWritten := addInt bytesWritten again.2
          if (again.2 : Int) ≠ leftBytes || turn.writeError then
            (again.1, some (bytesWritten, true))
          else uploadLoop buffSize len' bytesWritten again.1 turns
    else (c.1, some (bytesWritten, false))

/-- What a request with a stream meets. -/
structure UploadScript where
  dial : World.Dial
  moment : Moment
  head : HeadScript
  allocated : Bool
  turns : List UploadTurn
  response : ResponseScript
  last : Poll

namespace World

/-- The upload, with what it returns: `none` until it is over, and else whether all went
well. -/
def upload (w : World) (size : UInt32) (turns : List UploadTurn) : World × Option Bool :=
  let len := (BlockCopy.Loop.sendRequest size).len
  match w.transport with
  | some t =>
    let r := uploadLoop (buffSizeFor len) len 0 t turns
    (w.withTransport fun _ => r.1,
      r.2.map fun e => !e.2 && !(decide (size ≠ 0) && decide (BlockCopy.Loop.intOf size ≠ e.1)))
  | none => (w, some (decide (size = 0)))

/-- `sendRequest(type, Stream *, size)`; `none` is a null pointer. -/
def sendRequestStream (lib : TimeLibrary) (w : World) (type : Text) (stream : Option UploadScript)
    (size : UInt32) (last : Poll) : World × CallEnd :=
  match stream with
  | none => w.giveUp errorNoStream last
  -- every exit gives up with the error of its own
  | some s =>
    let c := w.connect s.dial
    match c.2 with
    | .waiting => (c.1, .waiting)
    | .undefined => (c.1, .undefined)
    | .refused => c.1.giveUp errorConnectionRefused s.last
    | .connected =>
      let h := (c.1.prepare size.toNat s.moment).sendHeader type s.head
      if !h.2 then h.1.giveUp errorSendHeaderFailed s.last
      else if !s.allocated then h.1.giveUp BlockCopy.errorTooLessRam s.last
      else
        let u := h.1.upload size s.turns
        match u.2 with
        | none => (u.1, .waiting)
        | some false => u.1.giveUp errorSendPayloadFailed s.last
        | some true =>
          let a := u.1.handleHeaderResponse lib s.response
          match a.2 with
          | none => (a.1, .waiting)
          | some code => a.1.giveUp code s.last

end World

/-! ### The body -/

/-- What a turn of the loop over a block meets: the looks at the socket, what it is read,
and what the stream says to the two writes. -/
structure BlockTurn where
  poll : Poll
  ready : Poll
  answers : List Net.RecvAnswer
  first : Int
  second : Int
  writeError : Bool

/-- The loop over a block: the bytes written, or an error. -/
def blockLoop (buffSize len bytesWritten : Int) (t : Transport) :
    List BlockTurn → Transport × Option (Int × Bool)
  | [] => (t, none)
  | turn :: turns =>
    let c := t.connected turn.poll
    if c.2 && decide (Wanting len) then
      let a := c.1.available turn.ready
      if a.2 = 0 then blockLoop buffSize len bytesWritten a.1 turns
      else
        let readBytes := readBytesOf a.2 len buffSize
        if readBytes = 0 then (a.1, some (bytesWritten, false))
        else
          let r := a.1.readBytes readBytes.toNat turn.answers
          let bytesWritten := addInt bytesWritten turn.first
          let len' := if 0 < len then len - readBytes else len
          if turn.first = r.2.length then
            if turn.writeError then (r.1, some (bytesWritten, true))
            else blockLoop buffSize len' bytesWritten r.1 turns
          else
            let bytesWritten := addInt bytesWritten turn.second
            if turn.second ≠ readBytes - turn.first || turn.writeError then
              (r.1, some (bytesWritten, true))
            else blockLoop buffSize len' bytesWritten r.1 turns
    else (c.1, some (bytesWritten, false))

/-- What a block meets. -/
structure BlockScript where
  allocated : Bool
  turns : List BlockTurn

/-- `writeToStreamDataBlock`, with a buffer of its own. -/
def writeToStreamDataBlock (size : Int) (t : Transport) (s : BlockScript) :
    Transport × Option Int :=
  if !s.allocated then (t, some BlockCopy.errorTooLessRam)
  else
    let r := blockLoop (buffSizeFor size) size 0 t s.turns
    (r.1, r.2.map fun e =>
      if e.2 || (decide (0 < size) && decide (size ≠ e.1)) then errorStreamWrite else e.1)

/-- What a chunk meets. -/
structure ChunkTurn where
  poll : Poll
  line : List Net.RecvAnswer
  block : BlockScript
  trailing : List Net.RecvAnswer

/-- How the loop over the chunks ends: at an error, behind the last chunk with the two
sums, or not yet. -/
inductive ChunkEnd where
  | failed (error : Int)
  | complete (ret size : Int)
  | waiting
deriving DecidableEq, Repr

/-- The loop over the chunks. -/
def chunkLoop (ret size : Int) (t : Transport) : List ChunkTurn → Transport × ChunkEnd
  | [] => (t, .waiting)
  | turn :: turns =>
    let c := t.connected turn.poll
    if !c.2 then (c.1, .failed errorConnectionLost)
    else
      let line := c.1.readStringUntil 10 turn.line
      if line.2 = [] then (line.1, .failed errorReadTimeout)
      else
        let len := strtol 16 (trim (textOf line.2))
        let size := addInt size len
        if 0 < len then
          let block := writeToStreamDataBlock len line.1 turn.block
          match block.2 with
          | none => (block.1, .waiting)
          | some r =>
            if r < 0 then (block.1, .failed r)
            else
              let trailing := block.1.readBytes 2 turn.trailing
              if trailing.2 = [13, 10] then chunkLoop (addInt ret r) size trailing.1 turns
              else (trailing.1, .failed errorReadTimeout)
        else (line.1, .complete ret size)

/-- What a body meets. -/
structure BodyScript where
  poll : Poll
  block : BlockScript
  chunks : List ChunkTurn
  left : Poll
  last : Poll

namespace World

/-- The copy of a body, with the result of the loops. -/
def copyBody (w : World) (s : BodyScript) : World × ChunkEnd :=
  match w.transport with
  | none => (w, .failed errorNotConnected)
  | some t =>
    match w.http.transferEncoding with
    | .identity =>
      let r := Exits.writeToStreamDataBlock w.http.size t s.block
      (w.withTransport fun _ => r.1,
        match r.2 with
        | none => .waiting
        | some ret => if ret < 0 then .failed ret else .complete ret ret)
    | .chunked =>
      let r := chunkLoop 0 0 t s.chunks
      let w := w.withTransport fun _ => r.1
      match r.2 with
      | .complete ret size =>
        -- The size that is set here is the one compared with.
        let w := { w with http := { w.http with
          size := if w.http.size ≤ 0 then size else w.http.size } }
        (w, if ret ≠ w.http.size then .failed errorStreamWrite else .complete ret size)
      | e => (w, e)

/-- `writeToStream`; `none` is a null pointer. -/
def writeToStream (w : World) (stream : Option BodyScript) (last : Poll) : World × CallEnd :=
  match stream with
  | none => w.giveUp errorNoStream last
  | some s =>
    let c := w.connected s.poll
    if !c.2 then c.1.giveUp errorNotConnected s.last
    else
      let b := c.1.copyBody s
      match b.2 with
      | .waiting => (b.1, .waiting)
      | .failed error => b.1.giveUp error s.last
      | .complete ret _ => (b.1.disconnect s.last s.left, .returned ret)

end World

end Exits

end Http

end ArduinoBeken
