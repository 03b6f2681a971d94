import ArduinoBeken.Http.Exchange

/-!
# The Exits of a Request

Every error of a request or of a body goes through `returnError`, which closes the
connection if it is there, so that no byte of the failed exchange is read as part of
a later one. A body that has been copied to its end returns the number of its bytes
past `returnError`, as an `int`. Where the sizes of the chunks do not fit, the caller
may be told of an error and the connection is kept.

A system runs through the calls in any order, with anything done to the fields of the
client and to the client objects in between. `inStep_of_counts` says that the law holds
along every run in which what the server says of the chunks fits an `int`, and no call
leaves the language.

## Main definitions

* `Event`, `perform`, `step`: The system.
* `InStep`: The law.
* `ChunkTurn.told`, `Round.locations`: What the server says.
* `Counts`: What it may say.

## Theorems

* `sendRequest_ends`, `sendRequestStream_ends`, `writeToStream_ends`: The exits.
* `sendRequest_defined`: No URL of the protocol in use is followed.
* `inStep_of_counts`: The law along a run.
-/

namespace ArduinoBeken

namespace Http

namespace Exits

/-! ### The system -/

/-- A call that can return an error, or anything else: the fields of the client are set,
by `begin` or one of the others, and a client object is closed or connected elsewhere. -/
inductive Event where
  | sendRequest (type payload : Text) (rounds : List Round)
  | sendRequestStream (type : Text) (stream : Option UploadScript) (size : UInt32) (last : Poll)
  | writeToStream (stream : Option BodyScript) (last : Poll)
  | fields (http : HTTPClient)
  | stop (o : Nat)
  | connect (o : Nat) (answers : Net.TcpAnswers) (host : Text) (port : Nat)

/-- `GET()`. -/
def Event.get (rounds : List Round) : Event :=
  .sendRequest "GET".toList [] rounds

/-- `POST(payload)`, of bytes or of a text. -/
def Event.post (payload : Text) (rounds : List Round) : Event :=
  .sendRequest "POST".toList payload rounds

/-- `PUT(payload)`. -/
def Event.put (payload : Text) (rounds : List Round) : Event :=
  .sendRequest "PUT".toList payload rounds

/-- `PATCH(payload)`. -/
def Event.patch (payload : Text) (rounds : List Round) : Event :=
  .sendRequest "PATCH".toList payload rounds

/-- What an event does, with the end of a call. Nothing is returned by the others. -/
def perform (lib : TimeLibrary) (w : World) : Event → World × CallEnd
  | .sendRequest type payload rounds => w.sendRequest lib { type, payload } rounds
  | .sendRequestStream type stream size last => w.sendRequestStream lib type stream size last
  | .writeToStream stream last => w.writeToStream stream last
  | .fields http =>
    ({ w with http := http, fresh := max w.fresh (http.client.getD 0 + 1) }, .waiting)
  | .stop o => ({ w with objects := Function.update w.objects o (w.objects o).stop }, .waiting)
  | .connect o answers host port =>
    ({ w with
      objects := Function.update w.objects o ((w.objects o).connect answers host port).1 },
      .waiting)

/-- An error that is returned is noted with the connection it is about. -/
def step (lib : TimeLibrary) (w : World) (e : Event) : World :=
  let r := perform lib w e
  match r.2 with
  | .returned v => if v < 0 then r.1.withTransport Transport.fail else r.1
  | _ => r.1

/-- A client with any fields, and client objects in any state. -/
def start (http : HTTPClient) (objects : Nat → Net.WiFiClient) (fresh : Nat) : World where
  http := http
  objects o := { net := objects o }
  fresh := fresh

/-- The effect of the event is defined. Behind an error the client is not connected, every
request that gets a connection gets one on which nothing has failed, and no byte has been
read on one on which something has. -/
structure InStep (lib : TimeLibrary) (w : World) (e : Event) : Prop where
  defined : (perform lib w e).2 ≠ .undefined
  closed : ∀ v, (perform lib w e).2 = .returned v → v < 0 →
    ∀ p, ((step lib w e).connected p).2 = false
  fresh : ∀ d, ((step lib w e).connect d).2 = .connected →
    ∀ t ∈ ((step lib w e).connect d).1.transport, t.serial ∉ t.failures
  clean : ∀ o, ((step lib w e).objects o).leaked = false

/-! ### What the server says -/

/-- The number on the line in front of a chunk. -/
def ChunkTurn.told (turn : ChunkTurn) : Int :=
  strtol 16 (trim (textOf (Transport.lineIn turn.line)))

/-- How long the body is said to be by the lines before the last chunk. -/
def toldLength (chunks : List ChunkTurn) : Int :=
  ((chunks.map ChunkTurn.told).takeWhile fun n => decide (0 < n)).sum

/-- The Location that a line of a head names. -/
def locationOf (headerLine : Text) : Option Text :=
  let colon := indexOfChar headerLine ':' 0
  if colon ≠ 0 ∧ equalsIgnoreCase (substring headerLine 0 colon) "Location".toList = true then
    some (trim (substringFrom headerLine (colon + 1)))
  else none

/-- The Locations that a response brings. -/
def Round.locations (r : Round) : List Text :=
  r.response.turns.filterMap fun turn =>
    locationOf (trim (textOf (Transport.lineIn turn.answers)))

/-- The client is not configured for TLS. -/
def World.OverWiFiClient (w : World) : Prop :=
  ∀ config, w.http.transportTraits ≠ some (.tls config)

/-- Redirects are not followed, or no server sends one to a URL of the protocol in use. -/
def World.StaysOnPaths (w : World) (rounds : List Round) : Prop :=
  w.http.followRedirects = .disable ∨
    ∀ url ∈ w.http.location :: rounds.flatMap Round.locations, misread w.http.protocol url = false

/-- A request is one over a `WiFiClient` that follows no URL of the protocol in use, and a
body in chunks is said to be one whose length an `int` holds. -/
def Counts (w : World) : Event → Prop
  | .sendRequest _ _ rounds => w.OverWiFiClient ∧ w.StaysOnPaths rounds
  | .sendRequestStream .. => w.OverWiFiClient
  | .writeToStream (some s) _ =>
    w.http.transferEncoding = .chunked → toldLength s.chunks < 2147483648
  | _ => True

/-! ### The loops -/

/-- The payload loop only uses the transport. -/
theorem payloadLoop_used (t : Transport) (payload : List UInt8) (turns : List PayloadTurn) :
    t.Used (payloadLoop t payload turns).1 := by
  induction turns generalizing t payload with
  | nil => exact Transport.Used.refl t
  | cons turn turns ih =>
      have hfirst := t.write_used turn.first payload
      have hsecond := (t.write turn.first payload).1.write_used turn.second payload
      simp only [payloadLoop]
      split
      · exact Transport.Used.refl t
      · split
        -- What the first write leaves of the payload is written once more.
        · split
          · exact hfirst.trans hsecond
          · exact (hfirst.trans hsecond).trans (ih _ _)
        · exact hfirst.trans (ih _ _)

/-- The header loop only uses the transport. -/
theorem headLoop_used (lib : TimeLibrary) (moment : Moment) (host : Text) (st : HeadState)
    (t : Transport) (turns : List HeadTurn) :
    t.Used (headLoop lib moment host st t turns).1 := by
  induction turns generalizing t st with
  | nil => exact Transport.Used.refl t
  | cons turn turns ih =>
      have hconnected := t.connected_used turn.poll
      have hready := hconnected.trans (Transport.available_used _ turn.ready)
      have hline := hready.trans (Transport.readStringUntil_used _ 10 turn.answers)
      simp only [headLoop]
      split
      · split
        · split
          · exact hline
          · exact hline.trans (ih _ _)
        · split
          · exact hready
          · exact hready.trans (ih _ _)
      · exact hconnected

/-- The upload loop only uses the transport. -/
theorem uploadLoop_used (buffSize len bytesWritten : Int) (t : Transport)
    (turns : List UploadTurn) : t.Used (uploadLoop buffSize len bytesWritten t turns).1 := by
  induction turns generalizing t len bytesWritten with
  | nil => exact Transport.Used.refl t
  | cons turn turns ih =>
      have hconnected := t.connected_used turn.poll
      have hfirst := hconnected.trans
        (Transport.write_used _ turn.first (turn.buff.take turn.bytesRead))
      simp only [uploadLoop]
      split
      · split
        -- The stream has nothing yet.
        · exact hconnected.trans (ih _ _ _)
        · split
          · split
            · exact hfirst
            · exact hfirst.trans (ih _ _ _)
          · split
            · exact hfirst.trans (Transport.write_used _ turn.second _)
            · exact (hfirst.trans (Transport.write_used _ turn.second _)).trans (ih _ _ _)
      · exact hconnected

/-- The block loop only uses the transport. -/
theorem blockLoop_used (buffSize len bytesWritten : Int) (t : Transport) (turns : List BlockTurn) :
    t.Used (blockLoop buffSize len bytesWritten t turns).1 := by
  induction turns generalizing t len bytesWritten with
  | nil => exact Transport.Used.refl t
  | cons turn turns ih =>
      have hconnected := t.connected_used turn.poll
      have hready := hconnected.trans (Transport.available_used _ turn.ready)
      simp only [blockLoop]
      split
      · split
        -- The connection has nothing yet.
        · exact hready.trans (ih _ _ _)
        · split
          · exact hready
          · have hread := hready.trans (Transport.readBytes_used _
              (readBytesOf ((t.connected turn.poll).1.available turn.ready).2 len buffSize).toNat
              turn.answers)
            split
            · split
              · exact hread
              · exact hread.trans (ih _ _ _)
            · split
              · exact hread
              · exact hread.trans (ih _ _ _)
      · exact hconnected

/-- A data block only uses the transport. -/
theorem writeToStreamDataBlock_used (size : Int) (t : Transport) (s : BlockScript) :
    t.Used (writeToStreamDataBlock size t s).1 := by
  unfold writeToStreamDataBlock
  split
  · exact Transport.Used.refl t
  · exact blockLoop_used _ _ _ t s.turns

/-- The chunk loop only uses the transport. -/
theorem chunkLoop_used (ret size : Int) (t : Transport) (turns : List ChunkTurn) :
    t.Used (chunkLoop ret size t turns).1 := by
  induction turns generalizing t ret size with
  | nil => exact Transport.Used.refl t
  | cons turn turns ih =>
      have hconnected := t.connected_used turn.poll
      have hline := hconnected.trans (Transport.readStringUntil_used _ 10 turn.line)
      have hblock := hline.trans (writeToStreamDataBlock_used
        (strtol 16 (trim (textOf ((t.connected turn.poll).1.readStringUntil 10 turn.line).2))) _
        turn.block)
      simp only [chunkLoop]
      split
      · exact hconnected
      · split
        · exact hline
        · split
          · split
            -- The block is waited for, or it failed.
            · exact hblock
            · split
              · exact hblock
              -- Behind a block stand the two bytes that end its line.
              · split
                · exact (hblock.trans (Transport.readBytes_used _ 2 turn.trailing)).trans (ih _ _ _)
                · exact hblock.trans (Transport.readBytes_used _ 2 turn.trailing)
          · exact hline

/-! ### The parts of a request -/

namespace World

/-- Writing the request's head keeps the invariant. -/
theorem sendHeader_sound (w : World) (type : Text) (s : HeadScript) (h : w.Sound) :
    (w.sendHeader type s).1.Sound := by
  have hconnected := w.connected_sound s.poll h
  unfold sendHeader
  simp only
  split
  · exact hconnected
  · exact withTransport_sound _ _ (fun t _ => t.write_used _ _) hconnected

/-- Writing the payload keeps the invariant. -/
theorem sendPayload_sound (w : World) (payload : List UInt8) (turns : List PayloadTurn)
    (h : w.Sound) : (w.sendPayload payload turns).1.Sound := by
  unfold sendPayload
  split
  · exact withTransport_sound _ _ (fun t _ => payloadLoop_used t payload turns) h
  · exact h

/-- Reading the answer's head keeps the invariant. -/
theorem handleHeaderResponse_sound (lib : TimeLibrary) (w : World) (s : ResponseScript)
    (h : w.Sound) : (w.handleHeaderResponse lib s).1.Sound := by
  have hconnected := w.connected_sound s.poll h
  unfold handleHeaderResponse
  simp only
  split
  next t _ ht =>
    refine withTransport_sound (w.connected s.poll).1 _ (fun u hu => ?_) hconnected
    rw [Option.some.inj (hu.symm.trans ht)]
    exact headLoop_used lib _ _ _ t _
  · exact hconnected

/-- Taking a URL keeps the invariant, also where it ends the connection. -/
theorem setURL_sound (w : World) (url : Text) (s : UrlScript) (h : w.Sound) :
    (w.setURL url s).1.Sound := by
  unfold setURL
  split
  · exact h
  · split
    · exact h
    · exact disconnect_sound _ _ _ h

/-- One round of a request keeps the invariant. -/
theorem sendOnce_sound (lib : TimeLibrary) (w : World) (p : Pending) (r : Round) (h : w.Sound) :
    (w.sendOnce lib p r).1.Sound := by
  -- the exits one after another, each in the state its step has left
  have hdial := (connect_sound { w with http := w.http.wipeHeaders } r.dial h).1
  unfold sendOnce
  simp only
  split
  · exact hdial
  · exact hdial
  · exact hdial
  · have hhead := sendHeader_sound
      ((connect { w with http := w.http.wipeHeaders } r.dial).1.prepare p.payload.length r.moment)
      p.type r.head hdial
    split
    · exact hhead
    · have hsent := sendPayload_sound _ (bytesOf p.payload) r.payload hhead
      split
      · exact hsent
      · exact hsent
      · have hresponse := handleHeaderResponse_sound lib _ r.response hsent
        split
        · exact hresponse
        · exact hresponse

/-! ### The exits -/

/-- A call that returns an error leaves no open connection. -/
def EndsClosed (r : World × CallEnd) : Prop :=
  ∀ v, r.2 = .returned v → v < 0 → r.1.Closed

/-- `returnError` with an error leaves the connection ended. -/
theorem giveUp_ends (w : World) (error : Int) (p : Poll) : EndsClosed (w.giveUp error p) := by
  intro v hv hneg
  rw [← CallEnd.returned.inj hv] at hneg
  exact w.returnError_closed error p hneg

/-- `returnError` keeps the invariant. -/
theorem giveUp_sound (w : World) (error : Int) (p : Poll) (h : w.Sound) :
    (w.giveUp error p).1.Sound :=
  w.returnError_sound error p h

/-- A call that still waits has not returned an error. -/
theorem waiting_ends (w : World) : EndsClosed (w, .waiting) :=
  fun _ hv => by cases hv

/-- A call outside the language's rules has not returned an error. -/
theorem undefined_ends (w : World) : EndsClosed (w, .undefined) :=
  fun _ hv => by cases hv

/-- Each turn of the loop goes on, waits or gives up. The induction is on the turns. -/
theorem sendRequest_ends (lib : TimeLibrary) (w : World) (p : Pending) (rounds : List Round)
    (h : w.Sound) :
    EndsClosed (w.sendRequest lib p rounds) ∧ (w.sendRequest lib p rounds).1.Sound := by
  induction rounds generalizing w p with
  | nil => exact ⟨w.waiting_ends, h⟩
  | cons r rounds ih =>
      have honce := w.sendOnce_sound lib p r h
      simp only [sendRequest]
      split
      · exact ⟨waiting_ends _, honce⟩
      · exact ⟨undefined_ends _, honce⟩
      · exact ⟨giveUp_ends _ _ _, giveUp_sound _ _ _ honce⟩
      · split
        · have hurl := setURL_sound _ (w.sendOnce lib p r).1.http.location r.url honce
          split
          · exact ⟨undefined_ends _, hurl⟩
          · exact ⟨giveUp_ends _ _ _, giveUp_sound _ _ _ hurl⟩
          · exact ih _ _ hurl
        · exact ⟨giveUp_ends _ _ _, giveUp_sound _ _ _ honce⟩

/-- Uploading from a stream keeps the invariant. -/
theorem upload_sound (w : World) (size : UInt32) (turns : List UploadTurn) (h : w.Sound) :
    (w.upload size turns).1.Sound := by
  unfold upload
  simp only
  split
  next t ht =>
    refine withTransport_sound w _ (fun u hu => ?_) h
    rw [Option.some.inj (hu.symm.trans ht)]
    exact uploadLoop_used _ _ _ t turns
  · exact h

/-- `sendRequest` with a stream ends the connection with every error it returns. -/
theorem sendRequestStream_ends (lib : TimeLibrary) (w : World) (type : Text)
    (stream : Option UploadScript) (size : UInt32) (last : Poll) (h : w.Sound) :
    EndsClosed (w.sendRequestStream lib type stream size last) ∧
      (w.sendRequestStream lib type stream size last).1.Sound := by
  unfold sendRequestStream
  split
  · exact ⟨giveUp_ends _ _ _, giveUp_sound _ _ _ h⟩
  next s =>
    -- a stage ends closed, or it leaves a sound world to the next one
    have hdial := (w.connect_sound s.dial h).1
    simp only
    split
    · exact ⟨waiting_ends _, hdial⟩
    · exact ⟨undefined_ends _, hdial⟩
    · exact ⟨giveUp_ends _ _ _, giveUp_sound _ _ _ hdial⟩
    · have hhead := sendHeader_sound ((w.connect s.dial).1.prepare size.toNat s.moment) type s.head
        hdial
      split
      · exact ⟨giveUp_ends _ _ _, giveUp_sound _ _ _ hhead⟩
      · split
        · exact ⟨giveUp_ends _ _ _, giveUp_sound _ _ _ hhead⟩
        · have hupload := upload_sound _ size s.turns hhead
          split
          · exact ⟨waiting_ends _, hupload⟩
          · exact ⟨giveUp_ends _ _ _, giveUp_sound _ _ _ hupload⟩
          · have hresponse := handleHeaderResponse_sound lib _ s.response hupload
            split
            · exact ⟨waiting_ends _, hresponse⟩
            · exact ⟨giveUp_ends _ _ _, giveUp_sound _ _ _ hresponse⟩

/-! ### The exits of a body -/

/-- Copying the body keeps the invariant. -/
theorem copyBody_sound (w : World) (s : BodyScript) (h : w.Sound) : (w.copyBody s).1.Sound := by
  have hput (t t' : Transport) (ht : w.transport = some t) (hused : t.Used t') :
      (w.withTransport fun _ => t').Sound := by
    refine w.withTransport_sound _ (fun u hu => ?_) h
    rw [Option.some.inj (hu.symm.trans ht)]
    exact hused
  unfold copyBody
  split
  · exact h
  next t ht =>
    split
    · exact hput t _ ht (writeToStreamDataBlock_used w.http.size t s.block)
    · have hloop := hput t _ ht (chunkLoop_used 0 0 t s.chunks)
      simp only
      split
      · exact hloop
      · exact hloop

/-- A block that was copied has its whole length. -/
theorem writeToStreamDataBlock_length (size : Int) (hsize : 0 < size) (t : Transport)
    (s : BlockScript) {r : Int} (h : (Exits.writeToStreamDataBlock size t s).2 = some r)
    (hr : ¬r < 0) : r = size := by
  unfold Exits.writeToStreamDataBlock at h
  split at h
  · rw [← Option.some.inj h] at hr
    exact absurd (by decide) hr
  · rcases Option.map_eq_some_iff.1 h with ⟨e, -, he⟩
    split at he
    · rw [← he] at hr
      exact absurd (by decide) hr
    next hfine =>
      simp only [hsize, decide_true, Bool.true_and, Bool.or_eq_true, decide_eq_true_eq, not_or,
        ne_eq, Decidable.not_not] at hfine
      rw [← he, hfine.2]

/-- The announced lengths add up turn by turn. -/
theorem toldLength_cons (turn : ChunkTurn) (turns : List ChunkTurn) (h : 0 < turn.told) :
    toldLength (turn :: turns) = turn.told + toldLength turns := by
  unfold toldLength
  simp only [List.map_cons, List.takeWhile_cons, h, decide_true, if_true, List.sum_cons]

/-- Chunks announce no negative length together. -/
theorem toldLength_nonneg (turns : List ChunkTurn) : 0 ≤ toldLength turns :=
  List.sum_nonneg fun n hn => by
    have hpos := List.mem_takeWhile_imp hn
    rw [decide_eq_true_eq] at hpos
    omega

/-- Chunks that are copied to the last one are as long as they are said to be. The induction
is on the turns. -/
theorem chunkLoop_complete (ret size : Int) (t : Transport) (turns : List ChunkTurn)
    {ret' size' : Int} (h : (Exits.chunkLoop ret size t turns).2 = .complete ret' size')
    (hret : 0 ≤ ret) (hfits : ret + toldLength turns < 2147483648) : 0 ≤ ret' := by
  induction turns generalizing t ret size with
  | nil => cases h
  -- a chunk: the poll, the line, the block, the CR LF, and then the rest
  | cons turn turns ih =>
      simp only [Exits.chunkLoop] at h
      cases hlook : (t.connected turn.poll).2 with
      | false =>
          rw [hlook] at h
          cases h
      | true =>
          have hopen := t.isOpen_of_connected turn.poll hlook
          have hline := Transport.readStringUntil_line _ turn.line hopen
          simp only [hlook, Bool.not_true, Bool.false_eq_true, if_false, hline] at h
          split at h
          · cases h
          -- a positive size
          · split at h
            next hlen =>
              have htold := toldLength_cons turn turns hlen
              have hrest := toldLength_nonneg turns
              split at h
              · cases h
              next r hr =>
                split at h
                · cases h
                next hfine =>
                  have hwhole := writeToStreamDataBlock_length _ hlen _ _ hr hfine
                  split at h
                  · have htold' : r = turn.told := hwhole
                    -- nothing wraps, as the whole told length fits
                    have hadd : addInt ret r = ret + r :=
                      addInt_of_fits ret r (by omega) (by omega)
                    rw [hadd] at h
                    exact ih _ _ _ h (by omega) (by omega)
                  · cases h
            next =>
              rw [ChunkEnd.complete.injEq] at h
              omega

/-- The end of a body whose length an `int` holds is not told as an error. -/
theorem copyBody_complete (w : World) (s : BodyScript) {ret size : Int}
    (hfits : w.http.transferEncoding = .chunked → toldLength s.chunks < 2147483648)
    (h : (w.copyBody s).2 = .complete ret size) : 0 ≤ ret := by
  unfold copyBody at h
  split at h
  · cases h
  next t _ =>
    split at h
    -- One block ends in an error where it failed.
    · simp only at h
      split at h
      · cases h
      next ret' _ =>
        split at h
        · cases h
        · rw [ChunkEnd.complete.injEq] at h
          omega
    next hchunked =>
      simp only at h
      split at h
      next ret' size' hloop =>
        have hnonneg := chunkLoop_complete 0 0 t s.chunks hloop (le_refl 0)
          (by rw [Int.zero_add]; exact hfits hchunked)
        by_cases hwrong : ret' ≠ (if w.http.size ≤ 0 then size' else w.http.size)
        · rw [http_withTransport, if_pos hwrong] at h
          cases h
        · rw [http_withTransport, if_neg hwrong, ChunkEnd.complete.injEq] at h
          omega
      next hno => exact absurd h (hno ret size)

/-- `writeToStream` ends the connection with every error, where the chunk sizes fit an `int`. -/
theorem writeToStream_ends (w : World) (s : BodyScript) (last : Poll)
    (hfits : w.http.transferEncoding = .chunked → toldLength s.chunks < 2147483648) :
    EndsClosed (w.writeToStream (some s) last) := by
  unfold writeToStream
  simp only
  split
  · exact giveUp_ends _ _ _
  · split
    · exact waiting_ends _
    · exact giveUp_ends _ _ _
    next ret _ hend =>
      have hnonneg : 0 ≤ ret := copyBody_complete _ s (by rw [connected_http]; exact hfits) hend
      intro v hv hneg
      rw [← CallEnd.returned.inj hv] at hneg
      omega

/-! ### Calls that stay in the language -/

/-- `returnError` stays inside the language's rules. -/
theorem giveUp_defined (w : World) (error : Int) (p : Poll) :
    (w.giveUp error p).2 ≠ .undefined :=
  fun h => by cases h

/-- A header line leaves the location alone or is the line that gives it. -/
theorem readLine_location (lib : TimeLibrary) (moment : Moment) (host : Text) (st : HeadState)
    (headerLine : Text) : (readLine lib moment host st headerLine).answer.location =
      st.answer.location ∨
        locationOf headerLine = some (readLine lib moment host st headerLine).answer.location := by
  unfold readLine
  simp only
  split
  · exact Or.inl rfl
  · unfold readField locationOf
    simp only
    split
    · exact Or.inl rfl
    next hcolon =>
      simp only [applyField]
      split
      next hname => exact Or.inr (if_pos ⟨hcolon, hname⟩)
      · exact Or.inl rfl

/-- The end of the head leaves the location alone. -/
theorem finishHead_location (st : HeadState) :
    (finishHead st).1.location = st.answer.location := by
  unfold finishHead
  simp only
  split
  · rfl
  · split
    · rfl
    · split
      · rfl
      · rfl

/-- The Location behind a head is one that stood there before, or one of a line. The
induction is on the turns. -/
theorem headLoop_location (lib : TimeLibrary) (moment : Moment) (host : Text) (st : HeadState)
    (t : Transport) (turns : List HeadTurn) :
    (Exits.headLoop lib moment host st t turns).2.1.location = st.answer.location ∨
      (Exits.headLoop lib moment host st t turns).2.1.location ∈
        turns.filterMap fun turn => locationOf (trim (textOf (Transport.lineIn turn.answers))) := by
  -- by induction on the turns, with the Location of what was read before
  induction turns generalizing t st with
  | nil => exact Or.inl rfl
  | cons turn turns ih =>
      -- what this turn has set counts as one of the lines
      have htail (st' : HeadState) (t' : Transport)
          (hsame : st'.answer.location = st.answer.location ∨
            locationOf (trim (textOf (Transport.lineIn turn.answers))) =
              some st'.answer.location) :
          (Exits.headLoop lib moment host st' t' turns).2.1.location = st.answer.location ∨
            (Exits.headLoop lib moment host st' t' turns).2.1.location ∈
              (turn :: turns).filterMap fun turn =>
                locationOf (trim (textOf (Transport.lineIn turn.answers))) := by
        rcases ih st' t' with hold | hnew
        · rcases hsame with hsame | hsame
          · exact Or.inl (hold.trans hsame)
          · rw [hold]
            exact Or.inr (List.mem_filterMap.2 ⟨turn, List.mem_cons_self, hsame⟩)
        · rcases List.mem_filterMap.1 hnew with ⟨turn', hmem, hlocation⟩
          exact Or.inr (List.mem_filterMap.2 ⟨turn', List.mem_cons_of_mem _ hmem, hlocation⟩)
      simp only [Exits.headLoop]
      split
      · split
        next hpending =>
          -- what is read is the line, as something is there to be read
          have hopen := Transport.available_of_pending _ turn.ready hpending
          have hline := Transport.readStringUntil_line
            ((t.connected turn.poll).1.available turn.ready).1 turn.answers
            (by rw [hopen.2]; exact hopen.1)
          have hread := readLine_location lib moment host st
            (trim (textOf (Transport.lineIn turn.answers)))
          simp only [hline]
          split
          · simp only [finishHead_location]
            rcases hread with hread | hread
            · exact Or.inl hread
            · exact Or.inr (List.mem_filterMap.2 ⟨turn, List.mem_cons_self, hread⟩)
          · exact htail _ _ hread
        · split
          · exact Or.inl rfl
          · exact htail st _ (Or.inl rfl)
      · exact Or.inl rfl

/-- The fields that following a redirect reads are as they were, but for a Location that is
one of those given. -/
structure SameWay (locations : List Text) (c c' : HTTPClient) : Prop where
  protocol : c'.protocol = c.protocol
  followRedirects : c'.followRedirects = c.followRedirects
  transportTraits : c'.transportTraits = c.transportTraits
  location : c'.location = c.location ∨ c'.location ∈ locations

/-- The ways a client can be redirected compose. -/
theorem SameWay.trans {locations : List Text} {c c' c'' : HTTPClient}
    (h : SameWay locations c c') (g : SameWay locations c' c'') : SameWay locations c c'' := by
  refine ⟨g.protocol.trans h.protocol, g.followRedirects.trans h.followRedirects,
    g.transportTraits.trans h.transportTraits, ?_⟩
  rcases g.location with hold | hnew
  · rw [hold]
    exact h.location
  · exact Or.inr hnew

/-- Connecting changes nothing that decides where a redirect leads. -/
theorem connect_sameWay (locations : List Text) (w : World) (d : Dial) :
    SameWay locations w.http (w.connect d).1.http := by
  rcases w.connect_http d with ⟨client, dep, hhttp⟩
  rw [hhttp]
  exact ⟨rfl, rfl, rfl, Or.inl rfl⟩

/-- Preparing the headers changes nothing that decides where a redirect leads. -/
theorem prepareHeaders_sameWay (locations : List Text) (c : HTTPClient) (size : Nat)
    (moment : Moment) : SameWay locations c (Exits.prepareHeaders c size moment) := by
  have hadd (c : HTTPClient) (name value : Text) :
      SameWay locations c (c.addHeader name value false true) := by
    rw [HTTPClient.addHeader_frame]
    exact ⟨rfl, rfl, rfl, Or.inl rfl⟩
  have hlength : SameWay locations c (if size = 0 then c else
      c.addHeader "Content-Length".toList (Http.World.decimal size) false true) := by
    split
    · exact ⟨rfl, rfl, rfl, Or.inl rfl⟩
    · exact hadd _ _ _
  unfold Exits.prepareHeaders
  simp only
  split
  · refine SameWay.trans ?_ (hadd _ _ _)
    exact hlength.trans ⟨rfl, rfl, rfl, Or.inl rfl⟩
  · exact hlength.trans ⟨rfl, rfl, rfl, Or.inl rfl⟩

/-- Writing the head changes nothing that decides where a redirect leads. -/
theorem sendHeader_sameWay (locations : List Text) (w : World) (type : Text) (s : HeadScript) :
    SameWay locations w.http (w.sendHeader type s).1.http := by
  unfold sendHeader
  simp only
  split
  · rw [connected_http]
    exact ⟨rfl, rfl, rfl, Or.inl rfl⟩
  · rw [http_withTransport, connected_http]
    exact ⟨rfl, rfl, rfl, Or.inl rfl⟩

/-- Writing the payload changes nothing that decides where a redirect leads. -/
theorem sendPayload_sameWay (locations : List Text) (w : World) (payload : List UInt8)
    (turns : List PayloadTurn) :
    SameWay locations w.http (w.sendPayload payload turns).1.http := by
  unfold sendPayload
  split
  · rw [http_withTransport]
    exact ⟨rfl, rfl, rfl, Or.inl rfl⟩
  · exact ⟨rfl, rfl, rfl, Or.inl rfl⟩

/-- Reading a head changes the location to one of its own lines at most. -/
theorem handleHeaderResponse_sameWay (lib : TimeLibrary) (w : World) (s : ResponseScript) :
    SameWay (s.turns.filterMap fun turn =>
      locationOf (trim (textOf (Transport.lineIn turn.answers)))) w.http
      (w.handleHeaderResponse lib s).1.http := by
  unfold handleHeaderResponse
  simp only
  split
  · simp only [http_withTransport, connected_http]
    exact ⟨rfl, rfl, rfl, headLoop_location lib _ _ _ _ _⟩
  · rw [connected_http]
    exact ⟨rfl, rfl, rfl, Or.inl rfl⟩

/-- A turn that comes to a response leaves the fields that a redirect reads. -/
theorem sendOnce_sameWay (lib : TimeLibrary) (w : World) (p : Pending) (r : Round) :
    SameWay r.locations w.http (w.sendOnce lib p r).1.http := by
  -- no step but the reading of the response sets the Location
  have hwipe : SameWay r.locations w.http w.http.wipeHeaders := ⟨rfl, rfl, rfl, Or.inl rfl⟩
  have hdial := hwipe.trans
    (connect_sameWay r.locations { w with http := w.http.wipeHeaders } r.dial)
  unfold sendOnce
  simp only
  split
  · exact hdial
  · exact hdial
  · exact hdial
  · have hhead := (hdial.trans (prepareHeaders_sameWay _ _ p.payload.length r.moment)).trans
      (sendHeader_sameWay _ ((connect { w with http := w.http.wipeHeaders } r.dial).1.prepare
        p.payload.length r.moment) p.type r.head)
    split
    · exact hhead
    · have hsent := hhead.trans (sendPayload_sameWay _ _ (bytesOf p.payload) r.payload)
      split
      · exact hsent
      · exact hsent
      · have hresponse := hsent.trans (handleHeaderResponse_sameWay lib _ r.response)
        split
        · exact hresponse
        · exact hresponse

/-- One round over a plain or secure client stays inside the language's rules. -/
theorem sendOnce_defined (lib : TimeLibrary) (w : World) (p : Pending) (r : Round)
    (h : w.OverWiFiClient) : (w.sendOnce lib p r).2 ≠ .undefined := by
  have hdial := connect_defined { w with http := w.http.wipeHeaders } r.dial h
  unfold sendOnce
  simp only
  split
  · simp
  next hundefined => exact absurd hundefined hdial
  · simp
  · split
    · simp
    · split
      · simp
      · simp
      · split
        · simp
        · simp

/-- A redirect is followed only where following is on. -/
theorem followRedirects_of_redirect {w : Http.World} {p p' : Pending} {code : Int}
    (h : w.redirect p code = some p') : w.http.followRedirects ≠ .disable := by
  intro hdisable
  unfold Http.World.redirect at h
  rw [if_neg fun hfollow => hfollow.1 hdisable] at h
  cases h

/-- `setURL` takes a path or refuses, where it does not misread. -/
theorem setURL_read (w : World) (url : Text) (s : UrlScript)
    (h : misread w.http.protocol url = false) :
    w.setURL url s = ({ w with http := { w.http.clear with uri := url } }, some true) ∨
      w.setURL url s = (w, some false) := by
  unfold setURL
  unfold misread at h
  by_cases hpath : isPath url = true
  · exact Or.inl (if_pos hpath)
  · right
    rw [Bool.not_eq_true] at hpath
    rw [hpath, Bool.not_false, Bool.true_and] at h
    rw [hpath, if_neg Bool.false_ne_true, h]
    rfl

/-- No URL of the protocol in use is followed, as none is named. The induction is on the
turns. -/
theorem sendRequest_defined (lib : TimeLibrary) (w : World) (p : Pending) (rounds : List Round)
    (hplain : w.OverWiFiClient) (hpaths : w.StaysOnPaths rounds) :
    (w.sendRequest lib p rounds).2 ≠ .undefined := by
  -- by induction on the rounds; each leaves the settings that decide about the next
  induction rounds generalizing w p with
  | nil => simp [sendRequest]
  | cons r rounds ih =>
      have honce := w.sendOnce_sameWay lib p r
      have hplain' : (w.sendOnce lib p r).1.OverWiFiClient := fun config => by
        rw [honce.transportTraits]
        exact hplain config
      have hpaths' : (w.sendOnce lib p r).1.StaysOnPaths rounds := by
        unfold StaysOnPaths at hpaths ⊢
        rw [honce.followRedirects, honce.protocol]
        refine hpaths.imp id fun hnone url hurl => hnone url ?_
        rw [List.flatMap_cons]
        rcases List.mem_cons.1 hurl with rfl | hurl
        · rcases honce.location with hold | hnew
          · rw [hold]
            exact List.mem_cons_self
          · exact List.mem_cons_of_mem _ (List.mem_append_left _ hnew)
        · exact List.mem_cons_of_mem _ (List.mem_append_right _ hurl)
      simp only [sendRequest]
      split
      · simp
      next hundefined => exact absurd hundefined (w.sendOnce_defined lib p r hplain)
      · exact giveUp_defined _ _ _
      -- a redirect is followed only for a mode that follows, and to a path
      · split
        next p' hfollow =>
          have hread : misread (w.sendOnce lib p r).1.http.protocol
              (w.sendOnce lib p r).1.http.location = false := by
            rcases hpaths' with hdisabled | hnone
            · exact absurd hdisabled (followRedirects_of_redirect hfollow)
            · exact hnone _ List.mem_cons_self
          rcases setURL_read (w.sendOnce lib p r).1 _ r.url hread with hset | hset
          · rw [hset]
            exact ih _ _ hplain' hpaths'
          · rw [hset]
            exact giveUp_defined _ _ _
        · exact giveUp_defined _ _ _

/-- An upload over a plain or secure client stays inside the language's rules. -/
theorem sendRequestStream_defined (lib : TimeLibrary) (w : World) (type : Text)
    (stream : Option UploadScript) (size : UInt32) (last : Poll) (h : w.OverWiFiClient) :
    (w.sendRequestStream lib type stream size last).2 ≠ .undefined := by
  unfold sendRequestStream
  split
  · exact giveUp_defined _ _ _
  next s =>
    have hdial := w.connect_defined s.dial h
    simp only
    split
    -- the exits one after another
    · simp
    next hundefined => exact absurd hundefined hdial
    · exact giveUp_defined _ _ _
    · split
      · exact giveUp_defined _ _ _
      · split
        · exact giveUp_defined _ _ _
        · split
          · simp
          · exact giveUp_defined _ _ _
          · split
            · simp
            · exact giveUp_defined _ _ _

/-- `writeToStream` stays inside the language's rules. -/
theorem writeToStream_defined (w : World) (stream : Option BodyScript) (last : Poll) :
    (w.writeToStream stream last).2 ≠ .undefined := by
  unfold writeToStream
  split
  · exact giveUp_defined _ _ _
  · simp only
    split
    · exact giveUp_defined _ _ _
    · split
      · simp
      · exact giveUp_defined _ _ _
      · simp

end World

/-! ### The law along a run -/

/-- A client object may be exchanged for another one that is sound. -/
theorem update_sound (w : World) (o : Nat) (t : Transport) (ht : t.Sound) (h : w.Sound) :
    World.Sound { w with objects := Function.update w.objects o t } := by
  intro o'
  rcases eq_or_ne o' o with rfl | ho
  · simp only [Function.update_self]
    exact ht
  · simp only [Function.update_of_ne ho]
    exact h o'

/-- `writeToStream` keeps the invariant, with or without a stream. -/
theorem writeToStream_sound (w : World) (stream : Option BodyScript) (last : Poll) (h : w.Sound) :
    (w.writeToStream stream last).1.Sound := by
  unfold World.writeToStream
  split
  · exact w.giveUp_sound _ _ h
  next s =>
    have hconnected := w.connected_sound s.poll h
    have hbody := World.copyBody_sound _ s hconnected
    simp only
    split
    · exact World.giveUp_sound _ _ _ hconnected
    · split
      · exact hbody
      · exact World.giveUp_sound _ _ _ hbody
      · exact World.disconnect_sound _ _ _ hbody

/-- Every event keeps the invariant. -/
theorem perform_sound (lib : TimeLibrary) (w : World) (e : Event) (h : w.Sound) :
    (perform lib w e).1.Sound := by
  cases e with
  | sendRequest type payload rounds => exact (w.sendRequest_ends lib _ rounds h).2
  | sendRequestStream type stream size last =>
      exact (w.sendRequestStream_ends lib type stream size last h).2
  | writeToStream stream last => exact writeToStream_sound w stream last h
  | fields http => exact h
  | stop o => exact update_sound w o _ ((Transport.stop_used _).sound (h o)) h
  | connect o answers host port =>
      exact update_sound w o _ (Transport.connect_sound _ _ _ _ (h o)).1 h

/-- An event that the condition allows ends in a closed connection, if in an error. -/
theorem perform_ends (lib : TimeLibrary) (w : World) (e : Event) (h : w.Sound)
    (hcounts : Counts w e) : World.EndsClosed (perform lib w e) := by
  cases e with
  | sendRequest type payload rounds => exact (w.sendRequest_ends lib _ rounds h).1
  | sendRequestStream type stream size last =>
      exact (w.sendRequestStream_ends lib type stream size last h).1
  | writeToStream stream last =>
      cases stream with
      | none => exact w.giveUp_ends _ _
      | some s => exact w.writeToStream_ends s last hcounts
  | fields http => exact World.waiting_ends _
  | stop o => exact World.waiting_ends _
  | connect o answers host port => exact World.waiting_ends _

/-- An event that counts stays inside the language's rules. -/
theorem perform_defined (lib : TimeLibrary) (w : World) (e : Event) (hcounts : Counts w e) :
    (perform lib w e).2 ≠ .undefined := by
  cases e with
  | sendRequest type payload rounds =>
      exact w.sendRequest_defined lib _ rounds hcounts.1 hcounts.2
  | sendRequestStream type stream size last =>
      exact w.sendRequestStream_defined lib type stream size last hcounts
  | writeToStream stream last => exact w.writeToStream_defined stream last
  | fields http => exact CallEnd.noConfusion
  | stop o => exact CallEnd.noConfusion
  | connect o answers host port => exact CallEnd.noConfusion

/-- A transport whose socket is closed stays sound when its reads fail. -/
theorem fail_sound (t : Transport) (hclosed : t.isOpen = false) (h : t.Sound) : t.fail.Sound := by
  refine ⟨h.clean, fun n hn => ?_, fun _ => hclosed⟩
  rcases List.mem_cons.1 hn with rfl | hn
  · exact le_refl _
  · exact h.past n hn

/-- A step that ends in a closed connection, if in an error, leaves everything sound. -/
theorem step_sound (lib : TimeLibrary) (w : World) (e : Event) (h : w.Sound)
    (hends : World.EndsClosed (perform lib w e)) : (step lib w e).Sound := by
  have hsound := perform_sound lib w e h
  unfold step
  simp only
  split
  next v hv =>
    split
    next hneg =>
      exact World.sound_of_transport _ _
        (fun t ht => fail_sound t (hends v hv hneg t ht)) hsound
    next => exact hsound
  next => exact hsound

/-- Behind an error the failure is noted on the connection. -/
theorem step_of_error (lib : TimeLibrary) (w : World) (e : Event) {v : Int}
    (hv : (perform lib w e).2 = .returned v) (hneg : v < 0) :
    step lib w e = (perform lib w e).1.withTransport Transport.fail := by
  unfold step
  simp only [hv, if_pos hneg]

/-- Noting an error changes nothing about the connection. -/
theorem closed_fail (w : World) (h : w.Closed) : (w.withTransport Transport.fail).Closed := by
  intro t' ht'
  rw [World.transport_withTransport] at ht'
  rcases Option.map_eq_some_iff.1 ht' with ⟨t, ht, rfl⟩
  exact h t ht

/-- One event keeps the law. -/
theorem inStep_step (lib : TimeLibrary) (w : World) (e : Event) (h : w.Sound)
    (hcounts : Counts w e) : InStep lib w e := by
  have hends := perform_ends lib w e h hcounts
  have hsound := step_sound lib w e h hends
  refine ⟨perform_defined lib w e hcounts, fun v hv hneg p => ?_,
    fun d => (World.connect_sound _ d hsound).2, fun o => (hsound o).clean⟩
  rw [step_of_error lib w e hv hneg]
  exact World.connected_of_closed _ p (closed_fail _ (hends v hv hneg))

/-- The invariant holds at the start. -/
theorem start_sound (http : HTTPClient) (objects : Nat → Net.WiFiClient) (fresh : Nat) :
    (start http objects fresh).Sound :=
  fun _ => ⟨rfl, fun _ hn => absurd hn (by simp [start]), fun hn => absurd hn (by simp [start])⟩

/-- Along every run, with any fields of the client, any client objects and anything that
server, sockets and streams do: behind every error the client is not connected, every request
that is connected has a connection on which nothing has failed, and no byte of a failed
exchange is read later, if what the servers say of the chunks fits an `int`, and no request
follows a URL of its protocol or is configured for TLS. -/
theorem inStep_of_counts (lib : TimeLibrary) (http : HTTPClient) (objects : Nat → Net.WiFiClient)
    (fresh : Nat) (es : List Event)
    (h : EventRun.Always (step lib) Counts (start http objects fresh) es) :
    EventRun.Always (step lib) (InStep lib) (start http objects fresh) es :=
  EventRun.always_of_inv (I := World.Sound) (fun w e hs => inStep_step lib w e hs)
    (fun w e hs hcounts => step_sound lib w e hs (perform_ends lib w e hs hcounts))
    (start_sound http objects fresh) h

/-! ### A body that is told as an error -/

/-- A connection that stays, with a byte to be read whenever it is looked at. -/
def steady : Transport where
  net := { fd := 3, connected := true }

/-- A look that finds a byte. -/
def onePending : Poll :=
  ⟨some 1, .wouldBlock⟩

/-- A text that comes byte by byte. -/
def answersOf (text : Text) : List Net.RecvAnswer :=
  (bytesOf text).map fun b => .received b []

/-- A byte is read and taken. -/
def byteTurn : BlockTurn where
  poll := onePending
  ready := onePending
  answers := answersOf ['x']
  first := 1
  second := 0
  writeError := false

/-- A chunk with so many bytes. -/
def chunkOf (line : Text) (length : Nat) : ChunkTurn where
  poll := onePending
  line := answersOf line
  block := ⟨true, List.replicate (length + 1) byteTurn⟩
  trailing := answersOf "\r\n".toList

/-- The loop takes one byte a turn. The induction is on the bytes that are left. -/
theorem blockLoop_steady (buffSize : Int) (hbuff : 0 < buffSize) (n : Nat) (bytesWritten : Int)
    (hw : addInt bytesWritten 0 = bytesWritten) :
    blockLoop buffSize n bytesWritten steady (List.replicate (n + 1) byteTurn) =
      (steady, some (addInt bytesWritten n, false)) := by
  have hconnected : steady.connected byteTurn.poll = (steady, true) := rfl
  induction n generalizing bytesWritten with
  | zero =>
      have hsated : ¬Wanting ((0 : Nat) : Int) := by unfold Wanting; omega
      simp only [List.replicate_succ, blockLoop, hconnected, hsated, decide_false, Bool.and_false]
      exact congrArg (fun n => (steady, some (n, false))) hw.symm
  | succ n ih =>
      -- one turn: a byte is there and is written, and nothing else happens
      have havailable : steady.available byteTurn.ready = (steady, 1) := rfl
      have hread : steady.readBytes 1 byteTurn.answers = (steady, [120]) := rfl
      have hasked : readBytesOf ((1 : Nat) : Int) ((n + 1 : Nat) : Int) buffSize = 1 := by
        unfold readBytesOf
        rw [if_neg (by omega), if_neg (by omega)]
        rfl
      have hwant : Wanting ((n + 1 : Nat) : Int) := Or.inl (by omega)
      have hlen : ((n + 1 : Nat) : Int) - 1 = n := by omega
      have hpos : (0 : Int) < ((n + 1 : Nat) : Int) := by omega
      have htaken : byteTurn.first = (([120] : List UInt8).length : Int) := rfl
      have hfirst : byteTurn.first = 1 := rfl
      have hfine : byteTurn.writeError = false := rfl
      rw [List.replicate_succ, blockLoop]
      simp only [hconnected, havailable, hwant, hasked, Int.toNat_one, hread, hfine, hpos, hlen,
        decide_true, Bool.and_true, if_true, Nat.one_ne_zero, if_false, htaken, Int.one_ne_zero,
        Bool.false_eq_true]
      rw [← htaken, hfirst, ih (addInt bytesWritten 1) (by rw [addInt_addInt, Int.add_zero]),
        addInt_addInt]
      exact congrArg (fun n => (steady, some (addInt bytesWritten n, false))) (by omega)

/-- A chunk that is fed adds its size to both sums. -/
theorem chunkLoop_steady (ret size : Int) (line : Text) (n : Nat) (bytes : List UInt8)
    (turns : List ChunkTurn) (hn : 0 < n) (hfits : n < 2147483648)
    (hline : steady.readStringUntil 10 (answersOf line) = (steady, bytes)) (hbytes : bytes ≠ [])
    (hlen : strtol 16 (trim (textOf bytes)) = n) :
    chunkLoop ret size steady (chunkOf line n :: turns) =
      chunkLoop (addInt ret n) (addInt size n) steady turns := by
  have hconnected : steady.connected (chunkOf line n).poll = (steady, true) := rfl
  have hread : steady.readStringUntil 10 (chunkOf line n).line = (steady, bytes) := hline
  have htrailing : steady.readBytes 2 (chunkOf line n).trailing = (steady, [13, 10]) := rfl
  have hblock : writeToStreamDataBlock n steady (chunkOf line n).block =
      (steady, some (n : Int)) := by
    have hloop := blockLoop_steady (buffSizeFor n) (by have := buffSizeFor_pos n; omega) n 0 rfl
    rw [addInt_zero_of_size n hfits] at hloop
    unfold writeToStreamDataBlock
    have hturns : (chunkOf line n).block.turns = List.replicate (n + 1) byteTurn := rfl
    have hallocated : (chunkOf line n).block.allocated = true := rfl
    simp only [hturns, hallocated, hloop, Bool.not_true, Bool.false_eq_true, if_false,
      Option.map_some, Bool.false_or, ne_eq, not_true, decide_false, Bool.and_false]
  have hpos : (0 : Int) < n := by omega
  have hnonneg : ¬(n : Int) < 0 := by omega
  rw [chunkLoop]
  simp only [hconnected, hread, hlen, hblock, htrailing, hbytes, hpos, hnonneg, Bool.not_true,
    Bool.false_eq_true, if_false, if_true]

/-- Chunks of 2147483647 bytes and of one, and the last one. -/
def twoGigabytes : List ChunkTurn :=
  [chunkOf "7fffffff\r\n".toList 2147483647, chunkOf "1\r\n".toList 1, chunkOf "0\r\n".toList 0]

/-- Chunks of 2 GiB in all wrap the sum to a negative one. -/
theorem twoGigabytes_complete :
    chunkLoop 0 0 steady twoGigabytes = (steady, .complete (-2147483648) (-2147483648)) := by
  unfold twoGigabytes
  rw [chunkLoop_steady 0 0 _ 2147483647 (bytesOf "7fffffff\r".toList) _ (by omega) (by omega)
      (by decide) (by decide) (by decide),
    chunkLoop_steady _ _ _ 1 (bytesOf "1\r".toList) _ (by omega) (by omega) (by decide) (by decide)
      (by decide)]
  decide

/-- A client that has read the head of a chunked response on a connection that is kept. -/
def chunkedClient : HTTPClient where
  client := some 0
  canReuse := true
  transferEncoding := .chunked

/-- A chunked body that comes at once. -/
def bodyOf (chunks : List ChunkTurn) : BodyScript where
  poll := onePending
  block := ⟨true, []⟩
  chunks := chunks
  left := onePending
  last := onePending

/-- A client that has read the head of a chunked response and keeps its connection. -/
def keeping : World :=
  start chunkedClient (fun _ => steady.net) 1

/-- A head of these lines, each read as it comes. -/
def headOfLines (lines : List Text) : ResponseScript where
  poll := onePending
  moment := ⟨0, fun _ => 0⟩
  turns := lines.map fun line => ⟨onePending, onePending, answersOf line, false⟩

/-- A request over a new connection that is answered by such a head. -/
def roundOf (lines : List Text) : Round where
  dial := ⟨⟨some 0, .wouldBlock⟩, [], true, ⟨some 1, 4, 0⟩⟩
  moment := ⟨0, fun _ => 0⟩
  head := ⟨onePending, fun _ => .sent 1000⟩
  payload := []
  response := headOfLines lines
  url := ⟨onePending, onePending⟩
  last := onePending

/-- A chunk, and one whose line does not come. -/
def cutBody : List ChunkTurn :=
  [chunkOf "5\r\n".toList 5, { chunkOf [] 0 with line := [.wouldBlock] }]

/-- Behind a body that is cut a request is redirected to a path, and the answer to the second
one never comes to its end. -/
def cutAndFetch : List Event :=
  [.writeToStream (some (bodyOf cutBody)) onePending,
    .get [roundOf ["HTTP/1.1 302 Found\r\n".toList, "Location: /x\r\n".toList, "\r\n".toList],
      roundOf ["HTTP/1.1 200 OK\r\n".toList]]]

/-- The client that does so. -/
def redirected : HTTPClient :=
  { chunkedClient with protocol := "http".toList, followRedirects := .strict }

/-- The run that is cut and fetches again stays in step. -/
theorem inStep_of_counts_cut : EventRun.Always (step ⟨false, fun _ => none⟩)
    (InStep ⟨false, fun _ => none⟩) (start redirected (fun _ => steady.net) 1) cutAndFetch := by
  have hshort : Counts (start redirected (fun _ => steady.net) 1)
      (.writeToStream (some (bodyOf cutBody)) onePending) := fun _ => by decide
  have hhttp : (step ⟨false, fun _ => none⟩ (start redirected (fun _ => steady.net) 1)
      (.writeToStream (some (bodyOf cutBody)) onePending)).http = redirected := by decide
  refine inStep_of_counts _ _ _ _ _ ⟨hshort, ⟨fun config h => ?_, Or.inr ?_⟩, trivial⟩
  · rw [hhttp] at h
    cases h
  · rw [hhttp]
    decide

/-- A body read to its end over a kept connection returns its sum and keeps the connection. -/
theorem writeToStream_keeping (chunks : List ChunkTurn) (sum : Int)
    (h : chunkLoop 0 0 steady chunks = (steady, .complete sum sum)) :
    ∃ w', keeping.writeToStream (some (bodyOf chunks)) onePending = (w', .returned sum) ∧
      w'.transport = some steady := by
  have hlook : (keeping.connected (bodyOf chunks).poll).2 = true := rfl
  have htransport : (keeping.connected (bodyOf chunks).poll).1.transport = some steady := rfl
  have hencoding : (keeping.connected (bodyOf chunks).poll).1.http.transferEncoding = .chunked :=
    rfl
  have hsize : (keeping.connected (bodyOf chunks).poll).1.http.size = -1 := rfl
  have hunknown : (-1 : Int) ≤ 0 := by omega
  have hchunks : (bodyOf chunks).chunks = chunks := rfl
  unfold World.writeToStream World.copyBody
  simp only [hlook, htransport, hencoding, hchunks, h, World.http_withTransport, hsize,
    if_pos hunknown, ne_eq, not_true, if_false, Bool.not_true, Bool.false_eq_true]
  exact ⟨_, rfl, rfl⟩

/-- Two gigabytes are copied to the end, their number is returned as an error, and the
connection is kept. -/
theorem kept_behind_error :
    ¬∀ (lib : TimeLibrary) (http : HTTPClient) (objects : Nat → Net.WiFiClient) (fresh : Nat)
      (es : List Event), EventRun.Always (step lib) (InStep lib) (start http objects fresh) es := by
  intro hall
  have hlaw := (hall ⟨false, fun _ => none⟩ chunkedClient (fun _ => steady.net) 1
    [.writeToStream (some (bodyOf twoGigabytes)) onePending]).1
  rcases writeToStream_keeping _ _ twoGigabytes_complete with ⟨w', hcall, htransport⟩
  have hreturned : (perform ⟨false, fun _ => none⟩ keeping
      (.writeToStream (some (bodyOf twoGigabytes)) onePending)) =
        (w', .returned (-2147483648)) := hcall
  have hclosed := hlaw.closed (-2147483648) (by rw [← keeping, hreturned]) (by omega) onePending
  rw [← keeping, step_of_error _ _ _ (by rw [hreturned]) (by omega), hreturned] at hclosed
  have hopen : ((w'.withTransport Transport.fail).connected onePending).2 = true := by
    refine (World.connected_eq_true _ _).2 ⟨steady.fail, ?_, rfl⟩
    rw [World.transport_withTransport, htransport]
    rfl
  rw [hopen] at hclosed
  cases hclosed

end Exits

end Http

end ArduinoBeken
