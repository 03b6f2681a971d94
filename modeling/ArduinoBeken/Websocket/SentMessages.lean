import ArduinoBeken.Websocket.WebSocketClient

/-!
# What the Server Reads of the Client's Messages

Every run of calls on an upgraded connection sends whole frames: the bytes that went out read
back as one final frame for each message that was ended, with its type, its key and what its
writes kept (`run_reads_back`). The run comes to its end unless a write finds more than eight
bytes in the buffer and no room behind them, in which case the copy runs past the buffer.

## Main definitions

* `Outbox`: What is being composed, and the frames that were sent.
* `Refines`, `Simulates`: A client and its outbox.

## Theorems

* `lengthField_eq`, `encode_final`: The bytes of a frame.
* `simulates_write`, `simulates_endMessage`: One call.
* `run_reads_back`: Runs of calls.
-/

namespace ArduinoBeken

namespace Websocket

open CheckedBytes (Block Fault load store exists_store exists_load take_store)
open Mqtt (Link)
open WebSocketFrames

/-- A message that is being composed, and the frames that were sent. -/
structure Outbox where
  pending : Option (Fin 16 × List UInt8) := none
  frames : List Frame := []

namespace Outbox

/-- A message is begun if none is. -/
def beginMessage (o : Outbox) (aType : Int) : Outbox :=
  if o.pending.isSome then o
  else { o with pending := some (kind (aType % 16).toNat, []) }

/-- What a write keeps behind so many bytes. -/
def kept (size : Nat) (data : List UInt8) : List UInt8 :=
  if size + data.length ≤ WS_TX_BUFFER_SIZE then data else data.take (8 - size)

/-- Nothing comes of a write behind the eighth byte for which there is no room. -/
def write (o : Outbox) (data : List UInt8) : Option Outbox :=
  match o.pending with
  | none => some o
  | some (opcode, said) =>
    if 8 < said.length ∧ WS_TX_BUFFER_SIZE < said.length + data.length then none
    else some { o with pending := some (opcode, said ++ kept said.length data) }

/-- The message becomes a frame. -/
def endMessage (o : Outbox) (maskKey : Key) : Outbox :=
  match o.pending with
  | none => o
  | some (opcode, said) => ⟨none, o.frames ++ [⟨true, opcode, some maskKey, said⟩]⟩

/-- What a call does to the messages, if it comes to its end. -/
def step (o : Outbox) : WebSocketClient.Call → Option Outbox
  | .beginMessage aType => some (o.beginMessage aType)
  | .write aBuffer => o.write aBuffer
  | .endMessage maskKey => some (o.endMessage maskKey)
  | .ping pingData maskKey =>
    ((o.beginMessage TYPE_PING).write pingData.1).map (·.endMessage maskKey)
  | .pong payload maskKey =>
    (payload.foldlM (fun (o : Outbox) b => o.write [b]) (o.beginMessage TYPE_PONG)).map
      (·.endMessage maskKey)

/-- Calls one after the other. -/
def run (o : Outbox) (calls : List WebSocketClient.Call) : Option Outbox :=
  calls.foldlM step o

end Outbox

namespace WebSocketClient

/-! ### The bytes of a frame -/

theorem lengthField_ofNat : ∀ n : Fin 129, lengthField (UInt64.ofNat n) =
    UInt8.ofNat (128 + shortLength n) :: extended n := by
  decide +kernel

theorem lengthField_eq {iTxSize : UInt64} {n : Nat} (h : iTxSize.toNat = n) (hn : n ≤ 128) :
    lengthField iTxSize = UInt8.ofNat (128 + shortLength n) :: extended n := by
  have hsize : iTxSize = UInt64.ofNat n := by
    rw [← h, UInt64.ofNat_toNat]
  rw [hsize]
  exact lengthField_ofNat ⟨n, Nat.lt_succ_of_le hn⟩

theorem firstByte : ∀ opcode : Fin 16,
    (0x80 : UInt8) ||| UInt8.ofNat opcode = UInt8.ofNat (flag true + opcode) := by
  decide

/-- A frame is what `endMessage` writes one after the other. -/
theorem encode_final (opcode : Fin 16) (key : Key) (said : List UInt8) {iTxSize : UInt64}
    (h : iTxSize.toNat = said.length) (hn : said.length ≤ 128) :
    (⟨true, opcode, some key, said⟩ : Frame).encode =
      ((0x80 ||| UInt8.ofNat opcode) :: lengthField iTxSize) ++ List.ofFn key ++
        mask key 0 said := by
  have hkey : List.ofFn key = [key 0, key 1, key 2, key 3] := rfl
  rw [Frame.encode, firstByte, lengthField_eq h hn, hkey, List.cons_append, List.cons_append,
    List.append_assoc]
  rfl

/-! ### Writes of the connection -/

/-- The client after the data went out. -/
def putting (c : WebSocketClient) (data : List UInt8) : WebSocketClient :=
  { c with iClient := { c.iClient with sent := c.iClient.sent ++ data } }

/-- The headers are done, and the connection takes what is written. -/
structure Upgraded (c : WebSocketClient) : Prop where
  takes : c.iClient.Takes
  state : HttpState.readingBody.rank ≤ c.iState.rank

variable {c c' : WebSocketClient} {o o' : Outbox} {before : List UInt8}

theorem Upgraded.putting (h : Upgraded c) (data : List UInt8) : Upgraded (c.putting data) :=
  ⟨h.takes, h.state⟩

theorem httpWrite_eq (h : Upgraded c) (data : List UInt8) :
    c.httpWrite data = (data.length, c.putting data) := by
  have hstate : ¬ c.iState.rank < HttpState.requestSent.rank := by
    have := h.state
    change 8 ≤ c.iState.rank at this
    change ¬ c.iState.rank < 2
    omega
  rw [httpWrite, if_neg hstate, Link.write_of_takes h.takes]
  rfl

theorem putting_putting (c : WebSocketClient) (d e : List UInt8) :
    (c.putting d).putting e = c.putting (d ++ e) := by
  rw [WebSocketClient.putting, WebSocketClient.putting, WebSocketClient.putting,
    List.append_assoc]

theorem httpWriteEach_eq (h : Upgraded c) (bytes : List UInt8) :
    c.httpWriteEach bytes = c.putting bytes := by
  -- a byte at a time, from whatever was sent before
  have hall : ∀ (bytes d : List UInt8),
      (c.putting d).httpWriteEach bytes = c.putting (d ++ bytes) := by
    intro bytes
    induction bytes with
    | nil => intro d; rw [List.append_nil]; rfl
    | cons b bytes ih =>
        intro d
        have hone : ((c.putting d).httpWrite [b]).2 = c.putting (d ++ [b]) := by
          rw [httpWrite_eq (h.putting d), putting_putting]
        have hrest := ih (d ++ [b])
        rw [List.append_assoc, List.singleton_append] at hrest
        rw [← hrest, ← hone]
        rfl
  have hstart : c = c.putting [] := by
    rw [WebSocketClient.putting, List.append_nil]
  conv_lhs => rw [hstart]
  rw [hall bytes [], List.nil_append]

/-! ### Clients and their outboxes -/

/-- The client composes the message of the outbox, and has sent its frames since then. -/
structure Refines (before : List UInt8) (c : WebSocketClient) (o : Outbox) : Prop where
  upgraded : Upgraded c
  sent : c.iClient.sent = before ++ o.frames.flatMap Frame.encode
  started : c.iTxStarted = o.pending.isSome
  composed : ∀ opcode said, o.pending = some (opcode, said) →
    c.iTxMessageType = UInt8.ofNat opcode.val ∧ c.iTxSize.toNat = said.length ∧
      said.length ≤ WS_TX_BUFFER_SIZE ∧ c.iTxBuffer.1.take said.length = said
  small : ∀ f ∈ o.frames, f.payload.length ≤ WS_TX_BUFFER_SIZE

/-- The client ends as its outbox says, and runs past the buffer where there is none. -/
structure Simulates (before : List UInt8) (r : Except Fault WebSocketClient)
    (a : Option Outbox) : Prop where
  ends : ∀ o, a = some o → ∃ c, r = .ok c ∧ Refines before c o
  faults : a = none → ∃ f, r = .error f

theorem simulates_ok (h : Refines before c o) : Simulates before (.ok c) (some o) :=
  ⟨fun _ ho => ⟨c, rfl, (Option.some.inj ho) ▸ h⟩, fun hnone => (by cases hnone)⟩

theorem Simulates.bind {r : Except Fault WebSocketClient} {a : Option Outbox}
    (h : Simulates before r a) {g : WebSocketClient → Except Fault WebSocketClient}
    {k : Outbox → Option Outbox}
    (hnext : ∀ c o, Refines before c o → Simulates before (g c) (k o)) :
    Simulates before (r >>= g) (a >>= k) := by
  cases a with
  | none =>
      obtain ⟨f, rfl⟩ := h.faults rfl
      exact ⟨fun o ho => (by cases ho), fun _ => ⟨f, rfl⟩⟩
  | some o =>
      obtain ⟨c, rfl, hc⟩ := h.ends o rfl
      exact hnext c o hc

theorem Simulates.foldlM {ε : Type} {g : WebSocketClient → ε → Except Fault WebSocketClient}
    {k : Outbox → ε → Option Outbox}
    (hstep : ∀ c o e, Refines before c o → Simulates before (g c e) (k o e)) (es : List ε) :
    ∀ c o, Refines before c o → Simulates before (es.foldlM g c) (es.foldlM k o) := by
  induction es with
  | nil =>
      intro c o h
      rw [List.foldlM_nil, List.foldlM_nil]
      exact simulates_ok h
  | cons e es ih =>
      intro c o h
      rw [List.foldlM_cons, List.foldlM_cons]
      exact (hstep c o e h).bind ih

theorem refines_beginMessage (h : Refines before c o) (aType : Int) :
    Refines before (c.beginMessage aType).2 (o.beginMessage aType) := by
  rw [beginMessage, Outbox.beginMessage, h.started]
  by_cases hpending : o.pending.isSome = true
  · rw [if_pos hpending, if_pos hpending]
    exact h
  · rw [if_neg hpending, if_neg hpending]
    refine ⟨⟨h.upgraded.takes, h.upgraded.state⟩, h.sent, rfl, fun opcode said hsaid => ?_,
      h.small⟩
    rw [Option.some.injEq, Prod.mk.injEq] at hsaid
    obtain ⟨rfl, rfl⟩ := hsaid
    refine ⟨?_, rfl, Nat.zero_le _, rfl⟩
    have hlt : (aType % 16).toNat < 16 := by omega
    change UInt8.ofNat (aType % 16).toNat = UInt8.ofNat ((aType % 16).toNat % 16)
    rw [Nat.mod_eq_of_lt hlt]

/-- How much is copied behind so many bytes. -/
theorem copied_eq {iTxSize : UInt64} {n : Nat} (h : iTxSize.toNat = n)
    (hn : n ≤ WS_TX_BUFFER_SIZE) (aSize : Nat) :
    (8 < n ∧ WS_TX_BUFFER_SIZE < n + aSize → 2 ^ 31 ≤ copied iTxSize aSize) ∧
      (¬ (8 < n ∧ WS_TX_BUFFER_SIZE < n + aSize) → copied iTxSize aSize =
        if n + aSize ≤ WS_TX_BUFFER_SIZE then aSize else 8 - n) := by
  change n ≤ 128 at hn
  have hwrap : (8 - iTxSize).toUInt32.toNat = (2 ^ 64 - n + 8) % 2 ^ 64 % 2 ^ 32 := by
    rw [UInt64.toNat_toUInt32, UInt64.toNat_sub, h]
    rfl
  unfold copied WS_TX_BUFFER_SIZE
  rw [h, hwrap]
  constructor
  · intro hover
    rw [if_pos hover.2]
    omega
  · intro hfits
    split_ifs <;> omega

theorem simulates_write (h : Refines before c o) (data : List UInt8) :
    Simulates before (Prod.snd <$> c.write data) (o.write data) := by
  have hstate : ¬ c.iState.rank < HttpState.readingBody.rank := Nat.not_lt.2 h.upgraded.state
  rw [write, if_neg hstate, h.started]
  cases hpending : o.pending with
  | none =>
      rw [Outbox.write, hpending]
      exact simulates_ok h
  | some message =>
      obtain ⟨opcode, said⟩ := message
      obtain ⟨htype, hsize, hle, hbuffer⟩ := h.composed opcode said hpending
      obtain ⟨hover, hfits⟩ := copied_eq hsize hle data.length
      have hroom : WS_TX_BUFFER_SIZE = 128 := rfl
      rw [Outbox.write, hpending]
      dsimp only
      rw [Option.isSome_some, Bool.not_true, if_neg Bool.false_ne_true]
      -- more than the room is copied only once eight bytes are there
      by_cases hfault : 8 < said.length ∧ WS_TX_BUFFER_SIZE < said.length + data.length
      · rw [if_pos hfault]
        refine ⟨fun o ho => (by cases ho), fun _ => ?_⟩
        -- what is read is longer than the buffer, if it is there to be read at all
        have hlong := hover hfault
        cases hload : load data 0 (copied c.iTxSize data.length) with
        | error f => exact ⟨f, by rfl⟩
        | ok read =>
            have hstore : ¬ c.iTxSize.toNat + read.1.length ≤ WS_TX_BUFFER_SIZE := by
              rw [read.2]
              omega
            refine ⟨⟨.write, c.iTxSize.toNat, read.1.length, WS_TX_BUFFER_SIZE⟩, ?_⟩
            change Prod.snd <$> (store c.iTxBuffer c.iTxSize.toNat read.1 >>= _) = _
            rw [store, dif_neg hstore]
            rfl
      · rw [if_neg hfault, hfits hfault]
        -- what is kept is all that is given, or what fills the first eight bytes
        obtain ⟨count, hcount⟩ : ∃ count, count =
            if said.length + data.length ≤ WS_TX_BUFFER_SIZE then data.length
            else 8 - said.length := ⟨_, rfl⟩
        have hkept : Outbox.kept said.length data = data.take count := by
          rw [Outbox.kept, hcount]
          split_ifs
          · exact (List.take_length).symm
          · rfl
        have hcountle : 0 + count ≤ data.length := by
          rw [hcount]
          split_ifs <;> omega
        have hend : said.length + count ≤ WS_TX_BUFFER_SIZE := by
          rw [hcount]
          split_ifs <;> omega
        rw [← hcount, hkept]
        obtain ⟨read, hload, hread⟩ := exists_load data 0 count hcountle
        rw [List.drop_zero] at hread
        have hlen : (data.take count).length = count := by
          rw [List.length_take]
          omega
        obtain ⟨b, hstore⟩ := exists_store c.iTxBuffer c.iTxSize.toNat read.1 (by
          rw [read.2, hsize]
          exact hend)
        rw [hload]
        change Simulates before (Prod.snd <$> (store c.iTxBuffer c.iTxSize.toNat read.1 >>= _)) _
        rw [hstore]
        refine simulates_ok ⟨⟨h.upgraded.takes, h.upgraded.state⟩, h.sent, rfl,
          fun opcode' said' hsaid => ?_, h.small⟩
        -- the message goes on where it ended
        rw [Option.some.injEq, Prod.mk.injEq] at hsaid
        obtain ⟨rfl, rfl⟩ := hsaid
        have hnew : (c.iTxSize + UInt64.ofNat count).toNat = said.length + count := by
          rw [UInt64.toNat_add, UInt64.toNat_ofNat', hsize]
          omega
        have htake := take_store c.iTxBuffer b c.iTxSize.toNat read.1 hstore
        rw [hsize, read.2, hbuffer, hread] at htake
        rw [List.length_append, hlen]
        exact ⟨htype, hnew, hend, htake⟩

theorem simulates_endMessage (h : Refines before c o) (maskKey : Key) :
    Simulates before (Prod.snd <$> c.endMessage maskKey) (some (o.endMessage maskKey)) := by
  rw [endMessage, h.started, Outbox.endMessage]
  cases hpending : o.pending with
  | none => exact simulates_ok h
  | some message =>
      obtain ⟨opcode, said⟩ := message
      obtain ⟨htype, hsize, hle, hbuffer⟩ := h.composed opcode said hpending
      rw [Option.isSome_some, Bool.not_true, if_neg Bool.false_ne_true]
      have hheader := httpWriteEach_eq h.upgraded
        ((0x80 ||| c.iTxMessageType) :: lengthField c.iTxSize)
      have hkey := httpWrite_eq (h.upgraded.putting
        ((0x80 ||| c.iTxMessageType) :: lengthField c.iTxSize)) (List.ofFn maskKey)
      dsimp only
      rw [hheader, hkey, putting_putting]
      -- the header goes out byte by byte, the key behind it
      obtain ⟨d, hd⟩ : ∃ d, d = ((0x80 ||| c.iTxMessageType) :: lengthField c.iTxSize) ++
        List.ofFn maskKey := ⟨_, rfl⟩
      rw [← hd]
      have hroom : 0 + c.iTxSize.toNat ≤ c.iTxBuffer.1.length := by
        rw [c.iTxBuffer.2, hsize, Nat.zero_add]
        exact hle
      obtain ⟨read, hload, hread⟩ := exists_load c.iTxBuffer.1 0 c.iTxSize.toNat hroom
      have hsaid : read.1 = said := by rw [hread, List.drop_zero, hsize, hbuffer]
      -- the payload is masked in its own buffer and sent from there
      obtain ⟨b, hstore⟩ := exists_store c.iTxBuffer 0 (mask maskKey 0 read.1) (by
        rw [length_mask, hsaid, Nat.zero_add]
        exact hle)
      obtain ⟨out, hload', hout⟩ := exists_load b.1 0 c.iTxSize.toNat (by
        rw [b.2, hsize, Nat.zero_add]
        exact hle)
      have htake := take_store c.iTxBuffer b 0 (mask maskKey 0 read.1) hstore
      rw [Nat.zero_add, length_mask, hsaid, List.take_zero, List.nil_append] at htake
      have hcovered : out.1 = mask maskKey 0 said := by
        rw [hout, List.drop_zero, hsize, htake]
      change Simulates before (Prod.snd <$> (load c.iTxBuffer.1 0 c.iTxSize.toNat >>= _)) _
      rw [hload]
      change Simulates before (Prod.snd <$> (store c.iTxBuffer 0 (mask maskKey 0 read.1) >>= _)) _
      rw [hstore]
      change Simulates before (Prod.snd <$> (load b.1 0 c.iTxSize.toNat >>= _)) _
      rw [hload']
      have hlast := httpWrite_eq (c := { c.putting d with
        iTxBuffer := b, iTxStarted := false, iTxSize := 0 })
        ⟨h.upgraded.takes, h.upgraded.state⟩ out.1
      change Simulates before (.ok ({ c.putting d with
        iTxBuffer := b, iTxStarted := false, iTxSize := 0 }.httpWrite out.1).2) _
      rw [hlast, hcovered]
      refine simulates_ok ⟨⟨h.upgraded.takes, h.upgraded.state⟩, ?_, rfl,
        fun _ _ hnone => (by cases hnone), fun f hf => ?_⟩
      -- the three writes are the encoding of one final frame
      · change c.iClient.sent ++ d ++ mask maskKey 0 said = _
        rw [h.sent, List.flatMap_append, List.flatMap_singleton,
          encode_final opcode maskKey said hsize hle, ← htype, ← hd, List.append_assoc,
          List.append_assoc]
      · rcases List.mem_append.1 hf with hf | hf
        · exact h.small f hf
        · rw [List.mem_singleton.1 hf]
          exact hle

/-! ### Runs -/

theorem map_bind_snd {α : Type} (x : Except Fault (α × WebSocketClient))
    (g : WebSocketClient → Except Fault (Bool × WebSocketClient)) :
    Prod.snd <$> (x >>= fun r => g r.2) = (Prod.snd <$> x) >>= fun c => Prod.snd <$> g c := by
  cases x <;> rfl

theorem map_bind_client (x : Except Fault WebSocketClient)
    (g : WebSocketClient → Except Fault (Bool × WebSocketClient)) :
    Prod.snd <$> (x >>= g) = x >>= fun c => Prod.snd <$> g c := by
  cases x <;> rfl

theorem simulates_step (c : WebSocketClient) (o : Outbox) (call : Call)
    (h : Refines before c o) : Simulates before (c.step call) (o.step call) := by
  cases call with
  | beginMessage aType => exact simulates_ok (refines_beginMessage h aType)
  | write aBuffer => exact simulates_write h aBuffer
  | endMessage maskKey => exact simulates_endMessage h maskKey
  -- a ping is a message that is begun, written and ended
  | ping pingData maskKey =>
      have hwrite := simulates_write (refines_beginMessage h TYPE_PING) pingData.1
      have hboth := hwrite.bind fun c o h => simulates_endMessage h maskKey
      have hstep : c.step (.ping pingData maskKey) =
          ((Prod.snd <$> (c.beginMessage TYPE_PING).2.write pingData.1) >>=
            fun c => Prod.snd <$> c.endMessage maskKey) :=
        map_bind_snd _ fun c => c.endMessage maskKey
      rw [hstep, Outbox.step, Option.map_eq_bind]
      exact hboth
  -- a pong is written byte by byte
  | pong payload maskKey =>
      have hwrites := Simulates.foldlM (fun _ _ b h => simulates_write h [b]) payload _ _
        (refines_beginMessage h TYPE_PONG)
      have hboth := hwrites.bind fun c o h => simulates_endMessage h maskKey
      have hstep : c.step (.pong payload maskKey) =
          ((payload.foldlM (fun c b => Prod.snd <$> c.write [b]) (c.beginMessage TYPE_PONG).2) >>=
            fun c => Prod.snd <$> c.endMessage maskKey) :=
        map_bind_client _ fun c => c.endMessage maskKey
      rw [hstep, Outbox.step, Option.map_eq_bind]
      exact hboth

theorem simulates_run (c : WebSocketClient) (calls : List Call)
    (hstate : HttpState.readingBody.rank ≤ c.iState.rank) (htakes : c.iClient.Takes)
    (hidle : c.iTxStarted = false) :
    Simulates c.iClient.sent (c.run calls) (Outbox.run {} calls) :=
  Simulates.foldlM simulates_step calls c {}
    ⟨⟨htakes, hstate⟩, (List.append_nil _).symm, hidle, fun _ _ hnone => (by cases hnone),
      fun f hf => (by cases hf)⟩

theorem sent_of_run (c : WebSocketClient) (calls : List Call)
    (hstate : HttpState.readingBody.rank ≤ c.iState.rank) (htakes : c.iClient.Takes)
    (hidle : c.iTxStarted = false) (hrun : c.run calls = .ok c') :
    ∃ o bytes, Outbox.run {} calls = some o ∧ c'.iClient.sent = c.iClient.sent ++ bytes ∧
      readFrames bytes.length bytes = some o.frames := by
  have hsim := simulates_run c calls hstate htakes hidle
  cases hout : Outbox.run {} calls with
  | none =>
      obtain ⟨f, hf⟩ := hsim.faults hout
      rw [hrun] at hf
      cases hf
  | some o =>
      obtain ⟨c'', hc'', h'⟩ := hsim.ends o hout
      rw [hrun, Except.ok.injEq] at hc''
      refine ⟨o, o.frames.flatMap Frame.encode, rfl, hc'' ▸ h'.sent, ?_⟩
      refine readFrames_encode o.frames (fun f hf => ?_) _ (length_le_flatMap o.frames)
      exact (h'.small f hf).trans_lt (by decide)

/-- What a run sends reads back as the frames of its messages, and a run comes to its end
unless a write runs past the buffer. -/
theorem run_reads_back (c : WebSocketClient) (calls : List Call)
    (hstate : HttpState.readingBody.rank ≤ c.iState.rank) (htakes : c.iClient.Takes)
    (hidle : c.iTxStarted = false) :
    ((∃ c', c.run calls = .ok c') ↔ (Outbox.run {} calls).isSome = true) ∧
      ∀ c', c.run calls = .ok c' → ∃ o bytes, Outbox.run {} calls = some o ∧
        c'.iClient.sent = c.iClient.sent ++ bytes ∧
        readFrames bytes.length bytes = some o.frames := by
  have hsim := simulates_run c calls hstate htakes hidle
  refine ⟨⟨fun hends => ?_, fun hsome => ?_⟩,
    fun c' hrun => sent_of_run c calls hstate htakes hidle hrun⟩
  · obtain ⟨c', hrun⟩ := hends
    obtain ⟨o, -, hout, -⟩ := sent_of_run c calls hstate htakes hidle hrun
    rw [hout]
    rfl
  · obtain ⟨o, hout⟩ := Option.isSome_iff_exists.1 hsome
    obtain ⟨c', hrun, -⟩ := hsim.ends o hout
    exact ⟨c', hrun⟩

/-- A short text on a fresh connection, and the frame that the server reads. -/
theorem run_reads_back_demo :
    ∃ c' bytes, run ⟨{ source := ⟨[], .stays⟩ }, .readingBody, false, 0, Block.zeros 128, 0⟩
        [.beginMessage 1, .write [104, 105], .endMessage ![1, 2, 3, 4]] = .ok c' ∧
      c'.iClient.sent = bytes ∧
      readFrames bytes.length bytes = some [⟨true, 1, some ![1, 2, 3, 4], [104, 105]⟩] := by
  have hlaw := run_reads_back ⟨{ source := ⟨[], .stays⟩ }, .readingBody, false, 0,
    Block.zeros 128, 0⟩ [.beginMessage 1, .write [104, 105], .endMessage ![1, 2, 3, 4]]
    (Nat.le_refl 8) ⟨rfl, rfl⟩ rfl
  obtain ⟨c', hrun⟩ := hlaw.1.2 rfl
  obtain ⟨o, bytes, hout, hsent, hframes⟩ := hlaw.2 c' hrun
  have hone : Outbox.run {} [.beginMessage 1, .write [104, 105], .endMessage ![1, 2, 3, 4]] =
      some ⟨none, [⟨true, 1, some ![1, 2, 3, 4], [104, 105]⟩]⟩ := rfl
  obtain rfl := Option.some.inj (hout.symm.trans hone)
  exact ⟨c', bytes, hrun, hsent, hframes⟩

end WebSocketClient

end Websocket

end ArduinoBeken
