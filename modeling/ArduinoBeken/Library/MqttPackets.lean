import Mathlib.Data.List.Basic
import Mathlib.Tactic.SplitIfs
import Mathlib.Tactic.Ring
import Mathlib.Tactic.Linarith

/-!
# Control Packets of MQTT 3.1.1

The packets that a client and a server send each other, and their bytes: a header, the length
of the body in up to four groups of seven bits, and the body. A stream of packets is their
bytes one behind the other, and every packet knows where it ends, so that a reader finds the
packets again.

A message is delivered at most once or at least once; in the second case it has an identifier,
which its receiver acknowledges. Nothing here is specific to one implementation.

## Main definitions

* `lengthBytes`, `readLength`: Lengths.
* `Frame`, `Frame.encode`, `readFrames`: Headers and bodies.
* `Packet`, `Packet.frame`, `Packet.ofFrame`: Packets and their frames.
* `encodeAll`, `decodeAll`: Packets and their bytes.

## Theorems

* `readLength_lengthBytes`: Lengths are read back.
* `readFrames_encode`: Frames are read back.
* `ofFrame_frame`: Packets are read back from their frames.
* `decodeAll_encodeAll`: Packets are read back from their bytes.
-/

namespace MqttPackets

/-! ### Lengths -/

/-- Groups of seven bits, the lowest first, of which there are at most `k`. The top bit of a
byte says that more follow. -/
def lengthBytes : Nat → Nat → List UInt8
  | 0, _ => []
  | k + 1, n =>
    if n < 128 then [UInt8.ofNat n] else UInt8.ofNat (n % 128 + 128) :: lengthBytes k (n / 128)

/-- The length field's first byte, and the field of what is left. -/
theorem lengthBytes_succ (k n : Nat) : lengthBytes (k + 1) n =
    if n < 128 then [UInt8.ofNat n] else UInt8.ofNat (n % 128 + 128) :: lengthBytes k (n / 128) :=
  rfl

/-- The length that bytes begin with, and what follows it. -/
def readLength : Nat → List UInt8 → Option (Nat × List UInt8)
  | 0, _ => none
  | _ + 1, [] => none
  | k + 1, b :: rest =>
    if b.toNat < 128 then some (b.toNat, rest)
    else (readLength k rest).map fun r => (b.toNat - 128 + 128 * r.1, r.2)

/-- A length that fits its bytes is read back, with the rest behind it. -/
theorem readLength_lengthBytes (k n : Nat) (rest : List UInt8) (h : n < 128 ^ (k + 1)) :
    readLength (k + 1) (lengthBytes (k + 1) n ++ rest) = some (n, rest) := by
  -- induction on the bytes the field may have
  induction k generalizing n with
  | zero =>
      rw [Nat.zero_add, pow_one] at h
      have hb : (UInt8.ofNat n).toNat = n := by
        rw [UInt8.toNat_ofNat']
        omega
      rw [lengthBytes, if_pos h, List.singleton_append, readLength, hb, if_pos h]
  | succ k ih =>
      rw [lengthBytes]
      by_cases hn : n < 128
      · have hb : (UInt8.ofNat n).toNat = n := by
          rw [UInt8.toNat_ofNat']
          omega
        rw [if_pos hn, List.singleton_append, readLength, hb, if_pos hn]
      -- the first byte has its top bit set, so the reader goes on
      · have hb : (UInt8.ofNat (n % 128 + 128)).toNat = n % 128 + 128 := by
          rw [UInt8.toNat_ofNat']
          omega
        have hrest : n / 128 < 128 ^ (k + 1) := by
          rw [pow_succ] at h
          omega
        rw [if_neg hn, List.cons_append, readLength, hb, if_neg (by omega), ih _ hrest,
          Option.map_some]
        congr 2
        omega

/-- More groups than it takes make no difference. -/
theorem lengthBytes_of_le {k m n : Nat} (h : n < 128 ^ (k + 1)) (hkm : k ≤ m) :
    lengthBytes (m + 1) n = lengthBytes (k + 1) n := by
  -- a field that ends early ends alike, whatever its room
  induction k generalizing m n with
  | zero =>
      rw [Nat.zero_add, pow_one] at h
      rw [lengthBytes, lengthBytes, if_pos h, if_pos h]
  | succ k ih =>
      obtain ⟨m, rfl⟩ := Nat.exists_eq_add_of_le' (show 1 ≤ m by omega)
      rw [lengthBytes_succ (m + 1), lengthBytes_succ (k + 1)]
      by_cases hn : n < 128
      · rw [if_pos hn, if_pos hn]
      · have hrest : n / 128 < 128 ^ (k + 1) := by
          rw [pow_succ] at h
          omega
        rw [if_neg hn, if_neg hn, ih hrest (by omega)]

/-- A length field has at most its bytes. -/
theorem length_lengthBytes_le (k n : Nat) : (lengthBytes k n).length ≤ k := by
  induction k generalizing n with
  | zero => exact Nat.le_refl 0
  | succ k ih =>
      rw [lengthBytes]
      split_ifs
      · exact Nat.succ_le_succ (Nat.zero_le k)
      · exact Nat.succ_le_succ (ih (n / 128))

/-- A length field is never empty. -/
theorem length_lengthBytes_pos (k n : Nat) : 0 < (lengthBytes (k + 1) n).length := by
  rw [lengthBytes]
  split_ifs
  · exact Nat.one_pos
  · exact Nat.succ_pos _

/-! ### Frames -/

/-- The header of a packet and its body. -/
structure Frame where
  header : UInt8
  body : List UInt8
deriving DecidableEq, Repr

/-- The bytes of a frame: the header, the length of the body, and the body. -/
def Frame.encode (f : Frame) : List UInt8 :=
  f.header :: (lengthBytes 4 f.body.length ++ f.body)

/-- There are four groups for the length of the body. -/
def Frame.Small (f : Frame) : Prop := f.body.length < 128 ^ 4

/-- The frame that bytes begin with, and what follows it. -/
def readFrame : List UInt8 → Option (Frame × List UInt8)
  | [] => none
  | header :: rest =>
    match readLength 4 rest with
    | none => none
    | some (n, rest) =>
      if n ≤ rest.length then some (⟨header, rest.take n⟩, rest.drop n) else none

/-- The frames that bytes are, of which there are at most `k`. -/
def readFrames : Nat → List UInt8 → Option (List Frame)
  | _, [] => some []
  | 0, _ :: _ => none
  | k + 1, b :: bytes =>
    match readFrame (b :: bytes) with
    | none => none
    | some (f, rest) => (readFrames k rest).map (f :: ·)

/-- A small frame is read back, with the rest behind it. -/
theorem readFrame_encode (f : Frame) (rest : List UInt8) (h : f.Small) :
    readFrame (f.encode ++ rest) = some (f, rest) := by
  rw [Frame.encode, List.cons_append, List.append_assoc, readFrame,
    readLength_lengthBytes _ _ _ h]
  dsimp only
  rw [if_pos (by rw [List.length_append]; exact Nat.le_add_right _ _),
    List.take_left' rfl, List.drop_left' rfl]

/-- Small frames written one after the other are read back. -/
theorem readFrames_encode (fs : List Frame) (k : Nat) (h : ∀ f ∈ fs, f.Small)
    (hk : fs.length ≤ k) : readFrames k (fs.flatMap Frame.encode) = some fs := by
  induction fs generalizing k with
  | nil =>
      rw [List.flatMap_nil, readFrames]
  | cons f fs ih =>
      rw [List.length_cons] at hk
      obtain ⟨k, rfl⟩ := Nat.exists_eq_add_of_le' (show 1 ≤ k by omega)
      have hread := readFrame_encode f (fs.flatMap Frame.encode) (h f List.mem_cons_self)
      rw [Frame.encode, List.cons_append] at hread
      rw [List.flatMap_cons, Frame.encode, List.cons_append, readFrames, hread]
      dsimp only
      rw [ih k (fun g hg => h g (List.mem_cons_of_mem f hg)) (by omega), Option.map_some]

/-! ### Packets -/

/-- A message: with an identifier it is delivered at least once, without at most once. -/
structure Publish where
  dup : Bool
  retain : Bool
  id : Option UInt16
  topic : List UInt8
  payload : List UInt8
deriving DecidableEq, Repr

/-- What the server publishes when the client is gone. -/
structure Will where
  topic : List UInt8
  message : List UInt8
  qos : Fin 3
  retain : Bool
deriving DecidableEq, Repr

/-- What a client says of itself. There is no password without a user. -/
structure Connect where
  client : List UInt8
  clean : Bool
  keepAlive : UInt16
  will : Option Will
  user : Option (List UInt8 × Option (List UInt8))
deriving DecidableEq, Repr

/-- The packets of a client and of a broker, for one topic at a time. -/
inductive Packet where
  | connect (c : Connect)
  | connack (present : Bool) (code : UInt8)
  | publish (m : Publish)
  | puback (id : UInt16)
  | subscribe (id : UInt16) (topic : List UInt8) (qos : UInt8)
  | suback (id : UInt16) (code : UInt8)
  | unsubscribe (id : UInt16) (topic : List UInt8)
  | unsuback (id : UInt16)
  | pingreq
  | pingresp
  | disconnect
deriving DecidableEq, Repr

/-- Two bytes, the higher one in front. -/
def word (n : Nat) : List UInt8 :=
  [UInt8.ofNat (n / 256), UInt8.ofNat (n % 256)]

/-- A text, with its length in front. -/
def text (t : List UInt8) : List UInt8 :=
  word t.length ++ t

/-- A bit of a byte. -/
def flag (b : Bool) (n : Nat) : Nat :=
  if b then n else 0

/-- The bits that tell of a will. -/
def willBits : Option Will → Nat
  | none => 0
  | some w => 4 + w.qos.1 * 8 + flag w.retain 32

/-- The bits that tell of a user and a password. -/
def userBits : Option (List UInt8 × Option (List UInt8)) → Nat
  | none => 0
  | some (_, password) => 128 + flag password.isSome 64

/-- The bits of a connection that say what follows. -/
def Connect.flags (c : Connect) : UInt8 :=
  UInt8.ofNat (flag c.clean 2 + willBits c.will + userBits c.user)

/-- The texts of a will. -/
def willBytes : Option Will → List UInt8
  | none => []
  | some w => text w.topic ++ text w.message

/-- The texts of a user and a password. -/
def userBytes : Option (List UInt8 × Option (List UInt8)) → List UInt8
  | none => []
  | some (user, none) => text user
  | some (user, some password) => text user ++ text password

/-- The body of a connection: the protocol with its level, the flags, and the texts that they
tell of. -/
def Connect.body (c : Connect) : List UInt8 :=
  text [77, 81, 84, 84] ++ 4 :: c.flags :: (word c.keepAlive.toNat ++ (text c.client ++
    (willBytes c.will ++ userBytes c.user)))

/-- The header of a message, with its bits. -/
def Publish.header (m : Publish) : UInt8 :=
  UInt8.ofNat (48 + flag m.dup 8 + flag m.id.isSome 2 + flag m.retain 1)

/-- The body of a message: the topic, the id if it has one, and the payload. -/
def Publish.body (m : Publish) : List UInt8 :=
  text m.topic ++ ((match m.id with
    | none => []
    | some id => word id.toNat) ++ m.payload)

/-- The frame of a packet. -/
def Packet.frame : Packet → Frame
  | .connect c => ⟨16, c.body⟩
  | .connack present code => ⟨32, [UInt8.ofNat (flag present 1), code]⟩
  | .publish m => ⟨m.header, m.body⟩
  | .puback id => ⟨64, word id.toNat⟩
  | .subscribe id topic qos => ⟨130, word id.toNat ++ (text topic ++ [qos])⟩
  | .suback id code => ⟨144, word id.toNat ++ [code]⟩
  | .unsubscribe id topic => ⟨162, word id.toNat ++ text topic⟩
  | .unsuback id => ⟨176, word id.toNat⟩
  | .pingreq => ⟨192, []⟩
  | .pingresp => ⟨208, []⟩
  | .disconnect => ⟨224, []⟩

/-- The bytes of a packet. -/
def Packet.encode (p : Packet) : List UInt8 :=
  p.frame.encode

/-- The bytes of packets, one after the other. -/
def encodeAll (ps : List Packet) : List UInt8 :=
  ps.flatMap Packet.encode

/-! ### Packets from frames -/

/-- The number that bytes begin with, and what follows it. -/
def readWord : List UInt8 → Option (UInt16 × List UInt8)
  | hi :: lo :: rest => some (UInt16.ofNat (hi.toNat * 256 + lo.toNat), rest)
  | _ => none

/-- The text that bytes begin with, and what follows it. -/
def readText (bytes : List UInt8) : Option (List UInt8 × List UInt8) :=
  match readWord bytes with
  | none => none
  | some (n, rest) =>
    if n.toNat ≤ rest.length then some (rest.take n.toNat, rest.drop n.toNat) else none

/-- What a reader reads at the end of bytes. -/
def readEnd {α : Type*} : Option (α × List UInt8) → Option α
  | some (a, []) => some a
  | _ => none

/-- The will, if the flags tell of one. There is no QoS of three. -/
def readWill (flags : Nat) (bytes : List UInt8) : Option (Option Will × List UInt8) :=
  if flags / 4 % 2 = 0 then some (none, bytes)
  else do
    let (topic, rest) ← readText bytes
    let (message, rest) ← readText rest
    if h : flags / 8 % 4 < 3 then
      return (some ⟨topic, message, ⟨flags / 8 % 4, h⟩, flags / 32 % 2 = 1⟩, rest)
    else none

/-- The user and the password, if the flags tell of them. -/
def readUser (flags : Nat) (bytes : List UInt8) :
    Option (Option (List UInt8 × Option (List UInt8)) × List UInt8) :=
  if flags / 128 = 0 then some (none, bytes)
  else do
    let (user, rest) ← readText bytes
    if flags / 64 % 2 = 0 then return (some (user, none), rest)
    else
      let (password, rest) ← readText rest
      return (some (user, some password), rest)

/-- The connection in a body. -/
def readConnect (body : List UInt8) : Option Connect := do
  let (name, rest) ← readText body
  if name ≠ [77, 81, 84, 84] then none
  match rest with
  | 4 :: flags :: rest =>
    let (keepAlive, rest) ← readWord rest
    let (client, rest) ← readText rest
    let (will, rest) ← readWill flags.toNat rest
    let user ← readEnd (readUser flags.toNat rest)
    return ⟨client, flags.toNat / 2 % 2 = 1, keepAlive, will, user⟩
  | _ => none

/-- The message in a body. The bits of the header tell whether it has an id. -/
def readPublish (header : UInt8) (body : List UInt8) : Option Publish := do
  let dup : Bool := header.toNat / 8 % 2 = 1
  let retain : Bool := header.toNat % 2 = 1
  let (topic, rest) ← readText body
  if header.toNat / 2 % 4 = 0 then return ⟨dup, retain, none, topic, rest⟩
  else if header.toNat / 2 % 4 = 1 then
    let (id, rest) ← readWord rest
    return ⟨dup, retain, some id, topic, rest⟩
  else none

/-- The subscription in a body. -/
def readSubscribe (body : List UInt8) : Option Packet := do
  let (id, rest) ← readWord body
  let (topic, rest) ← readText rest
  match rest with
  | [qos] => return .subscribe id topic qos
  | _ => none

/-- The answer to a subscription. -/
def readSuback (body : List UInt8) : Option Packet := do
  let (id, rest) ← readWord body
  match rest with
  | [code] => return .suback id code
  | _ => none

/-- The answer to a connection. -/
def readConnack : List UInt8 → Option Packet
  | [present, code] => some (.connack (present.toNat % 2 = 1) code)
  | _ => none

/-- The end of a subscription in a body. -/
def readUnsubscribe (body : List UInt8) : Option Packet := do
  let (id, rest) ← readWord body
  let topic ← readEnd (readText rest)
  return .unsubscribe id topic

/-- The packet of a frame, by the two halves of its header. -/
def Packet.ofKind (f : Frame) (kind flags : Nat) : Option Packet :=
  match kind, flags with
  | 1, 0 => (readConnect f.body).map .connect
  | 2, 0 => readConnack f.body
  | 3, _ => (readPublish f.header f.body).map .publish
  | 4, 0 => (readEnd (readWord f.body)).map .puback
  | 8, 2 => readSubscribe f.body
  | 9, 0 => readSuback f.body
  | 10, 2 => readUnsubscribe f.body
  | 11, 0 => (readEnd (readWord f.body)).map .unsuback
  | 12, 0 => if f.body = [] then some .pingreq else none
  | 13, 0 => if f.body = [] then some .pingresp else none
  | 14, 0 => if f.body = [] then some .disconnect else none
  | _, _ => none

/-- The packet of a frame. -/
def Packet.ofFrame (f : Frame) : Option Packet :=
  Packet.ofKind f (f.header.toNat / 16) (f.header.toNat % 16)

/-- The packets that bytes are, if they are packets throughout. -/
def decodeAll (bytes : List UInt8) : Option (List Packet) :=
  match readFrames bytes.length bytes with
  | none => none
  | some fs => fs.mapM Packet.ofFrame

/-! ### Reading packets back -/

/-- The lengths of the texts have two bytes, and that of the body four groups. -/
def Packet.Fits : Packet → Prop
  | .connect c => c.client.length < 65536 ∧
      (∀ w ∈ c.will, w.topic.length < 65536 ∧ w.message.length < 65536) ∧
      ∀ u ∈ c.user, u.1.length < 65536 ∧ ∀ p ∈ u.2, p.length < 65536
  | .publish m => m.topic.length < 65536 ∧ m.topic.length + m.payload.length + 4 < 128 ^ 4
  | .subscribe _ topic _ => topic.length < 65536
  | .unsubscribe _ topic => topic.length < 65536
  | _ => True

/-- A word is read back. -/
theorem readWord_word (id : UInt16) (rest : List UInt8) :
    readWord (word id.toNat ++ rest) = some (id, rest) := by
  have hlt := id.toNat_lt
  have hhi : (UInt8.ofNat (id.toNat / 256)).toNat = id.toNat / 256 := by
    rw [UInt8.toNat_ofNat']
    omega
  have hlo : (UInt8.ofNat (id.toNat % 256)).toNat = id.toNat % 256 := by
    rw [UInt8.toNat_ofNat']
    omega
  have hid : id.toNat / 256 * 256 + id.toNat % 256 = id.toNat := by omega
  change some (UInt16.ofNat ((UInt8.ofNat (id.toNat / 256)).toNat * 256 +
    (UInt8.ofNat (id.toNat % 256)).toNat), rest) = _
  rw [hhi, hlo, hid, UInt16.ofNat_toNat]

/-- A text below 65536 bytes is read back. -/
theorem readText_text (t rest : List UInt8) (h : t.length < 65536) :
    readText (text t ++ rest) = some (t, rest) := by
  have hlen : (UInt16.ofNat t.length).toNat = t.length := by
    rw [UInt16.toNat_ofNat']
    omega
  have hword := readWord_word (UInt16.ofNat t.length) (t ++ rest)
  rw [hlen] at hword
  rw [text, List.append_assoc, readText, hword]
  dsimp only
  rw [hlen, if_pos (by rw [List.length_append]; exact Nat.le_add_right _ _),
    List.take_left' rfl, List.drop_left' rfl]

/-- The will is read back under the flags that announce it. -/
theorem readWill_of_flags (will : Option Will) (flags : Nat) (rest : List UInt8)
    (hbit : flags / 4 % 2 = flag will.isSome 1)
    (hqos : ∀ w ∈ will, flags / 8 % 4 = w.qos.1 ∧ flags / 32 % 2 = flag w.retain 1)
    (hfits : ∀ w ∈ will, w.topic.length < 65536 ∧ w.message.length < 65536) :
    readWill flags (willBytes will ++ rest) = some (will, rest) := by
  cases will with
  | none => exact if_pos hbit
  | some w =>
      obtain ⟨hq, hr⟩ := hqos w rfl
      obtain ⟨htopic, hmessage⟩ := hfits w rfl
      -- the flag says that there is a will to be read
      have hbit' : flags / 4 % 2 ≠ 0 := fun h0 => by
        rw [h0] at hbit
        cases hbit
      have hretain : decide (flags / 32 % 2 = 1) = w.retain := by
        rw [hr]
        cases w.retain <;> rfl
      rw [readWill, if_neg hbit', willBytes, List.append_assoc, readText_text _ _ htopic]
      simp only [Option.bind_eq_bind, Option.bind_some, readText_text _ _ hmessage, hq, hretain,
        w.qos.isLt, dif_pos, Option.pure_def]

/-- User and password are read back under the flags that announce them. -/
theorem readUser_of_flags (user : Option (List UInt8 × Option (List UInt8))) (flags : Nat)
    (hbit : flags / 128 = flag user.isSome 1)
    (hpassword : ∀ u ∈ user, flags / 64 % 2 = flag u.2.isSome 1)
    (hfits : ∀ u ∈ user, u.1.length < 65536 ∧ ∀ p ∈ u.2, p.length < 65536) :
    readUser flags (userBytes user) = some (user, []) := by
  cases user with
  | none => exact if_pos hbit
  | some u =>
      obtain ⟨user, password⟩ := u
      have hbit' : flags / 128 ≠ 0 := fun h0 => by
        rw [h0] at hbit
        cases hbit
      have hpassword' := hpassword _ rfl
      obtain ⟨huser, hfits⟩ := hfits _ rfl
      rw [readUser, if_neg hbit']
      -- the password is read only behind a user, where its flag is set
      cases password with
      | none =>
          have hread := readText_text user [] huser
          rw [List.append_nil] at hread
          rw [userBytes, hread]
          exact if_pos hpassword'
      | some password =>
          have hread := readText_text password [] (hfits _ rfl)
          rw [List.append_nil] at hread
          rw [userBytes, readText_text user _ huser]
          simp only [Option.bind_eq_bind, Option.bind_some, hread, hpassword', flag,
            Option.isSome_some, if_true, Nat.one_ne_zero, if_false, Option.pure_def]

/-- A flag's value is its bit times its weight. -/
theorem flag_eq (b : Bool) (n : Nat) : flag b n = flag b 1 * n := by
  cases b with
  | false => exact (Nat.zero_mul n).symm
  | true => exact (Nat.one_mul n).symm

/-- A flag is one bit. -/
theorem flag_lt : ∀ b, flag b 1 < 2 := by
  decide

/-- What the bits of a connection say. -/
theorem toNat_flags (c : Connect) :
    c.flags.toNat / 2 % 2 = flag c.clean 1 ∧ c.flags.toNat / 4 % 2 = flag c.will.isSome 1 ∧
      (∀ w ∈ c.will, c.flags.toNat / 8 % 4 = w.qos.1 ∧ c.flags.toNat / 32 % 2 = flag w.retain 1) ∧
      c.flags.toNat / 128 = flag c.user.isSome 1 ∧
      ∀ u ∈ c.user, c.flags.toNat / 64 % 2 = flag u.2.isSome 1 := by
  have hclean := flag_lt c.clean
  -- the bits of the will, put together from its parts
  have hwill : ∃ q r, q < 3 ∧ r < 2 ∧
      willBits c.will = flag c.will.isSome 1 * 4 + q * 8 + r * 32 ∧
      ∀ w ∈ c.will, q = w.qos.1 ∧ r = flag w.retain 1 := by
    cases c.will with
    | none => exact ⟨0, 0, by decide, by decide, rfl, fun w hw => by cases hw⟩
    | some w =>
        refine ⟨w.qos.1, flag w.retain 1, w.qos.isLt, flag_lt _, ?_, fun v hv => ?_⟩
        · rw [willBits, flag_eq w.retain 32]
          rfl
        · rw [← Option.some_inj.1 hv]
          exact ⟨rfl, rfl⟩
  have huser : ∃ p, p < 2 ∧ userBits c.user = flag c.user.isSome 1 * 128 + p * 64 ∧
      ∀ u ∈ c.user, p = flag u.2.isSome 1 := by
    cases c.user with
    | none => exact ⟨0, by decide, rfl, fun u hu => by cases hu⟩
    | some u =>
        obtain ⟨user, password⟩ := u
        refine ⟨flag password.isSome 1, flag_lt _, ?_, fun v hv => ?_⟩
        · rw [userBits, flag_eq password.isSome 64]
          rfl
        · rw [← Option.some_inj.1 hv]
  obtain ⟨q, r, hq, hr, hwill, hw⟩ := hwill
  obtain ⟨p, hp, huser, hu⟩ := huser
  have hwill' := flag_lt c.will.isSome
  have huser' := flag_lt c.user.isSome
  -- the flags do not overlap, so their sum gives each of them back
  have hvalue : c.flags.toNat = flag c.clean 1 * 2 + (flag c.will.isSome 1 * 4 + q * 8 + r * 32) +
      (flag c.user.isSome 1 * 128 + p * 64) := by
    rw [Connect.flags, hwill, huser, flag_eq c.clean 2, UInt8.toNat_ofNat']
    omega
  refine ⟨by omega, by omega, fun w hw' => ?_, by omega, fun u hu' => ?_⟩
  · obtain ⟨rfl, rfl⟩ := hw w hw'
    omega
  · rw [← hu u hu']
    omega

/-- A flag's bit gives the flag. -/
theorem decide_flag (b : Bool) : decide (flag b 1 = 1) = b := by
  cases b <;> rfl

/-- The body of a CONNECT that fits is read back. -/
theorem readConnect_body (c : Connect) (h : (Packet.connect c).Fits) :
    readConnect c.body = some c := by
  obtain ⟨hclient, hwill, huser⟩ := h
  obtain ⟨hclean, hwbit, hw, hubit, hu⟩ := toNat_flags c
  rw [readConnect, Connect.body, readText_text _ _ (by decide)]
  simp only [Option.bind_eq_bind, Option.bind_some, ne_eq, not_true, if_false,
    readWord_word, readText_text _ _ hclient, readWill_of_flags _ _ _ hwbit hw hwill,
    readUser_of_flags _ _ hubit hu huser, readEnd, hclean, decide_flag, Option.pure_def]

/-- A PUBLISH's header byte, by its flags. -/
theorem toNat_header (m : Publish) :
    m.header.toNat = 48 + flag m.dup 1 * 8 + flag m.id.isSome 1 * 2 + flag m.retain 1 := by
  have h1 := flag_lt m.dup
  have h2 := flag_lt m.id.isSome
  have h3 := flag_lt m.retain
  rw [Publish.header, UInt8.toNat_ofNat', flag_eq m.dup 8, flag_eq m.id.isSome 2]
  omega

/-- The body of a PUBLISH that fits is read back. -/
theorem readPublish_body (m : Publish) (h : (Packet.publish m).Fits) :
    readPublish m.header m.body = some m := by
  have h1 := flag_lt m.dup
  have h3 := flag_lt m.retain
  have hheader := toNat_header m
  -- each flag is read from its own bit of the header
  have hdup : m.header.toNat / 8 % 2 = flag m.dup 1 := by
    have := flag_lt m.id.isSome
    omega
  have hretain : m.header.toNat % 2 = flag m.retain 1 := by omega
  have hqos : m.header.toNat / 2 % 4 = flag m.id.isSome 1 := by
    have := flag_lt m.id.isSome
    omega
  rw [readPublish, Publish.body, readText_text _ _ h.1, hdup, hretain, hqos, decide_flag,
    decide_flag]
  obtain ⟨dup, retain, id, topic, payload⟩ := m
  cases id with
  | none => rfl
  | some id =>
      simp only [Option.bind_eq_bind, Option.bind_some, flag, Option.isSome_some, if_true,
        Nat.one_ne_zero, if_false, readWord_word, Option.pure_def]

/-- A frame is read by the two halves of its header byte. -/
theorem ofFrame_eq (f : Frame) (kind flags : Nat) (h : f.header.toNat = 16 * kind + flags)
    (hflags : flags < 16) : Packet.ofFrame f = Packet.ofKind f kind flags := by
  rw [Packet.ofFrame, h]
  congr 1 <;> omega

/-- A packet is read back from its frame. -/
theorem ofFrame_frame (p : Packet) (h : p.Fits) : Packet.ofFrame p.frame = some p := by
  have hword : ∀ id : UInt16, readEnd (readWord (word id.toNat)) = some id := fun id => by
    have hread := readWord_word id []
    rw [List.append_nil] at hread
    rw [hread]
    rfl
  -- one case for each type of packet, with its own half of the header byte
  cases p with
  | connect c =>
      rw [ofFrame_eq _ 1 0 rfl (by decide)]
      change (readConnect c.body).map Packet.connect = _
      rw [readConnect_body c h]
      rfl
  | connack present code =>
      rw [ofFrame_eq _ 2 0 rfl (by decide)]
      cases present <;> rfl
  | publish m =>
      have h1 := flag_lt m.dup
      have h2 := flag_lt m.id.isSome
      have h3 := flag_lt m.retain
      rw [ofFrame_eq _ 3 (flag m.dup 1 * 8 + flag m.id.isSome 1 * 2 + flag m.retain 1)
        ((toNat_header m).trans (by omega)) (by omega)]
      change (readPublish m.header m.body).map Packet.publish = _
      rw [readPublish_body m h]
      rfl
  | puback id =>
      rw [ofFrame_eq _ 4 0 rfl (by decide)]
      exact congrArg (Option.map Packet.puback) (hword id)
  | subscribe id topic qos =>
      rw [ofFrame_eq _ 8 2 rfl (by decide)]
      change readSubscribe (word id.toNat ++ (text topic ++ [qos])) = _
      rw [readSubscribe, readWord_word]
      simp only [Option.bind_eq_bind, Option.bind_some, readText_text _ _ h, Option.pure_def]
  | suback id code =>
      rw [ofFrame_eq _ 9 0 rfl (by decide)]
      change readSuback (word id.toNat ++ [code]) = _
      rw [readSuback, readWord_word]
      rfl
  | unsubscribe id topic =>
      have hread := readText_text topic [] h
      rw [List.append_nil] at hread
      rw [ofFrame_eq _ 10 2 rfl (by decide)]
      change readUnsubscribe (word id.toNat ++ text topic) = _
      rw [readUnsubscribe, readWord_word]
      simp only [Option.bind_eq_bind, Option.bind_some, hread, readEnd, Option.pure_def]
  | unsuback id =>
      rw [ofFrame_eq _ 11 0 rfl (by decide)]
      exact congrArg (Option.map Packet.unsuback) (hword id)
  | pingreq =>
      rw [ofFrame_eq _ 12 0 rfl (by decide)]
      rfl
  | pingresp =>
      rw [ofFrame_eq _ 13 0 rfl (by decide)]
      rfl
  | disconnect =>
      rw [ofFrame_eq _ 14 0 rfl (by decide)]
      rfl

/-! ### Streams of packets -/

/-- Packets written one after the other are the bytes one after the other. -/
theorem encodeAll_append (ps qs : List Packet) :
    encodeAll (ps ++ qs) = encodeAll ps ++ encodeAll qs :=
  List.flatMap_append

/-- The first packet's bytes come first. -/
theorem encodeAll_cons (p : Packet) (ps : List Packet) :
    encodeAll (p :: ps) = p.encode ++ encodeAll ps :=
  List.flatMap_cons

@[simp] theorem encodeAll_nil : encodeAll [] = [] := rfl

@[simp] theorem encodeAll_singleton (p : Packet) : encodeAll [p] = p.encode := by
  rw [encodeAll_cons, encodeAll_nil, List.append_nil]

theorem length_word (n : Nat) : (word n).length = 2 := rfl

theorem length_text (t : List UInt8) : (text t).length = t.length + 2 := by
  rw [text, List.length_append, length_word, Nat.add_comm]

/-- The frame of a packet that fits is small. -/
theorem Packet.Fits.small {p : Packet} (h : p.Fits) : p.frame.Small := by
  -- three texts of 65535 bytes stay far below the largest length
  have hsmall : ∀ f : Frame, f.body.length < 400000 → f.Small := fun f hf =>
    Nat.lt_of_lt_of_le hf (by decide)
  cases p with
  | connect c =>
      obtain ⟨hclient, hwill, huser⟩ := h
      apply hsmall
      have hw : (willBytes c.will).length < 131076 := by
        cases hc : c.will with
        | none => exact (by decide : 0 < 131076)
        | some w =>
            obtain ⟨h1, h2⟩ := hwill w hc
            rw [willBytes, List.length_append, length_text, length_text]
            omega
      have hu : (userBytes c.user).length < 131076 := by
        cases hc : c.user with
        | none => exact (by decide : 0 < 131076)
        | some u =>
            obtain ⟨user, password⟩ := u
            obtain ⟨h1, h2⟩ := huser _ hc
            dsimp only at h1
            cases password with
            | none =>
                rw [userBytes, length_text]
                omega
            | some password =>
                have h3 := h2 password rfl
                rw [userBytes, List.length_append, length_text, length_text]
                omega
      change c.body.length < 400000
      simp only [Connect.body, List.length_append, List.length_cons, length_text, length_word,
        List.length_nil]
      omega
  | publish m =>
      change m.body.length < 128 ^ 4
      have hid : (match m.id with
          | none => []
          | some id => word id.toNat).length ≤ 2 := by
        cases m.id with
        | none => exact Nat.zero_le 2
        | some id => exact Nat.le_refl 2
      have := h.2
      rw [Publish.body, List.length_append, List.length_append, length_text]
      omega
  | subscribe id topic qos =>
      have hlen : topic.length < 65536 := h
      apply hsmall
      change (word id.toNat ++ (text topic ++ [qos])).length < 400000
      simp only [List.length_append, length_text, length_word, List.length_singleton]
      omega
  | unsubscribe id topic =>
      have hlen : topic.length < 65536 := h
      apply hsmall
      change (word id.toNat ++ text topic).length < 400000
      simp only [List.length_append, length_text, length_word]
      omega
  | connack present code => exact hsmall _ (by change 2 < 400000; decide)
  | puback id => exact hsmall _ (by change 2 < 400000; decide)
  | suback id code => exact hsmall _ (by change 3 < 400000; decide)
  | unsuback id => exact hsmall _ (by change 2 < 400000; decide)
  | pingreq => exact hsmall _ (by change 0 < 400000; decide)
  | pingresp => exact hsmall _ (by change 0 < 400000; decide)
  | disconnect => exact hsmall _ (by change 0 < 400000; decide)

/-- The frames of packets that fit are read back as the packets. -/
theorem mapM_ofFrame (ps : List Packet) (h : ∀ p ∈ ps, p.Fits) :
    (ps.map Packet.frame).mapM Packet.ofFrame = some ps := by
  induction ps with
  | nil => rfl
  | cons p ps ih =>
      rw [List.map_cons, List.mapM_cons, ofFrame_frame p (h p List.mem_cons_self),
        ih fun q hq => h q (List.mem_cons_of_mem p hq)]
      rfl

/-- The packets of a stream are read back from its bytes. -/
theorem decodeAll_encodeAll (ps : List Packet) (h : ∀ p ∈ ps, p.Fits) :
    decodeAll (encodeAll ps) = some ps := by
  have hframes : encodeAll ps = (ps.map Packet.frame).flatMap Frame.encode := by
    rw [List.flatMap_map]
    rfl
  have hsmall : ∀ f ∈ ps.map Packet.frame, f.Small := fun f hf => by
    obtain ⟨p, hp, rfl⟩ := List.mem_map.1 hf
    exact (h p hp).small
  -- every frame has a byte at least, so there are enough turns to read them all
  have hlen : ∀ fs : List Frame, fs.length ≤ (fs.flatMap Frame.encode).length := by
    intro fs
    induction fs with
    | nil => exact Nat.le_refl 0
    | cons f fs ih =>
        rw [List.flatMap_cons, List.length_append, List.length_cons, Frame.encode,
          List.length_cons]
        omega
  rw [decodeAll, hframes, readFrames_encode _ _ hsmall (hlen _)]
  exact mapM_ofFrame ps h

end MqttPackets
