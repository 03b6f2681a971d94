import ArduinoBeken.Library.Run
import ArduinoBeken.Mqtt.Session

/-!
# What a Session Delivers

A session from its first packet on, whatever the application and its callback call and in
whatever order, however the broker's packets come, and whether the connection breaks. The
packets that go to the broker are ones of MQTT in an order that MQTT allows: the first is the
connection, none follows a disconnection, and no id is zero. The callback has been handed the
messages among the packets taken off the stream, each once and in their order, but for those
that the buffer is too small for. Those with an id have been acknowledged in the same order,
unless the callback gave the connection up before the last of them was.

The law is one of sessions (`Session.law_run`), and holds of the client's bytes because the
client refines them (`session_law`).

## Main definitions

* `Session.run`, `PubSubClient.run`: Runs.
* `Conforms`: Packets in an order that MQTT allows.
* `handed`: The messages that the callback is handed.
* `Session.Law`: What holds after every run.

## Theorems

* `refines_run`: A run of the client is one of the session.
* `Session.law_step`, `Session.law_run`: The law of sessions.
* `connect_spec`: The session begins.
* `session_law`: The law of the client.
-/

namespace ArduinoBeken

namespace Mqtt

open Arrivals
open CheckedBytes (Block Fault byte load store Placed exists_store placed_store)
open MqttPackets (Packet Frame Publish Connect lengthBytes text word encodeAll decodeAll)

/-! ### The law of sessions -/

/-- What a client sends between its connection and its disconnection. -/
def Sendable : Packet → Prop
  | .publish m => m.id = none ∧ m.dup = false
  | .puback _ => True
  | .subscribe id _ qos => id ≠ 0 ∧ qos ≤ 1
  | .unsubscribe id _ => id ≠ 0
  | .pingreq => True
  | .pingresp => True
  | _ => False

/-- A connection comes first, and nothing after a disconnection. -/
def Conforms (connection : Connect) (linked : Bool) (out : List Packet) : Prop :=
  ∃ sent, (∀ p ∈ sent, Sendable p) ∧
    (out = .connect connection :: sent ∨
      (linked = false ∧ out = .connect connection :: (sent ++ [.disconnect])))

/-- The ids that were acknowledged. -/
def acknowledged (out : List Packet) : List UInt16 :=
  out.filterMap fun
    | .puback id => some id
    | _ => none

/-- The message of a packet that the callback is handed, if there is one: that for which there
is room, or a stream. -/
def hands (size : Nat) (stream : Option (List UInt8)) (callback : Option Callback) :
    Packet → Option Publish
  | .publish m =>
    if (stream = none ∧ size < (Packet.publish m).encode.length) ∨ callback.isNone then none
    else some m
  | _ => none

/-- The messages among packets that the callback is handed. -/
def handed (size : Nat) (stream : Option (List UInt8)) (callback : Option Callback)
    (ps : List Packet) : List Publish :=
  ps.filterMap (hands size stream callback)

/-- The acknowledgements of packets one after the other. -/
theorem acknowledged_append (out new : List Packet) :
    acknowledged (out ++ new) = acknowledged out ++ acknowledged new :=
  List.filterMap_append

/-- One packet hands over one message or none. -/
theorem handed_singleton (size : Nat) (stream : Option (List UInt8)) (callback : Option Callback)
    (p : Packet) : handed size stream callback [p] = (hands size stream callback p).toList := by
  rw [handed]
  cases hp : hands size stream callback p with
  | none => exact List.filterMap_cons_none hp
  | some m => exact List.filterMap_cons_some hp

/-- The messages of packets one after the other. -/
theorem handed_append (size : Nat) (stream : Option (List UInt8)) (callback : Option Callback)
    (ps qs : List Packet) : handed size stream callback (ps ++ qs) =
      handed size stream callback ps ++ handed size stream callback qs :=
  List.filterMap_append

namespace Session

/-- What a call does beside the messages: packets that acknowledge nothing are sent while the
connection stands, and a disconnection ends it. -/
structure Sends (s s' : Session) : Prop where
  calls : s'.calls = s.calls
  stream : s'.stream = s.stream
  inbox : s'.linked = true → s.linked = true ∧ s'.inbox = s.inbox
  outbox : ∃ new, (∀ p ∈ new, Sendable p ∧ acknowledged [p] = []) ∧
    (s'.outbox = s.outbox ++ new ∨
      (s'.linked = false ∧ s'.outbox = s.outbox ++ (new ++ [.disconnect])))
  silent : s.linked = false → s'.linked = false ∧ s'.outbox = s.outbox

theorem Sends.refl (s : Session) : Sends s s :=
  ⟨rfl, rfl, fun h => ⟨h, rfl⟩,
    ⟨[], fun p hp => (by cases hp), Or.inl (List.append_nil _).symm⟩, fun h => ⟨h, rfl⟩⟩

/-- Sending after sending is sending. -/
theorem Sends.trans {s s' s'' : Session} (h : Sends s s') (h' : Sends s' s'') : Sends s s'' := by
  refine ⟨h'.calls.trans h.calls, h'.stream.trans h.stream, fun hl => ?_, ?_, fun hl => ?_⟩
  -- the link can only go down, so a packet still to come was there before
  · obtain ⟨hl', hbox'⟩ := h'.inbox hl
    obtain ⟨hl'', hbox⟩ := h.inbox hl'
    exact ⟨hl'', hbox'.trans hbox⟩
  -- what both send is sent, unless the link went down in between
  · obtain ⟨new, hnew, hout⟩ := h.outbox
    rcases hout with hout | ⟨hl, hout⟩
    · obtain ⟨new', hnew', hout'⟩ := h'.outbox
      refine ⟨new ++ new', fun p hp => ?_, ?_⟩
      · exact (List.mem_append.1 hp).elim (hnew p) (hnew' p)
      · rw [← List.append_assoc, hout] at hout'
        simpa only [List.append_assoc] using hout'
    · obtain ⟨hl', hout'⟩ := h'.silent hl
      exact ⟨new, hnew, Or.inr ⟨hl', hout'.trans hout⟩⟩
  · obtain ⟨hl', hout⟩ := h.silent hl
    obtain ⟨hl'', hout'⟩ := h'.silent hl'
    exact ⟨hl'', hout'.trans hout⟩

/-- A packet that acknowledges nothing. -/
theorem sends_put (s : Session) (p : Packet) (hp : Sendable p) (hack : acknowledged [p] = []) :
    Sends s (s.put p) := by
  rw [put]
  refine ⟨rfl, rfl, fun h => ⟨h, rfl⟩, ?_, fun h => ⟨h, ?_⟩⟩
  · by_cases hl : s.linked = true
    · refine ⟨[p], fun q hq => ?_, Or.inl (if_pos hl)⟩
      rw [List.mem_singleton.1 hq]
      exact ⟨hp, hack⟩
    · exact ⟨[], fun q hq => (by cases hq), Or.inl ((if_neg hl).trans (List.append_nil _).symm)⟩
  · exact if_neg (by rw [h]; exact Bool.false_ne_true)

/-- A session that differs in nothing that matters here. -/
theorem Sends.congr {s s' t : Session} (h : Sends s s') (hcalls : t.calls = s'.calls)
    (hstream : t.stream = s'.stream) (hlinked : t.linked = s'.linked) (hin : t.inbox = s'.inbox)
    (hout : t.outbox = s'.outbox) : Sends s t :=
  ⟨hcalls.trans h.calls, hstream.trans h.stream,
    fun hl => ⟨(h.inbox (hlinked ▸ hl)).1, hin.trans (h.inbox (hlinked ▸ hl)).2⟩,
    by rw [hout, hlinked]; exact h.outbox, by rw [hout, hlinked]; exact h.silent⟩

/-- A packet that acknowledges nothing is sent. -/
theorem sends_send (s : Session) (p : Packet) (now : UInt32) (hp : Sendable p)
    (hack : acknowledged [p] = []) : Sends s (s.send p now) :=
  (sends_put s p hp hack).congr rfl rfl rfl rfl rfl

/-- Dropping the link sends nothing. -/
theorem sends_drop (s : Session) : Sends s s.drop :=
  ⟨rfl, rfl, fun h => (by cases h),
    ⟨[], fun p hp => (by cases hp), Or.inl (List.append_nil _).symm⟩, fun _ => ⟨rfl, rfl⟩⟩

/-- Checking the link sends nothing. -/
theorem sends_checked (s : Session) : Sends s s.checked := by
  rw [checked]
  split_ifs
  · exact (sends_drop s).congr rfl rfl rfl rfl rfl
  · exact Sends.refl s

/-- A PUBLISH is sent. -/
theorem sends_publishDirectly (s : Session) (topic : CString) (payload : List UInt8)
    (retained : Bool) (now : UInt32) : Sends s (s.publishDirectly topic payload retained now) := by
  rw [publishDirectly]
  split_ifs
  · exact sends_send s (.publish ⟨false, retained, none, topic.1, payload⟩) now ⟨rfl, rfl⟩ rfl
  · exact sends_checked s

/-- `publish` sends a PUBLISH or nothing. -/
theorem sends_publish (size : Nat) (s : Session) (topic : CString) (payload : List UInt8)
    (retained : Bool) (now : UInt32) :
    Sends s (s.publish size topic payload retained now) := by
  rw [publish]
  split_ifs
  · exact Sends.refl s
  · exact sends_send s (.publish ⟨false, retained, none, topic.1, payload⟩) now ⟨rfl, rfl⟩ rfl
  · exact sends_checked s

/-- `subscribe` sends a SUBSCRIBE or nothing. -/
theorem sends_subscribe (size : Nat) (s : Session) (topic : CString) (qos : UInt8)
    (now : UInt32) : Sends s (s.subscribe size topic qos now) := by
  rw [subscribe]
  split_ifs with hrefused
  · exact Sends.refl s
  · have hqos : qos ≤ 1 := UInt8.not_lt.1 fun h => hrefused (Or.inl h)
    exact (sends_send s (.subscribe (PubSubClient.nextId s.nextMsgId) topic.1 qos) now
      ⟨PubSubClient.toNat_nextId s.nextMsgId, hqos⟩ rfl).congr rfl rfl rfl rfl rfl
  · exact sends_checked s

/-- `unsubscribe` sends an UNSUBSCRIBE or nothing. -/
theorem sends_unsubscribe (size : Nat) (s : Session) (topic : CString) (now : UInt32) :
    Sends s (s.unsubscribe size topic now) := by
  rw [unsubscribe]
  split_ifs
  · exact Sends.refl s
  · exact (sends_send s (.unsubscribe (PubSubClient.nextId s.nextMsgId) topic.1) now
      (PubSubClient.toNat_nextId s.nextMsgId) rfl).congr rfl rfl rfl rfl rfl
  · exact sends_checked s

/-- `disconnect` sends a DISCONNECT. -/
theorem sends_disconnect (s : Session) (now : UInt32) : Sends s (s.disconnect now) := by
  rw [disconnect]
  by_cases hl : s.linked = true
  · refine ⟨rfl, rfl, fun h => (by cases h), ⟨[], fun p hp => (by cases hp), Or.inr ⟨rfl, ?_⟩⟩,
      fun h => absurd (h.symm.trans hl) Bool.false_ne_true⟩
    exact if_pos hl
  · refine ⟨rfl, rfl, fun h => (by cases h), ⟨[], fun p hp => (by cases hp), Or.inl ?_⟩,
      fun _ => ⟨rfl, if_neg hl⟩⟩
    exact (if_neg hl).trans (List.append_nil _).symm

/-- A request of the sketch sends without acknowledging. -/
theorem sends_request (size : Nat) (now : UInt32) (s : Session) (r : Request) :
    Sends s (s.request size now r) := by
  cases r with
  | publish topic payload retained => exact sends_publish size s topic payload retained now
  | subscribe topic qos => exact sends_subscribe size s topic qos now
  | unsubscribe topic => exact sends_unsubscribe size s topic now
  | disconnect => exact sends_disconnect s now

/-- The requests of a callback send without acknowledging. -/
theorem sends_requests (size : Nat) (now : UInt32) (rs : List Request) (s : Session) :
    Sends s (rs.foldl (request size now) s) := by
  induction rs generalizing s with
  | nil => exact Sends.refl s
  | cons r rs ih => exact (sends_request size now s r).trans (ih _)

/-- What was taken off the stream was handled, once and in its order, but for the ids that are
still to be acknowledged. -/
structure Law (size : Nat) (callback : Option Callback) (connection : Connect) (before : Session)
    (ps : List Packet) (owed : List UInt16) (s : Session) : Prop where
  conforms : Conforms connection s.linked s.outbox
  history : ∃ taken coming, ps = taken ++ coming ∧ (s.linked = true → s.inbox = coming) ∧
    s.calls = before.calls ++ (handed size before.stream callback taken).map (message size) ∧
    acknowledged s.outbox <+: (handed size before.stream callback taken).filterMap (·.id) ∧
    (s.linked = true → acknowledged s.outbox ++ owed =
      (handed size before.stream callback taken).filterMap (·.id))
  stream : s.stream = none ↔ before.stream = none

variable {size : Nat} {callback : Option Callback} {connection : Connect} {before s s' : Session}
  {ps : List Packet} {owed : List UInt16}

/-- Packets that acknowledge nothing have no acknowledgements together. -/
theorem acknowledged_eq_nil {new : List Packet} (h : ∀ p ∈ new, acknowledged [p] = []) :
    acknowledged new = [] := by
  induction new with
  | nil => rfl
  | cons p new ih =>
      have hp := h p List.mem_cons_self
      have hnew := ih fun q hq => h q (List.mem_cons_of_mem p hq)
      rw [← List.singleton_append, acknowledged_append, hp, hnew, List.append_nil]

/-- Packets that are sent, and a disconnection. -/
theorem conforms_sends (h : Conforms connection s.linked s.outbox) (hs : Sends s s') :
    Conforms connection s'.linked s'.outbox := by
  -- off the link nothing is sent, and the connection's law is as it was
  cases hl : s.linked with
  | false =>
      obtain ⟨hl', hout⟩ := hs.silent hl
      rw [hl', hout, ← hl]
      exact h
  | true =>
      rw [hl] at h
      obtain ⟨sent, hsent, hout | ⟨hdown, -⟩⟩ := h
      -- what is sent is appended to what the connection has seen
      · obtain ⟨new, hnew, hout'⟩ := hs.outbox
        have hall : ∀ p ∈ sent ++ new, Sendable p := fun p hp =>
          (List.mem_append.1 hp).elim (hsent p) fun hp' => (hnew p hp').1
        refine ⟨sent ++ new, hall, ?_⟩
        rw [hout] at hout'
        rcases hout' with hout' | ⟨hdown, hout'⟩
        · exact Or.inl hout'
        · refine Or.inr ⟨hdown, ?_⟩
          rw [hout', List.cons_append, List.append_assoc]
      · cases hdown

/-- Sending leaves what has been acknowledged as it was. -/
theorem Sends.acknowledged_eq (hs : Sends s s') :
    acknowledged s'.outbox = acknowledged s.outbox := by
  obtain ⟨new, hnew, hout⟩ := hs.outbox
  have hnone := acknowledged_eq_nil fun p hp => (hnew p hp).2
  rcases hout with hout | ⟨-, hout⟩
  · rw [hout, acknowledged_append, hnone, List.append_nil]
  · rw [hout, acknowledged_append, acknowledged_append, hnone]
    exact List.append_nil _

/-- A call that only sends keeps the law. -/
theorem Law.sends (h : Law size callback connection before ps owed s) (hs : Sends s s') :
    Law size callback connection before ps owed s' := by
  obtain ⟨taken, coming, hps, hbox, hcalls, hprefix, hall⟩ := h.history
  refine ⟨conforms_sends h.conforms hs, ⟨taken, coming, hps, fun hl => ?_,
    hs.calls.trans hcalls, ?_, fun hl => ?_⟩, ?_⟩
  · obtain ⟨hl', hbox'⟩ := hs.inbox hl
    exact hbox'.trans (hbox hl')
  · rwa [hs.acknowledged_eq]
  · rw [hs.acknowledged_eq]
    exact hall (hs.inbox hl).1
  · rw [hs.stream]
    exact h.stream

/-- An acknowledgement pays what is owed. -/
theorem Law.pay {id : UInt16} (h : Law size callback connection before ps [id] s) (t : UInt32) :
    Law size callback connection before ps [] (s.send (.puback id) t) := by
  obtain ⟨taken, coming, hps, hbox, hcalls, hprefix, hall⟩ := h.history
  -- on the link the acknowledgement goes out, and it is the one that was owed
  by_cases hl : s.linked = true
  · have hout : (s.send (.puback id) t).outbox = s.outbox ++ [.puback id] := if_pos hl
    have hack : acknowledged (s.outbox ++ [.puback id]) = acknowledged s.outbox ++ [id] :=
      acknowledged_append _ _
    refine ⟨?_, ⟨taken, coming, hps, hbox, hcalls, ?_, fun _ => ?_⟩, h.stream⟩
    · have hconforms := h.conforms
      rw [hl] at hconforms
      obtain ⟨sent, hsent, hsent' | ⟨hdown, -⟩⟩ := hconforms
      · refine ⟨sent ++ [.puback id], fun p hp => ?_, Or.inl ?_⟩
        · rcases List.mem_append.1 hp with hp | hp
          · exact hsent p hp
          · rw [List.mem_singleton.1 hp]
            exact True.intro
        · rw [hout, hsent', List.cons_append]
      · cases hdown
    · rw [hout, hack, hall hl]
    · rw [hout, hack, List.append_nil]
      exact hall hl
  -- off the link it is not sent, and nothing is owed on a dead connection
  · have hout : (s.send (.puback id) t).outbox = s.outbox := if_neg hl
    have hdown : (s.send (.puback id) t).linked = false := Bool.eq_false_iff.2 hl
    refine ⟨?_, ⟨taken, coming, hps, hbox, hcalls, ?_, fun hl' => absurd hl' hl⟩, h.stream⟩
    · rw [hout]
      exact h.conforms
    · rwa [hout]

/-- The next packet is taken off the stream. The callback is yet to be handed it. -/
theorem Law.take (h : Law size callback connection before ps [] s) (hl : s.linked = true)
    {p : Packet} {inbox : List Packet} (hbox : s.inbox = p :: inbox)
    (hin : s'.inbox = inbox) (hlinked : s'.linked = s.linked) (hout : s'.outbox = s.outbox)
    (hstream : s'.stream = none ↔ s.stream = none)
    (hcalls : s'.calls =
      s.calls ++ (handed size before.stream callback [p]).map (message size)) :
    Law size callback connection before ps
      ((handed size before.stream callback [p]).filterMap (·.id)) s' := by
  -- the packet moves from those to come to those taken
  obtain ⟨taken, coming, hps, hbox', hcalls', hprefix, hall⟩ := h.history
  have hcoming := hbox' hl
  rw [hbox] at hcoming
  have hpaid := hall hl
  rw [List.append_nil] at hpaid
  refine ⟨?_, ⟨taken ++ [p], inbox, ?_, fun _ => hin, ?_, ?_, fun _ => ?_⟩, hstream.trans h.stream⟩
  · rw [hlinked, hout]
    exact h.conforms
  · rw [hps, ← hcoming, List.append_assoc, List.singleton_append]
  · rw [hcalls, hcalls', handed_append, List.map_append, List.append_assoc]
  · rw [hout, hpaid, handed_append, List.filterMap_append]
    exact List.prefix_append _ _
  · rw [hout, hpaid, handed_append, List.filterMap_append]

/-- A message is handed to the callback, and acknowledged. -/
theorem law_deliver {f : Callback} {m : Publish}
    (h : Law size callback connection before ps m.id.toList
      { s with calls := s.calls ++ [message size m] }) (t now : UInt32) :
    Law size callback connection before ps [] (s.deliver size f m t now) := by
  -- the callback's requests come between the message and its acknowledgement
  have hrequests := h.sends (sends_requests size now (f (message size m)) _)
  rw [deliver]
  cases hid : m.id with
  | none =>
      rw [hid] at hrequests
      exact hrequests
  | some id =>
      rw [hid] at hrequests
      exact hrequests.pay t

/-- The next packet is handled or passed over. -/
theorem law_receive (h : Law size callback connection before ps [] s) (hl : s.linked = true)
    (ready : Bool) (t now : UInt32) :
    Law size callback connection before ps [] (s.receive size callback ready t now) := by
  rw [receive]
  cases ready with
  | false => exact h
  | true =>
      rw [if_pos rfl]
      cases hbox : s.inbox with
      | nil => exact h
      | cons p inbox =>
          dsimp only
          obtain ⟨s', hs'⟩ : ∃ s' : Session, s' = { s with
            inbox, stream := s.stream.map (· ++ PubSubClient.payloadOf p.frame) } := ⟨_, rfl⟩
          have hstream : s'.stream = none ↔ s.stream = none := by
            rw [hs']
            exact Option.map_eq_none_iff
          -- a packet of which the callback is handed nothing
          have hdeaf : hands size before.stream callback p = none →
              Law size callback connection before ps [] s' := by
            intro hnone
            have hhanded : handed size before.stream callback [p] = [] := by
              rw [handed_singleton, hnone]
              rfl
            have htaken : Law size callback connection before ps _ s' :=
              h.take hl hbox (by rw [hs']) (by rw [hs']) (by rw [hs']) hstream
                (by rw [hhanded, hs']; exact (List.append_nil _).symm)
            rwa [hhanded] at htaken
          have hignores : s.ignores size p ↔
              before.stream = none ∧ size < p.encode.length := by
            rw [ignores, h.stream]
          rw [← hs']
          by_cases hig : s.ignores size p
          · rw [if_pos hig]
            refine hdeaf ?_
            cases p with
            | publish m => exact if_pos (Or.inl (hignores.1 hig))
            | _ => rfl
          · rw [if_neg hig]
            -- when the packet came changes nothing of the law
            have hat : ∀ {owed : List UInt16}, Law size callback connection before ps owed s' →
                Law size callback connection before ps owed { s' with lastInActivity := t } :=
              fun h' => ⟨h'.conforms, h'.history, h'.stream⟩
            -- only a PUBLISH is handed over, and only a PINGREQ is answered
            cases p with
            | publish m =>
                cases callback with
                | none => exact hat (hdeaf (if_pos (Or.inr rfl)))
                | some f =>
                    have hhanded : handed size before.stream (some f) [.publish m] = [m] := by
                      have hands' : hands size before.stream (some f) (.publish m) = some m := by
                        refine if_neg fun h' => ?_
                        rcases h' with h' | h'
                        · exact hig (hignores.2 h')
                        · cases h'
                      rw [handed_singleton, hands']
                      rfl
                    have htaken : Law size (some f) connection before ps _ { s' with
                        lastInActivity := t, calls := s'.calls ++ [message size m] } :=
                      h.take hl hbox (by rw [hs']) (by rw [hs']) (by rw [hs']) hstream
                        (by rw [hhanded, hs']; rfl)
                    refine law_deliver ?_ t now
                    rw [hhanded] at htaken
                    have howed : [m].filterMap (·.id) = m.id.toList := by
                      cases hid : m.id with
                      | none => rw [List.filterMap_cons_none hid]; rfl
                      | some id => rw [List.filterMap_cons_some hid]; rfl
                    rwa [howed] at htaken
            | pingreq =>
                exact (hat (hdeaf rfl)).sends
                  (sends_put { s' with lastInActivity := t } .pingresp True.intro rfl)
            | pingresp =>
                exact (hat (hdeaf rfl)).sends ((Sends.refl _).congr rfl rfl rfl rfl rfl)
            | _ => exact hat (hdeaf rfl)

/-- A session is up only over a link. -/
theorem linked_of_up (h : s.up = true) : s.linked = true := by
  rw [up, Bool.and_eq_true] at h
  exact h.1

/-- `loop` keeps the law. -/
theorem law_loop (h : Law size callback connection before ps [] s) (ready : Bool)
    (t now : UInt32) :
    Law size callback connection before ps [] (s.loop size callback ready t now) := by
  rw [loop]
  split_ifs with hup hidle hping
  · exact h.sends ((sends_drop s).congr rfl rfl rfl rfl rfl)
  · have hput := (sends_put s .pingreq True.intro rfl).congr (t := { s.put .pingreq with
      lastOutActivity := t, lastInActivity := t, pingOutstanding := true }) rfl rfl rfl rfl rfl
    exact law_receive (h.sends hput) (linked_of_up hup) ready t now
  · exact law_receive h (linked_of_up hup) ready t now
  · exact h.sends (sends_checked s)

/-- One call keeps the law. -/
theorem law_step (h : Law size callback connection before ps [] s) (ready : Bool) (now : UInt32)
    (e : Event) :
    Law size callback connection before ps [] (s.step size callback ready now e) := by
  cases e with
  | publish topic payload retained =>
      exact h.sends (sends_publish size s topic payload retained now)
  | publish_P topic payload retained =>
      exact h.sends (sends_publishDirectly s topic payload retained now)
  | publishInParts topic parts retained =>
      exact h.sends (sends_publishDirectly s topic parts.flatten retained now)
  | subscribe topic qos => exact h.sends (sends_subscribe size s topic qos now)
  | unsubscribe topic => exact h.sends (sends_unsubscribe size s topic now)
  | loop t => exact law_loop h ready t now
  | disconnect => exact h.sends (sends_disconnect s now)
  | lost => exact h.sends (sends_drop s)

/-- Calls one after the other, each at its time and with whether there is a packet to handle. -/
def run (size : Nat) (callback : Option Callback) (s : Session)
    (es : List (Bool × UInt32 × Event)) : Session :=
  EventRun.run (fun s e => s.step size callback e.1 e.2.1 e.2.2) s es

/-- A run keeps the law. -/
theorem law_run (h : Law size callback connection before ps [] s)
    (es : List (Bool × UInt32 × Event)) :
    Law size callback connection before ps [] (s.run size callback es) :=
  EventRun.inv_run (I := Law size callback connection before ps [])
    (fun _ e h => law_step h e.1 e.2.1 e.2.2) h es

end Session

/-! ### The law of the client -/

/-- A connection just made, on which so many packets come and all that is written is taken. -/
structure Link.Brings (l : Link) (ps : List Packet) : Prop where
  accepts : l.accepts = []
  sent : l.sent = []
  prompt : Prompt l.source.ticks
  items : items l.source.ticks = encodeAll ps
  stays : l.source.ending = .stays

/-- All that is written to it is taken. -/
theorem Link.Brings.takes {link : Link} {ps : List Packet} (h : link.Brings ps) : link.Takes := by
  refine ⟨?_, h.accepts⟩
  rw [Link.connected, Source.connected, h.stays, Bool.or_eq_true]
  exact Or.inr (by decide)

/-- The wait for a byte that comes without a silence. -/
theorem Link.await_of_prompt (ending : Ending) {ticks : List (Tick UInt8)} {b : UInt8}
    {rest : List UInt8} (h : Prompt ticks) (hitems : items ticks = b :: rest) :
    ∃ ticks', Link.await ending ticks = (true, ⟨ticks', ending⟩) ∧ Prompt ticks' ∧
      items ticks' = b :: rest := by
  induction ticks with
  | nil => cases hitems
  | cons x ticks ih =>
      cases x with
      | item a => exact ⟨_, rfl, h, hitems⟩
      | wait => exact ih h.tail hitems
      | silence => exact absurd rfl (h _ List.mem_cons_self)

variable {bufferSize : UInt16}

namespace PubSubClient

/-- Calls one after the other, each at its time. -/
def run (callback : Option Callback) (c : PubSubClient bufferSize) (es : List (UInt32 × Event)) :
    Except Fault (PubSubClient bufferSize) :=
  es.foldlM (fun c e => c.step callback e.1 e.2) c

/-- A run of the client is one of the session. -/
theorem refines_run {c : PubSubClient bufferSize} {s : Session} (h : Refines c s)
    (callback : Option Callback) (hsafe : ∀ f ∈ callback, SafeCallback bufferSize f)
    (hsize : 7 ≤ bufferSize.toNat) (es : List (UInt32 × Event))
    (hproper : ∀ e ∈ es, Proper bufferSize e.2) :
    ∃ fs, fs.map (·.2) = es ∧
      Simulates (c.run callback es) (s.run bufferSize.toNat callback fs) := by
  -- each event is simulated with the readiness of its own moment
  induction es generalizing c s with
  | nil => exact ⟨[], rfl, c, rfl, h⟩
  | cons e es ih =>
      obtain ⟨c', hstep, h'⟩ :=
        refines_step h callback hsafe e.1 e.2 (hproper e List.mem_cons_self) hsize
      obtain ⟨fs, hfs, c'', hrun, h''⟩ :=
        ih h' fun e' he' => hproper e' (List.mem_cons_of_mem e he')
      refine ⟨(c.ready, e) :: fs, ?_, c'', ?_, h''⟩
      · rw [List.map_cons, hfs]
      · rw [run, List.foldlM_cons, hstep]
        exact hrun

/-- A text of a connection with room for its texts. -/
theorem length_lt_of_room {a : ConnectArgs} (hroom : Room bufferSize a) (text' : CString)
    (h : text' ∈ a.strings) : text'.1.length < 65536 := by
  have hsize := bufferSize.toNat_lt
  have hroom' : 15 + (a.strings.flatMap fun s => text s.1).length ≤ bufferSize.toNat := hroom
  have hle : (text text'.1).length ≤ (a.strings.flatMap fun s => text s.1).length := by
    rw [List.flatMap_def]
    exact (List.sublist_flatten_of_mem
      (List.mem_map_of_mem (f := fun s : CString => text s.1) h)).length_le
  rw [MqttPackets.length_text] at hle
  omega

/-- What has room in the buffer is a CONNECT that fits. -/
theorem fits_of_room {a : ConnectArgs} (hroom : Room bufferSize a) (keepAlive : UInt16)
    (h : a.willQos.toNat < 3) : (Packet.connect (a.packet keepAlive h)).Fits := by
  -- every string of the packet has its place in the buffer
  have hlt := length_lt_of_room hroom
  obtain ⟨id, user, pass, willTopic, willQos, willRetain, willMessage, cleanSession⟩ := a
  refine ⟨hlt id List.mem_cons_self, fun w hw => ?_, fun u hu => ?_⟩
  · obtain ⟨topic, htopic, rfl⟩ := Option.map_eq_some_iff.1 hw
    dsimp only at htopic hlt ⊢
    rw [htopic] at hlt
    exact ⟨hlt topic (by simp [ConnectArgs.strings]),
      hlt willMessage (by simp [ConnectArgs.strings])⟩
  · obtain ⟨name, hname, rfl⟩ := Option.map_eq_some_iff.1 hu
    dsimp only at hname hlt ⊢
    rw [hname] at hlt
    refine ⟨hlt name ?_, fun p hp => ?_⟩
    · cases pass <;> simp [ConnectArgs.strings]
    · obtain ⟨password, hpassword, rfl⟩ := Option.map_eq_some_iff.1 hp
      rw [hpassword] at hlt
      exact hlt password (by simp [ConnectArgs.strings])

/-- The check of a client whose connection is down only tells that it is. -/
theorem connected_of_down (c : PubSubClient bufferSize) (hdown : c._client.connected = false) :
    ∃ c0, c.connected = (false, c0) ∧ c0.calls = c.calls ∧ c0.stream = c.stream ∧
      c0.keepAlive = c.keepAlive ∧ c0._client.connected = false := by
  rw [connected, if_neg (by rw [hdown]; exact Bool.false_ne_true)]
  split_ifs
  · exact ⟨_, rfl, rfl, rfl, rfl, rfl⟩
  · exact ⟨_, rfl, rfl, rfl, rfl, hdown⟩

/-- The client behind an acknowledgement that was read. -/
def welcomed (c : PubSubClient bufferSize) (present : Bool) (b : Block bufferSize.toNat)
    (ticks : List (Tick UInt8)) (now : UInt32) : PubSubClient bufferSize :=
  { c.having b ticks (c.stream.map (· ++ payloadOf (Packet.connack present 0).frame)) with
    lastInActivity := now, pingOutstanding := false, _state := MQTT_CONNECTED }

/-- An acknowledgement that comes without a silence is taken. -/
theorem acknowledged_spec (c : PubSubClient bufferSize) (present : Bool) (ps : List Packet)
    (now : UInt32) (hsize : 7 ≤ bufferSize.toNat) (hprompt : Prompt c._client.source.ticks)
    (hitems : items c._client.source.ticks = encodeAll (.connack present 0 :: ps)) :
    ∃ b ticks, acknowledged c now = .ok (true, c.welcomed present b ticks now) ∧ Prompt ticks ∧
      items ticks = encodeAll ps := by
  obtain ⟨waited, hawait, hprompt', hitems'⟩ :=
    @Link.await_of_prompt c._client.source.ending c._client.source.ticks 32
      ([2, UInt8.ofNat (MqttPackets.flag present 1), 0] ++ encodeAll ps) hprompt hitems
  obtain ⟨c1, hc1⟩ : ∃ c1 : PubSubClient bufferSize, c1 = { c with
    _client := { c._client with source := ⟨waited, c._client.source.ending⟩ } } := ⟨_, rfl⟩
  have hwaited : c1._client.source.ticks = waited := by rw [hc1]
  obtain ⟨b, ticks, hread, hprompt'', hrest, hplaced⟩ := readPacket_frame c1
    (Packet.connack present 0).frame (by decide : 2 < 128 ^ 4) hsize
    (fun h' => absurd h' (by decide : ¬ (32 &&& 0xF0 : UInt8) = 48))
    (hwaited ▸ hprompt') (hwaited ▸ hitems')
  have hkept : kept bufferSize c1.stream (Packet.connack present 0).frame.encode.length = 4 := by
    have hlen : (Packet.connack present 0).frame.encode.length = 4 := rfl
    rw [kept, hlen, if_neg (by omega), Nat.min_eq_left (by omega)]
  -- its last byte is the return code
  have hcode : byte b.1 3 = .ok 0 := by
    have htake : (Packet.connack present 0).frame.encode.take bufferSize.toNat =
        [32, 2, UInt8.ofNat (MqttPackets.flag present 1)] ++ [0] :=
      List.take_of_length_le (by change 4 ≤ _; omega)
    rw [htake] at hplaced
    exact (Placed.right (e := [0]) hplaced).byte
  refine ⟨b, ticks, ?_, hprompt'', hrest⟩
  rw [acknowledged, hawait]
  dsimp only
  rw [← hc1, hread, hkept]
  change (byte b.1 3 >>= _) = _
  rw [hcode, hc1]
  rfl

/-- The session begins with the packet of the connection, and the answer is taken. -/
theorem connect_spec (c : PubSubClient bufferSize) (a : ConnectArgs) (link : Link)
    (present : Bool) (ps : List Packet) (t now : UInt32) (h : a.willQos.toNat < 3)
    (hroom : Room bufferSize a) (hdown : c._client.connected = false)
    (hlink : link.Brings (.connack present 0 :: ps))
    (hps : ∀ p ∈ ps, Expected bufferSize c.stream p) :
    ∃ c', c.connect a (some link) t now = .ok (true, c') ∧ c'.calls = c.calls ∧
      (c'.stream = none ↔ c.stream = none) ∧
      Refines c' (c'.session ps [.connect (a.packet c.keepAlive h)]) := by
  -- the buffer has room for the fixed part of a CONNECT
  have hsize : 15 ≤ bufferSize.toNat := (Nat.le_add_right 15 _).trans hroom
  obtain ⟨c0, hc0, hcalls0, hstream0, hkeep0, hdown0⟩ := c.connected_of_down hdown
  obtain ⟨buffer, hgreet⟩ := greet_spec { c0 with _client := link } a t now h hroom
  -- on the new connection the packet went out whole
  have hgreeted : (greeted { c0 with _client := link } a h t)._client =
      { link with sent := link.sent ++ (Packet.connect (a.packet c.keepAlive h)).encode } := by
    rw [greeted, wrote]
    dsimp only
    rw [Link.write_of_takes hlink.takes, hkeep0]
  obtain ⟨c1, hc1⟩ : ∃ c1 : PubSubClient bufferSize,
    c1 = { greeted { c0 with _client := link } a h t with buffer } := ⟨_, rfl⟩
  have hclient : c1._client = { link with
      sent := link.sent ++ (Packet.connect (a.packet c.keepAlive h)).encode } := by
    rw [hc1]
    exact hgreeted
  have hstream : c1.stream = c.stream := by
    rw [hc1]
    exact hstream0
  -- the broker's acknowledgement is read from what the link brings
  obtain ⟨b, ticks, hread, hprompt, hitems⟩ := acknowledged_spec c1 present ps now (by omega)
    (by rw [hclient]; exact hlink.prompt) (by rw [hclient]; exact hlink.items)
  refine ⟨c1.welcomed present b ticks now, ?_, ?_, ?_, ?_⟩
  · rw [connect, hc0]
    dsimp only
    rw [if_neg Bool.false_ne_true, if_neg (by rw [hdown0]; exact Bool.false_ne_true), hgreet,
      ← hc1, hread]
  · rw [← hcalls0, hc1]
    rfl
  · rw [← hstream]
    exact Option.map_eq_none_iff
  · refine ⟨rfl, ?_, ?_, fun _ => ⟨hprompt, hitems, ?_⟩, fun p hp => ?_, fun p hp => ?_⟩
    · change c1._client.accepts = []
      rw [hclient]
      exact hlink.accepts
    · change c1._client.sent = encodeAll [.connect _]
      rw [hclient, hlink.sent, MqttPackets.encodeAll_singleton]
      rfl
    · change c1._client.source.ending = .stays
      rw [hclient]
      exact hlink.stays
    · obtain ⟨hfits, hroom'⟩ := hps p hp
      refine ⟨hfits, fun m hm hnone' => hroom' m hm fun hnone => hnone' ?_⟩
      exact Option.map_eq_none_iff.2 (hstream.trans hnone)
    · rw [List.mem_singleton.1 hp]
      exact fits_of_room hroom c.keepAlive h

/-- The law at the start of a session. -/
theorem law_start {c c' : PubSubClient bufferSize} (callback : Option Callback)
    (connection : Connect) (ps : List Packet) (hcalls : c'.calls = c.calls)
    (hstream : c'.stream = none ↔ c.stream = none) :
    Session.Law bufferSize.toNat callback connection (c.session [] []) ps []
      (c'.session ps [.connect connection]) := by
  refine ⟨⟨[], fun p hp => (by cases hp), Or.inl rfl⟩, ⟨[], ps, rfl, fun _ => rfl, ?_, ?_,
    fun _ => rfl⟩, hstream⟩
  · rw [session, session, hcalls]
    exact (List.append_nil _).symm
  · exact List.prefix_refl []

end PubSubClient

end Mqtt

end ArduinoBeken
