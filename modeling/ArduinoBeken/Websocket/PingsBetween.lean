import ArduinoBeken.Websocket.SentMessages

/-!
# Pings in the Middle of a Message

A control frame may come between the frames of messages, and changes none of them. The client
has only one buffer, though: a ping that it sends or answers while the sketch composes a
message is appended to that message, which goes out with it. The rest of what the sketch
writes is lost.

The server therefore reads what the sketch composed exactly when there was no ping in the
middle of a message (`run_intact_iff`). A ping that comes at another time does no harm.

## Main definitions

* `Call.Proper`: Messages that are no control frames, and pings of the length they may have.
* `Outbox.runApart`: A client that keeps its pings apart from its messages.
* `Outbox.interrupted`: A ping in the middle of a message.

## Theorems

* `step_of_idle`, `step_of_pending`: A ping, and what becomes of it.
* `run_eq_runApart_iff`: The frames of the two clients.
* `run_intact_iff`: What the server reads.
-/

namespace ArduinoBeken

namespace Websocket

open CheckedBytes (Block)
open WebSocketFrames

namespace WebSocketClient

/-- The call writes a control frame. -/
def Call.isPing : Call → Bool
  | .ping _ _ => true
  | .pong _ _ => true
  | _ => false

theorem Call.isPing_cases (call : Call) (h : call.isPing = true) :
    (∃ pingData maskKey, call = .ping pingData maskKey) ∨
      ∃ payload maskKey, call = .pong payload maskKey := by
  cases call with
  | ping pingData maskKey => exact Or.inl ⟨pingData, maskKey, rfl⟩
  | pong payload maskKey => exact Or.inr ⟨payload, maskKey, rfl⟩
  | beginMessage aType => cases h
  | write aBuffer => cases h
  | endMessage maskKey => cases h

/-- The messages of the sketch are no control frames, and a ping of the server is as short as
the protocol has it. -/
def Call.Proper : Call → Prop
  | .beginMessage aType => aType % 16 < 8
  | .pong payload _ => payload.length ≤ 125
  | _ => True

end WebSocketClient

namespace Outbox

open WebSocketClient (Call)

/-- The step of a client that sends its pings beside the message it composes. -/
def stepApart (o : Outbox) : Call → Option Outbox
  | .ping pingData maskKey =>
    some { o with frames := o.frames ++ [⟨true, kind 9, some maskKey, pingData.1⟩] }
  | .pong payload maskKey =>
    some { o with frames := o.frames ++ [⟨true, kind 10, some maskKey, payload⟩] }
  | call => o.step call

/-- Calls one after the other, of which pings go out on their own. -/
def runApart (o : Outbox) (calls : List Call) : Option Outbox :=
  calls.foldlM stepApart o

/-- A ping is sent or answered while a message is being composed. -/
def interrupted (o : Outbox) : List Call → Bool
  | [] => false
  | call :: calls =>
    (call.isPing && o.pending.isSome) || ((o.step call).elim false (·.interrupted calls))

/-- The message that is composed is no control frame. -/
def Data (o : Outbox) : Prop :=
  ∀ opcode said, o.pending = some (opcode, said) → opcode.val < 8

variable {o o' i : Outbox}

theorem write_some {opcode : Fin 16} {said data : List UInt8}
    (hpending : o.pending = some (opcode, said)) (h : o.write data = some o') :
    ∃ more, o' = { o with pending := some (opcode, said ++ more) } := by
  rw [write, hpending] at h
  dsimp only at h
  split_ifs at h
  rw [Option.some.injEq] at h
  exact ⟨_, h.symm⟩

theorem write_of_room {opcode : Fin 16} {said data : List UInt8}
    (hpending : o.pending = some (opcode, said))
    (h : said.length + data.length ≤ WS_TX_BUFFER_SIZE) :
    o.write data = some { o with pending := some (opcode, said ++ data) } := by
  rw [write, hpending]
  dsimp only
  rw [if_neg fun hover => Nat.not_lt.2 h hover.2, kept, if_pos h]

theorem writes_some {opcode : Fin 16} (payload : List UInt8) :
    ∀ (o : Outbox) (said : List UInt8), o.pending = some (opcode, said) →
      payload.foldlM (fun (o : Outbox) b => o.write [b]) o = some o' →
      ∃ more, o' = { o with pending := some (opcode, said ++ more) } := by
  -- the ping's bytes are written one by one
  induction payload with
  | nil =>
      intro o said hpending h
      rw [List.foldlM_nil] at h
      refine ⟨[], ?_⟩
      rw [List.append_nil, ← hpending]
      exact (Option.some.inj h).symm
  | cons b payload ih =>
      intro o said hpending h
      rw [List.foldlM_cons] at h
      obtain ⟨o1, hwrite, hrest⟩ := Option.bind_eq_some_iff.1 h
      obtain ⟨more, rfl⟩ := write_some hpending hwrite
      obtain ⟨more', rfl⟩ := ih _ _ rfl hrest
      exact ⟨more ++ more', by rw [List.append_assoc]⟩

theorem writes_of_room {opcode : Fin 16} (payload : List UInt8) :
    ∀ (o : Outbox) (said : List UInt8), o.pending = some (opcode, said) →
      said.length + payload.length ≤ WS_TX_BUFFER_SIZE →
      payload.foldlM (fun (o : Outbox) b => o.write [b]) o =
        some { o with pending := some (opcode, said ++ payload) } := by
  induction payload with
  | nil =>
      intro o said hpending h
      rw [List.foldlM_nil, List.append_nil, ← hpending]
      rfl
  | cons b payload ih =>
      intro o said hpending h
      rw [List.length_cons] at h
      have hone : o.write [b] = some { o with pending := some (opcode, said ++ [b]) } :=
        write_of_room hpending (by
          rw [List.length_singleton]
          omega)
      have hrest := ih { o with pending := some (opcode, said ++ [b]) } (said ++ [b]) rfl (by
        rw [List.length_append, List.length_singleton]
        omega)
      rw [List.append_assoc, List.singleton_append] at hrest
      rw [List.foldlM_cons, hone]
      exact hrest

theorem beginMessage_pending (hpending : o.pending.isSome = true) (aType : Int) :
    o.beginMessage aType = o :=
  if_pos hpending

theorem beginMessage_idle (hpending : o.pending = none) (aType : Int) :
    o.beginMessage aType =
      { o with pending := some (kind (aType % 16).toNat, []) } := by
  rw [beginMessage, hpending]
  rfl

/-- A ping that comes while nothing is composed is sent beside the messages. -/
theorem step_of_idle {call : Call} (hproper : call.Proper) (hping : call.isPing = true)
    (hpending : o.pending = none) : o.step call = o.stepApart call := by
  obtain ⟨pingData, maskKey, rfl⟩ | ⟨payload, maskKey, rfl⟩ := call.isPing_cases hping
  -- a ping's payload has room in an empty buffer
  · have hroom : ([] : List UInt8).length + pingData.1.length ≤ WS_TX_BUFFER_SIZE := by
      rw [pingData.2]
      decide
    rw [step, beginMessage_idle hpending, write_of_room rfl hroom]
    change some (Outbox.mk none _) = some (Outbox.mk o.pending _)
    rw [hpending]
    rfl
  · have hroom : ([] : List UInt8).length + payload.length ≤ WS_TX_BUFFER_SIZE := by
      change 0 + payload.length ≤ 128
      change payload.length ≤ 125 at hproper
      omega
    rw [step, beginMessage_idle hpending, writes_of_room payload _ [] rfl hroom]
    change some (Outbox.mk none _) = some (Outbox.mk o.pending _)
    rw [hpending]
    rfl

theorem step_of_not_ping {call : Call} (h : call.isPing = false) :
    o.step call = o.stepApart call := by
  cases call with
  | ping pingData maskKey => cases h
  | pong payload maskKey => cases h
  | beginMessage aType => rfl
  | write aBuffer => rfl
  | endMessage maskKey => rfl

/-- A ping in the middle of a message ends it. -/
theorem step_of_pending {call : Call} (hping : call.isPing = true) {opcode : Fin 16}
    {said : List UInt8} (hpending : o.pending = some (opcode, said))
    (h : o.step call = some o') :
    ∃ f : Frame, o'.frames = o.frames ++ [f] ∧ f.opcode = opcode := by
  have hsome : o.pending.isSome = true := by rw [hpending]; rfl
  obtain ⟨pingData, maskKey, rfl⟩ | ⟨payload, maskKey, rfl⟩ := call.isPing_cases hping
  · rw [step, beginMessage_pending hsome] at h
    obtain ⟨o1, hwrite, rfl⟩ := Option.map_eq_some_iff.1 h
    obtain ⟨more, rfl⟩ := write_some hpending hwrite
    exact ⟨_, rfl, rfl⟩
  · rw [step, beginMessage_pending hsome] at h
    obtain ⟨o1, hwrites, rfl⟩ := Option.map_eq_some_iff.1 h
    obtain ⟨more, rfl⟩ := writes_some payload o said hpending hwrites
    exact ⟨_, rfl, rfl⟩

theorem stepApart_of_ping {call : Call} (hping : call.isPing = true)
    (h : o.stepApart call = some i) :
    ∃ f : Frame, i.frames = o.frames ++ [f] ∧ 8 ≤ f.opcode.val := by
  obtain ⟨pingData, maskKey, rfl⟩ | ⟨payload, maskKey, rfl⟩ := call.isPing_cases hping
  · obtain rfl := Option.some.inj h
    exact ⟨_, rfl, Nat.le_add_right 8 1⟩
  · obtain rfl := Option.some.inj h
    exact ⟨_, rfl, Nat.le_add_right 8 2⟩

/-- What was sent stays sent. -/
theorem frames_stepApart (call : Call) (h : o.stepApart call = some i) :
    o.frames <+: i.frames := by
  -- only the calls that send a frame add one
  cases call with
  | ping pingData maskKey =>
      obtain rfl := Option.some.inj h
      exact List.prefix_append _ _
  | pong payload maskKey =>
      obtain rfl := Option.some.inj h
      exact List.prefix_append _ _
  | beginMessage aType =>
      obtain rfl := Option.some.inj h
      rw [beginMessage]
      split_ifs <;> exact List.prefix_refl _
  | write aBuffer =>
      change o.write aBuffer = some i at h
      cases hpending : o.pending with
      | none =>
          rw [write, hpending] at h
          obtain rfl := Option.some.inj h
          exact List.prefix_refl _
      | some message =>
          obtain ⟨more, rfl⟩ := write_some hpending h
          exact List.prefix_refl _
  | endMessage maskKey =>
      obtain rfl := Option.some.inj h
      rw [endMessage]
      cases o.pending with
      | none => exact List.prefix_refl _
      | some message => exact List.prefix_append _ _

theorem frames_step (call : Call) (h : o.step call = some o') : o.frames <+: o'.frames := by
  cases hping : call.isPing with
  | false => exact frames_stepApart call (step_of_not_ping hping ▸ h)
  | true =>
      cases hpending : o.pending with
      | none =>
          -- outside a message the ping is a message of its own
          obtain ⟨pingData, maskKey, rfl⟩ | ⟨payload, maskKey, rfl⟩ := call.isPing_cases hping
          · rw [step, beginMessage_idle hpending] at h
            obtain ⟨o1, hwrite, rfl⟩ := Option.map_eq_some_iff.1 h
            obtain ⟨more, rfl⟩ := write_some rfl hwrite
            exact List.prefix_append _ _
          · rw [step, beginMessage_idle hpending] at h
            obtain ⟨o1, hwrites, rfl⟩ := Option.map_eq_some_iff.1 h
            obtain ⟨more, rfl⟩ := writes_some payload _ _ rfl hwrites
            exact List.prefix_append _ _
      | some message =>
          obtain ⟨f, hf, -⟩ := step_of_pending hping hpending h
          rw [hf]
          exact List.prefix_append _ _

theorem frames_foldlM {step : Outbox → Call → Option Outbox}
    (hstep : ∀ o o' call, step o call = some o' → o.frames <+: o'.frames)
    (calls : List Call) : ∀ o, calls.foldlM step o = some o' → o.frames <+: o'.frames := by
  induction calls with
  | nil =>
      intro o h
      rw [List.foldlM_nil] at h
      obtain rfl := Option.some.inj h
      exact List.prefix_refl _
  | cons call calls ih =>
      intro o h
      rw [List.foldlM_cons] at h
      obtain ⟨o1, hone, hrest⟩ := Option.bind_eq_some_iff.1 h
      exact (hstep o o1 call hone).trans (ih o1 hrest)

theorem data_stepApart {call : Call} (h : o.Data) (hproper : call.Proper)
    (hstep : o.stepApart call = some i) : i.Data := by
  -- no call begins a message with a control opcode
  cases call with
  | ping pingData maskKey =>
      obtain rfl := Option.some.inj hstep
      exact h
  | pong payload maskKey =>
      obtain rfl := Option.some.inj hstep
      exact h
  | beginMessage aType =>
      obtain rfl := Option.some.inj hstep
      cases hpending : o.pending with
      | none =>
          rw [beginMessage_idle hpending]
          intro opcode said hsaid
          rw [Option.some.injEq, Prod.mk.injEq] at hsaid
          obtain ⟨rfl, -⟩ := hsaid
          change aType % 16 < 8 at hproper
          change (aType % 16).toNat % 16 < 8
          omega
      | some message =>
          rw [beginMessage_pending (by rw [hpending]; rfl)]
          exact h
  | write aBuffer =>
      change o.write aBuffer = some i at hstep
      cases hpending : o.pending with
      | none =>
          rw [write, hpending] at hstep
          obtain rfl := Option.some.inj hstep
          exact h
      | some message =>
          obtain ⟨more, rfl⟩ := write_some hpending hstep
          intro opcode said hsaid
          rw [Option.some.injEq, Prod.mk.injEq] at hsaid
          obtain ⟨rfl, -⟩ := hsaid
          exact h _ _ hpending
  | endMessage maskKey =>
      obtain rfl := Option.some.inj hstep
      rw [endMessage]
      cases hpending : o.pending with
      | none => exact h
      | some message => exact fun opcode said hsaid => by cases hsaid

/-- The frames are those of a client that keeps its pings apart exactly when none came in
between. -/
theorem run_eq_runApart_iff (calls : List Call) :
    ∀ o : Outbox, o.Data → (∀ call ∈ calls, call.Proper) → o.run calls = some o' →
      ((∃ i, o.runApart calls = some i ∧ i.frames = o'.frames) ↔
        o.interrupted calls = false) := by
  induction calls with
  | nil =>
      intro o _ _ h
      exact iff_of_true ⟨o, rfl, congrArg frames (Option.some.inj h)⟩ rfl
  | cons call calls ih =>
      intro o hdata hproper h
      have hcall := hproper call List.mem_cons_self
      rw [run, List.foldlM_cons] at h
      obtain ⟨o1, hone, hrest⟩ := Option.bind_eq_some_iff.1 h
      rw [runApart, List.foldlM_cons, interrupted, hone, Option.elim_some]
      -- a ping into an open message makes a frame of the message's opcode
      by_cases hin : call.isPing = true ∧ o.pending.isSome = true
      · obtain ⟨hping, hsome⟩ := hin
        obtain ⟨⟨opcode, said⟩, hpending⟩ := Option.isSome_iff_exists.1 hsome
        refine iff_of_false ?_ (by rw [hping, hsome]; simp)
        rintro ⟨i, hi, hframes⟩
        obtain ⟨i1, hi1, hi⟩ := Option.bind_eq_some_iff.1 hi
        obtain ⟨f, hf, hopcode⟩ := step_of_pending hping hpending hone
        obtain ⟨g, hg, hcontrol⟩ := stepApart_of_ping hping hi1
        -- neither run takes a frame back, so the two would have to agree on this one
        have hprefix := frames_foldlM (fun _ _ call h => frames_step call h) calls o1 hrest
        have hprefix' := frames_foldlM (fun _ _ call h => frames_stepApart call h) calls i1 hi
        rw [hframes, hg] at hprefix'
        rw [hf] at hprefix
        have hsame := (List.prefix_of_prefix_length_le hprefix hprefix' (by
          rw [List.length_append, List.length_append, List.length_singleton,
            List.length_singleton])).eq_of_length (by
          rw [List.length_append, List.length_append, List.length_singleton,
            List.length_singleton])
        have hfg := List.singleton_inj.1 (List.append_cancel_left hsame)
        have := hdata opcode said hpending
        rw [← hfg, hopcode] at hcontrol
        omega
      -- any other call does the same in both runs
      · have hsame : o.step call = o.stepApart call := by
          cases hping : call.isPing with
          | false => exact step_of_not_ping hping
          | true =>
              refine step_of_idle hcall hping ?_
              cases hpending : o.pending with
              | none => rfl
              | some message => exact absurd ⟨hping, by rw [hpending]; rfl⟩ hin
        have hfalse : (call.isPing && o.pending.isSome) = false := by
          rw [← Bool.not_eq_true, Bool.and_eq_true]
          exact hin
        rw [hsame] at hone
        rw [hone, hfalse, Bool.false_or]
        exact ih o1 (data_stepApart hdata hcall hone)
          (fun call h => hproper call (List.mem_cons_of_mem _ h)) hrest

end Outbox

namespace WebSocketClient

/-- The server reads the messages as they were composed, with the pings between them, exactly
when no ping was sent or answered in the middle of a message. -/
theorem run_intact_iff (c c' : WebSocketClient) (calls : List Call)
    (hstate : HttpState.readingBody.rank ≤ c.iState.rank) (htakes : c.iClient.Takes)
    (hidle : c.iTxStarted = false) (hproper : ∀ call ∈ calls, call.Proper)
    (hrun : c.run calls = .ok c') :
    (∃ i bytes, Outbox.runApart {} calls = some i ∧
      c'.iClient.sent = c.iClient.sent ++ bytes ∧
      readFrames bytes.length bytes = some i.frames) ↔
    Outbox.interrupted {} calls = false := by
  obtain ⟨o, bytes, hout, hsent, hread⟩ :=
    sent_of_run c calls hstate htakes hidle hrun
  have hdata : Outbox.Data {} := fun _ _ hnone => by cases hnone
  rw [← Outbox.run_eq_runApart_iff calls {} hdata hproper hout]
  constructor
  · rintro ⟨i, bytes', hi, hsent', hread'⟩
    rw [hsent] at hsent'
    obtain rfl := List.append_cancel_left hsent'
    rw [hread, Option.some.injEq] at hread'
    exact ⟨i, hi, hread'.symm⟩
  · rintro ⟨i, hi, hframes⟩
    exact ⟨i, bytes, hi, hsent, hframes ▸ hread⟩

/-- A ping of the server that comes when the text is out. -/
theorem run_intact_iff_demo :
    ∃ c', run ⟨{ source := ⟨[], .stays⟩ }, .readingBody, false, 0, Block.zeros 128, 0⟩
        [.beginMessage 1, .write [104], .endMessage ![1, 2, 3, 4], .pong [7] ![5, 6, 7, 8]] =
          .ok c' ∧
      ∃ i bytes, Outbox.runApart {} [.beginMessage 1, .write [104],
          .endMessage ![1, 2, 3, 4], .pong [7] ![5, 6, 7, 8]] = some i ∧
        c'.iClient.sent = [] ++ bytes ∧ readFrames bytes.length bytes = some i.frames := by
  obtain ⟨c', hrun, -⟩ := (simulates_run
    ⟨{ source := ⟨[], .stays⟩ }, .readingBody, false, 0, Block.zeros 128, 0⟩
    [.beginMessage 1, .write [104], .endMessage ![1, 2, 3, 4], .pong [7] ![5, 6, 7, 8]]
    (Nat.le_refl 8) ⟨rfl, rfl⟩ rfl).ends _ rfl
  exact ⟨c', hrun, (run_intact_iff
    ⟨{ source := ⟨[], .stays⟩ }, .readingBody, false, 0, Block.zeros 128, 0⟩ c' _
    (Nat.le_refl 8) ⟨rfl, rfl⟩ rfl (by simp [Call.Proper]) hrun).2 rfl⟩

end WebSocketClient

end Websocket

end ArduinoBeken
