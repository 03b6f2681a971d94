import ArduinoBeken.Library.Run
import Mathlib.Data.List.Perm.Basic

/-!
# The Sockets of a Server

A `WiFiServer` listens on one socket, parks at most one accepted socket
(`hasClient`) and hands accepted sockets out (`available`). Sockets are numbered
in the order in which lwIP returns them.

The books about lwIP are history: which sockets it returned from `lwip_accept`,
which of these went into a `WiFiClient` and which the server closed, and which
listening sockets are open. Every accepted socket is in exactly one place as
long as the server does not end while one is parked, and only so long
(`accounted_iff`).

## Main definitions

* `WiFiServer`, `Opening`, `Accepting`: The server, and what lwIP answers.
* `World.begin`, `World.available`, `World.hasClient`, `World.finish`: The calls.
* `Accounted`, `ListensOpenly`: The two laws.
* `EndsUnparked`: No call ends the server while a socket is parked.

## Theorems

* `kept_step`: What every step keeps.
* `accounted_step_iff`: One step keeps the accounts if it ends nothing parked.
* `accounted_iff`: The laws along a run.
-/

namespace ArduinoBeken

namespace WiFi.Server

/-- The server. A descriptor of -1 is `none`. -/
structure WiFiServer where
  sockfd : Option Nat := none
  accepted_sockfd : Option Nat := none
  port : Nat := 80
  listening : Bool := false
deriving DecidableEq, Repr

/-- Whether `lwip_socket`, `lwip_bind` and `lwip_listen` succeed. -/
structure Opening where
  socket : Bool
  bind : Bool
  listen : Bool
deriving DecidableEq, Repr

/-- Whether a connection is there to be accepted, and whether the two options
can be set on its socket. -/
structure Accepting where
  accept : Bool
  keepAlive : Bool
  noDelay : Bool
deriving DecidableEq, Repr

/-- The object with its sockets, and what became of them as history. -/
structure World where
  server : WiFiServer := {}
  alive : Bool := true
  /-- The number of the next socket. -/
  fresh : Nat := 0
  /-- History: the sockets from `lwip_socket` that are open. -/
  listeners : List Nat := []
  /-- History: the sockets from `lwip_accept`. -/
  accepted : List Nat := []
  /-- History: those that went into a `WiFiClient`. -/
  handed : List Nat := []
  /-- History: those that the server closed. -/
  closed : List Nat := []
deriving DecidableEq, Repr

namespace World

/-- `end`. -/
def finish (w : World) : World :=
  { w with
    listeners :=
      match w.server.sockfd with
      | some l => w.listeners.erase l
      | none => w.listeners
    server := { w.server with sockfd := none, accepted_sockfd := none, listening := false } }

/-- `begin`. A port of zero leaves the one it has. -/
def begin (w : World) (port : Nat) (r : Opening) : World :=
  if w.server.listening then w
  else
    let w := { w with
      server := { w.server with port := if port ≠ 0 then port else w.server.port } }
    if !r.socket then { w with server := { w.server with sockfd := none } }
    else
      let w := { w with
        server := { w.server with sockfd := some w.fresh }
        listeners := w.listeners ++ [w.fresh]
        fresh := w.fresh + 1 }
      if !r.bind then w.finish
      else if !r.listen then w.finish
      else { w with server := { w.server with listening := true, accepted_sockfd := none } }

/-- `lwip_accept`, which fails on a descriptor of -1. -/
def lwipAccept (w : World) (incoming : Bool) : World × Option Nat :=
  if w.server.sockfd.isSome && incoming then
    ({ w with fresh := w.fresh + 1, accepted := w.accepted ++ [w.fresh] }, some w.fresh)
  else (w, none)

/-- The end of `available`: a socket with its options goes into a `WiFiClient`,
and one without is closed. -/
def handOut (w : World) (s : Nat) (r : Accepting) : World :=
  if r.keepAlive && r.noDelay then { w with handed := w.handed ++ [s] }
  else { w with closed := w.closed ++ [s] }

/-- `available`: the socket that is parked, or one that is accepted now. -/
def available (w : World) (r : Accepting) : World :=
  if w.server.listening then
    match w.server.accepted_sockfd with
    | some s => { w with server := { w.server with accepted_sockfd := none } }.handOut s r
    | none =>
      let a := w.lwipAccept r.accept
      match a.2 with
      | some s => a.1.handOut s r
      | none => a.1
  else w

/-- `hasClient`: a connection that is accepted is parked. -/
def hasClient (w : World) (incoming : Bool) : World :=
  match w.server.accepted_sockfd with
  | some _ => w
  | none =>
    let a := w.lwipAccept incoming
    { a.1 with server := { a.1.server with accepted_sockfd := a.2 } }

end World

/-- The calls of the sketch, with what the network brings. -/
inductive Event where
  | begin (port : Nat) (r : Opening)
  | available (r : Accepting)
  | hasClient (incoming : Bool)
  | finish
  | close
  | stop
  | destroy
deriving DecidableEq, Repr

/-- What a call does. -/
def World.perform (w : World) : Event → World
  | .begin port r => w.begin port r
  | .available r => w.available r
  | .hasClient incoming => w.hasClient incoming
  | .finish => w.finish
  | .close => w.finish
  | .stop => w.finish
  | .destroy => { w.finish with alive := false }

/-- A server that is destroyed is not called any more. -/
def step (w : World) (e : Event) : World :=
  if w.alive then w.perform e else w

/-! ### Laws -/

/-- Every accepted socket is in one place: in a `WiFiClient`, parked or closed. -/
structure Accounted (w : World) : Prop where
  nodup : w.accepted.Nodup
  places : w.accepted.Perm (w.handed ++ w.server.accepted_sockfd.toList ++ w.closed)

/-- One listening socket is open while the server says that it listens, and
none otherwise. -/
def ListensOpenly (w : World) : Prop :=
  w.listeners.length = if w.server.listening then 1 else 0

/-- The two laws behind a step. -/
def StaysAccounted (w : World) (e : Event) : Prop :=
  Accounted (step w e) ∧ ListensOpenly (step w e)

/-- The calls that end the server. -/
def Event.ends : Event → Bool
  | .finish | .close | .stop | .destroy => true
  | _ => false

/-- No call ends the server while a socket is parked. -/
def EndsUnparked (w : World) (e : Event) : Prop :=
  w.alive = true → e.ends = true → w.server.accepted_sockfd = none

/-! ### What every step keeps -/

/-- The listening socket is open just while the server listens, and numbers are
not used again. -/
structure Kept (w : World) : Prop where
  listens : (w.server.listening = true ∧ ∃ l, w.server.sockfd = some l ∧ w.listeners = [l]) ∨
    (w.server.listening = false ∧ w.server.sockfd = none ∧ w.listeners = [] ∧
      w.server.accepted_sockfd = none)
  used : ∀ s ∈ w.accepted, s < w.fresh
  nodup : w.accepted.Nodup

theorem listensOpenly_of_kept (w : World) (h : Kept w) : ListensOpenly w := by
  unfold ListensOpenly
  rcases h.listens with ⟨hlisten, l, -, hl⟩ | ⟨hlisten, -, hl, -⟩
  · rw [hlisten, hl]
    rfl
  · rw [hlisten, hl]
    rfl

theorem kept_finish (w : World) (h : Kept w) : Kept w.finish := by
  refine ⟨Or.inr ⟨rfl, rfl, ?_, rfl⟩, h.used, h.nodup⟩
  unfold World.finish
  rcases h.listens with ⟨-, l, hfd, hl⟩ | ⟨-, hfd, hl, -⟩
  · simp only [hfd, hl]
    exact List.erase_cons_head l []
  · simp only [hfd]
    exact hl

theorem kept_begin (w : World) (port : Nat) (r : Opening) (h : Kept w) :
    Kept (w.begin port r) := by
  unfold World.begin
  split
  · exact h
  · next hlisten =>
    -- the socket of an earlier start would be listening, and the call returns then
    have hclosed := h.listens.resolve_left (fun hl => hlisten hl.1)
    rcases hclosed with ⟨hoff, -, hlisteners, hparked⟩
    -- Behind `lwip_socket` one listening socket is open, and `end` closes it.
    have hopen : ∀ v : World, v.server.sockfd = some w.fresh → v.listeners = [w.fresh] →
        v.accepted = w.accepted → v.fresh = w.fresh + 1 → Kept v.finish := by
      intro v hfd hl hacc hfresh
      refine ⟨Or.inr ⟨rfl, rfl, ?_, rfl⟩, ?_, ?_⟩
      · unfold World.finish
        simp only [hfd, hl]
        exact List.erase_cons_head w.fresh []
      · intro s hs
        have hused := h.used s (hacc ▸ hs)
        change s < v.fresh
        omega
      · exact hacc ▸ h.nodup
    -- the listener is the only one
    have hone : w.listeners ++ [w.fresh] = [w.fresh] := by rw [hlisteners, List.nil_append]
    simp only []
    -- no socket, a port that is taken, a listen refused: the server stays closed
    split
    · exact ⟨Or.inr ⟨hoff, rfl, hlisteners, hparked⟩, h.used, h.nodup⟩
    · split
      · exact hopen _ rfl hone rfl rfl
      · split
        · exact hopen _ rfl hone rfl rfl
        · refine ⟨Or.inl ⟨rfl, w.fresh, rfl, hone⟩, ?_, h.nodup⟩
          intro s hs
          have hused := h.used s hs
          change s < w.fresh + 1
          omega

/-- Accepting gives a socket that was not there, if it gives one. -/
theorem lwipAccept_cases (w : World) (incoming : Bool) :
    w.lwipAccept incoming = (w, none) ∨
      w.server.sockfd.isSome = true ∧ w.lwipAccept incoming =
        ({ w with fresh := w.fresh + 1, accepted := w.accepted ++ [w.fresh] }, some w.fresh) := by
  unfold World.lwipAccept
  split
  · next h =>
    rw [Bool.and_eq_true] at h
    exact Or.inr ⟨h.1, rfl⟩
  · exact Or.inl rfl

theorem fresh_not_mem (w : World) (h : Kept w) : w.fresh ∉ w.accepted := by
  intro hmem
  have hused := h.used w.fresh hmem
  omega

theorem kept_accepted (w : World) (h : Kept w) :
    (∀ s ∈ w.accepted ++ [w.fresh], s < w.fresh + 1) ∧ (w.accepted ++ [w.fresh]).Nodup := by
  refine ⟨?_, ?_⟩
  · intro s hs
    rcases List.mem_append.1 hs with hold | hnew
    · have hused := h.used s hold
      omega
    · rw [List.mem_singleton.1 hnew]
      omega
  · rw [List.nodup_append]
    refine ⟨h.nodup, List.nodup_cons.2 ⟨List.not_mem_nil, List.nodup_nil⟩, ?_⟩
    intro s hs t ht heq
    rw [List.mem_singleton.1 ht] at heq
    exact fresh_not_mem w h (heq ▸ hs)

/-- A server that has a descriptor listens. -/
theorem listens_of_sockfd (w : World) (h : Kept w) (hfd : w.server.sockfd.isSome = true) :
    w.server.listening = true ∧ ∃ l, w.server.sockfd = some l ∧ w.listeners = [l] := by
  rcases h.listens with hl | ⟨-, hnone, -, -⟩
  · exact hl
  · rw [hnone] at hfd
    exact absurd hfd Bool.false_ne_true

theorem kept_hasClient (w : World) (incoming : Bool) (h : Kept w) :
    Kept (w.hasClient incoming) := by
  unfold World.hasClient
  cases hp : w.server.accepted_sockfd with
  | some s => exact h
  | none =>
      rcases lwipAccept_cases w incoming with heq | ⟨hfd, heq⟩
      · simp only [heq]
        refine ⟨?_, h.used, h.nodup⟩
        rcases h.listens with hl | ⟨hoff, hnone, hlisteners, -⟩
        · exact Or.inl hl
        · exact Or.inr ⟨hoff, hnone, hlisteners, rfl⟩
      · simp only [heq]
        rcases kept_accepted w h with ⟨hused, hnodup⟩
        exact ⟨Or.inl (listens_of_sockfd w h hfd), hused, hnodup⟩

theorem kept_handOut (w : World) (s : Nat) (r : Accepting) (h : Kept w) :
    Kept (w.handOut s r) := by
  unfold World.handOut
  split
  · exact ⟨h.listens, h.used, h.nodup⟩
  · exact ⟨h.listens, h.used, h.nodup⟩

theorem kept_available (w : World) (r : Accepting) (h : Kept w) : Kept (w.available r) := by
  unfold World.available
  split
  · next hlisten =>
    have hl := h.listens.resolve_right
      (fun hoff => Bool.false_ne_true (hoff.1.symm.trans hlisten))
    split
    · exact kept_handOut _ _ r ⟨Or.inl hl, h.used, h.nodup⟩
    · rcases lwipAccept_cases w r.accept with heq | ⟨-, heq⟩
      · rw [heq]
        exact h
      · rw [heq]
        rcases kept_accepted w h with ⟨hused, hnodup⟩
        exact kept_handOut _ _ r ⟨Or.inl hl, hused, hnodup⟩
  · exact h

theorem kept_step (w : World) (e : Event) (h : Kept w) : Kept (step w e) := by
  unfold step
  split
  · cases e with
    | begin port r => exact kept_begin w port r h
    | available r => exact kept_available w r h
    | hasClient incoming => exact kept_hasClient w incoming h
    | finish => exact kept_finish w h
    | close => exact kept_finish w h
    | stop => exact kept_finish w h
    | destroy =>
        have hfinish := kept_finish w h
        exact ⟨hfinish.listens, hfinish.used, hfinish.nodup⟩
  · exact h

/-! ### The accounts -/

/-- The places of the accepted sockets. -/
def World.places (w : World) : List Nat :=
  w.handed ++ w.server.accepted_sockfd.toList ++ w.closed

-- Ending forgets what is parked, and nothing else.
theorem places_finish (w : World) (h : w.accepted.Perm w.places) :
    w.finish.accepted.Perm w.finish.places ↔ w.server.accepted_sockfd = none := by
  have hplaces : w.finish.places = w.handed ++ w.closed := by
    rw [World.places, World.finish, Option.toList_none, List.append_nil]
  have haccepted : w.finish.accepted = w.accepted := rfl
  rw [hplaces, haccepted]
  refine ⟨?_, ?_⟩
  · intro hperm
    have hlength := h.length_eq.symm.trans hperm.length_eq
    rw [World.places, List.length_append, List.length_append, List.length_append] at hlength
    cases hp : w.server.accepted_sockfd with
    | none => rfl
    | some s =>
        rw [hp, Option.toList_some, List.length_singleton] at hlength
        omega
  · intro hnone
    rwa [World.places, hnone, Option.toList_none, List.append_nil] at h

theorem places_begin (w : World) (port : Nat) (r : Opening) (hkept : Kept w)
    (h : w.accepted.Perm w.places) :
    (w.begin port r).accepted.Perm (w.begin port r).places := by
  unfold World.begin
  split
  · exact h
  · next hlisten =>
    rcases hkept.listens.resolve_left (fun hl => hlisten hl.1) with ⟨-, -, -, hparked⟩
    simp only []
    split
    · exact h
    · split
      · exact (places_finish _ h).2 hparked
      · split
        · exact (places_finish _ h).2 hparked
        · rw [World.places, hparked] at h
          exact h

theorem places_hasClient (w : World) (incoming : Bool) (h : w.accepted.Perm w.places) :
    (w.hasClient incoming).accepted.Perm (w.hasClient incoming).places := by
  unfold World.hasClient
  cases hp : w.server.accepted_sockfd with
  | some s => exact h
  | none =>
      rw [World.places, hp, Option.toList_none, List.append_nil] at h
      rcases lwipAccept_cases w incoming with heq | ⟨-, heq⟩
      · simp only [heq, World.places, Option.toList_none, List.append_nil]
        exact h
      · simp only [heq, World.places, Option.toList_some]
        rw [List.append_assoc, List.singleton_append]
        exact (List.perm_append_singleton _ _).trans
          ((h.cons w.fresh).trans List.perm_middle.symm)

/-- A socket that is taken is handed out or closed. -/
theorem places_handOut (w : World) (s : Nat) (r : Accepting)
    (hnone : w.server.accepted_sockfd = none)
    (h : w.accepted.Perm (s :: (w.handed ++ w.closed))) :
    (w.handOut s r).accepted.Perm (w.handOut s r).places := by
  unfold World.handOut
  split
  · simp only [World.places, hnone, Option.toList_none, List.append_nil]
    rw [List.append_assoc, List.singleton_append]
    exact h.trans List.perm_middle.symm
  · simp only [World.places, hnone, Option.toList_none, List.append_nil]
    rw [← List.append_assoc]
    exact h.trans (List.perm_append_singleton _ _).symm

theorem places_available (w : World) (r : Accepting) (h : w.accepted.Perm w.places) :
    (w.available r).accepted.Perm (w.available r).places := by
  unfold World.available
  split
  · cases hp : w.server.accepted_sockfd with
    | some s =>
        rw [World.places, hp, Option.toList_some, List.append_assoc, List.singleton_append] at h
        exact places_handOut _ s r rfl (h.trans List.perm_middle)
    | none =>
        rw [World.places, hp, Option.toList_none, List.append_nil] at h
        rcases lwipAccept_cases w r.accept with heq | ⟨-, heq⟩
        · simp only [heq, World.places, hp, Option.toList_none, List.append_nil]
          exact h
        · simp only [heq]
          refine places_handOut _ w.fresh r hp ?_
          exact (List.perm_append_singleton _ _).trans (h.cons w.fresh)
  · exact h

/-- One step keeps the accounts if and only if it ends nothing parked. -/
theorem accounted_step_iff (w : World) (e : Event) (hkept : Kept w) (h : Accounted w) :
    Accounted (step w e) ↔ EndsUnparked w e := by
  have hnodup := (kept_step w e hkept).nodup
  have hplaces : Accounted (step w e) ↔ (step w e).accepted.Perm (step w e).places :=
    ⟨fun ha => ha.places, fun hp => ⟨hnodup, hp⟩⟩
  rw [hplaces]
  unfold EndsUnparked step
  by_cases halive : w.alive = true
  · simp only [halive, if_true, forall_const]
    -- Only the calls that end the server can lose a socket.
    cases e with
    | begin port r =>
        refine ⟨fun _ hends => absurd hends Bool.false_ne_true, fun _ => ?_⟩
        exact places_begin w port r hkept h.places
    | available r =>
        refine ⟨fun _ hends => absurd hends Bool.false_ne_true, fun _ => ?_⟩
        exact places_available w r h.places
    | hasClient incoming =>
        refine ⟨fun _ hends => absurd hends Bool.false_ne_true, fun _ => ?_⟩
        exact places_hasClient w incoming h.places
    | finish => exact (places_finish w h.places).trans ⟨fun hnone _ => hnone, fun hn => hn rfl⟩
    | close => exact (places_finish w h.places).trans ⟨fun hnone _ => hnone, fun hn => hn rfl⟩
    | stop => exact (places_finish w h.places).trans ⟨fun hnone _ => hnone, fun hn => hn rfl⟩
    | destroy => exact (places_finish w h.places).trans ⟨fun hnone _ => hnone, fun hn => hn rfl⟩
  · rw [if_neg halive]
    exact ⟨fun _ ha => absurd ha halive, fun _ => h.places⟩

/-- Along every run of a server on any port, both laws hold if and only if no
call ends it while a socket is parked. -/
theorem accounted_iff (port : Nat) (es : List Event) :
    EventRun.Always step StaysAccounted { server := { port } } es ↔
      EventRun.Always step EndsUnparked { server := { port } } es := by
  have hkept : Kept { server := { port } } :=
    ⟨Or.inr ⟨rfl, rfl, rfl, rfl⟩, fun s hs => absurd hs List.not_mem_nil, List.nodup_nil⟩
  have hstart : Accounted { server := { port } } := ⟨List.nodup_nil, List.Perm.refl []⟩
  -- A step that obeys the laws leaves both what it found.
  refine EventRun.always_iff_of_good (I := fun w => Kept w ∧ Accounted w) ?_ ?_ ⟨hkept, hstart⟩ es
  · intro w e hw hgood
    exact ⟨kept_step w e hw.1, hgood.1⟩
  · intro w e hw
    have hopen := listensOpenly_of_kept _ (kept_step w e hw.1)
    exact ⟨fun hgood => (accounted_step_iff w e hw.1 hw.2).1 hgood.1,
      fun hends => ⟨(accounted_step_iff w e hw.1 hw.2).2 hends, hopen⟩⟩

/-- A connection is parked, and the server ends. -/
theorem parked_socket_lost : ¬ ∀ port es,
    EventRun.Always step StaysAccounted { server := { port } } es := by
  intro hall
  have hrun := (accounted_iff 80 _).1
    (hall 80 [.begin 80 ⟨true, true, true⟩, .hasClient true, .finish])
  exact absurd (hrun.2.2.1 rfl rfl) (by decide)

end WiFi.Server

end ArduinoBeken
