import ArduinoBeken.Net.SocketConduct

/-!
# Who Owns Which Socket

Any number of plain and secure clients live at the same time over one pool of
descriptors, which hands out any that is free, zero included. They are
created, copied, assigned, used and destroyed in any order. A secure client
keeps its descriptor in a context on the heap, which a copy of the client
shares.

A ledger records what each object holds. The law is that of ownership: every
`lwip_close` is for a descriptor that the object holds and no other one does,
and an open descriptor is always held by some live object.

## Main definitions

* `World`: The objects, their contexts, and the ledger.
* `Event`: Creating, using, copying, assigning and destroying objects.
* `turn`, `step`: What an event does.
* `Owns`: The law of an event.
* `Tidy`: The events that stay within the discipline.
* `Kept`: What is known of the objects after tidy events.

## Theorems

* `step_kept`: A tidy event obeys the law and keeps every object's books.
* `tidy_owns`: Every event of a run of tidy events obeys the law.
-/

namespace ArduinoBeken.Net

open EventRun (run Always)
open Ownership (Act Ledger)
open Ownership.Ledger (act Lawful Possible Sound Covered Conducts run_holds_of_ne)
open Tls (WiFiClientSecure SslClientContext Bundle Device Call)

/-- An object, with the place of its context if it has one. -/
inductive ClientObject where
  | plain (c : WiFiClient)
  | secure (c : WiFiClientSecure) (ctx : Nat)

/-- The live objects by number, the contexts on the heap, the global bundle,
and the books about the descriptors. -/
structure World where
  objects : Nat → Option ClientObject := fun _ => none
  contexts : Nat → SslClientContext := fun _ => {}
  crts : Option Bundle := none
  ledger : Ledger Nat Int := .empty

/-- What can happen to the objects. Copying a secure client into a plain one,
or assigning it to one, copies the part they share. -/
inductive Event where
  | newPlain (id : Nat)
  | newSecure (id : Nat)
  | plain (id : Nat) (call : PlainCall)
  | secure (id : Nat) (call : Call)
  | copyPlain (dst src : Nat)
  | copySecure (dst src : Nat)
  | assignPlain (dst src : Nat)
  | assignSecure (dst src : Nat)
  | destroy (id : Nat)

/-- The object an event changes. -/
def Event.actor : Event → Nat
  | .newPlain id | .newSecure id | .plain id _ | .secure id _ | .destroy id => id
  | .copyPlain dst _ | .copySecure dst _ | .assignPlain dst _ | .assignSecure dst _ => dst

/-- What an event does: the objects after it, the calls made, and the object
whose descriptor its actor then uses in place of its own, if it comes to that. -/
structure Turn where
  world : World
  calls : List SocketCall := []
  adopts : Option (Option Nat) := none

namespace World

/-- The client with its context. -/
def load (w : World) (c : WiFiClientSecure) (ctx : Nat) : WiFiClientSecure :=
  { c with sslclient := w.contexts ctx }

/-- Puts a client and its context back. -/
def store (w : World) (id ctx : Nat) (c : WiFiClientSecure) : World :=
  { w with
    objects := Function.update w.objects id (some (.secure c ctx))
    contexts := Function.update w.contexts ctx c.sslclient }

/-- The world with another object under an id. -/
def put (w : World) (id : Nat) (object : Option ClientObject) : World :=
  { w with objects := Function.update w.objects id object }

/-- The plain part of a secure client, whose own descriptor is never set. -/
def slice (c : WiFiClientSecure) : WiFiClient := { connected := c.connected }

/-- `operator=` of the secure client: stops the one on the left and shares the
descriptor of the other. -/
def assignSecure (w : World) (dst src : Nat) (c c' : WiFiClientSecure) (ctx ctx' : Nat) : Turn :=
  let out := (w.load c ctx).stop
  let stopped := w.store dst ctx out.client
  let other := if dst = src then out.client else stopped.load c' ctx'
  let assigned : WiFiClientSecure :=
    { out.client with
      sslclient := { out.client.sslclient with socket := other.sslclient.socket }
      connected := other.connected }
  { world := stopped.store dst ctx assigned, calls := out.calls, adopts := some (some src) }

/-- What an event does to the objects. An event that names a missing object,
or creates one that is there, does nothing. -/
def turn (w : World) : Event → Turn
  | .newPlain id =>
      match w.objects id with
      -- an object that exists is not made again
      | none => { world := w.put id (some (.plain {})) }
      | some _ => { world := w }
  | .newSecure id =>
      match w.objects id with
      | none => { world := w.store id id .new }
      | some _ => { world := w }
  | .plain id call =>
      match w.objects id with
      | some (.plain c) =>
          { world := w.put id (some (.plain (c.perform call).1)), calls := (c.perform call).2 }
      | _ => { world := w }
  | .secure id call =>
      match w.objects id with
      | some (.secure c ctx) =>
          let out := Device.perform { client := w.load c ctx, crts := w.crts } call
          { world := { w.store id ctx out.client.client with crts := out.client.crts }
            calls := out.calls }
      | _ => { world := w }
  | .copyPlain dst src =>
      match w.objects dst, w.objects src with
      | none, some (.plain c) =>
          { world := w.put dst (some (.plain c)), adopts := some (some src) }
      -- a plain copy of a secure client is its base part
      | none, some (.secure c _) =>
          { world := w.put dst (some (.plain (slice c))), adopts := some none }
      | _, _ => { world := w }
  | .copySecure dst src =>
      match w.objects dst, w.objects src with
      | none, some (.secure c ctx) =>
          { world := w.put dst (some (.secure c ctx)), adopts := some (some src) }
      | _, _ => { world := w }
  | .assignPlain dst src =>
      match w.objects dst, w.objects src with
      | some (.plain _), some (.plain c) =>
          { world := w.put dst (some (.plain c)), adopts := some (some src) }
      | some (.plain _), some (.secure c _) =>
          { world := w.put dst (some (.plain (slice c))), adopts := some none }
      | _, _ => { world := w }
  | .assignSecure dst src =>
      match w.objects dst, w.objects src with
      | some (.secure c ctx), some (.secure c' ctx') => w.assignSecure dst src c c' ctx ctx'
      | _, _ => { world := w }
  | .destroy id =>
      match w.objects id with
      -- the base part is stopped by its destructor
      | some (.plain c) =>
          { world := w.put id none, calls := c.stop.calls, adopts := some none }
      -- the secure one stops its session first
      | some (.secure c ctx) =>
          let out := (w.load c ctx).stop
          { world := (w.store id ctx out.client).put id none
            calls := out.calls
            adopts := some none }
      | none => { world := w }

/-- The books after the calls of an event, and what its actor uses then. -/
def books (w : World) (e : Event) : Ledger Nat Int :=
  let l := run (act e.actor) w.ledger (acts (w.turn e).calls)
  match (w.turn e).adopts with
  | none => l
  | some source => l.assign e.actor (source.bind l.holds)

/-- One event, with the ledger. -/
def step (w : World) (e : Event) : World :=
  { (w.turn e).world with ledger := w.books e }

/-- The law of an event: each close is of a descriptor that its actor holds and
nobody else does, and afterwards every open descriptor is held. -/
def Owns (w : World) (e : Event) : Prop :=
  Always (act e.actor) (Lawful e.actor) w.ledger (acts (w.turn e).calls) ∧
    (w.step e).ledger.Covered

/-- lwIP hands out descriptors that are free at that time. -/
def HandsOutFree (w : World) (e : Event) : Prop :=
  Always (act e.actor) Possible w.ledger (acts (w.turn e).calls)

/-- The object holds no descriptor. -/
def Empty (w : World) (id : Nat) : Prop :=
  w.ledger.holds id = none

/-- The events within the discipline: secure clients are torn down only with
the descriptor they hold, connected only without one, and never copied; and
what is copied or assigned to holds nothing. -/
def Tidy (w : World) : Event → Prop
  | .newPlain _ | .newSecure _ | .plain _ _ => True
  | .secure id call =>
      -- a secure call must not leave a socket behind that its context has lost
      match w.objects id with
      | some (.secure c ctx) =>
          MayCall { client := w.load c ctx, crts := w.crts } (w.ledger.holds id) call
      | _ => True
  | .copyPlain dst src =>
      match w.objects dst, w.objects src with
      | none, some (.plain _) => w.Empty src
      | _, _ => True
  | .copySecure dst src =>
      match w.objects dst, w.objects src with
      | none, some (.secure _ _) => False
      | _, _ => True
  | .assignPlain dst src =>
      match w.objects dst, w.objects src with
      -- two objects share the socket unless one of them has none
      | some (.plain _), some (.plain _) => dst = src ∨ (w.Empty dst ∧ w.Empty src)
      | some (.plain _), some (.secure _ _) => w.Empty dst
      | _, _ => True
  | .assignSecure dst src =>
      match w.objects dst, w.objects src with
      | some (.secure c ctx), some (.secure _ _) =>
          ¬ Torn (w.load c ctx) (w.ledger.holds dst) ∧ (dst = src ∨ w.Empty src)
      | _, _ => True
  | .destroy id =>
      match w.objects id with
      | some (.secure c ctx) => ¬ Torn (w.load c ctx) (w.ledger.holds id)
      | _ => True

/-- A tidy event, with the pool doing its part. -/
def Allowed (w : World) (e : Event) : Prop :=
  w.HandsOutFree e ∧ w.Tidy e

/-- What the fields of an object say about the descriptor `r` it holds. -/
def ObjectBooks (w : World) (id : Nat) (r : Option Int) : Prop :=
  match w.objects id with
  | none => r = none
  | some (.plain c) => r = c.held
  | some (.secure c ctx) => ctx = id ∧ SecureKept (w.load c ctx) r

/-- The books are sound, and agree with every object. -/
structure Kept (w : World) : Prop where
  sound : w.ledger.Sound
  object : ∀ id, w.ObjectBooks id (w.ledger.holds id)

/-- Before any object is made the books are kept. -/
theorem kept_new : Kept {} :=
  ⟨Ownership.Ledger.sound_empty, fun _ => rfl⟩

/-- An object's books depend on the object and its context alone. -/
theorem ObjectBooks.congr (w w' : World) (id : Nat) (r : Option Int)
    (hobject : w'.objects id = w.objects id) (hcontext : w'.contexts id = w.contexts id)
    (h : w.ObjectBooks id r) : w'.ObjectBooks id r := by
  unfold ObjectBooks at h ⊢
  rw [hobject]
  cases hid : w.objects id with
  | none => simpa [hid] using h
  | some object =>
      cases object with
      | plain c => simpa [hid] using h
      | secure c ctx =>
          simp only [hid] at h ⊢
          rcases h with ⟨rfl, hk⟩
          refine ⟨rfl, ?_⟩
          simpa only [load, hcontext] using hk

/-- An event that touches its actor alone, conducts itself and leaves the actor
with what its fields say is within the law. What it adopts, if anything, is
what it holds by then. -/
theorem kept_of_conducts (w : World) (e : Event) (r : Option Int) (hw : w.Kept)
    (hconduct : Conducts e.actor w.ledger (acts (w.turn e).calls) r)
    (hadopts : ∀ source, (w.turn e).adopts = some source →
      source.bind (run (act e.actor) w.ledger (acts (w.turn e).calls)).holds = r)
    (hobjects : ∀ id, id ≠ e.actor → (w.turn e).world.objects id = w.objects id)
    (hcontexts : ∀ id, id ≠ e.actor → (w.turn e).world.contexts id = w.contexts id)
    (hactor : (w.turn e).world.ObjectBooks e.actor r) : w.Owns e ∧ (w.step e).Kept := by
  -- The ledger after a step is what the calls have made of it, by whatever way it is adopted.
  have hbooks : w.books e = run (act e.actor) w.ledger (acts (w.turn e).calls) := by
    unfold books
    cases hsource : (w.turn e).adopts with
    | none => rfl
    | some source =>
        simp only [hadopts source hsource, Ownership.Ledger.assign, ← hconduct.holds,
          Function.update_eq_self]
  have hsound : (w.step e).ledger.Sound := by
    simp only [step, hbooks]
    exact hconduct.sound
  refine ⟨⟨hconduct.lawful, hsound.covered⟩, hsound, fun id => ?_⟩
  -- The actor has what the conduct says, and nobody else's part has changed.
  by_cases hid : id = e.actor
  · have hholds : (w.step e).ledger.holds id = r := by
      simp only [step, hbooks, hid, hconduct.holds]
    rw [hholds, hid]
    exact hactor
  · have hholds : (w.step e).ledger.holds id = w.ledger.holds id := by
      simp only [step, hbooks, run_holds_of_ne _ _ _ _ hid]
    rw [hholds]
    exact ObjectBooks.congr w (w.step e) id _ (hobjects id hid) (hcontexts id hid) (hw.object id)

section Steps

variable (w : World) (hw : w.Kept)

include hw in
/-- An event that does nothing. -/
theorem kept_idle (e : Event) (h : w.turn e = { world := w }) : w.Owns e ∧ (w.step e).Kept := by
  refine kept_of_conducts w e (w.ledger.holds e.actor) hw ?_ ?_ ?_ ?_ ?_
  · rw [h]
    exact Ownership.Ledger.conducts_nil _ _ hw.sound
  · intro source hsource
    rw [h] at hsource
    exact absurd hsource (by simp)
  · exact fun id _ => by rw [h]
  · exact fun id _ => by rw [h]
  · rw [h]
    exact hw.object e.actor

include hw in
/-- An object that is not there holds nothing. -/
theorem holds_of_missing (id : Nat) (h : w.objects id = none) : w.ledger.holds id = none := by
  have hbooks := hw.object id
  simpa only [ObjectBooks, h] using hbooks

include hw in
/-- A plain client holds what it says. -/
theorem holds_of_plain (id : Nat) (c : WiFiClient) (h : w.objects id = some (.plain c)) :
    w.ledger.holds id = c.held := by
  have hbooks := hw.object id
  simpa only [ObjectBooks, h] using hbooks

include hw in
/-- A secure client has the context of its own number, and keeps it. -/
theorem kept_of_secure (id ctx : Nat) (c : WiFiClientSecure)
    (h : w.objects id = some (.secure c ctx)) :
    ctx = id ∧ SecureKept (w.load c ctx) (w.ledger.holds id) := by
  have hbooks := hw.object id
  simpa only [ObjectBooks, h] using hbooks

/-- Putting one object leaves the others. -/
theorem put_objects (id : Nat) (object : Option ClientObject) (j : Nat) (h : j ≠ id) :
    (w.put id object).objects j = w.objects j :=
  Function.update_of_ne h _ _

/-- Storing one secure client leaves the others. -/
theorem store_objects (id ctx : Nat) (c : WiFiClientSecure) (j : Nat) (h : j ≠ id) :
    (w.store id ctx c).objects j = w.objects j :=
  Function.update_of_ne h _ _

/-- Storing one secure client leaves the other contexts. -/
theorem store_contexts (id ctx : Nat) (c : WiFiClientSecure) (j : Nat) (h : j ≠ ctx) :
    (w.store id ctx c).contexts j = w.contexts j :=
  Function.update_of_ne h _ _

/-- A plain client's books are what it holds. -/
theorem put_plain_books (id : Nat) (c : WiFiClient) :
    (w.put id (some (.plain c))).ObjectBooks id c.held := by
  simp [ObjectBooks, put]

/-- An object that is gone has no books. -/
theorem put_none_books (id : Nat) : (w.put id none).ObjectBooks id none := by
  simp [ObjectBooks, put]

/-- A secure client that is kept has its books kept. -/
theorem store_books (id : Nat) (c : WiFiClientSecure) (r : Option Int) (h : SecureKept c r) :
    (w.store id id c).ObjectBooks id r := by
  simp only [ObjectBooks, store, Function.update_self, load]
  exact ⟨trivial, h⟩

include hw in
/-- Making a plain client keeps the books. -/
theorem kept_newPlain (id : Nat) : w.Owns (.newPlain id) ∧ (w.step (.newPlain id)).Kept := by
  cases hid : w.objects id with
  | some object => exact kept_idle w hw _ (by simp only [turn, hid])
  | none =>
      have hturn : w.turn (.newPlain id) = { world := w.put id (some (.plain {})) } := by
        simp only [turn, hid]
      refine kept_of_conducts w _ none hw ?_ ?_ ?_ ?_ ?_
      · rw [hturn]
        exact holds_of_missing w hw id hid ▸ Ownership.Ledger.conducts_nil _ _ hw.sound
      · simp only [hturn]
        exact fun _ h => absurd h (by simp)
      · exact fun j hj => by rw [hturn]; exact put_objects w id _ j hj
      · exact fun j _ => by rw [hturn]; rfl
      · rw [hturn]
        exact put_plain_books w id {}

include hw in
/-- Making a secure client keeps the books. -/
theorem kept_newSecure (id : Nat) : w.Owns (.newSecure id) ∧ (w.step (.newSecure id)).Kept := by
  cases hid : w.objects id with
  | some object => exact kept_idle w hw _ (by simp only [turn, hid])
  | none =>
      have hturn : w.turn (.newSecure id) = { world := w.store id id .new } := by
        simp only [turn, hid]
      refine kept_of_conducts w _ none hw ?_ ?_ ?_ ?_ ?_
      · rw [hturn]
        exact holds_of_missing w hw id hid ▸ Ownership.Ledger.conducts_nil _ _ hw.sound
      · simp only [hturn]
        exact fun _ h => absurd h (by simp)
      · exact fun j hj => by rw [hturn]; exact store_objects w id id _ j hj
      · exact fun j hj => by rw [hturn]; exact store_contexts w id id _ j hj
      · rw [hturn]
        exact store_books w id .new none (secureKept_none _ rfl)

include hw in
/-- A plain client's call keeps the books. -/
theorem kept_plain (id : Nat) (call : PlainCall) (hfree : w.HandsOutFree (.plain id call)) :
    w.Owns (.plain id call) ∧ (w.step (.plain id call)).Kept := by
  cases hid : w.objects id with
  | none => exact kept_idle w hw _ (by simp only [turn, hid])
  | some object =>
      -- a plain call on a secure object does nothing in the model
      cases object with
      | secure c ctx => exact kept_idle w hw _ (by simp only [turn, hid])
      | plain c =>
          have hturn : w.turn (.plain id call) =
              { world := w.put id (some (.plain (c.perform call).1))
                calls := (c.perform call).2 } := by
            simp only [turn, hid]
          simp only [HandsOutFree, hturn] at hfree
          refine kept_of_conducts w _ (c.perform call).1.held hw ?_ ?_ ?_ ?_ ?_
          · rw [hturn]
            exact plain_conducts id w.ledger c hw.sound (holds_of_plain w hw id c hid) call hfree
          · simp only [hturn]
            exact fun _ h => absurd h (by simp)
          · exact fun j hj => by rw [hturn]; exact put_objects w id _ j hj
          · exact fun j _ => by rw [hturn]; rfl
          · rw [hturn]
            exact put_plain_books w id _

include hw in
/-- A secure client's call keeps the books. -/
theorem kept_secure (id : Nat) (call : Call) (hfree : w.HandsOutFree (.secure id call))
    (htidy : w.Tidy (.secure id call)) :
    w.Owns (.secure id call) ∧ (w.step (.secure id call)).Kept := by
  cases hid : w.objects id with
  | none => exact kept_idle w hw _ (by simp only [turn, hid])
  | some object =>
      cases object with
      | plain c => exact kept_idle w hw _ (by simp only [turn, hid])
      | secure c ctx =>
          -- A secure object stands at the number of its context.
          rcases kept_of_secure w hw id ctx c hid with ⟨rfl, hk⟩
          have hturn : w.turn (.secure ctx call) =
              { world :=
                  { w.store ctx ctx
                      (Device.perform ⟨w.load c ctx, w.crts⟩ call).client.client with
                    crts := (Device.perform ⟨w.load c ctx, w.crts⟩ call).client.crts }
                calls := (Device.perform ⟨w.load c ctx, w.crts⟩ call).calls } := by
            simp only [turn, hid]
          simp only [HandsOutFree, hturn] at hfree
          simp only [Tidy, hid] at htidy
          rcases secure_conducts ctx w.ledger ⟨w.load c ctx, w.crts⟩ call hw.sound hk htidy hfree
            with ⟨r, hconduct, hkept⟩
          -- The conduct of the call is that of the device; the rest is bookkeeping.
          refine kept_of_conducts w _ r hw ?_ ?_ ?_ ?_ ?_
          · rw [hturn]
            exact hconduct
          · simp only [hturn]
            exact fun _ h => absurd h (by simp)
          · exact fun j hj => by rw [hturn]; exact store_objects w ctx ctx _ j hj
          · exact fun j hj => by rw [hturn]; exact store_contexts w ctx ctx _ j hj
          · rw [hturn]
            exact store_books w ctx _ r hkept

include hw in
/-- A plain client that holds nothing takes over what holds nothing. -/
theorem kept_put_plain (e : Event) (c : WiFiClient) (source : Option Nat)
    (hturn : w.turn e =
      { world := w.put e.actor (some (.plain c)), adopts := some source })
    (hsource : source.bind w.ledger.holds = w.ledger.holds e.actor)
    (hc : c.held = w.ledger.holds e.actor) : w.Owns e ∧ (w.step e).Kept := by
  refine kept_of_conducts w e (w.ledger.holds e.actor) hw ?_ ?_ ?_ ?_ ?_
  · rw [hturn]
    exact Ownership.Ledger.conducts_nil _ _ hw.sound
  · simp only [hturn]
    rintro s hs
    cases hs
    exact hsource
  · exact fun j hj => by rw [hturn]; exact put_objects w _ _ j hj
  · exact fun j _ => by rw [hturn]; rfl
  · rw [hturn, ← hc]
    exact put_plain_books w _ c

include hw in
/-- Copying a plain client keeps the books where it is tidy. -/
theorem kept_copyPlain (dst src : Nat) (htidy : w.Tidy (.copyPlain dst src)) :
    w.Owns (.copyPlain dst src) ∧ (w.step (.copyPlain dst src)).Kept := by
  cases hdst : w.objects dst with
  | some object => exact kept_idle w hw _ (by simp only [turn, hdst])
  | none =>
      have hnone := holds_of_missing w hw dst hdst
      cases hsrc : w.objects src with
      | none => exact kept_idle w hw _ (by simp only [turn, hdst, hsrc])
      | some object =>
          cases object with
          | plain c =>
              simp only [Tidy, hdst, hsrc, Empty] at htidy
              have hheld := holds_of_plain w hw src c hsrc
              exact kept_put_plain w hw _ c (some src)
                (by simp only [turn, hdst, hsrc, Event.actor])
                (htidy.trans hnone.symm) (hheld.symm.trans (htidy.trans hnone.symm))
          | secure c ctx =>
              exact kept_put_plain w hw _ (slice c) none
                (by simp only [turn, hdst, hsrc, Event.actor]) hnone.symm hnone.symm

include hw in
/-- Copying a secure client keeps the books where it is tidy. -/
theorem kept_copySecure (dst src : Nat) (htidy : w.Tidy (.copySecure dst src)) :
    w.Owns (.copySecure dst src) ∧ (w.step (.copySecure dst src)).Kept := by
  refine kept_idle w hw _ ?_
  simp only [Tidy] at htidy
  simp only [turn]
  split
  · rename_i hdst hsrc
    simp [hdst, hsrc] at htidy
  · rfl

include hw in
/-- Assigning a plain client keeps the books where it is tidy. -/
theorem kept_assignPlain (dst src : Nat) (htidy : w.Tidy (.assignPlain dst src)) :
    w.Owns (.assignPlain dst src) ∧ (w.step (.assignPlain dst src)).Kept := by
  cases hdst : w.objects dst with
  | none => exact kept_idle w hw _ (by simp only [turn, hdst])
  | some object =>
      cases object with
      | secure d ctx => exact kept_idle w hw _ (by simp only [turn, hdst])
      | plain d =>
          cases hsrc : w.objects src with
          | none => exact kept_idle w hw _ (by simp only [turn, hdst, hsrc])
          | some object =>
              cases object with
              | plain c =>
                  simp only [Tidy, hdst, hsrc, Empty] at htidy
                  -- the object itself is assigned, or neither holds a socket
                  have hsame : w.ledger.holds src = w.ledger.holds dst := by
                    rcases htidy with rfl | ⟨hd, hs⟩
                    · rfl
                    · exact hs.trans hd.symm
                  exact kept_put_plain w hw _ c (some src)
                    (by simp only [turn, hdst, hsrc, Event.actor]) hsame
                    ((holds_of_plain w hw src c hsrc).symm.trans hsame)
              | secure c ctx =>
                  simp only [Tidy, hdst, hsrc, Empty] at htidy
                  exact kept_put_plain w hw _ (slice c) none
                    (by simp only [turn, hdst, hsrc, Event.actor]) htidy.symm htidy.symm

include hw in
/-- The destructor of either client stops it and forgets it. -/
theorem kept_destroy (id : Nat) (htidy : w.Tidy (.destroy id)) :
    w.Owns (.destroy id) ∧ (w.step (.destroy id)).Kept := by
  cases hid : w.objects id with
  | none => exact kept_idle w hw _ (by simp only [turn, hid])
  | some object =>
      cases object with
      | plain c =>
          have hturn : w.turn (.destroy id) =
              { world := w.put id none, calls := c.stop.calls, adopts := some none } := by
            simp only [turn, hid]
          -- A plain object is stopped and taken away.
          have hstop := plain_stop_conducts id w.ledger c hw.sound (holds_of_plain w hw id c hid)
          rw [WiFiClient.stop_held] at hstop
          refine kept_of_conducts w _ none hw ?_ ?_ ?_ ?_ ?_
          · rw [hturn]
            exact hstop
          · simp only [hturn]
            rintro source hs
            cases hs
            rfl
          · exact fun j hj => by rw [hturn]; exact put_objects w id _ j hj
          · exact fun j _ => by rw [hturn]; rfl
          · rw [hturn]
            exact put_none_books w id
      | secure c ctx =>
          rcases kept_of_secure w hw id ctx c hid with ⟨rfl, hk⟩
          simp only [Tidy, hid] at htidy
          have hturn : w.turn (.destroy ctx) =
              { world := (w.store ctx ctx (w.load c ctx).stop.client).put ctx none
                calls := (w.load c ctx).stop.calls
                adopts := some none } := by
            simp only [turn, hid]
          -- A secure object is stopped, and its context is left without a socket.
          have hstop := (secure_stop_conducts ctx w.ledger (w.load c ctx) hw.sound hk htidy).1
          refine kept_of_conducts w _ none hw ?_ ?_ ?_ ?_ ?_
          · rw [hturn]
            exact hstop
          · simp only [hturn]
            rintro source hs
            cases hs
            rfl
          · intro j hj
            rw [hturn]
            exact (put_objects _ ctx _ j hj).trans (store_objects w ctx ctx _ j hj)
          · exact fun j hj => by rw [hturn]; exact store_contexts w ctx ctx _ j hj
          · rw [hturn]
            exact put_none_books _ ctx

include hw in
/-- An assignment from a client without descriptor leaves the one on the left
without one, too, whatever its context then names. -/
theorem kept_assignSecure (dst src : Nat) (htidy : w.Tidy (.assignSecure dst src)) :
    w.Owns (.assignSecure dst src) ∧ (w.step (.assignSecure dst src)).Kept := by
  cases hdst : w.objects dst with
  | none => exact kept_idle w hw _ (by simp only [turn, hdst])
  | some object =>
      cases object with
      | plain c => exact kept_idle w hw _ (by simp only [turn, hdst])
      | secure c ctx =>
          cases hsrc : w.objects src with
          | none => exact kept_idle w hw _ (by simp only [turn, hdst, hsrc])
          | some object =>
              cases object with
              | plain c' => exact kept_idle w hw _ (by simp only [turn, hdst, hsrc])
              | secure c' ctx' =>
                  -- Both objects are secure; the one that is assigned to is stopped first.
                  rcases kept_of_secure w hw dst ctx c hdst with ⟨rfl, hk⟩
                  rcases kept_of_secure w hw src ctx' c' hsrc with ⟨rfl, hk'⟩
                  simp only [Tidy, hdst, hsrc, Empty] at htidy
                  have hturn : w.turn (.assignSecure ctx ctx') =
                      w.assignSecure ctx ctx' c c' ctx ctx' := by
                    simp only [turn, hdst, hsrc]
                  rcases secure_stop_conducts ctx w.ledger (w.load c ctx) hw.sound hk htidy.1
                    with ⟨hstop, hstopped⟩
                  -- After the stop there is no connection, and the source is not connected
                  -- either.
                  have hdown : (w.load c ctx).stop.client.connected = false := by
                    by_contra hc
                    exact hstopped.connected (by simpa using hc) rfl
                  have hdown' : ctx ≠ ctx' → c'.connected = false := by
                    intro hne
                    by_contra hc
                    exact hk'.connected (by simpa [load] using hc) (htidy.2.resolve_left hne)
                  refine kept_of_conducts w _ none hw ?_ ?_ ?_ ?_ ?_
                  · rw [hturn]
                    exact hstop
                  · rw [hturn]
                    rintro source hs
                    cases hs
                    simp only [assignSecure, Event.actor, Option.bind_some]
                    -- An object assigned to itself has been stopped, another one gives up its
                    -- socket.
                    by_cases heq : ctx = ctx'
                    · exact heq ▸ hstop.holds
                    · rw [run_holds_of_ne _ _ _ _ (Ne.symm heq)]
                      exact htidy.2.resolve_left heq
                  · intro j hj
                    rw [hturn]
                    exact (store_objects _ ctx ctx _ j hj).trans (store_objects w ctx ctx _ j hj)
                  · intro j hj
                    rw [hturn]
                    exact (store_contexts _ ctx ctx _ j hj).trans (store_contexts w ctx ctx _ j hj)
                  · rw [hturn]
                    refine store_books _ ctx _ none (secureKept_none _ ?_)
                    -- Neither is connected, so the object holds nothing.
                    by_cases heq : ctx = ctx'
                    · simp only [if_pos heq, hdown]
                    · simp only [if_neg heq, load, hdown' heq]

end Steps

/-- A tidy event is within the law and keeps the books. -/
theorem step_kept (w : World) (e : Event) (hw : w.Kept) (hok : w.Allowed e) :
    w.Owns e ∧ (w.step e).Kept := by
  rcases hok with ⟨hfree, htidy⟩
  cases e with
  | newPlain id => exact kept_newPlain w hw id
  | newSecure id => exact kept_newSecure w hw id
  | plain id call => exact kept_plain w hw id call hfree
  | secure id call => exact kept_secure w hw id call hfree htidy
  | copyPlain dst src => exact kept_copyPlain w hw dst src htidy
  | copySecure dst src => exact kept_copySecure w hw dst src htidy
  | assignPlain dst src => exact kept_assignPlain w hw dst src htidy
  | assignSecure dst src => exact kept_assignSecure w hw dst src htidy
  | destroy id => exact kept_destroy w hw id htidy

/-- Along a run of tidy events every descriptor is closed by its one holder,
and none is lost. -/
theorem tidy_owns (es : List Event) (h : Always step Allowed {} es) : Always step Owns {} es :=
  EventRun.always_of_inv (I := Kept) (fun w e hw hok => (step_kept w e hw hok).1)
    (fun w e hw hok => (step_kept w e hw hok).2) kept_new h

/-- A plain and a secure client live at the same time, each with its own
connection. -/
def sideBySide : List Event :=
  [.newPlain 0, .plain 0 (.connectIp ⟨none, 0, 0⟩ 1 80), .newSecure 1,
    .secure 1 (.set .insecure),
    .secure 1 (.connect (.smooth 1 (.offering .unauthenticated)) (.host ['h'] 443)),
    .destroy 1, .destroy 0]

/-- Clients side by side own what they use. -/
theorem sideBySide_owns : Always step Owns {} sideBySide := by
  refine tidy_owns sideBySide ⟨⟨trivial, trivial⟩, ⟨⟨rfl, trivial⟩, trivial⟩,
    ⟨trivial, trivial⟩, ⟨trivial, trivial⟩, ⟨⟨rfl, trivial⟩, ?_⟩,
    ⟨⟨trivial, trivial⟩, ?_⟩, ⟨⟨trivial, trivial⟩, trivial⟩, trivial⟩
  · -- the client trusts anybody and holds nothing, and no flag is set afterwards
    exact ⟨rfl, Or.inl rfl⟩
  · -- the context names the descriptor that is held
    exact fun htorn => htorn.2 rfl

/-- A secure client is stopped twice while a plain client holds descriptor zero. -/
def stoppedTwice : List Event :=
  [.newPlain 0, .plain 0 (.connectIp ⟨none, 0, 0⟩ 1 80), .newSecure 1,
    .secure 1 (.set .insecure),
    .secure 1 (.connect (.smooth 1 (.offering .unauthenticated)) (.host ['h'] 443)),
    .secure 1 .stop, .secure 1 .stop]

/-- The second stop closes the descriptor of the other client. -/
theorem second_stop_closes_other : ¬ Always step Owns {} stoppedTwice := by
  intro h
  have hlaw := h.2.2.2.2.2.2.1.1.1
  exact absurd hlaw.1 (by decide)

end World

end ArduinoBeken.Net
