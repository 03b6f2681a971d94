import ArduinoBeken.Http.ConnectionTarget
import ArduinoBeken.Http.RequestFraming
import ArduinoBeken.Http.UrlRoundTrip

/-!
# The Chain of Redirects

The requests of one call of `sendRequest`: each but the first follows the
response to the one before it. The number of requests is bounded by the limit in
every run, as far as what the code does is defined. Where they go is another matter:
`_location` outlives the response that set it, a path may begin with a host, a fragment
is sent with it, a connection that is kept may be to another port, and of a URL of the
protocol in use `setURL` makes nothing that is defined.

## Main definitions

* `Target`, `Denotes`: Where a request goes, and what a Location denotes.
* `Chain`, `Chain.next`: The system, with the requests of the call under way and
  the Location of the last response as history.
* `Chain.Bounded`, `Chain.Follows`: What is promised.
* `PlainPath`, `Chain.Careful`: The condition.

## Theorems

* `location_handled`: A response sets the Location, or leaves the older one.
* `setURL_taken`: The Locations that `setURL` takes.
* `denotes_of_plain`: The Locations that it reads as they are meant.
* `counted_turned`, `linked_turned`: The invariants along a step.
* `redirects_follow`: The promise along a run.
-/

namespace ArduinoBeken

namespace Http

open Arrivals

/-! ### Targets -/

/-- Where a request goes. -/
structure Target where
  secure : Bool
  host : Text
  port : Nat
  uri : Text
deriving DecidableEq, Repr

/-- The target of a request, with the kind of client object that it goes out over. -/
def World.target (w : World) : Target :=
  ⟨w.overTls, w.http.host, w.http.port, w.http.uri⟩

/-- The connection to a target. -/
def Target.route (t : Target) : Route :=
  ⟨t.secure, t.host, t.port⟩

/-- The scheme is one over TLS. -/
def UrlParts.overTls (p : UrlParts) : Bool :=
  decide (p.protocol = "https".toList)

/-- What a URL of the parts asks for: without a port, that of the scheme. -/
def UrlParts.requested (p : UrlParts) : Target :=
  ⟨p.overTls, p.host, p.number.getD (portFor p.protocol), p.uri⟩

/-- A fragment, which no request carries, or nothing. -/
def IsFragment (t : Text) : Prop :=
  t = [] ∨ t.head? = some '#'

/-- The target that a Location denotes, in a response to a request to another:
a URL, one without its scheme, or a path on the same host. -/
inductive Denotes (base : Target) : Text → Target → Prop
  | url (p : UrlParts) (fragment : Text) (hplain : '#' ∉ p.compose)
      (hfragment : IsFragment fragment) : Denotes base (p.compose ++ fragment) p.requested
  | network (p : UrlParts) (fragment : Text) (hplain : '#' ∉ p.compose)
      (hfragment : IsFragment fragment) (hscheme : p.overTls = base.secure) :
      Denotes base ('/' :: '/' :: (p.authority ++ p.target) ++ fragment) p.requested
  | path (uri fragment : Text) (hslash : uri.head? = some '/') (hone : uri[1]? ≠ some '/')
      (hplain : '#' ∉ uri) (hfragment : IsFragment fragment) :
      Denotes base (uri ++ fragment) { base with uri := uri }

/-- What `setURL` takes is a path, and the host stays. -/
theorem setURL_taken (w : World) (url : Text) (h : (w.setURL url).2 = true) :
    isPath url = true ∧ (w.setURL url).1 = { w with http := { w.http.clear with uri := url } } := by
  rcases w.setURL_cases url with ⟨hpath, hset⟩ | ⟨-, -, hset⟩ | ⟨-, hset, -⟩
  · rw [hset]
    exact ⟨hpath, rfl⟩
  · rw [hset] at h
    exact absurd h Bool.false_ne_true
  · exact absurd (hset.symm.trans h) Bool.false_ne_true

/-! ### The Location of a response -/

namespace HeadState

/-- The variables with another Location. -/
def locatedAt (st : HeadState) (location : Text) : HeadState :=
  { st with answer := { st.answer with location := location } }

end HeadState

/-- A line sets the Location whatever it was, or leaves it. -/
theorem readLine_locatedAt (lib : TimeLibrary) (moment : Moment) (host : Text) (st : HeadState)
    (headerLine : Text) :
    ∃ (st' : HeadState) (set : Option Text), ∀ location,
      readLine lib moment host (st.locatedAt location) headerLine =
        st'.locatedAt (set.getD location) := by
  cases hfirst : st.firstLine with
  | true =>
      -- The status line sets none.
      refine ⟨readLine lib moment host st headerLine, none, fun location => ?_⟩
      unfold readLine HeadState.locatedAt
      simp only [hfirst, if_true]
      rfl
  | false =>
      by_cases hcolon : indexOfChar headerLine ':' 0 = 0
      · refine ⟨readLine lib moment host st headerLine, none, fun location => ?_⟩
        unfold readLine readField HeadState.locatedAt
        simp only [hfirst, Bool.false_eq_true, if_false, hcolon, if_true]
        rfl
      · by_cases hname : equalsIgnoreCase (substring headerLine 0 (indexOfChar headerLine ':' 0))
            "Location".toList = true
        · -- Its value is set, whatever there was before.
          refine ⟨readLine lib moment host st headerLine,
            some (trim (substringFrom headerLine (indexOfChar headerLine ':' 0 + 1))),
            fun location => ?_⟩
          unfold readLine readField applyField HeadState.locatedAt
          simp only [hfirst, Bool.false_eq_true, if_false, if_neg hcolon, if_pos hname]
          rfl
        · refine ⟨readLine lib moment host st headerLine, none, fun location => ?_⟩
          unfold readLine readField applyField HeadState.locatedAt
          simp only [hfirst, Bool.false_eq_true, if_false, if_neg hcolon, if_neg hname]
          rfl

theorem location_finishHead (st : HeadState) (location : Text) :
    (finishHead (st.locatedAt location)).1.location = location := by
  unfold finishHead
  simp only []
  split
  · rfl
  · split
    · rfl
    · split <;> rfl

/-- So does the loop, whatever arrives. -/
theorem location_headLoop (lib : TimeLibrary) (moment : Moment) (host : Text) (fuel : Nat)
    (st : HeadState) (s : Source Char) :
    ∃ set : Option Text, ∀ location,
      (headLoop lib moment host fuel (st.locatedAt location) s).1.location = set.getD location := by
  -- on the fuel: what a later line sets hides what this one has set
  induction fuel generalizing st s with
  | zero => exact ⟨none, fun location => rfl⟩
  | succ fuel ih =>
      by_cases hconn : s.connected = true
      · by_cases havailable : 0 < s.available
        · rcases readLine_locatedAt lib moment host st
            (trim (takeUntil '\n' s.ending s.ticks).got) with ⟨st', set, hline⟩
          by_cases hempty : trim (takeUntil '\n' s.ending s.ticks).got = []
          · refine ⟨set, fun location => ?_⟩
            simp only [headLoop, if_pos hconn, if_pos havailable, hline, if_pos hempty]
            exact location_finishHead st' (set.getD location)
          · -- A later line may set it again.
            rcases ih st' (takeUntil '\n' s.ending s.ticks).rest with ⟨later, hlater⟩
            refine ⟨later.or set, fun location => ?_⟩
            simp only [headLoop, if_pos hconn, if_pos havailable, hline, if_neg hempty, hlater]
            cases later <;> rfl
        · -- Nothing has arrived, so nothing is set in this turn.
          simp only [headLoop, if_pos hconn, if_neg havailable]
          split
          · exact ih st _
          · exact ⟨none, fun location => rfl⟩
          · exact ⟨none, fun location => rfl⟩
      · refine ⟨none, fun location => ?_⟩
        simp only [headLoop, if_neg hconn]
        rfl

/-- A response sets the Location of the client, or leaves the older one. -/
theorem location_handled (lib : TimeLibrary) (moment : Moment) (c : HTTPClient)
    (s : Source Char) :
    ∃ set : Option Text, ∀ location,
      (handleHeaderResponse lib moment { c with location := location } s).1.location =
        set.getD location := by
  by_cases hconn : s.connected = true
  · rcases location_headLoop lib moment c.host (s.ticks.length + 1) { answer := c.unanswered } s
      with ⟨set, hset⟩
    refine ⟨set, fun location => ?_⟩
    unfold handleHeaderResponse
    rw [if_pos hconn]
    exact hset location
  · refine ⟨none, fun location => ?_⟩
    unfold handleHeaderResponse
    rw [if_neg hconn]
    rfl

namespace World

/-- The client without a Location. -/
def unlocated (w : World) : World :=
  { w with http := { w.http with location := [] } }

/-- The Location of the response itself: what a client has from it that had
none. -/
def locationOf (lib : TimeLibrary) (w : World) (r : Reply) : Text :=
  (w.unlocated.receive lib r).1.http.location

/-- The Location of the response is the one the client has then. -/
theorem location_receive (lib : TimeLibrary) (w : World) (r : Reply)
    (h : w.locationOf lib r ≠ []) :
    (w.receive lib r).1.http.location = w.locationOf lib r := by
  have hlink : w.unlocated.link = w.link := rfl
  unfold locationOf receive at h ⊢
  rw [hlink] at h ⊢
  cases hw : w.link with
  | none =>
      rw [hw] at h
      exact absurd rfl h
  | some s =>
      rw [hw] at h
      rcases location_handled lib r.moment w.http (arrive s r.ticks r.ending) with ⟨set, hset⟩
      -- The same response sets the same for both clients.
      have hown := hset []
      have hkept := hset w.http.location
      simp only [unlocated] at h ⊢
      rw [hown] at h ⊢
      refine hkept.trans ?_
      cases set with
      | none => exact absurd rfl h
      | some location => rfl

end World

/-! ### The chain -/

/-- The system, and as history how many requests the call under way has sent,
and of the last of them its target and the Location of the response. -/
structure Chain where
  world : World
  sent : Nat := 0
  target : Target := ⟨false, [], 0, []⟩
  location : Text := []

namespace Chain

/-- One step, with the requests of the call counted. -/
def next (lib : TimeLibrary) (s : Chain) (e : Event) : Chain :=
  let w := step lib s.world e
  match e with
  | .send r =>
    match sentBy s.world (.send r) with
    | some q => ⟨w, s.sent + 1, q.1.target, q.1.written.locationOf lib r⟩
    | none => { s with world := w }
  | .request _ _ => { s with world := w, sent := if s.world.pending = none then 0 else s.sent }
  | _ => { s with world := w }

/-- A call sends no more requests than the limit allows behind the first. -/
def Bounded (s : Chain) (e : Event) : Prop :=
  ∀ q, sentBy s.world e = some q → s.sent + 1 ≤ s.world.http.redirectLimit + 1

/-- A request behind the first is for the target that the Location of the response
denotes, and is written to a connection to it. Without a Location the response is
returned. What the step does is defined. -/
def Follows (lib : TimeLibrary) (s : Chain) (e : Event) : Prop :=
  (step lib s.world e).undefined = false ∧
  (∀ q, sentBy s.world e = some q → 0 < s.sent →
    ∃ d, Denotes s.target s.location d ∧ q.1.target = d ∧ q.1.route = some d.route) ∧
  (e = .follow → s.location = [] → ∀ p ∈ s.world.pending, ∀ code ∈ p.answer,
    step lib s.world e = s.world.returnCode code)

end Chain

/-- A Location that is a path without a fragment, and not one with a host. -/
def PlainPath (location : Text) : Prop :=
  '#' ∉ location ∧ location.head? = some '/' ∧ location[1]? ≠ some '/'

instance (location : Text) : Decidable (PlainPath location) :=
  inferInstanceAs (Decidable (_ ∧ _ ∧ _))

/-- The effect of the step is defined. A request behind the first follows a plain path and
finds no connection to another place. A redirect to a path has a Location of its own. -/
def Chain.Careful (s : Chain) (e : Event) : Prop :=
  Safe s.world e ∧
    match e with
    | .send _ => 0 < s.sent → PlainPath s.location ∧ s.world.Placed
    | .follow =>
      s.location = [] → ∀ p ∈ s.world.pending, ∀ code ∈ p.answer,
        (s.world.redirect p code).isSome = true → isPath s.world.http.location = false
    | _ => True

instance (s : Chain) (e : Event) : Decidable (s.Careful e) :=
  match e with
  | .send r => inferInstanceAs (Decidable (Safe s.world (.send r) ∧ (_ → _ ∧ _)))
  | .follow =>
    inferInstanceAs (Decidable (Safe s.world .follow ∧ (_ → ∀ p ∈ _, ∀ code ∈ _, _ → _)))
  | .call c => inferInstanceAs (Decidable (Safe s.world (.call c) ∧ True))
  | .request type payload =>
    inferInstanceAs (Decidable (Safe s.world (.request type payload) ∧ True))
  | .network o ticks ending =>
    inferInstanceAs (Decidable (Safe s.world (.network o ticks ending) ∧ True))

/-! ### Reading a Location -/

/-- A plain path is read as it is meant. -/
theorem denotes_of_plain (base : Target) (location : Text) (h : PlainPath location) :
    Denotes base location { base with uri := location } := by
  have hdenotes : Denotes base (location ++ []) _ :=
    Denotes.path location [] h.2.1 h.2.2 h.1 (Or.inl rfl)
  rw [List.append_nil] at hdenotes
  exact hdenotes

/-! ### Sending -/

/-- The client that writes a head aims where it did before, and has connected
there if it had to. -/
theorem target_ready (w w' : World) (p : Pending) (r : Reply) (h : w.ready p r = some w') :
    w'.target = w.target ∧ w'.http.redirectLimit = w.http.redirectLimit ∧
      (w.Placed → w'.route = some w.target.route) := by
  rcases World.ready_frame w w' p r h with ⟨client, dep, current, hhttp, -⟩
  rcases World.route_ready w w' p r h with ⟨route, hroute, htls, hplace⟩
  -- The object that the request is written to is the one in use.
  have htls' : w'.overTls = w.overTls := by
    rcases Option.bind_eq_some_iff.1 hroute with ⟨o, ho, hmap⟩
    rcases Option.map_eq_some_iff.1 hmap with ⟨t, -, hkind⟩
    rw [← htls, World.overTls, ho, ← hkind]
  refine ⟨?_, by rw [hhttp]; rfl, fun hplaced => ?_⟩
  · rw [World.target, htls', hhttp]
    rfl
  · rw [hroute]
    rcases route with ⟨secure, host, port⟩
    rcases hplace with hold | ⟨hhost, hport⟩
    · rcases hplaced _ hold with ⟨hhost, hport⟩
      rw [Target.route, World.target, ← htls, ← hhost, ← hport]
    · rw [Target.route, World.target, ← htls, ← hhost, ← hport]

/-! ### What a step does to the chain -/

namespace Chain

/-- What a step does: the call is over or there is none; nothing has changed that
matters; a call begins; its request has a response; a redirect is followed. -/
inductive Turned (s : Chain) : Event → Chain → Prop
  | idle (e : Event) (s' : Chain) (hpending : s'.world.pending = none) : Turned s e s'
  | kept (e : Event) (s' : Chain) (hpending : s'.world.pending = s.world.pending)
      (htarget : s'.world.target = s.world.target)
      (hlimit : s'.world.http.redirectLimit = s.world.http.redirectLimit)
      (hlocation : s'.world.http.location = s.world.http.location)
      (hhistory : s'.sent = s.sent ∧ s'.target = s.target ∧ s'.location = s.location) :
      Turned s e s'
  | begun (e : Event) (s' : Chain) (p : Pending) (hpending : s'.world.pending = some p)
      (hp : p.redirectCount = 0 ∧ p.answer = none) (hsent : s'.sent = 0) : Turned s e s'
  | answered (e : Event) (s' : Chain) (p : Pending) (code : Int)
      (hold : s.world.pending = some p) (hp : p.answer = none)
      (hpending : s'.world.pending = some { p with answer := some code })
      (hsent : s'.sent = s.sent + 1)
      (hlimit : s'.world.http.redirectLimit = s.world.http.redirectLimit)
      (htarget : s'.world.target = s'.target)
      (hlocation : s'.location ≠ [] → s'.world.http.location = s'.location) : Turned s e s'
  | followed (s' : Chain) (p p' : Pending) (code : Int)
      (hold : s.world.pending = some p) (hp : p.answer = some code)
      (hredirect : s.world.redirect p code = some p')
      (htakes : isPath s.world.http.location = true)
      (hpending : s'.world.pending = some p')
      (htarget : s'.world.target = { s.world.target with uri := s.world.http.location })
      (hlimit : s'.world.http.redirectLimit = s.world.http.redirectLimit)
      (hhistory : s'.sent = s.sent ∧ s'.target = s.target ∧ s'.location = s.location) :
      Turned s .follow s'

theorem turned_refl (s : Chain) (e : Event) : Turned s e s :=
  .kept e s rfl rfl rfl rfl ⟨rfl, rfl, rfl⟩

end Chain

/-- A redirect that is followed is counted, up to the limit. -/
theorem redirect_counts (w : World) (p p' : Pending) (code : Int)
    (h : w.redirect p code = some p') :
    p'.redirectCount = p.redirectCount + 1 ∧ p.redirectCount < w.http.redirectLimit ∧
      p'.answer = none := by
  unfold World.redirect at h
  split at h
  next hallowed =>
    split at h
    · split at h
      · obtain rfl := Option.some.inj h
        exact ⟨rfl, hallowed.2.1, rfl⟩
      · exact absurd h (fun hno => nomatch hno)
    · split at h
      · obtain rfl := Option.some.inj h
        exact ⟨rfl, hallowed.2.1, rfl⟩
      · exact absurd h (fun hno => nomatch hno)
  next => exact absurd h (fun hno => nomatch hno)

/-- The same objects and host make the same target. -/
theorem target_of_same {w w' : World} (h : World.SameTarget w w')
    (huri : w'.http.uri = w.http.uri) : w'.target = w.target := by
  have hkind : ∀ o, (w'.objects o).secure = (w.objects o).secure := fun o =>
    congrArg Settings.secure (h.settings o)
  have htls : w'.overTls = w.overTls := by
    rw [World.overTls, World.overTls, h.client, h.transportTraits]
    cases w.http.client with
    | none => rfl
    | some o => exact hkind o
  rw [World.target, World.target, htls, h.host, h.port, huri]

/-- The answer to a request leaves its target and the limit. -/
theorem receive_target (lib : TimeLibrary) (w : World) (r : Reply) (hconn : w.connected = true) :
    (w.receive lib r).1.target = w.target ∧
      (w.receive lib r).1.http.redirectLimit = w.http.redirectLimit := by
  have hsame := sameTarget_receive lib w r hconn
  rcases World.receive_frame lib w r with h | ⟨link, a, h⟩
  · rw [h]
    exact ⟨rfl, rfl⟩
  · rw [h] at hsame ⊢
    exact ⟨target_of_same hsame rfl, rfl⟩

namespace Chain

theorem turned_send (lib : TimeLibrary) (s : Chain) (r : Reply)
    (hdefined : s.world.undefined = false) : Turned s (.send r) (s.next lib (.send r)) := by
  have hstep := step_defined lib s.world (.send r) hdefined
  have hsent : sentBy s.world (.send r) = s.world.sends (.send r) := by
    rw [sentBy, if_neg (by rw [hdefined]; exact Bool.false_ne_true)]
  -- without a request, or with an answer already, nothing happens
  cases hp : s.world.pending with
  | none =>
      have hnext : s.next lib (.send r) = s := by
        simp only [next, hstep, hsent, World.react, World.sends, hp]
      rw [hnext]
      exact turned_refl s _
  | some p =>
      by_cases ha : p.answer = none
      · rcases World.send_cases lib s.world p r with ⟨hready, code, hsend⟩ |
          ⟨v, hready, hopen, -, hanswer⟩
        · -- No request was sent, and the call is over.
          refine .idle _ _ ?_
          simp only [next, hstep, hsent, World.react, World.sends, hp, if_pos ha, hready,
            Option.map_none]
          rcases hsend with hsend | hsend <;> rw [hsend] <;> rfl
        · -- The request was sent; the response is an error or a status.
          have hframe := target_ready s.world v p r hready
          have hnext : s.next lib (.send r) =
              ⟨s.world.send lib p r, s.sent + 1, v.target, v.written.locationOf lib r⟩ := by
            simp only [next, hstep, hsent, World.react, World.sends, hp, if_pos ha, hready,
              Option.map_some]
          rw [hnext]
          rcases hanswer with ⟨code, hsend⟩ | ⟨code, hsend⟩
          · refine .idle _ _ ?_
            simp only [hsend]
            rfl
          · have hreceive := receive_target lib v.written r hopen
            refine .answered _ _ p code hp ha ?_ rfl ?_ ?_ ?_
            · simp only [hsend]
            · simp only [hsend]
              exact hreceive.2.trans hframe.2.1
            · simp only [hsend]
              exact hreceive.1
            · intro hown
              simp only [hsend]
              exact World.location_receive lib v.written r hown
      · have hnext : s.next lib (.send r) = s := by
          simp only [next, hstep, hsent, World.react, World.sends, hp, if_neg ha]
        rw [hnext]
        exact turned_refl s _

theorem turned_follow (lib : TimeLibrary) (s : Chain) (hdefined : s.world.undefined = false) :
    Turned s .follow (s.next lib .follow) := by
  have hstep := step_defined lib s.world .follow hdefined
  cases hp : s.world.pending with
  | none =>
      have hnext : s.next lib .follow = s := by
        simp only [next, hstep, World.react, hp]
      rw [hnext]
      exact turned_refl s _
  | some p =>
      cases ha : p.answer with
      | none =>
          have hnext : s.next lib .follow = s := by
            simp only [next, hstep, World.react, hp, ha]
          rw [hnext]
          exact turned_refl s _
      | some code =>
          have hnext : s.next lib .follow = { s with world := s.world.follow p code } := by
            simp only [next, hstep, World.react, hp, ha]
          rw [hnext]
          -- a redirect that is not followed ends the call
          cases hredirect : s.world.redirect p code with
          | none =>
              refine .idle _ _ ?_
              simp only [World.follow, hredirect]
              rfl
          | some p' =>
              -- A Location that `setURL` refuses ends the call.
              cases hset : (s.world.setURL s.world.http.location).2 with
              | false =>
                  refine .idle _ _ ?_
                  simp only [World.follow, hredirect, hset, Bool.false_eq_true, if_false]
                  rfl
              | true =>
                  have htaken := setURL_taken s.world s.world.http.location hset
                  refine .followed _ p p' code hp ha hredirect htaken.1 ?_ ?_ ?_ ⟨rfl, rfl, rfl⟩
                  · simp only [World.follow, hredirect, hset, if_true]
                  · simp only [World.follow, hredirect, hset, if_true, htaken.2]
                    rfl
                  · simp only [World.follow, hredirect, hset, if_true, htaken.2]
                    rfl

/-- Where what the code does is not defined, no step is taken. -/
theorem turned_undefined (lib : TimeLibrary) (s : Chain) (e : Event)
    (hundefined : s.world.undefined = true) : Turned s e (s.next lib e) := by
  have hstep : step lib s.world e = s.world := by rw [step, if_pos hundefined]
  have hsent : sentBy s.world e = none := by rw [sentBy, if_pos hundefined]
  cases e with
  | request type payload =>
      cases hp : s.world.pending with
      | none =>
          refine .idle _ _ ?_
          simp only [next, hstep, hp]
      | some p =>
          have hnext : s.next lib (.request type payload) = s := by
            simp only [next, hstep, hp, reduceCtorEq, if_false]
          rw [hnext]
          exact turned_refl s _
  | send r =>
      have hnext : s.next lib (.send r) = s := by
        simp only [next, hstep, hsent]
      rw [hnext]
      exact turned_refl s _
  | _ =>
      refine .kept _ _ ?_ ?_ ?_ ?_ ⟨rfl, rfl, rfl⟩ <;> simp only [next, hstep]

theorem turned_next (lib : TimeLibrary) (s : Chain) (e : Event) :
    Turned s e (s.next lib e) := by
  cases hdefined : s.world.undefined with
  | true => exact turned_undefined lib s e hdefined
  | false =>
      have hstep := step_defined lib s.world e hdefined
      cases e with
      | call c =>
          cases hp : s.world.pending with
          | none =>
              refine .idle _ _ ?_
              simp only [next, hstep, World.react, hp]
              -- A call of the sketch's begins no request.
              rw [pending_perform, hp]
          | some p =>
              have hnext : s.next lib (.call c) = s := by
                simp only [next, hstep, World.react, hp]
              rw [hnext]
              exact turned_refl s _
      | request type payload =>
          cases hp : s.world.pending with
          | none =>
              refine .begun _ _ { type, payload } ?_ ⟨rfl, rfl⟩ ?_
              · simp only [next, hstep, World.react, hp]
              · simp only [next, hp, if_true]
          | some p =>
              have hnext : s.next lib (.request type payload) = s := by
                simp only [next, hstep, World.react, hp, reduceCtorEq, if_false]
              rw [hnext]
              exact turned_refl s _
      | send r => exact turned_send lib s r hdefined
      | follow => exact turned_follow lib s hdefined
      | network o ticks ending =>
          -- What arrives changes the connection of an object, not what it is.
          have hsame := sameTarget_network s.world o ticks ending
          refine .kept _ _ ?_ ?_ ?_ ?_ ⟨rfl, rfl, rfl⟩
          · simp only [next, hstep, World.react]
          · simp only [next, hstep]
            exact target_of_same hsame rfl
          · simp only [next, hstep, World.react]
          · simp only [next, hstep, World.react]

end Chain

/-! ### The invariants -/

namespace Chain

/-- The counter of the loop tells how many requests have been sent. -/
def Counted (s : Chain) : Prop :=
  ∀ p ∈ s.world.pending, s.sent = p.redirectCount + (if p.answer = none then 0 else 1) ∧
    p.redirectCount ≤ s.world.http.redirectLimit

/-- Until it is answered, a request behind the first has the target that `setURL` makes
of the Location. From then on the client knows the Location of the response. -/
structure Linked (s : Chain) : Prop where
  waiting : ∀ p ∈ s.world.pending, p.answer = none → 0 < s.sent →
    s.world.target = { s.target with uri := s.location }
  answered : ∀ p ∈ s.world.pending, p.answer ≠ none →
    s.world.target = s.target ∧ (s.location ≠ [] → s.world.http.location = s.location)

theorem counted_turned {s s' : Chain} {e : Event} (h : Counted s) (ht : Turned s e s') :
    Counted s' := by
  -- by the kinds of step; all but the last two leave nothing to count
  cases ht with
  | idle _ _ hpending =>
      intro p hp
      rw [hpending] at hp
      exact absurd hp (Option.not_mem_none p)
  | kept _ _ hpending htarget hlimit hlocation hhistory =>
      intro p hp
      rw [hpending] at hp
      rw [hlimit, hhistory.1]
      exact h p hp
  | begun _ _ q hpending hq hsent =>
      intro p hp
      rw [hpending, Option.mem_some_iff] at hp
      rw [← hp, hsent, hq.1, hq.2]
      exact ⟨rfl, Nat.zero_le _⟩
  -- an answer takes the place of the request it belongs to
  | answered _ _ q code hold hq hpending hsent hlimit htarget hlocation =>
      intro p hp
      rw [hpending, Option.mem_some_iff] at hp
      have hcount := h q hold
      rw [if_pos hq] at hcount
      rw [← hp, hsent, hlimit, hcount.1, if_neg (fun hno => nomatch hno)]
      exact ⟨rfl, hcount.2⟩
  | followed _ q q' code hold hq hredirect htakes hpending htarget hlimit hhistory =>
      intro p hp
      rw [hpending, Option.mem_some_iff] at hp
      have hcount := h q hold
      -- The redirect is counted, and the next request is not yet sent.
      have hnext := redirect_counts s.world q q' code hredirect
      rw [hq, if_neg (fun hno => nomatch hno)] at hcount
      rw [← hp, hlimit, hhistory.1, hnext.1, hnext.2.2, if_pos rfl]
      exact ⟨hcount.1, hnext.2.1⟩

theorem linked_turned {s s' : Chain} {e : Event} (h : Linked s) (ht : Turned s e s')
    (hcareful : s.Careful e) : Linked s' := by
  -- by the kinds of step; a request that waits has come from the Location of the last response
  cases ht with
  | idle _ _ hpending =>
      refine ⟨fun p hp => ?_, fun p hp => ?_⟩
      · rw [hpending] at hp
        exact absurd hp (Option.not_mem_none p)
      · rw [hpending] at hp
        exact absurd hp (Option.not_mem_none p)
  -- what is kept is linked as before
  | kept _ _ hpending htarget hlimit hlocation hhistory =>
      refine ⟨fun p hp => ?_, fun p hp => ?_⟩
      · rw [htarget, hhistory.1, hhistory.2.1, hhistory.2.2]
        exact h.waiting p (hpending ▸ hp)
      · rw [htarget, hlocation, hhistory.2.1, hhistory.2.2]
        exact h.answered p (hpending ▸ hp)
  | begun _ _ q hpending hq hsent =>
      refine ⟨fun p hp ha hpos => ?_, fun p hp ha => ?_⟩
      · rw [hsent] at hpos
        exact absurd hpos (Nat.lt_irrefl 0)
      · rw [hpending, Option.mem_some_iff] at hp
        exact absurd (hp ▸ hq.2) ha
  | answered _ _ q code hold hq hpending hsent hlimit htarget hlocation =>
      refine ⟨fun p hp ha => ?_, fun p hp ha => ⟨htarget, hlocation⟩⟩
      rw [hpending, Option.mem_some_iff] at hp
      rw [← hp] at ha
      exact absurd ha (fun hno => nomatch hno)
  -- the next request goes where the Location of this response points
  | followed _ q q' code hold hq hredirect htakes hpending htarget hlimit hhistory =>
      have hnext := redirect_counts s.world q q' code hredirect
      have hanswered := h.answered q hold (by rw [hq]; exact fun hno => nomatch hno)
      refine ⟨fun p hp ha hpos => ?_, fun p hp ha => ?_⟩
      · -- The Location that is followed is that of the response.
        have hown : s.location ≠ [] := by
          intro hnone
          have hrefused := hcareful.2 hnone q hold code hq (by rw [hredirect]; rfl)
          rw [htakes] at hrefused
          exact absurd hrefused.symm Bool.false_ne_true
        rw [htarget, hanswered.1, hanswered.2 hown, hhistory.2.1, hhistory.2.2]
      · rw [hpending, Option.mem_some_iff] at hp
        exact absurd (hp ▸ hnext.2.2) ha

/-- The number of requests is bounded in every state that is counted. -/
theorem bounded_of_counted {s : Chain} (h : Counted s) (e : Event) : s.Bounded e := by
  intro q hq
  rcases sentBy_cases s.world e q hq with ⟨p, r, w', rfl, -, hp, hanswer, hready, rfl⟩
  have hcount := h p hp
  rw [if_pos hanswer] at hcount
  omega

/-- A careful step follows the Location. -/
theorem follows_of_linked (lib : TimeLibrary) {s : Chain} (h : Linked s)
    (hdefined : s.world.undefined = false) (e : Event) (hcareful : s.Careful e) :
    s.Follows lib e := by
  refine ⟨defined_of_safe lib s.world e hdefined hcareful.1, ?_, ?_⟩
  · intro q hq hpos
    rcases sentBy_cases s.world e q hq with ⟨p, r, w', rfl, -, hp, hanswer, hready, rfl⟩
    have hframe := target_ready s.world w' p r hready
    have hplain := hcareful.2 hpos
    have htarget := h.waiting p hp hanswer hpos
    -- The connection in use is to the target, which is the one that is denoted.
    have hroute := hframe.2.2 hplain.2
    rw [htarget] at hroute
    exact ⟨_, denotes_of_plain s.target s.location hplain.1, hframe.1.trans htarget, hroute⟩
  · -- Without a Location, a redirect that is allowed is refused by `setURL`.
    rintro rfl hnone p hp code hcode
    rw [step_defined lib s.world .follow hdefined]
    have hp' : s.world.pending = some p := hp
    have hcode' : p.answer = some code := hcode
    simp only [World.react, hp', hcode']
    unfold World.follow
    cases hredirect : s.world.redirect p code with
    | none => rfl
    | some p' =>
        have hpath := hcareful.2 hnone p hp code hcode (by rw [hredirect]; rfl)
        have hread := hcareful.1 p hp code hcode (by rw [hredirect]; rfl)
        rcases s.world.setURL_cases s.world.http.location with ⟨htaken, -⟩ | ⟨-, -, hset⟩ |
          ⟨hfreed, -⟩
        · exact absurd (hpath.symm.trans htaken) Bool.false_ne_true
        · simp only [hset, Bool.false_eq_true, if_false]
        · exact absurd (hread.symm.trans hfreed) Bool.false_ne_true

/-- A chain that starts without a call under way. -/
def start (w : World) : Chain :=
  { world := { w with pending := none, undefined := false } }

end Chain

/-- A call whose response leads to another path, and the request that follows it. -/
def redirectedOnce : List Event :=
  [.call (.beginUrl "http://a:8080/".toList), .call (.setFollowRedirects .strict),
    .request "GET".toList [],
    .send (.prompt "HTTP/1.1 302 Found\r\nLocation: /x?y=1\r\n\r\n"), .follow,
    .send (.prompt "HTTP/1.1 204 No Content\r\n\r\n"), .follow]

/-- A redirect that is returned, and one without a Location in the next call. -/
def staleLocation : List Event :=
  [.call (.beginUrl "http://a/".toList), .request "GET".toList [],
    .send (.prompt "HTTP/1.1 302 Found\r\nLocation: /old\r\n\r\n"), .follow,
    .call (.setFollowRedirects .strict), .request "GET".toList [],
    .send (.prompt "HTTP/1.1 302 Found\r\n\r\n")]

end Http

end ArduinoBeken
