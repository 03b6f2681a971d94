import ArduinoBeken.Http.Body
import ArduinoBeken.Http.Url
import ArduinoBeken.Library.Run
import Mathlib.Logic.Function.Basic

/-!
# Requests

An `HTTPClient` with the client objects it uses, as a system that takes steps:
the calls of its user, and the turns of the loop in `sendRequest`, each of them two
steps: a request is sent and its response received, then a redirect is followed
or the call returns. The first meets what the network and the server do
(`Reply`); between the steps more may arrive on a connection, or it is closed.

A client object is known by a number. Those the user hands to `begin` are his
own; those made from `TransportTraits` get a number that was not named before.

Two fields of the world are history: they tell what the user asked for, and are
never read by the code. A third tells that the code has read memory that it had
freed, or has used an object as what it is not. What it does behind that is not
defined, and no step is taken any more.

## Main definitions

* `Connection`, `NetObject`: A client object.
* `World`: The client, the objects, and the request that is under way.
* `World.disconnect`, `World.beginInternal`, `World.setURL`: Changing the
  target.
* `Call`, `World.perform`: The calls of the user.
* `World.connect`, `World.prepare`, `headOf`, `World.receive`, `World.send`,
  `World.follow`: One turn of the loop in `sendRequest`.
* `Event`, `step`, `sentBy`: The system, and the request a step sends.
* `Safe`: The steps whose effect is defined.

## Theorems

* `World.receive_frame`: What reading an answer changes.
* `World.send_cases`: What sending a request comes to.
* `step_cases`: A step is none, or what the event does.
-/

namespace ArduinoBeken

namespace Http

open Arrivals

/-- A URL that `setURL` would hand to `beginInternal`. -/
def misread (protocol url : Text) : Bool :=
  !isPath url && startsWith url (protocol ++ [':'])

/-! ### Client objects -/

/-- An open connection, the host and port it was opened to, and the
configuration the object had then. -/
structure Connection where
  host : Text
  port : Nat
  config : Option TlsConfig
  source : Source Char
deriving DecidableEq, Repr

/-- A `WiFiClient`, or a `WiFiClientSecure` with its configuration. -/
structure NetObject where
  secure : Bool := false
  config : Option TlsConfig := none
  connection : Option Connection := none
deriving DecidableEq, Repr

/-- The connection of a client object, as what comes from it. -/
def NetObject.link (n : NetObject) : Link :=
  n.connection.map Connection.source

/-- The object with another state of its connection. -/
def NetObject.withLink (n : NetObject) (link : Link) : NetObject :=
  { n with
    connection := match link with
      | some s => n.connection.map fun conn => { conn with source := s }
      | none => none }

/-! ### The world -/

/-- The arguments and counter of the loop in `sendRequest`, the code of the
response if it has come, and as history the header block of the request that
this one repeats, if a redirect kept the method. -/
structure Pending where
  type : Text
  payload : Text
  redirectCount : Nat := 0
  answer : Option Int := none
  repeated : Option Text := none
deriving DecidableEq, Repr

/-- What the last successful `begin` asked for: `https` or not, and with which
configuration, the one it gave or that of the client object it was given. -/
structure Asked where
  https : Bool := false
  config : Option TlsConfig := none
deriving DecidableEq, Repr

/-- The `HTTPClient`, the client objects, and the call of `sendRequest` that is under way. -/
structure World where
  http : HTTPClient := {}
  objects : Nat → NetObject := fun _ => {}
  fresh : Nat := 0
  pending : Option Pending := none
  /-- History: what was asked for. -/
  asked : Asked := {}
  /-- History: the host that was the target when the credential was set. -/
  credentialHost : Text := []
  /-- What the code does from here on is not defined. -/
  undefined : Bool := false

namespace World

/-- The connection of the client in use. -/
def link (w : World) : Link :=
  match w.http.client with
  | some o => (w.objects o).link
  | none => none

/-- The world with another state of the connection of the client in use. -/
def withLink (w : World) (link : Link) : World :=
  match w.http.client with
  | some o => { w with objects := Function.update w.objects o ((w.objects o).withLink link) }
  | none => w

/-- `connected`. -/
def connected (w : World) : Bool :=
  Http.connected w.link

/-- `disconnect`, which keeps the connection if both sides agreed to. -/
def disconnect (w : World) (preserveClient : Bool) : World :=
  let r := w.http.disconnect w.link preserveClient
  { w.withLink r.2 with http := r.1 }

/-- `returnError`: an error closes the connection. -/
def returnError (w : World) (error : Int) : World :=
  w.withLink (Http.returnError w.link error)

/-- `end`. -/
def finish (w : World) : World :=
  let w := w.disconnect false
  { w with http := w.http.clear }

/-! ### Targets -/

/-- A client that mixes the two kinds of `begin` ends what it had. -/
def endMixed (w : World) (mixed : Bool) : World :=
  if mixed then { w with http := { w.http with canReuse := false } }.finish else w

/-- The credential of a URL is kept. -/
def keepAuth (w : World) (u : Url) : World :=
  match u.auth with
  | some auth =>
    { w with
      http := { w.http with base64Authorization := base64Encode auth }, credentialHost := u.host }
  | none => w

/-- A connection to another host is closed. -/
def switchHost (w : World) (the_host : Text) : World :=
  if w.http.host ≠ the_host ∧ w.connected = true then
    { w with http := { w.http with canReuse := false } }.disconnect true
  else w

/-- `beginInternal`. The protocol is stored before it is compared. -/
def beginInternal (w : World) (url expectedProtocol : Text) : World × Bool :=
  match urlProtocol url with
  | none => (w, false)
  | some protocol =>
    let w := { w with http := { w.http with protocol := protocol } }
    if protocol ≠ expectedProtocol then (w, false)
    else
      let u := readUrl url
      let w := w.keepAuth u
      let w := { w with http := { w.http with port := u.port.getD w.http.port } }
      let w := w.switchHost u.host
      ({ w with http := { w.http with host := u.host, uri := u.uri } }, true)

/-- `begin(client, url)`. -/
def beginClientUrl (w : World) (client : Nat) (url : Text) : World × Bool :=
  let w := w.endMixed w.http.tcpDeprecated.isSome
  let w := { w with
    http := { w.http with client := some client }, fresh := max w.fresh (client + 1) }
  match urlProtocol url with
  | none => (w, false)
  | some protocol =>
    if protocol ≠ "http".toList ∧ protocol ≠ "https".toList then (w, false)
    else
      let https := decide (protocol = "https".toList)
      let w := { w with http := { w.http with port := portFor protocol, secure := https } }
      let r := w.beginInternal url protocol
      ({ r.1 with asked := if r.2 then ⟨https, (r.1.objects client).config⟩ else r.1.asked }, r.2)

/-- `begin(client, host, port, uri, https)`. -/
def beginClientHost (w : World) (client : Nat) (host : Text) (port : Nat) (uri : Text)
    (https : Bool) : World × Bool :=
  let w := w.endMixed w.http.tcpDeprecated.isSome
  let w := { w with
    http := { w.http with client := some client }, fresh := max w.fresh (client + 1) }
  ({ w with
    http := { w.http.clear with
      host := host, port := port, uri := uri
      protocol := if https then "https".toList else "http".toList
      secure := https }
    asked := ⟨https, (w.objects client).config⟩ }, true)

/-- The start of each `begin` without a client. -/
def beginOwn (w : World) : World :=
  let w := w.endMixed (w.http.client.isSome && !w.http.tcpDeprecated.isSome)
  { w with http := w.http.clear }

/-- `begin(url, CAcert)`. -/
def beginUrlCert (w : World) (url : Text) (CAcert : Option Text) : World × Bool :=
  let w := w.beginOwn
  let w := { w with http := { w.http with port := 443 } }
  let r := w.beginInternal url "https".toList
  if r.2 then
    let config : TlsConfig := ⟨CAcert, none, none⟩
    ({ r.1 with
      http := { r.1.http with secure := true, transportTraits := some (.tls config) }
      asked := ⟨true, some config⟩ }, true)
  else (r.1, false)

/-- `begin(url)`. -/
def beginUrl (w : World) (url : Text) : World × Bool :=
  let w := w.beginOwn
  let w := { w with http := { w.http with port := 80 } }
  let r := w.beginInternal url "http".toList
  if r.2 then
    ({ r.1 with
      http := { r.1.http with transportTraits := some .plain }, asked := ⟨false, none⟩ }, true)
  else r.1.beginUrlCert url none

/-- The part that the last three kinds of `begin` share. -/
def beginAt (w : World) (host : Text) (port : Nat) (uri : Text) : World :=
  let w := w.beginOwn
  { w with http := { w.http with host := host, port := port, uri := uri } }

/-- `begin(host, port, uri)`. -/
def beginHost (w : World) (host : Text) (port : Nat) (uri : Text) : World × Bool :=
  let w := w.beginAt host port uri
  ({ w with
    http := { w.http with transportTraits := some .plain }, asked := ⟨false, none⟩ }, true)

/-- `begin(host, port, uri, CAcert, cli_cert, cli_key)`, and without the last
two. -/
def beginHostCerts (w : World) (host : Text) (port : Nat) (uri CAcert : Text)
    (cli_cert cli_key : Option Text) : World × Bool :=
  let w := w.beginAt host port uri
  if CAcert = [] then (w, false)
  else
    let config : TlsConfig := ⟨some CAcert, cli_cert, cli_key⟩
    ({ w with
      http := { w.http with secure := true, transportTraits := some (.tls config) }
      asked := ⟨true, some config⟩ }, true)

/-- `setURL`, by which redirects are followed too. The protocol is handed to
`beginInternal` as a pointer into `_protocol`. -/
def setURL (w : World) (url : Text) : World × Bool :=
  if isPath url then ({ w with http := { w.http.clear with uri := url } }, true)
  else if !startsWith url (w.http.protocol ++ [':']) then (w, false)
  else
    let port := if namesPort url then w.http.port else portFor w.http.protocol
    let w := { w with http := { w.http with port := port, canReuse := true } }
    -- The first assignment to `_protocol` there frees what is then compared with.
    ({ w.disconnect true with undefined := true }, false)

/-- `setURL` would get as far as `beginInternal`. -/
def readsFreed (w : World) (url : Text) : Bool :=
  misread w.http.protocol url

/-! ### The calls of the user -/

/-- The credential, with the host that it is set for as history. -/
def setAuthorization (w : World) (auth : Text) : World :=
  { w with http := { w.http with base64Authorization := auth }, credentialHost := w.http.host }

end World

/-- The calls of the user between requests. -/
inductive Call where
  | beginClientUrl (client : Nat) (url : Text)
  | beginClientHost (client : Nat) (host : Text) (port : Nat) (uri : Text) (https : Bool)
  | beginUrl (url : Text)
  | beginUrlCert (url : Text) (CAcert : Option Text)
  | beginHost (host : Text) (port : Nat) (uri : Text)
  | beginHostCerts (host : Text) (port : Nat) (uri CAcert : Text) (cli_cert cli_key : Option Text)
  | setURL (url : Text)
  | setReuse (reuse : Bool)
  | setUserAgent (userAgent : Text)
  | setAuthorization (user password : Text)
  | setAuthorizationCode (auth : Text)
  | setAuthorizationType (authType : Text)
  | useHTTP10 (useHTTP10 : Bool)
  | setFollowRedirects (follow : FollowRedirects)
  | setRedirectLimit (limit : Nat)
  | addHeader (name value : Text) (first replace : Bool)
  | collectHeaders (headerKeys : List Text)
  | setCookieJar (jar : Option CookieJar)
  | writeToStream (k : Sink)
  | getString
  | finish
deriving DecidableEq, Repr

namespace World

/-- What a call does, without what it returns. -/
def perform (w : World) : Call → World
  | .beginClientUrl client url => (w.beginClientUrl client url).1
  | .beginClientHost client host port uri https =>
    (w.beginClientHost client host port uri https).1
  | .beginUrl url => (w.beginUrl url).1
  | .beginUrlCert url CAcert => (w.beginUrlCert url CAcert).1
  | .beginHost host port uri => (w.beginHost host port uri).1
  | .beginHostCerts host port uri CAcert cli_cert cli_key =>
    (w.beginHostCerts host port uri CAcert cli_cert cli_key).1
  | .setURL url => (w.setURL url).1
  | .setReuse reuse => { w with http := { w.http with reuse := reuse } }
  | .setUserAgent userAgent => { w with http := { w.http with userAgent := userAgent } }
  | .setAuthorization user password => w.setAuthorization (base64Encode (user ++ ':' :: password))
  | .setAuthorizationCode auth => w.setAuthorization auth
  | .setAuthorizationType authType =>
    { w with http := { w.http with authorizationType := authType } }
  | .useHTTP10 useHTTP10 =>
    { w with http := { w.http with useHTTP10 := useHTTP10, reuse := !useHTTP10 } }
  | .setFollowRedirects follow => { w with http := { w.http with followRedirects := follow } }
  | .setRedirectLimit limit => { w with http := { w.http with redirectLimit := limit } }
  | .addHeader name value first replace =>
    { w with http := w.http.addHeader name value first replace }
  | .collectHeaders headerKeys => { w with http := w.http.collectHeaders headerKeys }
  | .setCookieJar jar => { w with http := { w.http with cookieJar := jar } }
  | .writeToStream k =>
    let r := Http.writeToStream w.http w.link k
    { w.withLink r.link with http := r.http }
  | .getString =>
    let r := Http.getString w.http w.link
    { w.withLink r.2.1 with http := r.1 }
  | .finish => w.finish

end World

/-! ### One turn of `sendRequest` -/

/-- What the network and the server do about one request: whether a connection can be
opened, whether the head and the payload can be written, what is sent in
response and whether the connection is then closed, and the clock. -/
structure Reply where
  connects : Bool
  headerWritten : Bool
  payloadWritten : Bool
  ticks : List (Tick Char)
  ending : Ending
  moment : Moment

/-- The connection is made if need be, and the whole text comes at once. -/
def Reply.prompt (text : String) : Reply :=
  ⟨true, true, true, text.toList.map Tick.item, .stays, ⟨0, fun _ => 0⟩⟩

/-- More arrives. Nothing comes after a close. -/
def arrive (s : Source Char) (ticks : List (Tick Char)) (ending : Ending) : Source Char :=
  if s.ending = .stays then ⟨s.ticks ++ ticks, ending⟩ else s

namespace World

/-- A client object is made, if there is none and it is known how. -/
def create (w : World) : World :=
  match w.http.transportTraits, w.http.client with
  | some traits, none =>
    { w with
      http := { w.http with tcpDeprecated := some w.fresh, client := some w.fresh }
      objects := Function.update w.objects w.fresh { secure := decide (traits ≠ .plain) }
      fresh := w.fresh + 1 }
  | _, _ => w

/-- `verify` configures the client in use, which it takes for a `WiFiClientSecure`. -/
def verify (w : World) : World :=
  match w.http.tcpDeprecated, w.http.transportTraits, w.http.client with
  | some _, some (.tls config), some o =>
    if (w.objects o).secure then
      { w with objects := Function.update w.objects o { w.objects o with config := some config } }
    else { w with undefined := true }
  | _, _, _ => w

/-- The connection is opened. -/
def openConnection (w : World) (o : Nat) : World :=
  { w with
    objects := Function.update w.objects o { w.objects o with
      connection := some ⟨w.http.host, w.http.port, (w.objects o).config, ⟨[], .stays⟩⟩ } }

/-- `connect`: an open connection is used again after what is left of the last response has been
read off. -/
def connect (w : World) (r : Reply) : World × Bool :=
  if w.connected then (w.withLink (w.link.map Source.discard), true)
  else
    let w := w.create
    match w.http.client with
    | none => (w, false)
    | some o =>
      let w := w.verify
      if w.undefined then (w, false)
      else if r.connects then (w.openConnection o, true)
      else (w, false)

/-- `String(size)`. -/
def decimal (n : Nat) : Text :=
  Nat.toDigits 10 n

/-- The headers that the code adds. -/
def prepare (w : World) (p : Pending) (r : Reply) : World :=
  let http :=
    if p.payload = [] then w.http
    else w.http.addHeader "Content-Length".toList (decimal p.payload.length) false true
  let cookies := http.cookieJar.map
    (generateCookieString http.host http.secure r.moment.now)
  let http := { http with cookieJar := cookies.map Prod.fst }
  let http :=
    match cookies.bind Prod.snd with
    | some cookie_string => http.addHeader "Cookie".toList cookie_string false true
    | none => http
  { w with http := http }

end World

/-- The credential as it is sent. -/
def authorizationField (c : HTTPClient) : Text :=
  if c.base64Authorization = [] then []
  else "Authorization: ".toList ++ c.authorizationType ++ ' ' ::
    withoutChar c.base64Authorization '\n' ++ "\r\n".toList

/-- The text that `sendHeader` writes. -/
def headOf (c : HTTPClient) (type : Text) : Text :=
  type ++ ' ' :: c.uri ++ " HTTP/1.".toList ++ (if c.useHTTP10 then ['0'] else ['1']) ++
    "\r\nHost: ".toList ++ c.host ++
    (if c.port ≠ 80 ∧ c.port ≠ 443 then ':' :: World.decimal c.port else []) ++
    "\r\nUser-Agent: ".toList ++ c.userAgent ++ "\r\nConnection: ".toList ++
    (if c.reuse then "keep-alive".toList else "close".toList) ++ "\r\n".toList ++
    (if c.useHTTP10 then []
      else "Accept-Encoding: identity;q=1,chunked;q=0.1,*;q=0\r\n".toList) ++
    authorizationField c ++ c.headers ++ "\r\n".toList

namespace World

/-- The head of the response is read. -/
def receive (lib : TimeLibrary) (w : World) (r : Reply) : World × Int :=
  match w.link with
  | some s =>
    let a := handleHeaderResponse lib r.moment w.http (arrive s r.ticks r.ending)
    ({ w.withLink (some a.2.1) with http := a.1 }, a.2.2)
  | none => (w, errorNotConnected)

/-- The call returns. -/
def returnCode (w : World) (code : Int) : World :=
  { w.returnError code with pending := none }

/-- The client when its head is written, if it comes to that. -/
def ready (w : World) (p : Pending) (r : Reply) : Option World :=
  let w := { w with http := w.http.wipeHeaders }
  let c := w.connect r
  if c.2 then
    let w := c.1.prepare p r
    if w.connected then some w else none
  else none

/-- The loop from its start to the response. -/
def send (lib : TimeLibrary) (w : World) (p : Pending) (r : Reply) : World :=
  let w := { w with http := w.http.wipeHeaders }
  let c := w.connect r
  if !c.2 then c.1.returnCode errorConnectionRefused
  else
    let w := c.1.prepare p r
    if !w.connected then w.returnCode errorSendHeaderFailed
    else
      let w := { w with http := { w.http with
        base64Authorization := withoutChar w.http.base64Authorization '\n' } }
      if !r.headerWritten then w.returnCode errorSendHeaderFailed
      else if p.payload ≠ [] ∧ r.payloadWritten = false then
        w.returnCode errorSendPayloadFailed
      else
        let a := w.receive lib r
        { a.1 with pending := some { p with answer := some a.2 } }

/-- The request that a redirect with the code leads to, if it is to be
followed. -/
def redirect (w : World) (p : Pending) (code : Int) : Option Pending :=
  if w.http.followRedirects ≠ .disable ∧ p.redirectCount < w.http.redirectLimit ∧
      w.http.location ≠ [] then
    if code = 301 ∨ code = 307 then
      if w.http.followRedirects = .force ∨ p.type = "GET".toList ∨ p.type = "HEAD".toList then
        some { p with
          redirectCount := p.redirectCount + 1, answer := none, repeated := some w.http.headers }
      else none
    else if code = 302 ∨ code = 303 then
      some { p with
        type := "GET".toList, payload := [], redirectCount := p.redirectCount + 1, answer := none
        repeated := if p.type = "GET".toList then some w.http.headers else none }
    else none
  else none

/-- The loop from the response to its end: a redirect is followed, or the call
returns. -/
def follow (w : World) (p : Pending) (code : Int) : World :=
  match w.redirect p code with
  | some p' =>
    let r := w.setURL w.http.location
    if r.2 then { r.1 with pending := some p' } else r.1.returnCode code
  | none => w.returnCode code

end World

/-! ### The system -/

/-- A call, the parts of `sendRequest`, and what the network does in between. -/
inductive Event where
  | call (c : Call)
  | request (type payload : Text)
  | send (r : Reply)
  | follow
  | network (o : Nat) (ticks : List (Tick Char)) (ending : Ending)

/-- What an event does. A call is made when no request is under way, and the loop
goes on when one is. -/
def World.react (lib : TimeLibrary) (w : World) : Event → World
  | .call c =>
    match w.pending with
    | none => w.perform c
    | some _ => w
  | .request type payload =>
    match w.pending with
    | none => { w with pending := some { type, payload } }
    | some _ => w
  | .send r =>
    match w.pending with
    | some p => if p.answer = none then w.send lib p r else w
    | none => w
  | .follow =>
    match w.pending with
    | some p =>
      match p.answer with
      | some code => w.follow p code
      | none => w
    | none => w
  | .network o ticks ending =>
    { w with
      objects := Function.update w.objects o ((w.objects o).withLink
        ((w.objects o).link.map (arrive · ticks ending))) }

/-- A step, as long as what the code does is defined. -/
def step (lib : TimeLibrary) (w : World) (e : Event) : World :=
  if w.undefined then w else w.react lib e

/-- The request that an event sends, with the client as it is when its head is
written. -/
def World.sends (w : World) : Event → Option (World × Pending)
  | .send r =>
    match w.pending with
    | some p => if p.answer = none then (w.ready p r).map (·, p) else none
    | none => none
  | _ => none

/-- The request that a step sends. -/
def sentBy (w : World) (e : Event) : Option (World × Pending) :=
  if w.undefined then none else w.sends e

theorem step_defined (lib : TimeLibrary) (w : World) (e : Event) (h : w.undefined = false) :
    step lib w e = w.react lib e := by
  rw [step, if_neg (by rw [h]; exact Bool.false_ne_true)]

/-- A step is none, or what the event does. -/
theorem step_cases (lib : TimeLibrary) (w : World) (e : Event) :
    step lib w e = w ∨ (w.undefined = false ∧ step lib w e = w.react lib e) := by
  cases h : w.undefined with
  | true =>
      left
      rw [step, if_pos h]
  | false => exact Or.inr ⟨rfl, step_defined lib w e h⟩

/-- What a step sends, from the request that is under way. -/
theorem sentBy_cases (w : World) (e : Event) (s : World × Pending) (h : sentBy w e = some s) :
    ∃ p r w', e = .send r ∧ w.undefined = false ∧ w.pending = some p ∧ p.answer = none ∧
      w.ready p r = some w' ∧ s = (w', p) := by
  -- behind undefined behaviour nothing is sent
  cases hdefined : w.undefined with
  | true =>
      rw [sentBy, if_pos hdefined] at h
      exact absurd h (fun hno => nomatch hno)
  | false =>
      rw [sentBy, if_neg (by rw [hdefined]; exact Bool.false_ne_true)] at h
      cases e with
      | send r =>
          simp only [World.sends] at h
          cases hp : w.pending with
          | none =>
              rw [hp] at h
              exact absurd h (fun hno => nomatch hno)
          | some p =>
              simp only [hp] at h
              split at h
              next hanswer =>
                rcases Option.map_eq_some_iff.1 h with ⟨w', hready, rfl⟩
                exact ⟨p, r, w', rfl, rfl, rfl, hanswer, hready, rfl⟩
              next => exact absurd h (fun hno => nomatch hno)
      | _ => exact absurd h (fun hno => nomatch hno)

/-- The client in use is taken for a `WiFiClientSecure` by `verify`, and is none. -/
def World.castsPlain (w : World) : Bool :=
  !w.connected && w.http.tcpDeprecated.isSome &&
    (match w.http.transportTraits with
    | some (.tls _) => true
    | _ => false) &&
    w.http.client.any fun o => !(w.objects o).secure

/-- The effect of the step is defined: no URL of the protocol in use is given to
`setURL`, or followed, and no plain client is configured for TLS. -/
def Safe (w : World) : Event → Prop
  | .call (.setURL url) => w.pending = none → w.readsFreed url = false
  | .send _ => w.castsPlain = false
  | .follow =>
    ∀ p ∈ w.pending, ∀ code ∈ p.answer, (w.redirect p code).isSome = true →
      w.readsFreed w.http.location = false
  | _ => True

instance (w : World) (e : Event) : Decidable (Safe w e) :=
  match e with
  | .call c =>
    match c with
    | .setURL _ => inferInstanceAs (Decidable (_ → _))
    | .beginClientUrl .. | .beginClientHost .. | .beginUrl .. | .beginUrlCert .. | .beginHost ..
    | .beginHostCerts .. | .setReuse .. | .setUserAgent .. | .setAuthorization ..
    | .setAuthorizationCode .. | .setAuthorizationType .. | .useHTTP10 ..
    | .setFollowRedirects .. | .setRedirectLimit .. | .addHeader .. | .collectHeaders ..
    | .setCookieJar .. | .writeToStream .. | .getString | .finish =>
      isTrue True.intro
  | .send _ => inferInstanceAs (Decidable (_ = _))
  | .follow => inferInstanceAs (Decidable (∀ p ∈ _, ∀ code ∈ _, _ → _))
  | .request _ _ | .network _ _ _ => isTrue True.intro

/-! ### What the parts leave alone -/

namespace HTTPClient

/-- The client with other client objects. -/
def withObjects (c : HTTPClient) (client tcpDeprecated : Option Nat)
    (traits : Option TransportTraits) : HTTPClient :=
  { c with client := client, tcpDeprecated := tcpDeprecated, transportTraits := traits }

/-- A disconnect changes the client objects only. -/
theorem disconnect_frame (c : HTTPClient) (link : Link) (preserveClient : Bool) :
    ∃ client dep traits,
      (c.disconnect link preserveClient).1 = c.withObjects client dep traits := by
  unfold disconnect
  split
  · split
    · exact ⟨c.client, c.tcpDeprecated, c.transportTraits, rfl⟩
    · split
      · exact ⟨c.client, c.tcpDeprecated, c.transportTraits, rfl⟩
      · split
        · exact ⟨none, none, none, rfl⟩
        · exact ⟨none, c.tcpDeprecated, c.transportTraits, rfl⟩
  · exact ⟨c.client, c.tcpDeprecated, c.transportTraits, rfl⟩

end HTTPClient

/-- The end of a body read changes the client objects only. -/
theorem bodyEnd_frame (c : HTTPClient) (k : Sink) (s : Source Char) (complete : Bool)
    (result : Option Int) : ∃ client dep traits,
      (bodyEnd c k s complete result).http = c.withObjects client dep traits := by
  cases result with
  | none => exact ⟨c.client, c.tcpDeprecated, c.transportTraits, rfl⟩
  | some r =>
      unfold bodyEnd
      by_cases hr : r < 0 ∧ complete = false
      · simp only [if_pos hr]
        exact ⟨c.client, c.tcpDeprecated, c.transportTraits, rfl⟩
      · simp only [if_neg hr]
        exact HTTPClient.disconnect_frame c (some s) true

/-- Reading a body changes the client objects and the size only. -/
theorem writeToStream_frame (c : HTTPClient) (link : Link) (k : Sink) :
    ∃ client dep traits size,
      (writeToStream c link k).http = { c.withObjects client dep traits with size := size } := by
  unfold writeToStream
  cases link with
  | none => exact ⟨c.client, c.tcpDeprecated, c.transportTraits, c.size, rfl⟩
  | some s =>
      by_cases hs : s.connected = true
      · simp only [if_pos hs]
        split
        · rcases bodyEnd_frame c _ _ _ _ with ⟨client, dep, traits, h⟩
          exact ⟨client, dep, traits, c.size, h⟩
        · -- Behind the last chunk `_size` may be the sum of all of them.
          rcases bodyEnd_frame _ _ _ _ _ with ⟨client, dep, traits, h⟩
          exact ⟨client, dep, traits, _, h⟩
      · simp only [if_neg hs]
        exact ⟨c.client, c.tcpDeprecated, c.transportTraits, c.size, rfl⟩

theorem getString_frame (c : HTTPClient) (link : Link) :
    ∃ client dep traits size,
      (getString c link).1 = { c.withObjects client dep traits with size := size } := by
  unfold getString
  split
  · exact writeToStream_frame c link {}
  · exact ⟨c.client, c.tcpDeprecated, c.transportTraits, c.size, rfl⟩

/-- The head of a response sets the fields of an answer only. -/
theorem handleHeaderResponse_frame (lib : TimeLibrary) (moment : Moment) (c : HTTPClient)
    (s : Source Char) : ∃ a, (handleHeaderResponse lib moment c s).1 = c.answered a := by
  unfold handleHeaderResponse
  split
  · exact ⟨_, rfl⟩
  · exact ⟨⟨c.returnCode, c.size, c.canReuse, c.transferEncoding, c.location, c.currentHeaders,
      c.cookieJar⟩, rfl⟩

namespace World

/-- The client and the history of another world, which may have other objects. -/
structure SameCalls (w w' : World) : Prop where
  http : w'.http = w.http
  pending : w'.pending = w.pending
  asked : w'.asked = w.asked
  credentialHost : w'.credentialHost = w.credentialHost
  fresh : w'.fresh = w.fresh
  undefined : w'.undefined = w.undefined

theorem sameCalls_withLink (w : World) (link : Link) : SameCalls w (w.withLink link) := by
  unfold withLink
  split <;> exact ⟨rfl, rfl, rfl, rfl, rfl, rfl⟩

theorem disconnect_frame (w : World) (preserveClient : Bool) :
    ∃ client dep traits,
      (w.disconnect preserveClient).http = w.http.withObjects client dep traits ∧
        (w.disconnect preserveClient).credentialHost = w.credentialHost ∧
        (w.disconnect preserveClient).asked = w.asked ∧
        (w.disconnect preserveClient).pending = w.pending ∧
        (w.disconnect preserveClient).undefined = w.undefined := by
  rcases w.http.disconnect_frame w.link preserveClient with ⟨client, dep, traits, h⟩
  have hlink := sameCalls_withLink w (w.http.disconnect w.link preserveClient).2
  exact ⟨client, dep, traits, h, hlink.credentialHost, hlink.asked, hlink.pending,
    hlink.undefined⟩

theorem create_frame (w : World) :
    ∃ client dep, w.create.http = w.http.withObjects client dep w.http.transportTraits ∧
      w.create.credentialHost = w.credentialHost ∧ w.create.asked = w.asked := by
  unfold create
  split
  · exact ⟨_, _, rfl, rfl, rfl⟩
  · exact ⟨_, _, rfl, rfl, rfl⟩

theorem verify_frame (w : World) :
    w.verify.http = w.http ∧ w.verify.credentialHost = w.credentialHost ∧
      w.verify.asked = w.asked := by
  unfold verify
  split
  · split <;> exact ⟨rfl, rfl, rfl⟩
  · exact ⟨rfl, rfl, rfl⟩

theorem connect_frame (w : World) (r : Reply) :
    ∃ client dep, (w.connect r).1.http = w.http.withObjects client dep w.http.transportTraits ∧
      (w.connect r).1.credentialHost = w.credentialHost ∧ (w.connect r).1.asked = w.asked := by
  unfold connect
  split
  · have hlink := sameCalls_withLink w (w.link.map Source.discard)
    exact ⟨_, _, hlink.http, hlink.credentialHost, hlink.asked⟩
  · rcases create_frame w with ⟨client, dep, hhttp, hcred, hasked⟩
    have hv := verify_frame w.create
    simp only []
    split
    · exact ⟨client, dep, hhttp, hcred, hasked⟩
    · have hverified := And.intro (hv.1.trans hhttp)
        (And.intro (hv.2.1.trans hcred) (hv.2.2.trans hasked))
      split
      · exact ⟨client, dep, hverified⟩
      · split
        · exact ⟨client, dep, hverified⟩
        · exact ⟨client, dep, hverified⟩

/-- The answer to a request sets the fields of an answer, and what is left of the
connection. -/
theorem receive_frame (lib : TimeLibrary) (w : World) (r : Reply) :
    (w.receive lib r).1 = w ∨
      ∃ link a, (w.receive lib r).1 = { w.withLink link with http := w.http.answered a } := by
  unfold receive
  cases w.link with
  | none => exact Or.inl rfl
  | some s =>
      rcases handleHeaderResponse_frame lib r.moment w.http (arrive s r.ticks r.ending) with ⟨a, h⟩
      refine Or.inr ⟨some (handleHeaderResponse lib r.moment w.http
        (arrive s r.ticks r.ending)).2.1, a, ?_⟩
      simp only [h]

/-- The client whose credential is written. -/
def written (w : World) : World :=
  { w with http := { w.http with
    base64Authorization := withoutChar w.http.base64Authorization '\n' } }

/-- A request fails before its head is written, or behind that, or has an answer. -/
theorem send_cases (lib : TimeLibrary) (w : World) (p : Pending) (r : Reply) :
    (w.ready p r = none ∧ ∃ code,
      w.send lib p r = ({ w with http := w.http.wipeHeaders }.connect r).1.returnCode code ∨
      w.send lib p r =
        (({ w with http := w.http.wipeHeaders }.connect r).1.prepare p r).returnCode code) ∨
    ∃ w', w.ready p r = some w' ∧ w'.connected = true ∧
      w' = ({ w with http := w.http.wipeHeaders }.connect r).1.prepare p r ∧
      ((∃ code, w.send lib p r = w'.written.returnCode code) ∨
        ∃ code, w.send lib p r = { (w'.written.receive lib r).1 with
          pending := some { p with answer := some code } }) := by
  unfold send ready
  simp only []
  generalize { w with http := w.http.wipeHeaders }.connect r = c
  cases hc : c.2 with
  | false =>
      simp only [Bool.not_false, if_true, Bool.false_eq_true, if_false]
      exact Or.inl ⟨trivial, _, Or.inl rfl⟩
  | true =>
      simp only [Bool.not_true, Bool.false_eq_true, if_false, if_true]
      -- the head is written only if the connection is still open
      cases hconn : (c.1.prepare p r).connected with
      | false =>
          simp only [Bool.not_false, if_true, Bool.false_eq_true, if_false]
          exact Or.inl ⟨trivial, _, Or.inr rfl⟩
      | true =>
          simp only [Bool.not_true, Bool.false_eq_true, if_false, if_true]
          refine Or.inr ⟨_, rfl, hconn, rfl, ?_⟩
          split
          · exact Or.inl ⟨_, rfl⟩
          · split
            · exact Or.inl ⟨_, rfl⟩
            · exact Or.inr ⟨_, rfl⟩

end World

end Http

end ArduinoBeken
