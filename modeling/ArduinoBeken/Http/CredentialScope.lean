import ArduinoBeken.Http.CookieLaw
import ArduinoBeken.Http.HeaderSteps
import ArduinoBeken.Http.Opened

/-!
# Whose Credential is Sent

The credential that `setAuthorization` or the user-info of a URL sets is a
field of the client that no `begin`, no redirect and no `end` clears. It goes
with every later request, so it is sent to the wrong host where the target has
changed without a new one, or where a connection to another host is still open.

A change of the target to another host, while a credential is set and without
a new one, leaves a debt (`Strays`), which a later credential pays, or the
return to the host it was set for (`Settles`). In a run that sends nothing over
the connection to another host, each request is in scope exactly if every such
debt is paid before the next head is written (`inScope_iff_settled`).

## Main definitions

* `InScope`: What is promised of a request.
* `newTarget`, `SetsCredential`: What a step does to the target and the
  credential.
* `Strays`, `Settles`: The steps that leave the debt, and that pay it.
* `Tidy`: The texts that the user hands in are in one line, and no
  `Authorization` line; no connection to another host is open.

## Theorems

* `step_aims`: A step that sends nothing sets the target it says.
* `unwritten_step`: Tidy steps write no `Authorization` line of their own.
* `inScope_iff`: A request is in scope if its credential is settled.
* `inScope_iff_settled`: The promise along a run.
-/

namespace ArduinoBeken

namespace Http

/-- Every `Authorization` line of the request is that of the credential, which
was set while the host that the request is written to was the target. -/
def InScope (s : World × Pending) : Prop :=
  ∀ line ∈ fieldsOf "Authorization".toList (headOf s.1.http s.2.type),
    line ++ ['\n'] = authorizationField s.1.http ∧
      s.1.route.map Route.host = some s.1.credentialHost

instance (s : World × Pending) : Decidable (InScope s) :=
  List.decidableBAll _ _

/-- The request that a step sends, if any, is in scope. -/
def SendsInScope (w : World) (e : Event) : Prop :=
  ∀ s, sentBy w e = some s → InScope s

/-! ### Debts -/

/-- The target that a step sets. -/
def newTarget (w : World) : Event → Option Url
  | .call c => if w.pending = none then c.target else none
  | _ => none

/-- The step sets a credential by a call of its own. -/
def SetsCredential (w : World) : Event → Prop
  | .call (.setAuthorization _ _) | .call (.setAuthorizationCode _) => w.pending = none
  | _ => False

/-- The step takes a credential to another host than that it was set for. -/
def Strays (w : World) (e : Event) : Prop :=
  ∃ u, newTarget w e = some u ∧ u.auth = none ∧ u.host ≠ w.credentialHost ∧
    w.http.base64Authorization ≠ []

/-- The step sets a credential, or goes to the host that the old one was set
for. -/
def Settles (w : World) (e : Event) : Prop :=
  SetsCredential w e ∨
    ∃ u, newTarget w e = some u ∧ (u.auth.isSome = true ∨ u.host = w.credentialHost)

/-- The step writes no head. -/
def Unsent (w : World) (e : Event) : Prop :=
  sentBy w e = none

/-- The effect of the step is defined. No text that goes into a head has a line break
in it, and the user does not write `Authorization` lines himself. A request finds no
connection to another host. -/
def Tidy (w : World) (e : Event) : Prop :=
  Safe w e ∧
    match e with
    | .call (.addHeader name value _ _) =>
      '\n' ∉ name ∧ '\n' ∉ value ∧
        isField "Authorization".toList (name ++ ": ".toList ++ value ++ ['\r']) = false
    | .send _ => w.AtHost ∧ ∀ p ∈ w.pending, Unbroken w.http p.type
    | _ => True

instance (w : World) (e : Event) : Decidable (Tidy w e) :=
  match e with
  | .call c =>
    match c with
    | .addHeader .. => inferInstanceAs (Decidable (_ ∧ _ ∧ _ ∧ _))
    | .beginClientUrl .. | .beginClientHost .. | .beginUrl .. | .beginUrlCert .. | .beginHost ..
    | .beginHostCerts .. | .setURL .. | .setReuse .. | .setUserAgent .. | .setAuthorization ..
    | .setAuthorizationCode .. | .setAuthorizationType .. | .useHTTP10 ..
    | .setFollowRedirects .. | .setRedirectLimit .. | .collectHeaders .. | .setCookieJar ..
    | .writeToStream .. | .getString | .finish =>
      inferInstanceAs (Decidable (Safe w (.call _) ∧ True))
  | .send r => inferInstanceAs (Decidable (Safe w (.send r) ∧ _ ∧ ∀ p ∈ w.pending, _))
  | .request type payload => inferInstanceAs (Decidable (Safe w (.request type payload) ∧ True))
  | .follow => inferInstanceAs (Decidable (Safe w .follow ∧ True))
  | .network o ticks ending => inferInstanceAs (Decidable (Safe w (.network o ticks ending) ∧ True))

/-- The credential, if one is set, was set for the host that is the target. -/
def Settled (w : World) : Prop :=
  w.http.base64Authorization = [] ∨ w.credentialHost = w.http.host

/-- No `Authorization` line is in the header block of a client whose steps have been
defined. -/
structure Unwritten (w : World) : Prop where
  defined : w.undefined = false
  whole : Whole w.http.headers
  fields : fieldsOf "Authorization".toList w.http.headers = []

/-! ### What a step does to the target and the credential -/

/-- The target, the credential and its host, by the target that is set. -/
structure Aims (w w' : World) (t : Option Url) : Prop where
  host : w'.http.host = (t.map Url.host).getD w.http.host
  credential : w'.http.base64Authorization =
    ((t.bind Url.auth).map base64Encode).getD w.http.base64Authorization
  credentialHost : w'.credentialHost =
    if (t.bind Url.auth).isSome then w'.http.host else w.credentialHost

theorem Retargets.aims {w w' : World} {t : Option Url} (h : Retargets w w' t) : Aims w w' t :=
  ⟨h.host, h.credential, h.credentialHost⟩

/-- An error of a call changes the connection only. -/
theorem aims_returnCode (w v : World) (code : Int) (t : Option Url) (h : Aims w v t) :
    Aims w (v.returnCode code) t := by
  have hlink := World.sameCalls_withLink v (returnError v.link code)
  have hhttp : (v.returnCode code).http = v.http := hlink.http
  have howner : (v.returnCode code).credentialHost = v.credentialHost := hlink.credentialHost
  refine ⟨?_, ?_, ?_⟩
  · rw [hhttp]
    exact h.host
  · rw [hhttp]
    exact h.credential
  · rw [hhttp, howner]
    exact h.credentialHost

/-- A request whose head is not written leaves the target as it is. -/
theorem aims_send (lib : TimeLibrary) (w : World) (p : Pending) (r : Reply)
    (hready : w.ready p r = none) : Aims w (w.send lib p r) none := by
  rcases World.connect_frame { w with http := w.http.wipeHeaders } r with
    ⟨client, dep, hhttp, hcred, -⟩
  have hcases := World.send_cases lib w p r
  generalize { w with http := w.http.wipeHeaders }.connect r = c at hhttp hcred hcases
  have hconnected : Aims w c.1 none := by
    refine ⟨?_, ?_, hcred⟩
    · rw [hhttp]; rfl
    · rw [hhttp]; rfl
  have hprepared : Aims w (c.1.prepare p r) none := by
    rw [World.prepare_http]
    exact ⟨hconnected.host, hconnected.credential, hconnected.credentialHost⟩
  rcases hcases with ⟨-, code, hsend | hsend⟩ | ⟨w', hsome, -⟩
  · rw [hsend]
    exact aims_returnCode w _ _ none hconnected
  · rw [hsend]
    exact aims_returnCode w _ _ none hprepared
  · exact absurd (hready.symm.trans hsome) (fun hno => nomatch hno)

theorem aims_follow (w : World) (p : Pending) (code : Int) : Aims w (w.follow p code) none := by
  unfold World.follow
  cases w.redirect p code with
  | none => exact aims_returnCode w w code none ⟨rfl, rfl, rfl⟩
  | some p' =>
      have hset := (retargets_setURL w w.http.location).aims
      simp only []
      split
      · exact ⟨hset.host, hset.credential, hset.credentialHost⟩
      · exact aims_returnCode w _ code _ hset

theorem aims_perform (w : World) (c : Call) (hpending : w.pending = none)
    (hset : ¬SetsCredential w (.call c)) : Aims w (w.perform c) c.target := by
  by_cases hplain : c.Plain
  · exact (perform_retargets w c hplain).aims
  · cases c with
    | addHeader name value first replace =>
        have hframe := HTTPClient.addHeader_frame w.http name value first replace
        have hperform : (w.perform (.addHeader name value first replace)).http =
            w.http.addHeader name value first replace := rfl
        refine ⟨?_, ?_, rfl⟩
        · rw [hperform, hframe]
          rfl
        · rw [hperform, hframe]
          rfl
    | setAuthorization user password => exact absurd hpending hset
    | setAuthorizationCode auth => exact absurd hpending hset
    | _ => exact absurd True.intro hplain

/-- A step that sends nothing sets the target it says. -/
theorem step_aims (lib : TimeLibrary) (w : World) (e : Event) (hdefined : w.undefined = false)
    (hunsent : Unsent w e) (hset : ¬SetsCredential w e) :
    Aims w (step lib w e) (newTarget w e) := by
  have hsame : Aims w w none := ⟨rfl, rfl, rfl⟩
  rw [step_defined lib w e hdefined]
  cases e with
  | call c =>
      -- During a request the calls of the sketch do nothing.
      by_cases hp : w.pending = none
      · simp only [World.react, newTarget, hp, if_true]
        exact aims_perform w c hp hset
      · rcases Option.ne_none_iff_exists'.1 hp with ⟨p, hp⟩
        simp only [World.react, newTarget, hp]
        exact hsame
  | request type payload =>
      simp only [World.react, newTarget]
      split
      · exact ⟨rfl, rfl, rfl⟩
      · exact hsame
  | send r =>
      rw [Unsent, sentBy, if_neg (by rw [hdefined]; exact Bool.false_ne_true)] at hunsent
      simp only [World.sends] at hunsent
      simp only [World.react, newTarget]
      cases hp : w.pending with
      | none => exact hsame
      | some p =>
          simp only [hp] at hunsent ⊢
          split
          next hanswer =>
            -- Nothing was sent, so the request ended at its connect.
            rw [if_pos hanswer, Option.map_eq_none_iff] at hunsent
            exact aims_send lib w p r hunsent
          next => exact hsame
  | follow =>
      simp only [World.react, newTarget]
      cases w.pending with
      | none => exact hsame
      | some p =>
          simp only []
          split
          next code _ => exact aims_follow w p code
          next => exact hsame
  | network o ticks ending => exact ⟨rfl, rfl, rfl⟩

/-- Only a request is sent. -/
theorem unsent_of_not_send (w : World) (e : Event) (h : ∀ r, e ≠ .send r) : Unsent w e := by
  unfold Unsent sentBy
  split
  · rfl
  · cases e with
    | send r => exact absurd rfl (h r)
    | _ => rfl

/-- A step that goes elsewhere with the old credential. -/
theorem not_settled_of_strays (lib : TimeLibrary) (w : World) (e : Event)
    (hdefined : w.undefined = false) (h : Strays w e) : ¬Settled (step lib w e) := by
  rcases h with ⟨u, hu, hauth, hhost, hset⟩
  -- A new target comes from a call, not from a request.
  have hunsent : Unsent w e := by
    refine unsent_of_not_send w e ?_
    rintro r rfl
    exact absurd hu (fun hno => nomatch hno)
  -- The two calls that set a credential have no target.
  have hcall : ¬SetsCredential w e := by
    rcases e with c | - | - | - | -
    · cases c with
      | setAuthorization user password =>
          intro hp
          simp only [newTarget, Call.target, ite_self] at hu
          exact absurd hu (fun hno => nomatch hno)
      | setAuthorizationCode auth =>
          intro hp
          simp only [newTarget, Call.target, ite_self] at hu
          exact absurd hu (fun hno => nomatch hno)
      | _ => exact not_false
    all_goals exact not_false
  have haims := step_aims lib w e hdefined hunsent hcall
  rw [hu] at haims
  have hcredential := haims.credential
  have howner := haims.credentialHost
  rw [Option.bind_some, hauth] at hcredential howner
  -- The credential is there, and belongs to the host before.
  rintro (hnone | hsame)
  · exact hset (hcredential.symm.trans hnone)
  · rw [haims.host] at hsame
    exact hhost (hsame.symm.trans howner)

/-- A step that pays the debt. -/
theorem settled_of_settles (lib : TimeLibrary) (w : World) (e : Event)
    (hdefined : w.undefined = false) (h : Settles w e) :
    Unsent w e ∧ Settled (step lib w e) := by
  have hunsent : Unsent w e := by
    refine unsent_of_not_send w e ?_
    rintro r rfl
    rcases h with hset | ⟨u, hu, -⟩
    · exact absurd hset not_false
    · exact absurd hu (fun hno => nomatch hno)
  refine ⟨hunsent, ?_⟩
  -- It settles by a credential of its own, or by the host it belongs to.
  by_cases hset : SetsCredential w e
  · cases e with
    | call c =>
        cases c with
        | setAuthorization user password =>
            rw [step_defined lib w _ hdefined]
            simp only [World.react, show w.pending = none from hset]
            exact Or.inr rfl
        | setAuthorizationCode auth =>
            rw [step_defined lib w _ hdefined]
            simp only [World.react, show w.pending = none from hset]
            exact Or.inr rfl
        | _ => exact absurd hset not_false
    | _ => exact absurd hset not_false
  · rcases h with hset' | ⟨u, hu, hpays⟩
    · exact absurd hset' hset
    · have haims := step_aims lib w e hdefined hunsent hset
      rw [hu] at haims
      have howner := haims.credentialHost
      have hhost : (step lib w e).http.host = u.host := haims.host
      rw [Option.bind_some] at howner
      right
      -- A URL with a credential brings its host along.
      by_cases hauth : u.auth.isSome = true
      · rw [howner, if_pos hauth]
      · rw [howner, if_neg hauth, hhost]
        exact (hpays.resolve_left hauth).symm

/-- Writing a head may only take line breaks out of the credential. -/
theorem settled_send (lib : TimeLibrary) (w : World) (p : Pending) (r : Reply) (h : Settled w) :
    Settled (w.send lib p r) := by
  rcases World.connect_frame { w with http := w.http.wipeHeaders } r with
    ⟨client, dep, hhttp, hcred, -⟩
  -- An error leaves the credential and whose it is.
  have hreturn : ∀ (v : World) (code : Int), Settled v → Settled (v.returnCode code) := by
    intro v code hv
    have hlink := World.sameCalls_withLink v (returnError v.link code)
    have hv' : (v.returnCode code).http = v.http := hlink.http
    have howner : (v.returnCode code).credentialHost = v.credentialHost := hlink.credentialHost
    rw [Settled, hv', howner]
    exact hv
  have hcases := World.send_cases lib w p r
  generalize { w with http := w.http.wipeHeaders }.connect r = c at hhttp hcred hcases
  have hconnected : Settled c.1 := by
    rw [Settled, hhttp, hcred]
    exact h
  have hprepared : Settled (c.1.prepare p r) := by
    rw [World.prepare_http]
    exact hconnected
  -- The request is not sent, or it is answered.
  rcases hcases with ⟨-, code, hsend | hsend⟩ | ⟨w', -, -, rfl, hanswer⟩
  · rw [hsend]
    exact hreturn _ _ hconnected
  · rw [hsend]
    exact hreturn _ _ hprepared
  · have hwritten : Settled (c.1.prepare p r).written := by
      rcases hprepared with hnone | hsame
      · refine Or.inl ?_
        simp only [World.written, hnone]
        rfl
      · exact Or.inr hsame
    rcases hanswer with ⟨code, hsend⟩ | ⟨code, hsend⟩
    · rw [hsend]
      exact hreturn _ _ hwritten
    · rw [hsend]
      rcases World.receive_frame lib (c.1.prepare p r).written r with
        hreceive | ⟨link, a, hreceive⟩
      · rw [hreceive]
        exact hwritten
      · have hlink := World.sameCalls_withLink (c.1.prepare p r).written link
        rw [hreceive, Settled]
        simp only [hlink.credentialHost]
        exact hwritten

/-- Without a stray step the credential stays settled. -/
theorem settled_step (lib : TimeLibrary) (w : World) (e : Event) (hdefined : w.undefined = false)
    (h : Settled w) (hstays : ¬Strays w e) : Settled (step lib w e) := by
  -- a setter settles the credential, whatever it was before
  by_cases hset : SetsCredential w e
  · exact (settled_of_settles lib w e hdefined (Or.inl hset)).2
  · by_cases hunsent : Unsent w e
    -- then the step may change the host, and the credential only as the new target says
    · have haims := step_aims lib w e hdefined hunsent hset
      cases hu : newTarget w e with
      | none =>
          rw [hu] at haims
          rw [Settled, haims.credential, haims.credentialHost, haims.host]
          exact h
      | some u =>
          by_cases hpays : u.auth.isSome = true ∨ u.host = w.credentialHost
          · exact (settled_of_settles lib w e hdefined (Or.inr ⟨u, hu, hpays⟩)).2
          · -- A new host without a new credential: there was none.
            rw [not_or, Bool.not_eq_true, Option.isSome_eq_false_iff, Option.isNone_iff_eq_none]
              at hpays
            have hnone : w.http.base64Authorization = [] := by
              by_contra hne
              exact hstays ⟨u, hu, hpays.1, hpays.2, hne⟩
            rw [hu] at haims
            have hcredential := haims.credential
            rw [Option.bind_some, hpays.1] at hcredential
            exact Or.inl (hcredential.trans hnone)
    -- then it is a request that is sent
    · cases e with
      | send r =>
          rw [step_defined lib w _ hdefined]
          simp only [World.react]
          cases w.pending with
          | none => exact h
          | some p =>
              simp only []
              split
              · exact settled_send lib w p r h
              · exact h
      | _ => exact absurd (unsent_of_not_send w _ (fun r hno => by cases hno)) hunsent

/-- A debt that is not paid stays. -/
theorem not_settled_step (lib : TimeLibrary) (w : World) (e : Event)
    (hdefined : w.undefined = false) (h : ¬Settled w) (hunsent : Unsent w e)
    (hpays : ¬Settles w e) : ¬Settled (step lib w e) := by
  rw [Settles, not_or] at hpays
  have haims := step_aims lib w e hdefined hunsent hpays.1
  rw [Settled, not_or] at h ⊢
  cases hu : newTarget w e with
  | none =>
      rw [hu] at haims
      rw [haims.credential, haims.credentialHost, haims.host]
      exact h
  | some u =>
      have hother : ¬(u.auth.isSome = true ∨ u.host = w.credentialHost) :=
        fun hp => hpays.2 ⟨u, hu, hp⟩
      rw [not_or, Bool.not_eq_true, Option.isSome_eq_false_iff, Option.isNone_iff_eq_none] at hother
      rw [hu] at haims
      have hcredential := haims.credential
      have howner := haims.credentialHost
      rw [Option.bind_some, hother.1] at hcredential howner
      rw [hcredential, howner, haims.host]
      exact ⟨h.1, fun hsame => hother.2 hsame.symm⟩

/-! ### The header block -/

/-- The headers that the code adds are no `Authorization` lines. -/
theorem fieldsOf_prepared (w : World) (payload : Text) (now : Int)
    (hcookies : ∀ jar, w.http.cookieJar = some jar → ∀ cookie ∈ jar, '\n' ∉ pairText cookie)
    (hw : Unwritten w) :
    fieldsOf "Authorization".toList (preparedHeaders w.http payload now) = [] := by
  have hsub := fieldsOf_preparedHeaders "Authorization".toList w.http payload now hw.whole hcookies
    (by decide) (by decide)
  rw [hw.fields] at hsub
  exact List.sublist_nil.1 hsub

/-- Tidy steps write no `Authorization` line of their own. -/
theorem unwritten_step (lib : TimeLibrary) (w : World) (e : Event) (hw : Unwritten w)
    (htidy : Tidy w e) : Unwritten (step lib w e) := by
  refine ⟨defined_of_safe lib w e hw.defined htidy.1, whole_step lib w e hw.whole, ?_⟩
  rcases headers_step lib w e with hsame | hnone | ⟨name, value, first, replace, rfl, -, hadded⟩ |
    ⟨p, r, rfl, hp, hprepared⟩
  · rw [hsame]
    exact hw.fields
  · rw [hnone]
    rfl
  · rcases htidy.2 with ⟨hname, hvalue, hother⟩
    have hsub := fieldsOf_withLine_sublist "Authorization".toList w.http.headers name value
      first replace hw.whole hname hvalue hother
    rw [hw.fields] at hsub
    rw [hadded]
    exact List.sublist_nil.1 hsub
  · rw [hprepared]
    exact fieldsOf_prepared w p.payload r.moment.now (htidy.2.2 p hp).cookies hw

/-! ### One request -/

/-- The credential is one line of the head. -/
theorem fieldsOf_authorizationField (c : HTTPClient) (h : '\n' ∉ c.authorizationType)
    (hset : c.base64Authorization ≠ []) :
    ∃ line, line ++ ['\n'] = authorizationField c ∧
      fieldsOf "Authorization".toList (authorizationField c) = [line] := by
  -- the line breaks of the encoding are taken out
  have hcode : '\n' ∉ withoutChar c.base64Authorization '\n' := by
    intro hm
    exact absurd (List.mem_filter.1 hm).2 (by decide)
  let value := c.authorizationType ++ ' ' :: withoutChar c.base64Authorization '\n'
  have hvalue : '\n' ∉ value := by
    simp only [value, List.mem_append, List.mem_cons, not_or]
    exact ⟨h, by decide, hcode⟩
  have hheader : authorizationField c = headerLine "Authorization".toList value := by
    rw [authorizationField, if_neg hset, headerLine]
    simp only [value, List.append_assoc]
    rfl
  have hfield : isField "Authorization".toList
      ("Authorization".toList ++ ": ".toList ++ value ++ ['\r']) = true := by
    rw [show "Authorization".toList ++ ": ".toList ++ value ++ ['\r'] =
      "Authorization".toList ++ ':' :: (' ' :: value ++ ['\r']) by
        simp only [List.append_assoc, List.cons_append]; rfl,
      isField_of_name _ _ _ (by decide)]
    decide
  refine ⟨"Authorization".toList ++ ": ".toList ++ value ++ ['\r'], ?_, ?_⟩
  · rw [hheader, headerLine, List.append_assoc _ ['\r']]
    rfl
  · rw [hheader, fieldsOf_headerLine _ _ value (by decide) hvalue, hfield, if_pos rfl]

/-- A request is in scope if its credential is settled. -/
theorem inScope_iff (w w' : World) (p : Pending) (r : Reply) (hw : Unwritten w)
    (hat : w.AtHost) (hunbroken : Unbroken w.http p.type) (h : w.ready p r = some w') :
    InScope (w', p) ↔ Settled w := by
  rcases World.host_ready w w' p r hat h with ⟨route, hroute, -, hhost⟩
  rcases World.ready_frame w w' p r h with ⟨client, dep, current, hhttp, hcred, -⟩
  have hheaders : w'.http.headers = preparedHeaders w.http p.payload r.moment.now := by rw [hhttp]
  have hblock := fieldsOf_prepared w p.payload r.moment.now hunbroken.cookies hw
  have hunbroken' := unbroken_ready hunbroken h
  have hwhole : Whole w'.http.headers := by
    rw [hheaders]
    exact whole_preparedHeaders w.http p.payload r.moment.now hw.whole
  have hsame : w'.http.base64Authorization = w.http.base64Authorization := by rw [hhttp]; rfl
  -- The head has the line of the credential, and no other.
  have hfields : fieldsOf "Authorization".toList (headOf w'.http p.type) =
      fieldsOf "Authorization".toList (authorizationField w'.http) := by
    rw [fieldsOf_headOf _ (by decide) w'.http p.type hunbroken' hwhole, hheaders, hblock,
      List.append_nil]
  unfold InScope Settled
  simp only [hfields, hcred, hroute, Option.map_some, Option.some.injEq, hhost]
  by_cases hset : w.http.base64Authorization = []
  · have hnone : authorizationField w'.http = [] := by
      rw [authorizationField, if_pos (hsame.trans hset)]
    rw [hnone]
    refine ⟨fun _ => Or.inl hset, fun _ line hline => absurd hline List.not_mem_nil⟩
  · rcases fieldsOf_authorizationField w'.http hunbroken'.authorizationType
      (hsame ▸ hset) with ⟨line, hline, hone⟩
    rw [hone]
    refine ⟨fun hin => Or.inr (hin line (List.mem_singleton.2 rfl)).2.symm, ?_⟩
    intro hsettled l hl
    rw [List.mem_singleton.1 hl]
    exact ⟨hline, (hsettled.resolve_left hset).symm⟩

theorem sendsInScope_of_unsent (w : World) (e : Event) (h : Unsent w e) : SendsInScope w e := by
  intro s hs
  exact absurd (h.symm.trans hs) (fun hno => nomatch hno)

/-- A request that is sent with a credential for another host is not in scope. -/
theorem unsent_of_not_settled (w : World) (e : Event) (hw : Unwritten w) (htidy : Tidy w e)
    (h : ¬Settled w) (hscope : SendsInScope w e) : Unsent w e := by
  unfold Unsent
  cases hs : sentBy w e with
  | none => rfl
  | some s =>
      rcases sentBy_cases w e s hs with ⟨p, r, w', rfl, -, hp, -, hready, rfl⟩
      exact absurd ((inScope_iff w w' p r hw htidy.2.1 (htidy.2.2 p hp) hready).1 (hscope _ hs)) h

theorem sendsInScope_of_settled (w : World) (e : Event) (hw : Unwritten w) (htidy : Tidy w e)
    (h : Settled w) : SendsInScope w e := by
  intro s hs
  rcases sentBy_cases w e s hs with ⟨p, r, w', rfl, -, hp, -, hready, rfl⟩
  exact (inScope_iff w w' p r hw htidy.2.1 (htidy.2.2 p hp) hready).2 h

/-! ### Runs -/

/-- Along a tidy run of a client, every request is in scope if and only if, after
every step that takes the credential to another host, a new one is set or that
host is returned to before the next head is written. Every step of such a run is
defined. -/
theorem inScope_iff_settled (lib : TimeLibrary) (objects : Nat → NetObject) (fresh : Nat)
    (es : List Event) (htidy : EventRun.Always (step lib) Tidy { objects, fresh } es) :
    (EventRun.run (step lib) { objects, fresh } es).undefined = false ∧
      (EventRun.Always (step lib) SendsInScope { objects, fresh } es ↔
        EventRun.Followed (step lib) Strays (EventRun.Unless (step lib) Unsent Settles)
          { objects, fresh } es) := by
  have hstart : Unwritten { objects, fresh } := ⟨rfl, Or.inl rfl, rfl⟩
  refine ⟨(EventRun.inv_run_of_always (unwritten_step lib) hstart htidy).defined, ?_⟩
  refine EventRun.always_iff_followed (unwritten_step lib) sendsInScope_of_settled
    (fun w e _ _ => sendsInScope_of_unsent w e) ?_
    (fun w e hw _ => settled_step lib w e hw.defined) unsent_of_not_settled
    (fun w e hw _ => not_settled_step lib w e hw.defined)
    (fun w e hw _ => not_settled_of_strays lib w e hw.defined) hstart (Or.inl rfl) htidy
  intro w e hw _ hpays
  rcases settled_of_settles lib w e hw.defined hpays with ⟨hunsent, hsettled⟩
  exact ⟨sendsInScope_of_unsent w e hunsent, hsettled⟩

/-- Requests to two hosts, each with a credential of its own. -/
def twoRequests : List Event :=
  [.call (.beginUrl "http://me:pw@a/".toList), .request "GET".toList [],
    .send (.prompt "HTTP/1.1 204 No Content\r\n\r\n"), .follow,
    .call (.beginUrl "http://b/".toList),
    .call (.setAuthorization "you".toList "pw".toList), .request "GET".toList [],
    .send (.prompt "HTTP/1.1 204 No Content\r\n\r\n"), .follow]

/-- A request with the credential of its URL, and one with a new credential to
another host. -/
theorem inScope_iff_settled_two :
    (EventRun.run (step plainTime) {} twoRequests).undefined = false ∧
      (EventRun.Always (step plainTime) SendsInScope {} twoRequests ↔
        EventRun.Followed (step plainTime) Strays (EventRun.Unless (step plainTime) Unsent Settles)
          {} twoRequests) :=
  inScope_iff_settled plainTime (fun _ => {}) 0 twoRequests (by decide)

/-- A request with the credential of its URL, and one without to another host. -/
def laterBegin : List Event :=
  [.call (.beginUrl "http://me:pw@a/".toList), .request "GET".toList [],
    .send (.prompt "HTTP/1.1 204 No Content\r\n\r\n"), .follow, .call .finish,
    .call (.beginUrl "http://b/".toList), .request "GET".toList []]

/-- The credential of the first URL goes to the host of the second. -/
theorem begin_keeps_credential :
    ¬ ∀ es, EventRun.Always (step plainTime) SendsInScope {} es := by
  intro hall
  have hlaw := ((EventRun.always_append _ _ _ _ _).1
    (hall (laterBegin ++ [.send (.prompt "")]))).2.1
  exact absurd (hlaw _ (Option.some_get (by decide)).symm) (by decide)

end Http

end ArduinoBeken
