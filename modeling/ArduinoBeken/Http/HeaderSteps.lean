import ArduinoBeken.Http.HeaderBlock
import ArduinoBeken.Http.Targets

/-!
# The Header Block along a Run

All header lines of a request that are not written by `sendHeader` itself are in one
block, which lives as long as the client. A call adds a line to it or empties it, a
request puts the lines in that belong to it, and nothing else touches it
(`headers_step`).

## Theorems

* `headers_send`: What a request makes of the block.
* `headers_step`: What a step makes of the block.
* `whole_step`: The block consists of whole lines.
* `fieldsOf_sent`: The fields of a head that is sent.
* `defined_of_safe`: The effect of a safe step is defined.
-/

namespace ArduinoBeken

namespace Http

open Arrivals

theorem headers_returnCode (w : World) (code : Int) :
    (w.returnCode code).http.headers = w.http.headers :=
  congrArg HTTPClient.headers (World.sameCalls_withLink w (returnError w.link code)).http

/-- A request puts in its lines, if it is connected. -/
theorem headers_send (lib : TimeLibrary) (w : World) (p : Pending) (r : Reply) :
    (w.send lib p r).http.headers = w.http.headers ∨
      (w.send lib p r).http.headers = preparedHeaders w.http p.payload r.moment.now := by
  rcases World.connect_frame { w with http := w.http.wipeHeaders } r with
    ⟨client, dep, hhttp, -, -⟩
  have hcases := World.send_cases lib w p r
  generalize { w with http := w.http.wipeHeaders }.connect r = c at hhttp hcases
  have hsame : c.1.http.headers = w.http.headers := by
    rw [hhttp]
    rfl
  have hprepared : (c.1.prepare p r).http.headers =
      preparedHeaders w.http p.payload r.moment.now := by
    rw [World.prepare_http, hhttp]
    rfl
  -- the attempt ends before the headers are prepared, or behind that
  rcases hcases with ⟨-, code, hsend | hsend⟩ | ⟨w', -, -, rfl, hanswer⟩
  · left
    rw [hsend, headers_returnCode, hsame]
  · right
    rw [hsend, headers_returnCode, hprepared]
  · right
    rcases hanswer with ⟨code, hsend⟩ | ⟨code, hsend⟩
    · rw [hsend, headers_returnCode]
      exact hprepared
    · rw [hsend]
      rcases World.receive_frame lib (c.1.prepare p r).written r with
        hreceive | ⟨link, a, hreceive⟩
      · rw [hreceive]
        exact hprepared
      · rw [hreceive]
        exact hprepared

theorem headers_follow (w : World) (p : Pending) (code : Int) :
    (w.follow p code).http.headers = w.http.headers ∨ (w.follow p code).http.headers = [] := by
  unfold World.follow
  cases w.redirect p code with
  | none => exact Or.inl (headers_returnCode w code)
  | some p' =>
      have hset := (retargets_setURL w w.http.location).headers
      simp only []
      split
      · exact hset
      · rw [headers_returnCode]
        exact hset

/-- A call leaves the block as it is, empties it, or adds a line. -/
theorem headers_perform (w : World) (c : Call) :
    (w.perform c).http.headers = w.http.headers ∨ (w.perform c).http.headers = [] ∨
      ∃ name value first replace, c = .addHeader name value first replace ∧
        w.http.handledByCode name = false ∧
        (w.perform c).http.headers =
          HTTPClient.withLine w.http.headers name value first replace := by
  by_cases hplain : c.Plain
  · rcases (perform_retargets w c hplain).headers with hsame | hnone
    · exact Or.inl hsame
    · exact Or.inr (Or.inl hnone)
  · cases c with
    | addHeader name value first replace =>
        simp only [World.perform, HTTPClient.addHeader]
        by_cases hhandled : w.http.handledByCode name = true
        · rw [if_pos hhandled]
          exact Or.inl rfl
        · rw [if_neg hhandled]
          have hunhandled : w.http.handledByCode name = false := Bool.not_eq_true _ ▸ hhandled
          exact Or.inr (Or.inr ⟨name, value, first, replace, rfl, hunhandled, rfl⟩)
    | setAuthorization user password => exact Or.inl rfl
    | setAuthorizationCode auth => exact Or.inl rfl
    | _ => exact absurd True.intro hplain

/-- What a step makes of the block. -/
theorem headers_step (lib : TimeLibrary) (w : World) (e : Event) :
    (step lib w e).http.headers = w.http.headers ∨ (step lib w e).http.headers = [] ∨
      (∃ name value first replace, e = .call (.addHeader name value first replace) ∧
        w.http.handledByCode name = false ∧
        (step lib w e).http.headers =
          HTTPClient.withLine w.http.headers name value first replace) ∨
      ∃ p r, e = .send r ∧ w.pending = some p ∧
        (step lib w e).http.headers = preparedHeaders w.http p.payload r.moment.now := by
  -- by the event; only `addHeader`, a request and the calls that clear can change the headers
  rcases step_cases lib w e with hstep | ⟨-, hstep⟩
  · rw [hstep]
    exact Or.inl rfl
  · rw [hstep]
    cases e with
    | call c =>
        simp only [World.react]
        split
        · rcases headers_perform w c with hsame | hnone | ⟨name, value, first, replace, rfl, hline⟩
          · exact Or.inl hsame
          · exact Or.inr (Or.inl hnone)
          · exact Or.inr (Or.inr (Or.inl ⟨name, value, first, replace, rfl, hline⟩))
        · exact Or.inl rfl
    | request type payload =>
        simp only [World.react]
        split <;> exact Or.inl rfl
    | send r =>
        cases hp : w.pending with
        | none => simp only [World.react, hp, true_or]
        | some p =>
            simp only [World.react, hp]
            split
            · rcases headers_send lib w p r with hsame | hprepared
              · exact Or.inl hsame
              · exact Or.inr (Or.inr (Or.inr ⟨p, r, rfl, rfl, hprepared⟩))
            · exact Or.inl rfl
    | follow =>
        simp only [World.react]
        cases w.pending with
        | none => exact Or.inl rfl
        | some p =>
            simp only []
            split
            next code _ =>
              rcases headers_follow w p code with hsame | hnone
              · exact Or.inl hsame
              · exact Or.inr (Or.inl hnone)
            next => exact Or.inl rfl
    | network o ticks ending => exact Or.inl rfl

/-! ### Whole lines -/

theorem whole_step (lib : TimeLibrary) (w : World) (e : Event) (h : Whole w.http.headers) :
    Whole (step lib w e).http.headers := by
  rcases headers_step lib w e with hsame | hnone | ⟨name, value, first, replace, rfl, -, hadded⟩ |
    ⟨p, r, -, -, hprepared⟩
  · rw [hsame]
    exact h
  · rw [hnone]
    exact Or.inl rfl
  · rw [hadded]
    exact whole_withLine _ _ _ first replace h
  · rw [hprepared]
    exact whole_preparedHeaders w.http p.payload r.moment.now h

/-! ### A head that is sent -/

/-- The credential is no field of another name. -/
theorem fieldsOf_authorization_other (field : Text) (c : HTTPClient)
    (hline : '\n' ∉ c.authorizationType)
    (hfield : equalsIgnoreCase "Authorization".toList field = false) :
    fieldsOf field (authorizationField c) = [] := by
  have hcode : '\n' ∉ withoutChar c.base64Authorization '\n' := by
    intro hm
    exact absurd (List.mem_filter.1 hm).2 (by decide)
  unfold authorizationField
  split
  · rfl
  · have hvalue : '\n' ∉ c.authorizationType ++ ' ' :: withoutChar c.base64Authorization '\n' := by
      simp only [List.mem_append, List.mem_cons, not_or]
      exact ⟨hline, by decide, hcode⟩
    have hother := not_isField_of_name field "Authorization".toList
      (c.authorizationType ++ ' ' :: withoutChar c.base64Authorization '\n') (by decide) hfield
    have hfields := fieldsOf_headerLine field "Authorization".toList _ (by decide) hvalue
    rw [hother, if_neg Bool.false_ne_true] at hfields
    rw [← hfields, headerLine]
    simp only [List.append_assoc]
    rfl

/-- The request line and the fields of the client are whole in a head that is sent. -/
theorem unbroken_ready {w w' : World} {p : Pending} {r : Reply}
    (hunbroken : Unbroken w.http p.type) (h : w.ready p r = some w') :
    Unbroken w'.http p.type := by
  rcases World.ready_frame w w' p r h with ⟨client, dep, current, hhttp, -, -⟩
  rw [hhttp]
  refine ⟨hunbroken.type, hunbroken.uri, hunbroken.host, hunbroken.userAgent,
    hunbroken.authorizationType, ?_⟩
  -- what is left of the jar is cookies that were there
  intro jar hjar cookie hcookie
  rcases Option.map_eq_some_iff.1 hjar with ⟨old, hold, rfl⟩
  exact hunbroken.cookies old hold cookie (List.mem_filter.1 hcookie).1

/-- The fields of a head that is sent are those of the block with the lines of the
request. -/
theorem fieldsOf_sent (field : Text) (hfield : Foreign field)
    (hother : equalsIgnoreCase "Authorization".toList field = false) (w w' : World) (p : Pending)
    (r : Reply) (hwhole : Whole w.http.headers) (hunbroken : Unbroken w.http p.type)
    (h : w.ready p r = some w') :
    fieldsOf field (headOf w'.http p.type) =
      fieldsOf field (preparedHeaders w.http p.payload r.moment.now) := by
  rcases World.ready_frame w w' p r h with ⟨client, dep, current, hhttp, -, -⟩
  have hheaders : w'.http.headers = preparedHeaders w.http p.payload r.moment.now := by rw [hhttp]
  have hunbroken' := unbroken_ready hunbroken h
  have hwhole' : Whole w'.http.headers := by
    rw [hheaders]
    exact whole_preparedHeaders w.http p.payload r.moment.now hwhole
  rw [fieldsOf_headOf field hfield w'.http p.type hunbroken' hwhole',
    fieldsOf_authorization_other field w'.http hunbroken'.authorizationType hother, hheaders,
    List.nil_append]

/-! ### Steps whose effect is defined -/

theorem undefined_returnCode (w : World) (code : Int) :
    (w.returnCode code).undefined = w.undefined :=
  (World.sameCalls_withLink w (returnError w.link code)).undefined

/-- The object that is made is one of the kind that `verify` takes it for. -/
theorem undefined_connect (w : World) (r : Reply) (h : w.castsPlain = false) :
    (w.connect r).1.undefined = w.undefined := by
  -- on a kept connection nothing is made and nothing cast
  by_cases hconn : w.connected = true
  · rw [World.connect, if_pos hconn]
    exact (World.sameCalls_withLink w _).undefined
  · have hverify : w.create.verify.undefined = w.undefined := by
      rw [Bool.not_eq_true] at hconn
      -- by the traits and the object that is there
      cases htraits : w.http.transportTraits with
      | none =>
          simp only [World.create, World.verify, htraits]
          cases w.http.tcpDeprecated <;> rfl
      | some traits =>
          cases hclient : w.http.client with
          | none =>
              cases traits with
              | plain => simp only [World.create, World.verify, htraits, hclient]
              | tls config =>
                  simp only [World.create, World.verify, htraits, hclient, Function.update_self]
                  rfl
          | some o =>
              cases traits with
              | plain =>
                  simp only [World.create, World.verify, htraits, hclient]
                  cases w.http.tcpDeprecated <;> rfl
              | tls config =>
                  cases hown : w.http.tcpDeprecated with
                  | none => simp only [World.create, World.verify, htraits, hclient, hown]
                  | some own =>
                      -- The object that is there is secure, or the step were not safe.
                      simp only [World.castsPlain, hconn, hown, htraits, hclient, Bool.not_false,
                        Option.isSome_some, Bool.true_and, Option.any_some,
                        Bool.not_eq_false'] at h
                      simp only [World.create, World.verify, htraits, hclient, hown, h, if_true]
    rw [World.connect, if_neg hconn]
    simp only []
    split
    next =>
      unfold World.create
      split <;> rfl
    next o _ =>
      split
      · exact hverify
      · split <;> exact hverify

theorem undefined_send (lib : TimeLibrary) (w : World) (p : Pending) (r : Reply)
    (h : w.castsPlain = false) : (w.send lib p r).undefined = w.undefined := by
  have hconnect : ({ w with http := w.http.wipeHeaders }.connect r).1.undefined = w.undefined :=
    undefined_connect { w with http := w.http.wipeHeaders } r h
  have hprepare : (({ w with http := w.http.wipeHeaders }.connect r).1.prepare p r).undefined =
      w.undefined := by
    rw [World.prepare_http]
    exact hconnect
  rcases World.send_cases lib w p r with ⟨-, code, hsend | hsend⟩ |
    ⟨w', -, -, rfl, ⟨code, hsend⟩ | ⟨code, hsend⟩⟩
  · rw [hsend, undefined_returnCode]
    exact hconnect
  · rw [hsend, undefined_returnCode]
    exact hprepare
  · rw [hsend, undefined_returnCode]
    exact hprepare
  · rw [hsend]
    -- Reading the answer changes the client and its connection only.
    rcases World.receive_frame lib
      (({ w with http := w.http.wipeHeaders }.connect r).1.prepare p r).written r with
      hreceive | ⟨link, a, hreceive⟩
    · rw [hreceive]
      exact hprepare
    · rw [hreceive]
      exact (World.sameCalls_withLink _ link).undefined.trans hprepare

/-- What the code does in a safe step is defined. -/
theorem defined_of_safe (lib : TimeLibrary) (w : World) (e : Event) (hw : w.undefined = false)
    (h : Safe w e) : (step lib w e).undefined = false := by
  -- only connecting and following can be undefined
  rw [step_defined lib w e hw]
  cases e with
  | call c =>
      cases hp : w.pending with
      | none =>
          simp only [World.react, hp]
          exact (undefined_perform w c hp h).trans hw
      | some p =>
          simp only [World.react, hp]
          exact hw
  | request type payload =>
      simp only [World.react]
      split <;> exact hw
  | send r =>
      simp only [World.react]
      split
      · split
        · exact (undefined_send lib w _ r h).trans hw
        · exact hw
      · exact hw
  | follow =>
      simp only [World.react]
      split
      next p hp =>
        split
        next code hcode =>
          unfold World.follow
          cases hredirect : w.redirect p code with
          | none => exact (undefined_returnCode w code).trans hw
          | some p' =>
              have hset := undefined_setURL w w.http.location
                (h p hp code hcode (by rw [hredirect]; rfl))
              simp only []
              split
              · exact hset.trans hw
              · exact (undefined_returnCode _ code).trans (hset.trans hw)
        next => exact hw
      next => exact hw
  | network o ticks ending => exact hw

end Http

end ArduinoBeken
