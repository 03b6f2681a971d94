import ArduinoBeken.Http.CookieLaw
import ArduinoBeken.Http.HeaderSteps

/-!
# Lengths and Headers of Requests

A request with a payload gets its length as a line of the header block, where the code
replaces a line of that name first. The line stays in the block behind the request, so the
next one has it too, with a payload or without: only a new `begin`, `end` or a redirect
empties the block. The last of these also takes the headers of the user.

Along a run in which no length is left over when a request is sent, and no header of the
user when a path is followed with the same method, each request says how long its payload
is and has the headers of the one it repeats (`framed_of_careful`).

## Main definitions

* `OwnLine`: A line of the block that the code replaces.
* `Framed`, `KeepsFraming`: What is promised of a request.
* `FramingCareful`: The condition on a step.

## Theorems

* `mem_linesOf_withLine`, `fieldsOf_dropLine_other`: What is left beside a new line.
* `length_framed`, `resent_framed`: The two parts of the promise, for one request.
* `repeating_step`: What a step keeps for the request that repeats another.
* `framed_of_careful`: The promise along a run.
-/

namespace ArduinoBeken

namespace Http

open Arrivals

/-! ### The law -/

/-- The fields that tell the length of a payload. -/
def lengthFields (payload : Text) : List Text :=
  if payload = [] then []
  else ["Content-Length".toList ++ ": ".toList ++ World.decimal payload.length ++ ['\r']]

/-- A line that the code puts into the block: a length, or cookies if there is a jar. -/
def OwnLine (jar : Bool) (line : Text) : Prop :=
  "Content-Length: ".toList <+: line ∨ (jar = true ∧ "Cookie: ".toList <+: line)

instance (jar : Bool) (line : Text) : Decidable (OwnLine jar line) :=
  inferInstanceAs (Decidable (_ ∨ (_ ∧ _)))

/-- The head of a request tells the length of its payload, if it has one, and has the
lines of the block of the request that it repeats, but for the code's own. -/
structure Framed (w : World) (p : Pending) : Prop where
  length : fieldsOf "Content-Length".toList (headOf w.http p.type) = lengthFields p.payload
  resent : ∀ old ∈ p.repeated, ∀ line ∈ linesOf old, ¬OwnLine w.http.cookieJar.isSome line →
    line ∈ linesOf (headOf w.http p.type)

/-- Each request that is sent is framed, and what the step does is defined. -/
def KeepsFraming (lib : TimeLibrary) (w : World) (e : Event) : Prop :=
  (step lib w e).undefined = false ∧ ∀ s, sentBy w e = some s → Framed s.1 s.2

/-! ### The condition -/

/-- No length is left in the block when the code has taken out what it replaces, which
it does for a payload only. -/
def LengthReplaced (w : World) (p : Pending) : Prop :=
  fieldsOf "Content-Length".toList
    (keptLines w.http.headers "Content-Length".toList (decide (p.payload ≠ []))) = []

instance (w : World) (p : Pending) : Decidable (LengthReplaced w p) :=
  inferInstanceAs (Decidable (_ = _))

/-- The effect of a step is defined. A request finds no length of another one, and a
redirect that keeps the method no header of the user. -/
def FramingCareful (w : World) (e : Event) : Prop :=
  Safe w e ∧
    match e with
    | .send r => ∀ s ∈ sentBy w (.send r), Unbroken w.http s.2.type ∧ LengthReplaced w s.2
    | .follow =>
      isPath w.http.location = true →
        ∀ p ∈ w.pending, ∀ code ∈ p.answer, ∀ p' ∈ w.redirect p code, p'.type = p.type →
          ∀ line ∈ linesOf w.http.headers, line = [] ∨ OwnLine w.http.cookieJar.isSome line
    | _ => True

instance (w : World) (e : Event) : Decidable (FramingCareful w e) :=
  match e with
  | .send r => inferInstanceAs (Decidable (Safe w (.send r) ∧ ∀ s ∈ _, _ ∧ _))
  | .follow =>
    inferInstanceAs (Decidable
      (Safe w .follow ∧ (_ → ∀ p ∈ _, ∀ code ∈ _, ∀ p' ∈ _, _ → ∀ line ∈ _, _ ∨ _)))
  | .call c => inferInstanceAs (Decidable (Safe w (.call c) ∧ True))
  | .request type payload => inferInstanceAs (Decidable (Safe w (.request type payload) ∧ True))
  | .network o ticks ending => inferInstanceAs (Decidable (Safe w (.network o ticks ending) ∧ True))

/-- What holds before each step. A request that is still to be sent finds the lines of
the one it repeats. -/
structure Repeating (w : World) : Prop where
  defined : w.undefined = false
  whole : Whole w.http.headers
  kept : ∀ p ∈ w.pending, p.answer = none → ∀ old ∈ p.repeated, ∀ line ∈ linesOf old,
    ¬OwnLine w.http.cookieJar.isSome line → line ∈ linesOf w.http.headers

/-! ### Lines -/

theorem nil_mem_linesOf (text : Text) (h : Whole text) : [] ∈ linesOf text := by
  rcases h with rfl | ⟨s, rfl⟩
  · exact List.mem_singleton.2 rfl
  · rw [linesOf_append_line]
    exact List.mem_append_right _ (List.mem_singleton.2 rfl)

/-- The lines of two texts of whole lines are those of the one and the other. -/
theorem mem_linesOf_append (line a b : Text) (ha : Whole a) (hb : Whole b) :
    line ∈ linesOf (a ++ b) ↔ line ∈ linesOf a ∨ line ∈ linesOf b := by
  have hempty : ∀ l : Text, l ∈ linesOf [] ↔ l = [] := fun l => List.mem_singleton
  have hnil := nil_mem_linesOf b hb
  rcases ha with rfl | ⟨s, rfl⟩
  · rw [List.nil_append, hempty]
    refine ⟨Or.inr, fun h => h.elim ?_ id⟩
    rintro rfl
    exact hnil
  · rw [List.append_assoc, List.singleton_append, linesOf_append_line, linesOf_append_line,
      List.mem_append, List.mem_append, hempty, or_assoc]
    refine or_congr_right ⟨Or.inr, fun h => h.elim ?_ id⟩
    rintro rfl
    exact hnil

/-- A line that begins otherwise is not taken off. -/
theorem mem_linesOf_dropLine (line headers start : Text) (h : Whole headers) (hne : start ≠ [])
    (hstart : '\n' ∉ start) (hother : ¬start <+: line) (hmem : line ∈ linesOf headers) :
    line ∈ linesOf (HTTPClient.dropLine headers start) := by
  rcases HTTPClient.dropLine_cases headers start h hne with
    heq | ⟨before, taken, after, hsplit, hbefore, hafter, hlf, hbegins, heq⟩
  · rwa [heq]
  · have hrest : Whole (taken ++ '\n' :: after) := by
      rw [List.append_cons]
      exact (whole_ended taken).append hafter
    rw [hsplit, mem_linesOf_append _ _ _ hbefore hrest, linesOf_append_line,
      linesOf_line taken hlf, List.mem_append, List.mem_singleton] at hmem
    rw [heq, mem_linesOf_append _ _ _ hbefore hafter]
    rcases hmem with hmem | rfl | hmem
    · exact Or.inl hmem
    · exact absurd (hbegins hstart) hother
    · exact Or.inr hmem

/-- Fields that begin otherwise are not taken off. -/
theorem fieldsOf_dropLine_other (field headers start : Text) (h : Whole headers)
    (hne : start ≠ []) (hstart : '\n' ∉ start)
    (hother : ∀ line, start <+: line → isField field line = false) :
    fieldsOf field (HTTPClient.dropLine headers start) = fieldsOf field headers := by
  rcases HTTPClient.dropLine_cases headers start h hne with
    heq | ⟨before, taken, after, hsplit, hbefore, -, hlf, hbegins, heq⟩
  · rw [heq]
  · have htaken : fieldsOf field taken = [] := by
      rw [fieldsOf_line field taken hlf, hother taken (hbegins hstart)]
      rfl
    rw [heq, hsplit, fieldsOf_append _ _ _ hbefore, fieldsOf_append _ _ _ hbefore,
      fieldsOf_append_line, htaken, List.nil_append]

theorem mem_linesOf_withLine (line headers name value : Text) (h : Whole headers)
    (hname : '\n' ∉ name) (hother : ¬name ++ ": ".toList <+: line)
    (hmem : line ∈ linesOf headers) :
    line ∈ linesOf (HTTPClient.withLine headers name value false true) := by
  have hstart : '\n' ∉ name ++ ": ".toList := by
    rw [List.mem_append, not_or]
    exact ⟨hname, by decide⟩
  have hdropped := mem_linesOf_dropLine line headers _ h (start_ne_nil name) hstart hother hmem
  have hkept : Whole (keptLines headers name true) := whole_keptLines headers name true h
  rw [withLine_eq, if_neg Bool.false_ne_true,
    mem_linesOf_append _ _ _ hkept (whole_headerLine name value)]
  exact Or.inl hdropped

/-- The lines of the block are lines of the head. -/
theorem mem_linesOf_headOf (line : Text) (c : HTTPClient) (type : Text) (h : Whole c.headers)
    (hmem : line ∈ linesOf c.headers) : line ∈ linesOf (headOf c type) := by
  let own : Text := type ++ ' ' :: c.uri ++ " HTTP/1.".toList ++
    (if c.useHTTP10 then ['0'] else ['1']) ++ "\r\nHost: ".toList ++ c.host ++
    (if c.port ≠ 80 ∧ c.port ≠ 443 then ':' :: World.decimal c.port else []) ++
    "\r\nUser-Agent: ".toList ++ c.userAgent ++ "\r\nConnection: ".toList ++
    (if c.reuse then "keep-alive".toList else "close".toList) ++ ['\r']
  let accept : Text := if c.useHTTP10 then []
    else "Accept-Encoding: identity;q=1,chunked;q=0.1,*;q=0\r\n".toList
  have haccept : Whole accept := by
    -- the optional line is a line or nothing
    simp only [accept]
    split
    · exact Or.inl rfl
    · exact Or.inr ⟨"Accept-Encoding: identity;q=1,chunked;q=0.1,*;q=0\r".toList, rfl⟩
  -- whatever stands before the headers ends with a line end
  have hfirst : Whole ((own ++ ['\n']) ++ accept ++ authorizationField c) :=
    ((whole_ended own).append haccept).append (whole_authorizationField c)
  have hend : Whole "\r\n".toList := Or.inr ⟨['\r'], rfl⟩
  have hsplit : headOf c type =
      ((own ++ ['\n']) ++ accept ++ authorizationField c) ++ (c.headers ++ "\r\n".toList) := by
    simp only [headOf, own, accept, List.append_assoc, List.cons_append, List.nil_append]
    rfl
  rw [hsplit, mem_linesOf_append _ _ _ hfirst (h.append hend), mem_linesOf_append _ _ _ h hend]
  exact Or.inr (Or.inl hmem)

/-! ### A request -/

/-- The length is told if there is a payload, when no other is left in the block. -/
theorem fieldsOf_lengthLine (w : World) (p : Pending) (h : Whole w.http.headers)
    (hreplaced : LengthReplaced w p) :
    fieldsOf "Content-Length".toList (lengthLine w.http.headers p.payload) =
      lengthFields p.payload := by
  unfold LengthReplaced at hreplaced
  unfold lengthLine lengthFields
  by_cases hp : p.payload = []
  · rw [if_pos hp, if_pos hp]
    rw [decide_eq_false (fun hno => hno hp)] at hreplaced
    exact hreplaced
  · rw [decide_eq_true hp] at hreplaced
    have hown : isField "Content-Length".toList ("Content-Length".toList ++ ": ".toList ++
        World.decimal p.payload.length ++ ['\r']) = true :=
      isField_of_name "Content-Length".toList "Content-Length".toList
        (' ' :: World.decimal p.payload.length ++ ['\r']) (by decide)
    rw [if_neg hp, if_neg hp, fieldsOf_withLine _ _ _ _ false true h, if_neg Bool.false_ne_true,
      hreplaced, List.nil_append,
      fieldsOf_headerLine _ _ _ (by decide) (lf_not_mem_decimal p.payload.length), if_pos hown]

/-- The `Cookie` line is no length, and does not replace one. -/
theorem length_framed (w w' : World) (p : Pending) (r : Reply) (h : Whole w.http.headers)
    (hunbroken : Unbroken w.http p.type) (hreplaced : LengthReplaced w p)
    (hready : w.ready p r = some w') :
    fieldsOf "Content-Length".toList (headOf w'.http p.type) = lengthFields p.payload := by
  have hfields := fieldsOf_sent "Content-Length".toList (by decide) (by decide) w w' p r h
    hunbroken hready
  have hlength := fieldsOf_lengthLine w p h hreplaced
  have hwhole := whole_lengthLine w.http.headers p.payload h
  rw [hfields]
  unfold preparedHeaders
  cases htext : cookieText w.http r.moment.now with
  | none => exact hlength
  | some text =>
      -- The cookies are added last, and touch no line but their own.
      have hlf := lf_not_mem_cookieText w.http r.moment.now hunbroken.cookies text htext
      have hcookie : fieldsOf "Content-Length".toList (headerLine "Cookie".toList text) = [] := by
        rw [fieldsOf_headerLine _ _ _ (by decide) hlf,
          not_isField_of_name _ "Cookie".toList text (by decide) (by decide)]
        rfl
      have hbegins : ∀ line, "Cookie".toList ++ ": ".toList <+: line →
          isField "Content-Length".toList line = false := by
        rintro line ⟨rest, rfl⟩
        exact isField_of_name _ "Cookie".toList (' ' :: rest) (by decide)
      have hkept : fieldsOf "Content-Length".toList
          (keptLines (lengthLine w.http.headers p.payload) "Cookie".toList true) =
            fieldsOf "Content-Length".toList (lengthLine w.http.headers p.payload) :=
        fieldsOf_dropLine_other _ _ _ hwhole (by decide) (by decide) hbegins
      simp only []
      rw [fieldsOf_withLine _ _ _ _ false true hwhole, if_neg Bool.false_ne_true, hcookie,
        List.append_nil, hkept, hlength]

/-- What is in the block goes with the request, but for what the code replaces. -/
theorem resent_framed (w w' : World) (p : Pending) (r : Reply) (h : Whole w.http.headers)
    (hready : w.ready p r = some w') (line : Text) (hmem : line ∈ linesOf w.http.headers)
    (hown : ¬OwnLine w'.http.cookieJar.isSome line) : line ∈ linesOf (headOf w'.http p.type) := by
  rcases World.ready_frame w w' p r hready with ⟨client, dep, current, hhttp, -, -⟩
  have hheaders : w'.http.headers = preparedHeaders w.http p.payload r.moment.now := by rw [hhttp]
  have hjar : w'.http.cookieJar.isSome = w.http.cookieJar.isSome := by
    rw [hhttp]
    exact Option.isSome_map
  rw [OwnLine, hjar, not_or, not_and] at hown
  -- Neither of the two lines that the code adds is in its place, so both keep it.
  have hfirst : line ∈ linesOf (lengthLine w.http.headers p.payload) := by
    unfold lengthLine
    split
    · exact hmem
    · exact mem_linesOf_withLine line _ _ _ h (by decide) hown.1 hmem
  have hwhole := whole_preparedHeaders w.http p.payload r.moment.now h
  refine mem_linesOf_headOf line w'.http p.type (hheaders ▸ hwhole) ?_
  rw [hheaders]
  unfold preparedHeaders
  cases htext : cookieText w.http r.moment.now with
  | none => exact hfirst
  | some text =>
      have hsome : w.http.cookieJar.isSome = true := by
        rcases Option.bind_eq_some_iff.1 htext with ⟨jar, hjar, -⟩
        rw [hjar]
        rfl
      exact mem_linesOf_withLine line _ _ _ (whole_lengthLine _ _ h) (by decide) (hown.2 hsome)
        hfirst

/-! ### The request under way -/

/-- A request that was sent has its answer, or the call has returned. -/
theorem answered_send (lib : TimeLibrary) (w : World) (p : Pending) (r : Reply) (p' : Pending)
    (h : (w.send lib p r).pending = some p') : p'.answer ≠ none := by
  rcases World.send_cases lib w p r with ⟨-, code, hsend | hsend⟩ |
    ⟨w', -, -, -, ⟨code, hsend⟩ | ⟨code, hsend⟩⟩
  · rw [hsend] at h
    exact absurd h (fun hno => nomatch hno)
  · rw [hsend] at h
    exact absurd h (fun hno => nomatch hno)
  · rw [hsend] at h
    exact absurd h (fun hno => nomatch hno)
  · rw [hsend] at h
    rw [← Option.some.inj h]
    exact Option.some_ne_none _

/-- A redirect that repeats a request has its method, and the block to repeat. -/
theorem repeated_redirect (w : World) (p p' : Pending) (code : Int)
    (h : w.redirect p code = some p') (old : Text) (hold : p'.repeated = some old) :
    p'.type = p.type ∧ old = w.http.headers := by
  unfold World.redirect at h
  split at h
  · split at h
    · split at h
      · rw [← Option.some.inj h] at hold ⊢
        exact ⟨rfl, (Option.some.inj hold).symm⟩
      · exact absurd h (fun hno => nomatch hno)
    · split at h
      · rw [← Option.some.inj h] at hold ⊢
        simp only [] at hold
        split at hold
        next hget => exact ⟨hget.symm, (Option.some.inj hold).symm⟩
        next => exact absurd hold (fun hno => nomatch hno)
      · exact absurd h (fun hno => nomatch hno)
  · exact absurd h (fun hno => nomatch hno)

/-! ### Runs -/

/-- A redirect that is followed empties the block, in which nothing of the user was. -/
theorem repeating_follow (w : World) (p : Pending) (code : Int)
    (hcareful : isPath w.http.location = true → ∀ p' ∈ w.redirect p code, p'.type = p.type →
      ∀ line ∈ linesOf w.http.headers, line = [] ∨ OwnLine w.http.cookieJar.isSome line) :
    ∀ p' ∈ (w.follow p code).pending, ∀ old ∈ p'.repeated, ∀ line ∈ linesOf old,
      ¬OwnLine (w.follow p code).http.cookieJar.isSome line →
        line ∈ linesOf (w.follow p code).http.headers := by
  unfold World.follow
  cases hredirect : w.redirect p code with
  | none => exact fun p' hp' => absurd hp' (fun hno => nomatch hno)
  | some next =>
      rcases w.setURL_cases w.http.location with ⟨hpath, hset⟩ | ⟨-, -, hset⟩ | ⟨-, hset, -⟩
      · simp only [hset, if_true]
        intro p' hp' old hold line hline hown
        have hnext : next = p' := Option.some.inj hp'
        subst hnext
        rcases repeated_redirect w p next code hredirect old hold with ⟨htype, rfl⟩
        have hnone := (hcareful hpath next hredirect htype line hline).resolve_right hown
        rw [hnone]
        exact List.mem_singleton.2 rfl
      · simp only [hset, Bool.false_eq_true, if_false]
        exact fun p' hp' => absurd hp' (fun hno => nomatch hno)
      · simp only [hset, Bool.false_eq_true, if_false]
        exact fun p' hp' => absurd hp' (fun hno => nomatch hno)

/-- What a careful step keeps for the request that is still to be sent. -/
theorem repeating_step (lib : TimeLibrary) (w : World) (e : Event) (hw : Repeating w)
    (hcareful : FramingCareful w e) : Repeating (step lib w e) := by
  -- defined and whole as before; what is left is the request that waits
  refine ⟨defined_of_safe lib w e hw.defined hcareful.1, whole_step lib w e hw.whole, ?_⟩
  rw [step_defined lib w e hw.defined]
  cases e with
  | call c =>
      cases hp : w.pending with
      | none =>
          simp only [World.react, hp, pending_perform]
          exact fun p hno => absurd hno (fun hno => by cases hno)
      | some p =>
          simp only [World.react, hp]
          exact hp ▸ hw.kept
  | request type payload =>
      cases hp : w.pending with
      | none =>
          simp only [World.react, hp]
          intro p hnew _ old hold
          rw [← Option.some.inj hnew] at hold
          exact absurd hold (fun hno => by cases hno)
      | some p =>
          simp only [World.react, hp]
          exact hp ▸ hw.kept
  | send r =>
      cases hp : w.pending with
      | none =>
          simp only [World.react, hp]
          exact hp ▸ hw.kept
      | some p =>
          simp only [World.react, hp]
          split
          · -- Behind `send` there is an answer, and the law is about requests to be sent.
            exact fun p' hp' hanswer => absurd hanswer (answered_send lib w p r p' hp')
          · exact hp ▸ hw.kept
  | follow =>
      cases hp : w.pending with
      | none =>
          simp only [World.react, hp]
          exact hp ▸ hw.kept
      | some p =>
          simp only [World.react, hp]
          -- a redirect keeps the request, or changes it to one without a body
          split
          next code hcode =>
            have hkept := repeating_follow w p code fun hpath p' hp' htype =>
              hcareful.2 hpath p hp code hcode p' hp' htype
            exact fun p' hp' _ => hkept p' hp'
          next => exact hp ▸ hw.kept
  | network o ticks ending => exact hw.kept

/-- A careful request is framed. -/
theorem keepsFraming_of_careful (lib : TimeLibrary) (w : World) (e : Event) (hw : Repeating w)
    (hcareful : FramingCareful w e) : KeepsFraming lib w e := by
  refine ⟨defined_of_safe lib w e hw.defined hcareful.1, ?_⟩
  intro s hs
  rcases sentBy_cases w e s hs with ⟨p, r, w', rfl, -, hp, hunanswered, hready, rfl⟩
  rcases hcareful.2 _ hs with ⟨hunbroken, hreplaced⟩
  rcases World.ready_frame w w' p r hready with ⟨client, dep, current, hhttp, -, -⟩
  have hjar : w'.http.cookieJar.isSome = w.http.cookieJar.isSome := by
    rw [hhttp]
    exact Option.isSome_map
  refine ⟨length_framed w w' p r hw.whole hunbroken hreplaced hready, ?_⟩
  intro old hold line hline hown
  have hthere := hw.kept p hp hunanswered old hold line hline (hjar ▸ hown)
  exact resent_framed w w' p r hw.whole hready line hthere hown

/-- Along a run of careful steps each request tells the length of its payload, and one
that repeats another has its headers. -/
theorem framed_of_careful (lib : TimeLibrary) (objects : Nat → NetObject) (fresh : Nat)
    (es : List Event)
    (hcareful : EventRun.Always (step lib) FramingCareful { objects, fresh } es) :
    EventRun.Always (step lib) (KeepsFraming lib) { objects, fresh } es := by
  have hstart : Repeating { objects, fresh } :=
    ⟨rfl, Or.inl rfl, fun p hno => absurd hno (fun hno => nomatch hno)⟩
  exact EventRun.always_of_inv (keepsFraming_of_careful lib) (repeating_step lib) hstart hcareful

/-- A request with a payload, which is sent again to another path, and one with a header of
the user behind an `end`. -/
def movedUpload : List Event :=
  [.call (.setFollowRedirects .force), .call (.beginUrl "http://a/".toList),
    .request "POST".toList "a=1".toList,
    .send (.prompt "HTTP/1.1 307 Temporary Redirect\r\nLocation: /b\r\n\r\n"), .follow,
    .send (.prompt "HTTP/1.1 204 No Content\r\n\r\n"), .follow, .call .finish,
    .call (.beginUrl "http://a/".toList),
    .call (.addHeader "X-Token".toList "t".toList false true), .request "GET".toList [],
    .send (.prompt "HTTP/1.1 204 No Content\r\n\r\n"), .follow]

theorem framed_of_careful_moved :
    EventRun.Always (step plainTime) (KeepsFraming plainTime) {} movedUpload :=
  framed_of_careful plainTime (fun _ => {}) 0 movedUpload (by decide +kernel)

/-- A request with a payload, and one without on the same client. -/
def uploadAndFetch : List Event :=
  [.call (.beginUrl "http://a/".toList), .request "POST".toList "a=1".toList,
    .send (.prompt "HTTP/1.1 204 No Content\r\n\r\n"), .follow, .request "GET".toList []]

/-- The `GET` tells the length of the payload before it. -/
theorem length_left_over :
    ¬ ∀ es, EventRun.Always (step plainTime) (KeepsFraming plainTime) {} es := by
  intro hall
  have hlaw := ((EventRun.always_append _ _ _ _ _).1
    (hall (uploadAndFetch ++ [.send (.prompt "")]))).2.1
  have hseen : (sentBy (EventRun.run (step plainTime) {} uploadAndFetch) (.send (.prompt ""))).map
      (fun s => (s.2.type, s.2.payload, fieldsOf "Content-Length".toList
        (headOf s.1.http s.2.type))) =
        some ("GET".toList, [], ["Content-Length: 3\r".toList]) := by
    decide +kernel
  rcases Option.map_eq_some_iff.1 hseen with ⟨s, hs, hwritten⟩
  rcases Prod.mk.inj hwritten with ⟨-, hrest⟩
  rcases Prod.mk.inj hrest with ⟨hpayload, hfields⟩
  have hlength := (hlaw.2 s hs).length
  rw [hfields, hpayload] at hlength
  exact absurd hlength (by decide)

end Http

end ArduinoBeken
