import ArduinoBeken.Http.CookieSteps
import ArduinoBeken.Http.Opened

/-!
# Where Cookies Go

A cookie belongs to a domain, a path, and perhaps to `https` only. The jar compares its
domain with the host by a search for the one in the other, at the `Set-Cookie` line as
well as at a later request; it does not compare the path at all; whether a request goes
over `https` it asks of a field that some kinds of `begin` leave as it was, and where it
goes of another, while the request is written to whatever connection is open; and the
`Cookie` line of a request stays in the header block, where only another one replaces it.

Along a run that stays clear of the inputs on which these differ, each request carries
the cookies it may carry, and the jar takes those that the host may set
(`scoped_of_careful`).

## Main definitions

* `LiesUnder`, `PathCovers`, `Unexpired`: Domains, paths and ages.
* `CookiesInScope`, `KeepsScope`: What is promised of a request and its response.
* `CookieCareful`: The condition on a step.

## Theorems

* `defaultDomain_liesUnder`: A cookie without a domain gets one of its host.
* `cookies_in_scope`, `stored_in_scope`: A request, and its response.
* `scoped_of_careful`: The promise along a run.
-/

namespace ArduinoBeken

namespace Http

open Arrivals

/-! ### Domains, paths and ages -/

/-- The host is the domain, or lies under it. -/
def LiesUnder (host domain : Text) : Prop :=
  host = domain ∨ '.' :: domain <:+ host

instance (host domain : Text) : Decidable (LiesUnder host domain) :=
  inferInstanceAs (Decidable (_ ∨ _))

/-- The path of a request, without its query. -/
def pathOf (uri : Text) : Text :=
  uri.takeWhile fun c => c ≠ '?' && c ≠ '#'

/-- The path is that of the request, or one that it lies under. A cookie without a path
goes with every request. -/
def PathCovers (path uri : Text) : Prop :=
  path = [] ∨ pathOf uri = path ∨
    (path <+: pathOf uri ∧ (path.getLast? = some '/' ∨ (pathOf uri)[path.length]? = some '/'))

instance (path uri : Text) : Decidable (PathCovers path uri) :=
  inferInstanceAs (Decidable (_ ∨ _ ∨ (_ ∧ (_ ∨ _))))

/-- The cookie has not expired by its `Max-Age`, or by its `Expires` if it has none. -/
def Unexpired (now : Int) (c : Cookie) : Prop :=
  if c.max_age.valid then now ≤ c.date + c.max_age.duration
  else c.expires.valid = true → now ≤ c.expires.date

instance (now : Int) (c : Cookie) : Decidable (Unexpired now c) := by
  unfold Unexpired
  split
  · exact inferInstanceAs (Decidable (_ ≤ _))
  · exact inferInstanceAs (Decidable (_ → _))

theorem unexpired_iff (now : Int) (c : Cookie) : Unexpired now c ↔ expiredAt now c = false := by
  unfold Unexpired expiredAt
  cases c.max_age.valid with
  | true =>
      simp only [if_true, Bool.true_and, Bool.not_true, Bool.false_and, Bool.or_false,
        decide_eq_false_iff_not, Int.not_lt]
  | false =>
      simp only [Bool.false_eq_true, if_false, Bool.false_and, Bool.not_false, Bool.true_and,
        Bool.false_or, Bool.and_eq_false_iff, decide_eq_false_iff_not, Int.not_lt]
      cases c.expires.valid with
      | true => simp only [forall_const, Bool.true_eq_false, false_or]
      | false => simp only [Bool.false_eq_true, false_implies, true_or]

/-! ### The law -/

/-- The cookie may be written to a connection, in a request for the URI. -/
structure GoesWith (c : Cookie) (route : Route) (uri : Text) (now : Int) : Prop where
  unexpired : Unexpired now c
  domain : LiesUnder route.host c.domain
  path : PathCovers c.path uri
  secure : c.secure = true → route.secure = true

/-- Each `Cookie` line of a request names cookies of the jar that may go with it. -/
def CookiesInScope (jar : CookieJar) (w : World) (p : Pending) (now : Int) : Prop :=
  ∃ route, w.route = some route ∧
    ∀ line ∈ fieldsOf "Cookie".toList (headOf w.http p.type), ∃ cookies : List Cookie,
      cookies ≠ [] ∧ (∀ c ∈ cookies, c ∈ jar ∧ GoesWith c route w.http.uri now) ∧
        line ++ ['\n'] =
          headerLine "Cookie".toList (" ;".toList.intercalate (cookies.map pairText))

/-- A request keeps to the scope of the cookies, and its response stores cookies of the
host it was written to only. What the step does is defined. -/
def KeepsScope (lib : TimeLibrary) (w : World) (e : Event) : Prop :=
  (step lib w e).undefined = false ∧
    match e with
    | .send r =>
      (∀ s, sentBy w (.send r) = some s →
        CookiesInScope (w.http.cookieJar.getD []) s.1 s.2 r.moment.now) ∧
      ∀ c ∈ (step lib w (.send r)).http.cookieJar.getD [],
        c ∈ w.http.cookieJar.getD [] ∨
          ∃ s route, sentBy w (.send r) = some s ∧ s.1.route = some route ∧
            LiesUnder route.host c.domain
    | _ => True

/-! ### The condition -/

/-- The cookies that are found for a request are of its host and path, and a secure one
finds a secure client. -/
def FindsOwn (w : World) (now : Int) : Prop :=
  ∀ c ∈ w.http.cookieJar.getD [], expiredAt now c = false →
    sentTo w.http.host w.http.secure c = true →
    LiesUnder w.http.host c.domain ∧ PathCovers c.path w.http.uri ∧
      (c.secure = true → w.overTls = true)

/-- No `Cookie` line of an earlier request is left when that of the request is put in. -/
def Replaces (w : World) (p : Pending) (now : Int) : Prop :=
  fieldsOf "Cookie".toList (keptLines (lengthLine w.http.headers p.payload) "Cookie".toList
    (cookieText w.http now).isSome) = []

/-- A domain that a `Set-Cookie` line names and the host has in it is one of the host. -/
def NamesOwn (host : Text) (lines : List Text) : Prop :=
  ∀ line ∈ lines, ∀ v ∈ setCookieValue line,
    ∀ domain ∈ attributeValue (toLowerCase v) "domain=".toList,
      0 ≤ indexOf host (withoutLeadingDot domain) 0 → LiesUnder host (withoutLeadingDot domain)

/-- The condition on a step: its effect is defined, and a request finds no connection to
another host, no cookie of another scope and no old `Cookie` line, and in its response no
domain of another host. -/
def CookieCareful (w : World) (e : Event) : Prop :=
  Safe w e ∧
    match e with
    | .send r =>
      w.AtHost ∧ ∀ p ∈ w.pending, Unbroken w.http p.type ∧ FindsOwn w r.moment.now ∧
        Replaces w p r.moment.now ∧
        ∀ w' ∈ w.ready p r, NamesOwn w.http.host (responseLines w' r)
    | _ => True

instance (w : World) (now : Int) : Decidable (FindsOwn w now) :=
  inferInstanceAs (Decidable (∀ c ∈ _, _ → _ → _ ∧ _ ∧ (_ → _)))

instance (w : World) (p : Pending) (now : Int) : Decidable (Replaces w p now) :=
  inferInstanceAs (Decidable (_ = _))

instance (host : Text) (lines : List Text) : Decidable (NamesOwn host lines) :=
  inferInstanceAs (Decidable (∀ line ∈ _, ∀ v ∈ _, ∀ domain ∈ _, _ → _))

instance (w : World) (e : Event) : Decidable (CookieCareful w e) :=
  match e with
  | .send r => inferInstanceAs (Decidable (Safe w (.send r) ∧ _ ∧ ∀ p ∈ _, _ ∧ _ ∧ _ ∧ ∀ w' ∈ _, _))
  | .call c => inferInstanceAs (Decidable (Safe w (.call c) ∧ True))
  | .follow => inferInstanceAs (Decidable (Safe w .follow ∧ True))
  | .request type payload => inferInstanceAs (Decidable (Safe w (.request type payload) ∧ True))
  | .network o ticks ending => inferInstanceAs (Decidable (Safe w (.network o ticks ending) ∧ True))

/-- What holds before each step. -/
structure Scoped (w : World) : Prop where
  whole : Whole w.http.headers
  defined : w.undefined = false

/-! ### Domains -/

/-- What is found from the end is that character. -/
theorem lastIndexOf_split (s : Text) (c : Char) (fromIndex : Int)
    (h : 0 ≤ lastIndexOf s c fromIndex) :
    ∃ u v, s = u ++ c :: v ∧ lastIndexOf s c fromIndex = u.length := by
  unfold lastIndexOf at h ⊢
  by_cases hend : clip s fromIndex = s.length
  · rw [if_pos hend] at h
    exact absurd h (by decide)
  · rw [if_neg hend] at h ⊢
    have hle := clip_le s fromIndex
    -- The search runs over the reversed text.
    cases hfind : Search.find [c] (s.take (clip s fromIndex + 1)).reverse with
    | none =>
        simp only [hfind] at h
        exact absurd h (by decide)
    | some n =>
        rcases Search.find_split [c] _ n hfind with ⟨u, v, hsplit, hlen⟩
        -- Turned back, the split of the reversed text is one of the text.
        have hrev := congrArg List.reverse hsplit
        rw [List.reverse_reverse] at hrev
        simp only [List.reverse_append, List.reverse_cons, List.append_assoc,
          List.singleton_append] at hrev
        have hlength := congrArg List.length hsplit
        rw [List.length_reverse, List.length_take] at hlength
        simp only [List.length_append, List.length_cons, List.length_nil] at hlength
        refine ⟨v.reverse, u.reverse ++ s.drop (clip s fromIndex + 1), ?_, ?_⟩
        · rw [← List.cons_append, ← List.append_assoc, ← hrev, List.take_append_drop]
        · rw [List.length_reverse]
          simp only []
          omega

/-- A cookie without a domain gets one of its host. -/
theorem defaultDomain_liesUnder (host : Text) : LiesUnder host (defaultDomain host) := by
  unfold defaultDomain
  simp only []
  by_cases hdot : 0 ≤ lastIndexOf host '.' (lastIndexOf host '.' (host.length - 1) - 1)
  · rw [if_pos hdot]
    rcases lastIndexOf_split host '.' _ hdot with ⟨u, v, hhost, hlen⟩
    rw [hlen]
    right
    have hfrom : substringFrom host (u.length + 1) = v := by
      have hbehind := substring_from (u ++ ['.']) v
      rw [List.append_assoc, List.singleton_append, ← hhost, List.length_append] at hbehind
      exact hbehind
    rw [hfrom]
    exact ⟨u, hhost.symm⟩
  · rw [if_neg hdot]
    exact Or.inl rfl

/-- What a response stores for its host. -/
theorem stored_in_scope (lib : TimeLibrary) (host line : Text) (c : Cookie)
    (hnames : NamesOwn host [line]) (h : ReadFrom lib host line c) : LiesUnder host c.domain := by
  rcases h with ⟨call, rfl, hvalue, hread⟩
  -- A cookie that is read has a domain that was accepted.
  unfold readCookie at hread
  simp only [] at hread
  split at hread
  · cases haccept : acceptDomain call.host (toLowerCase call.headerValue) with
    | none =>
        rw [haccept] at hread
        exact absurd hread (fun hno => nomatch hno)
    | some domain =>
        rw [haccept] at hread
        rw [← Option.some.inj hread]
        unfold acceptDomain at haccept
        cases hattr : attributeValue (toLowerCase call.headerValue) "domain=".toList with
        | none =>
            rw [hattr] at haccept
            -- Without an attribute the domain is that of the host.
            rw [← Option.some.inj haccept]
            exact defaultDomain_liesUnder call.host
        | some value =>
            rw [hattr] at haccept
            simp only [] at haccept
            split at haccept
            next hfound =>
              rw [← Option.some.inj haccept]
              -- The attribute was accepted, and the condition speaks of such attributes.
              exact hnames line (List.mem_singleton.2 rfl) _ hvalue value hattr hfound
            next => exact absurd haccept (fun hno => nomatch hno)
  · exact absurd hread (fun hno => nomatch hno)

/-! ### A request -/

/-- The cookies of a request are found in the jar. -/
theorem cookieText_eq (w : World) (now : Int) (text : Text)
    (h : cookieText w.http now = some text) :
    ∃ cookies : List Cookie, cookies ≠ [] ∧
      (∀ c ∈ cookies, c ∈ w.http.cookieJar.getD [] ∧ expiredAt now c = false ∧
        sentTo w.http.host w.http.secure c = true) ∧
      text = " ;".toList.intercalate (cookies.map pairText) := by
  rcases Option.bind_eq_some_iff.1 h with ⟨jar, hjar, htext⟩
  simp only [generateCookieString] at htext
  split at htext
  next => exact absurd htext (fun hno => by cases hno)
  next hne =>
    refine ⟨_, hne, ?_, (Option.some.inj htext).symm⟩
    intro c hc
    rcases List.mem_filter.1 hc with ⟨hmem, hfound⟩
    rw [Bool.and_eq_true, Bool.not_eq_true'] at hfound
    rw [hjar]
    exact ⟨hmem, hfound.1, hfound.2⟩

/-- A request carries the cookies that it may carry. -/
theorem cookies_in_scope (w w' : World) (p : Pending) (r : Reply) (hw : Scoped w)
    (hat : w.AtHost) (hunbroken : Unbroken w.http p.type) (hfinds : FindsOwn w r.moment.now)
    (hreplaces : Replaces w p r.moment.now) (h : w.ready p r = some w') :
    CookiesInScope (w.http.cookieJar.getD []) w' p r.moment.now := by
  rcases World.ready_frame w w' p r h with ⟨client, dep, current, hhttp, -⟩
  rcases World.host_ready w w' p r hat h with ⟨route, hroute, htls, hhost⟩
  have huri : w'.http.uri = w.http.uri := by rw [hhttp]; rfl
  have hfields := fieldsOf_sent "Cookie".toList (by decide) (by decide) w w' p r hw.whole
    hunbroken h
  refine ⟨route, hroute, ?_⟩
  intro line hline
  rw [hfields] at hline
  unfold Replaces at hreplaces
  unfold preparedHeaders at hline
  have hwhole := whole_lengthLine w.http.headers p.payload hw.whole
  -- The request has a Cookie field if there are cookies to send.
  cases htext : cookieText w.http r.moment.now with
  | none =>
      rw [htext] at hline hreplaces
      have hnone : fieldsOf "Cookie".toList (lengthLine w.http.headers p.payload) = [] := hreplaces
      simp only [hnone] at hline
      exact absurd hline List.not_mem_nil
  | some text =>
      rw [htext] at hline hreplaces
      have hkept : fieldsOf "Cookie".toList
          (keptLines (lengthLine w.http.headers p.payload) "Cookie".toList true) = [] := hreplaces
      have htextline := lf_not_mem_cookieText w.http r.moment.now hunbroken.cookies text htext
      simp only [] at hline
      rw [fieldsOf_withLine _ _ _ _ false true hwhole, if_neg Bool.false_ne_true, hkept,
        List.nil_append, fieldsOf_headerLine _ _ _ (by decide) htextline] at hline
      rcases cookieText_eq w r.moment.now text htext with ⟨cookies, hne, hall, heq⟩
      -- Each cookie of the line is one of the jar that the condition speaks of.
      refine ⟨cookies, hne, ?_, ?_⟩
      · intro c hc
        rcases hall c hc with ⟨hmem, hage, hsent⟩
        have hown := hfinds c hmem hage hsent
        exact ⟨hmem, (unexpired_iff _ c).2 hage, hhost ▸ hown.1, huri ▸ hown.2.1,
          fun hsecure => htls.trans (hown.2.2 hsecure)⟩
      · have hone : line = "Cookie".toList ++ ": ".toList ++ text ++ ['\r'] := by
          split at hline
          · exact List.mem_singleton.1 hline
          · exact absurd hline List.not_mem_nil
        rw [hone, ← heq, headerLine, List.append_assoc _ ['\r']]
        rfl

/-! ### Runs -/

theorem scoped_step (lib : TimeLibrary) (w : World) (e : Event) (hw : Scoped w)
    (hcareful : CookieCareful w e) : Scoped (step lib w e) :=
  ⟨whole_step lib w e hw.whole, defined_of_safe lib w e hw.defined hcareful.1⟩

/-- The response to a careful request stores cookies of the host it was written to. -/
theorem stored_of_careful (lib : TimeLibrary) (w : World) (r : Reply) (hw : Scoped w)
    (hcareful : CookieCareful w (.send r)) (c : Cookie)
    (hc : c ∈ (step lib w (.send r)).http.cookieJar.getD []) :
    c ∈ w.http.cookieJar.getD [] ∨
      ∃ s route, sentBy w (.send r) = some s ∧ s.1.route = some route ∧
        LiesUnder route.host c.domain := by
  rw [step_defined lib w (.send r) hw.defined] at hc
  cases hp : w.pending with
  | none =>
      simp only [World.react, hp] at hc
      exact Or.inl hc
  | some p =>
      simp only [World.react, hp] at hc
      split at hc
      next hanswer =>
        -- A cookie of the jar is an old one, or read from a line of this response.
        rcases mem_send lib w p r c hc with hold | ⟨w', hready, line, hline, hread⟩
        · exact Or.inl hold
        · have hnames := (hcareful.2.2 p hp).2.2.2 w' hready
          rcases World.host_ready w w' p r hcareful.2.1 hready with ⟨route, hroute, -, hhost⟩
          have hsent : sentBy w (.send r) = some (w', p) := by
            rw [sentBy, if_neg (by rw [hw.defined]; exact Bool.false_ne_true)]
            simp only [World.sends, hp, if_pos hanswer, hready, Option.map_some]
          refine Or.inr ⟨_, route, hsent, hroute, ?_⟩
          rw [hhost]
          refine stored_in_scope lib w.http.host line c ?_ hread
          intro l hl
          rw [List.mem_singleton.1 hl]
          exact hnames line hline
      next => exact Or.inl hc

/-- A careful request keeps to the scope of the cookies, and so does its response. -/
theorem keepsScope_of_careful (lib : TimeLibrary) (w : World) (e : Event) (hw : Scoped w)
    (hcareful : CookieCareful w e) : KeepsScope lib w e := by
  refine ⟨defined_of_safe lib w e hw.defined hcareful.1, ?_⟩
  cases e with
  | send r =>
      refine ⟨?_, stored_of_careful lib w r hw hcareful⟩
      -- The request carries cookies of the jar only, each in its scope.
      intro s hs
      rcases sentBy_cases w (.send r) s hs with ⟨p, r', w', hr, -, hp, -, hready, rfl⟩
      have hr' : r = r' := Event.send.inj hr
      subst hr'
      rcases hcareful.2.2 p hp with ⟨hunbroken, hfinds, hreplaces, -⟩
      exact cookies_in_scope w w' p r hw hcareful.2.1 hunbroken hfinds hreplaces hready
  | _ => exact True.intro

/-- Along a run of careful steps each request carries the cookies that it may carry, and
its response stores cookies that its host may set. -/
theorem scoped_of_careful (lib : TimeLibrary) (objects : Nat → NetObject) (fresh : Nat)
    (es : List Event)
    (hcareful : EventRun.Always (step lib) CookieCareful { objects, fresh } es) :
    EventRun.Always (step lib) (KeepsScope lib) { objects, fresh } es := by
  have hstart : Scoped { objects, fresh } := ⟨Or.inl rfl, rfl⟩
  exact EventRun.always_of_inv (keepsScope_of_careful lib) (scoped_step lib) hstart hcareful

/-- A cookie of a shop, and the next request to it. -/
def shopVisits : List Event :=
  [.call (.setCookieJar (some [])), .call (.beginUrl "http://shop.com/".toList),
    .request "GET".toList [],
    .send (.prompt "HTTP/1.1 200 OK\r\nSet-Cookie: id=1; Path=/cart; Domain=shop.com\r\n\r\n"),
    .follow, .call .finish, .call (.beginUrl "http://shop.com/cart/new".toList),
    .request "GET".toList [], .send (.prompt "HTTP/1.1 204 No Content\r\n\r\n"), .follow]

theorem scoped_of_careful_shop :
    EventRun.Always (step plainTime) (KeepsScope plainTime) {} shopVisits :=
  scoped_of_careful plainTime (fun _ => {}) 0 shopVisits (by decide +kernel)

/-- A cookie of a shop, and a host that has its name in it. -/
def otherHost : List Event :=
  [.call (.setCookieJar (some [])), .call (.beginUrl "http://shop.com/".toList),
    .request "GET".toList [],
    .send (.prompt "HTTP/1.1 200 OK\r\nSet-Cookie: id=1; Path=/\r\n\r\n"), .follow,
    .call .finish, .call (.beginUrl "http://shop.com.evil/".toList), .request "GET".toList []]

/-- The cookie goes to the other host. -/
theorem cookie_sent_elsewhere :
    ¬ ∀ es, EventRun.Always (step plainTime) (KeepsScope plainTime) {} es := by
  intro hall
  have hlaw := ((EventRun.always_append _ _ _ _ _).1
    (hall (otherHost ++ [.send (.prompt "")]))).2.1
  have hseen : (sentBy (EventRun.run (step plainTime) {} otherHost) (.send (.prompt ""))).map
      (fun s => (s.1.route.map Route.host, fieldsOf "Cookie".toList (headOf s.1.http s.2.type))) =
        some (some "shop.com.evil".toList, ["Cookie: id=1\r".toList]) := by
    decide +kernel
  have hjar : ∀ c ∈ (EventRun.run (step plainTime) {} otherHost).http.cookieJar.getD [],
      ¬LiesUnder "shop.com.evil".toList c.domain := by
    decide +kernel
  rcases Option.map_eq_some_iff.1 hseen with ⟨s, hs, hwritten⟩
  rcases Prod.mk.inj hwritten with ⟨hhost, hfields⟩
  rcases hlaw.2.1 s hs with ⟨route, hroute, hlines⟩
  rw [hroute, Option.map_some, Option.some.injEq] at hhost
  rcases hlines _ (hfields ▸ List.mem_singleton.2 rfl) with ⟨cookies, hne, hall, -⟩
  rcases List.exists_mem_of_ne_nil cookies hne with ⟨c, hc⟩
  exact hjar c (hall c hc).1 (hhost ▸ (hall c hc).2.domain)

end Http

end ArduinoBeken
