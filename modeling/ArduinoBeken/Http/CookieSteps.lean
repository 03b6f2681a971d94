import ArduinoBeken.Http.CookieLaw
import ArduinoBeken.Http.HeaderSteps

/-!
# The Jar along a Run

What a request does to the jar of the client: it drops what has expired, and its
response puts in the cookies of its `Set-Cookie` lines. Nothing is stored but the cookie
of such a line, for the host of the request.

## Main definitions

* `headLines`, `responseLines`: The lines that the head of a response is read in.
* `setCookieValue`: What a `Set-Cookie` line sets.

## Theorems

* `mem_setCookie`: What a jar holds after a `Set-Cookie` line.
* `mem_headLoop`: What it holds after a head.
* `mem_send`: What it holds after a request.
-/

namespace ArduinoBeken

namespace Http

open Arrivals

/-! ### One line -/

theorem mem_replaced (now : Int) (cookie : Cookie) (jar : CookieJar) (c : Cookie)
    (h : c ∈ replaced now cookie jar) : c ∈ jar ∨ c = cookie := by
  induction jar with
  | nil => exact absurd h List.not_mem_nil
  | cons d jar ih =>
      have hrest : c ∈ replaced now cookie jar → c ∈ d :: jar ∨ c = cookie := by
        intro hc
        rcases ih hc with hmem | heq
        · exact Or.inl (List.mem_cons_of_mem d hmem)
        · exact Or.inr heq
      rw [replaced] at h
      split at h
      · split at h
        · exact hrest h
        · rcases List.mem_cons.1 h with heq | hc
          · exact Or.inr heq
          · exact hrest hc
      · rcases List.mem_cons.1 h with heq | hc
        · exact Or.inl (heq ▸ List.mem_cons_self)
        · exact hrest hc

theorem mem_storeCookie (now : Int) (cookie : Cookie) (jar : CookieJar) (c : Cookie)
    (h : c ∈ storeCookie now jar cookie) : c ∈ jar ∨ c = cookie := by
  by_cases hknown : Knows jar cookie.key
  · rw [storeCookie_known now cookie jar hknown] at h
    exact mem_replaced now cookie jar c h
  · rw [storeCookie_new now cookie jar hknown] at h
    split at h
    · exact Or.inl h
    · rcases List.mem_append.1 h with hmem | hnew
      · exact Or.inl hmem
      · exact Or.inr (List.mem_singleton.1 hnew)

/-- Nothing is new but the cookie of the line. -/
theorem mem_setCookie (lib : TimeLibrary) (jar : CookieJar) (call : SetCookieCall) (c : Cookie)
    (h : c ∈ setCookie lib jar call) : c ∈ jar ∨ readCookie lib call = some c := by
  unfold setCookie at h
  cases hread : readCookie lib call with
  | none =>
      rw [hread] at h
      exact Or.inl h
  | some cookie =>
      rw [hread] at h
      rcases mem_storeCookie call.now cookie jar c h with hmem | heq
      · exact Or.inl hmem
      · exact Or.inr (congrArg some heq.symm)

/-- What a line sets, if it is a `Set-Cookie` line. -/
def setCookieValue (headerLine : Text) : Option Text :=
  let colon := indexOfChar headerLine ':' 0
  if colon ≠ 0 ∧ equalsIgnoreCase (substring headerLine 0 colon) "Set-Cookie".toList = true then
    some (trim (substringFrom headerLine (colon + 1)))
  else none

/-- The cookie is one that a line sets, for the host. -/
def ReadFrom (lib : TimeLibrary) (host headerLine : Text) (c : Cookie) : Prop :=
  ∃ call : SetCookieCall, call.host = host ∧ setCookieValue headerLine = some call.headerValue ∧
    readCookie lib call = some c

theorem mem_readLine (lib : TimeLibrary) (moment : Moment) (host : Text) (st : HeadState)
    (headerLine : Text) (c : Cookie)
    (h : c ∈ (readLine lib moment host st headerLine).answer.cookieJar.getD []) :
    c ∈ st.answer.cookieJar.getD [] ∨ ReadFrom lib host headerLine c := by
  unfold readLine at h
  split at h
  · exact Or.inl h
  · unfold readField at h
    simp only [] at h
    -- a line that begins with a colon names no field
    by_cases hcolon : indexOfChar headerLine ':' 0 = 0
    · rw [if_pos hcolon] at h
      exact Or.inl h
    · rw [if_neg hcolon] at h
      simp only [applyField] at h
      by_cases hname : equalsIgnoreCase
          (substring headerLine 0 (indexOfChar headerLine ':' 0)) "Set-Cookie".toList = true
      · rw [if_pos hname] at h
        -- without a jar nothing is kept of the field
        cases hjar : st.answer.cookieJar with
        | none =>
            rw [hjar] at h
            exact absurd h List.not_mem_nil
        | some jar =>
            rw [hjar] at h
            simp only [Option.map_some, Option.getD_some] at h ⊢
            rcases mem_setCookie lib jar _ c h with hmem | hread
            · exact Or.inl hmem
            · refine Or.inr ⟨_, rfl, ?_, hread⟩
              exact if_pos ⟨hcolon, hname⟩
      · rw [if_neg hname] at h
        exact Or.inl h

/-! ### The head of a response -/

/-- The lines that `headLoop` reads, up to the empty one. -/
def headLines : Nat → Source Char → List Text
  | 0, _ => []
  | fuel + 1, s =>
    if s.connected then
      if 0 < s.available then
        let r := takeUntil '\n' s.ending s.ticks
        if trim r.got = [] then [] else trim r.got :: headLines fuel r.rest
      else
        match s.ticks with
        | .wait :: ticks => headLines fuel ⟨ticks, s.ending⟩
        | _ => []
    else []

/-- The empty line concludes the head, and sets nothing. -/
theorem jar_finishHead (st : HeadState) : (finishHead st).1.cookieJar = st.answer.cookieJar := by
  unfold finishHead
  simp only []
  split
  · rfl
  · split
    · rfl
    · split <;> rfl

theorem not_readFrom_empty (lib : TimeLibrary) (host : Text) (c : Cookie) :
    ¬ReadFrom lib host [] c := by
  rintro ⟨call, -, hvalue, -⟩
  exact absurd hvalue (fun hno => nomatch hno)

theorem mem_headLoop (lib : TimeLibrary) (moment : Moment) (host : Text) (fuel : Nat)
    (st : HeadState) (s : Source Char) (c : Cookie)
    (h : c ∈ (headLoop lib moment host fuel st s).1.cookieJar.getD []) :
    c ∈ st.answer.cookieJar.getD [] ∨ ∃ line ∈ headLines fuel s, ReadFrom lib host line c := by
  -- The induction is on the fuel, over the turns of the loop.
  induction fuel generalizing st s with
  | zero => exact Or.inl h
  | succ fuel ih =>
      rw [headLoop] at h
      rw [headLines]
      by_cases hconn : s.connected = true
      · rw [if_pos hconn] at h ⊢
        by_cases hav : 0 < s.available
        · rw [if_pos hav] at h ⊢
          simp only [] at h ⊢
          -- the empty line ends the head and sets no cookie
          by_cases hempty : trim (takeUntil '\n' s.ending s.ticks).got = []
          · rw [if_pos hempty, hempty, jar_finishHead] at h
            exact Or.inl ((mem_readLine lib moment host st [] c h).resolve_right
              (not_readFrom_empty lib host c))
          · rw [if_neg hempty] at h ⊢
            rcases ih _ _ h with hline | ⟨line, hmem, hread⟩
            · rcases mem_readLine lib moment host st _ c hline with hold | hread
              · exact Or.inl hold
              · exact Or.inr ⟨_, List.mem_cons_self, hread⟩
            · exact Or.inr ⟨line, List.mem_cons_of_mem _ hmem, hread⟩
        · rw [if_neg hav] at h ⊢
          -- nothing to read: the loop waits, or gives up
          rcases s with ⟨_ | ⟨tick, ticks⟩, ending⟩
          · exact Or.inl h
          · cases tick with
            | item a => exact Or.inl h
            | wait => exact ih _ _ h
            | silence => exact Or.inl h
      · rw [if_neg hconn] at h
        exact Or.inl h

/-- The lines of the response that a request meets. -/
def responseLines (w : World) (r : Reply) : List Text :=
  match w.link with
  | some s =>
    headLines ((arrive s r.ticks r.ending).ticks.length + 1) (arrive s r.ticks r.ending)
  | none => []

theorem mem_receive (lib : TimeLibrary) (w : World) (r : Reply) (c : Cookie)
    (h : c ∈ (w.receive lib r).1.http.cookieJar.getD []) :
    c ∈ w.http.cookieJar.getD [] ∨ ∃ line ∈ responseLines w r, ReadFrom lib w.http.host line c := by
  unfold World.receive at h
  unfold responseLines
  cases hlink : w.link with
  | none =>
      rw [hlink] at h
      exact Or.inl h
  | some s =>
      rw [hlink] at h
      simp only [handleHeaderResponse] at h ⊢
      split at h
      · exact mem_headLoop lib r.moment w.http.host _ _ _ c h
      · exact Or.inl h

/-! ### A request -/

theorem jar_returnCode (w : World) (code : Int) :
    (w.returnCode code).http.cookieJar = w.http.cookieJar :=
  congrArg HTTPClient.cookieJar (World.sameCalls_withLink w (returnError w.link code)).http

/-- A request puts the cookies of its response into the jar, and nothing else. -/
theorem mem_send (lib : TimeLibrary) (w : World) (p : Pending) (r : Reply) (c : Cookie)
    (h : c ∈ (w.send lib p r).http.cookieJar.getD []) :
    c ∈ w.http.cookieJar.getD [] ∨
      ∃ w', w.ready p r = some w' ∧
        ∃ line ∈ responseLines w' r, ReadFrom lib w.http.host line c := by
  -- connecting does not touch the jar
  rcases World.connect_frame { w with http := w.http.wipeHeaders } r with
    ⟨client, dep, hhttp, -, -⟩
  have hcases := World.send_cases lib w p r
  generalize { w with http := w.http.wipeHeaders }.connect r = v at hhttp hcases
  have hjar : v.1.http.cookieJar = w.http.cookieJar := by
    rw [hhttp]
    rfl
  have hhost : (v.1.prepare p r).http.host = w.http.host := by
    rw [World.prepare_http, hhttp]
    rfl
  -- What is kept of the jar is a part of it.
  have hkept : ∀ d ∈ (v.1.prepare p r).http.cookieJar.getD [], d ∈ w.http.cookieJar.getD [] := by
    intro d hd
    rw [World.prepare_http] at hd
    rw [← hjar]
    simp only [remainingJar] at hd
    cases hold : v.1.http.cookieJar with
    | none =>
        rw [hold] at hd
        exact absurd hd List.not_mem_nil
    | some jar =>
        rw [hold] at hd
        exact (List.mem_filter.1 hd).1
  -- a request that is not sent, one whose response is an error, one that is answered
  rcases hcases with ⟨-, code, hsend | hsend⟩ |
    ⟨w', hready, -, rfl, ⟨code, hsend⟩ | ⟨code, hsend⟩⟩
  · rw [hsend, jar_returnCode, hjar] at h
    exact Or.inl h
  · rw [hsend, jar_returnCode] at h
    exact Or.inl (hkept c h)
  · rw [hsend, jar_returnCode] at h
    exact Or.inl (hkept c h)
  · rw [hsend] at h
    rcases mem_receive lib _ r c h with hold | ⟨line, hline, hread⟩
    · exact Or.inl (hkept c hold)
    · refine Or.inr ⟨_, hready, line, hline, ?_⟩
      rw [← hhost]
      exact hread

end Http

end ArduinoBeken
