import ArduinoBeken.Http.ArduinoText
import Mathlib.Data.List.Nodup

/-!
# The Cookie Jar

How the HTTP client reads a `Set-Cookie` header into a cookie, puts it into
the jar, and makes the `Cookie` line of a request from the jar.

The attributes are found by searching the whole header, in lower case, for
their names (`attributeValue`). A cookie the jar has already is overwritten or
erased in the loop over the jar, a new one is added behind it, and the two
paths look at the age of the cookie in different ways.

Dates are read by the C library where it has `strptime`, and not at all
elsewhere. The field `date` of a cookie has no initial value, so a call is
given the one it happens to start with.

## Main definitions

* `Cookie`, `CookieJar`: What the jar holds.
* `TimeLibrary`, `parseHttpTime`: The dates the C library reads.
* `attributeValue`, `readCookie`: A header taken apart.
* `storeCookie`, `setCookie`: The jar after a header.
* `generateCookieString`: The jar and the cookies of a request.

## Theorems

* `storeCookie_known`, `storeCookie_new`: The two paths into the jar.
* `keys_storeCookie`: No path makes a second cookie of one key.
-/

namespace ArduinoBeken

namespace Http

/-- A date, and whether one was read. -/
structure ExpiryDate where
  date : Int
  valid : Bool
deriving DecidableEq, Repr

/-- A number of seconds, and whether one was given. -/
structure MaxAge where
  duration : Int
  valid : Bool
deriving DecidableEq, Repr

/-- A cookie of the jar. -/
structure Cookie where
  date : Int
  name : Text
  value : Text
  domain : Text
  path : Text
  expires : ExpiryDate
  max_age : MaxAge
  http_only : Bool
  secure : Bool
deriving DecidableEq, Repr

/-- The jar, in the order of the cookies' first storing. -/
abbrev CookieJar := List Cookie

/-- What a cookie is known by. -/
def Cookie.key (c : Cookie) : Text × Text :=
  (c.domain, c.name)

/-! ### Dates -/

/-- The date functions of the C library. -/
structure TimeLibrary where
  /-- `BK_IDK_HAVE_STRPTIME`. -/
  haveStrptime : Bool
  /-- `mktime` of what `strptime` reads with `HTTP_TIME_PATTERN`. -/
  strptime : Text → Option Int

/-- `parseHttpTime`, if the library can read a date. -/
def parseHttpTime (lib : TimeLibrary) (str : Text) : Option Int :=
  if lib.haveStrptime then lib.strptime str else none

/-! ### Reading a header -/

/-- What follows the first place of an attribute's name, up to the next
semicolon behind it. -/
def attributeValue (headerValue name : Text) : Option Text :=
  if 0 ≤ indexOf headerValue name 0 then
    let pos1 := indexOf headerValue name 0 + name.length
    let pos2 := indexOfChar headerValue ';' pos1
    if pos2 > pos1 then some (substring headerValue pos1 pos2)
    else some (substringFrom headerValue pos1)
  else none

/-- A call of `setCookie`: its arguments, the client's `_host`, the clock, and
the value an uninitialised `date` has. -/
structure SetCookieCall where
  host : Text
  date : Text
  headerValue : Text
  now : Int
  leftover : Int
deriving DecidableEq, Repr

/-- The domain of a cookie that names none: the last two labels. -/
def defaultDomain (host : Text) : Text :=
  let pos1 := lastIndexOf host '.' (lastIndexOf host '.' (host.length - 1) - 1)
  if 0 ≤ pos1 then substringFrom host (pos1 + 1) else host

/-- A domain without the dot that it may begin with. -/
def withoutLeadingDot (domain : Text) : Text :=
  if startsWith domain ['.'] then remove domain 0 1 else domain

/-- The domain of the cookie, if the host may set it. -/
def acceptDomain (host lowered : Text) : Option Text :=
  match attributeValue lowered "domain=".toList with
  | some value =>
    let value := withoutLeadingDot value
    if 0 ≤ indexOf host value 0 then some value else none
  | none => some (defaultDomain host)

/-- The `Expires` of a line. -/
def readExpires (lib : TimeLibrary) (lowered : Text) : ExpiryDate :=
  match attributeValue lowered "expires=".toList with
  | some value =>
    match parseHttpTime lib value with
    | some date => ⟨date, true⟩
    | none => ⟨0, false⟩
  | none => ⟨0, false⟩

/-- The `Max-Age` of a line. -/
def readMaxAge (lowered : Text) : MaxAge :=
  match attributeValue lowered "max-age=".toList with
  | some value => ⟨toInt value, true⟩
  | none => ⟨0, false⟩

/-- The cookie of a header, or nothing where `setCookie` returns early. -/
def readCookie (lib : TimeLibrary) (call : SetCookieCall) : Option Cookie :=
  let pos1 := indexOfChar call.headerValue '=' 0
  let pos2 := indexOfChar call.headerValue ';' 0
  if 0 ≤ pos1 ∧ pos1 < pos2 then
    let lowered := toLowerCase call.headerValue
    match acceptDomain call.host lowered with
    | some domain =>
      some
        { date := (parseHttpTime lib call.date).getD call.leftover
          name := substring call.headerValue 0 pos1
          value := substring call.headerValue (pos1 + 1) pos2
          domain := domain
          path := (attributeValue lowered "path=".toList).getD []
          expires := readExpires lib lowered
          max_age := readMaxAge lowered
          http_only := decide (0 ≤ indexOf lowered "httponly".toList 0)
          secure := decide (0 ≤ indexOf lowered "secure".toList 0) }
    | none => none
  else none

/-! ### The jar -/

/-- The test by which a cookie the jar has already is erased. -/
def erasesKnown (now : Int) (cookie : Cookie) : Bool :=
  (cookie.max_age.valid && decide (cookie.date + cookie.max_age.duration < now)) ||
    decide (cookie.max_age.duration ≤ 0) ||
    (!cookie.max_age.valid && cookie.expires.valid && decide (cookie.expires.date < now))

/-- The loop over the jar, and whether it found the cookie. -/
def overwrite (now : Int) (cookie : Cookie) : CookieJar → CookieJar × Bool
  | [] => ([], false)
  | c :: jar =>
    let rest := overwrite now cookie jar
    if c.domain == cookie.domain && c.name == cookie.name then
      if erasesKnown now cookie then (rest.1, true) else (cookie :: rest.1, true)
    else (c :: rest.1, rest.2)

/-- The second half of `setCookie`. -/
def storeCookie (now : Int) (jar : CookieJar) (cookie : Cookie) : CookieJar :=
  let (jar', found) := overwrite now cookie jar
  if !found && !(cookie.max_age.valid && decide (cookie.max_age.duration ≤ 0)) then
    jar' ++ [cookie]
  else jar'

/-- `setCookie`: the line is read, and the cookie stored if it is one. -/
def setCookie (lib : TimeLibrary) (jar : CookieJar) (call : SetCookieCall) : CookieJar :=
  match readCookie lib call with
  | some cookie => storeCookie call.now jar cookie
  | none => jar

/-! ### The cookies of a request -/

/-- The test by which a request drops a cookie from the jar. -/
def expiredAt (now : Int) (c : Cookie) : Bool :=
  (c.max_age.valid && decide (c.date + c.max_age.duration < now)) ||
    (!c.max_age.valid && c.expires.valid && decide (c.expires.date < now))

/-- The test by which a request names a cookie. -/
def sentTo (host : Text) (secure : Bool) (c : Cookie) : Bool :=
  decide (0 ≤ indexOf host c.domain 0) && (!c.secure || secure)

/-- A cookie as a request tells it. -/
def pairText (c : Cookie) : Text :=
  c.name ++ '=' :: c.value

/-- The cookies a request names, in the order of the jar. -/
def cookiesFor (host : Text) (secure : Bool) (now : Int) (jar : CookieJar) : CookieJar :=
  jar.filter fun c => !expiredAt now c && sentTo host secure c

/-- The jar without the expired cookies, and the line of those that go with a
request. -/
def generateCookieString (host : Text) (secure : Bool) (now : Int) (jar : CookieJar) :
    CookieJar × Option Text :=
  let found := cookiesFor host secure now jar
  (jar.filter (!expiredAt now ·),
    if found = [] then none else some (" ;".toList.intercalate (found.map pairText)))

/-! ### Spec lemmas -/

/-- The jar has a cookie of the key. -/
def Knows (jar : CookieJar) (key : Text × Text) : Prop :=
  ∃ c ∈ jar, c.key = key

/-- The jar has at most one cookie of each key. -/
def AtMostOne (jar : CookieJar) : Prop :=
  (jar.map Cookie.key).Nodup

instance (jar : CookieJar) (key : Text × Text) : Decidable (Knows jar key) :=
  inferInstanceAs (Decidable (∃ c ∈ jar, c.key = key))

instance (jar : CookieJar) : Decidable (AtMostOne jar) :=
  inferInstanceAs (Decidable (jar.map Cookie.key).Nodup)

theorem sameKey_iff (c d : Cookie) :
    (c.domain == d.domain && c.name == d.name) = true ↔ c.key = d.key := by
  simp only [Bool.and_eq_true, beq_iff_eq, Cookie.key, Prod.mk.injEq]

theorem overwrite_of_unknown (now : Int) (cookie : Cookie) (jar : CookieJar)
    (h : ¬ Knows jar cookie.key) : overwrite now cookie jar = (jar, false) := by
  induction jar with
  | nil => rfl
  | cons c jar ih =>
      have hc : ¬ (c.domain == cookie.domain && c.name == cookie.name) = true := by
        rw [sameKey_iff]
        exact fun hkey => h ⟨c, List.mem_cons_self, hkey⟩
      have hjar : ¬ Knows jar cookie.key := by
        intro hk
        rcases hk with ⟨d, hd, hkey⟩
        exact h ⟨d, List.mem_cons_of_mem c hd, hkey⟩
      simp only [overwrite, ih hjar, if_neg hc]

/-- A new cookie is added, unless its `Max-Age` has run out. -/
theorem storeCookie_new (now : Int) (cookie : Cookie) (jar : CookieJar)
    (h : ¬ Knows jar cookie.key) :
    storeCookie now jar cookie =
      if cookie.max_age.valid = true ∧ cookie.max_age.duration ≤ 0 then jar
      else jar ++ [cookie] := by
  simp only [storeCookie, overwrite_of_unknown now cookie jar h, Bool.not_false, Bool.true_and,
    Bool.not_eq_true', Bool.and_eq_false_iff, decide_eq_false_iff_not]
  by_cases hage : cookie.max_age.valid = true ∧ cookie.max_age.duration ≤ 0
  · rw [if_pos hage, if_neg]
    intro hneg
    rcases hneg with hv | hd
    · rw [hage.1] at hv
      exact absurd hv (by decide)
    · exact hd hage.2
  · rw [if_neg hage, if_pos]
    by_cases hv : cookie.max_age.valid = true
    · exact Or.inr (fun hd => hage ⟨hv, hd⟩)
    · exact Or.inl (Bool.not_eq_true _ ▸ hv)

/-- What the loop leaves of a jar that has the cookie. -/
def replaced (now : Int) (cookie : Cookie) : CookieJar → CookieJar
  | [] => []
  | c :: jar =>
    if c.key = cookie.key then
      if erasesKnown now cookie then replaced now cookie jar
      else cookie :: replaced now cookie jar
    else c :: replaced now cookie jar

theorem overwrite_eq (now : Int) (cookie : Cookie) (jar : CookieJar) :
    overwrite now cookie jar = (replaced now cookie jar, decide (Knows jar cookie.key)) := by
  induction jar with
  | nil => rfl
  | cons c jar ih =>
      simp only [overwrite, ih, sameKey_iff, replaced]
      by_cases hc : c.key = cookie.key
      · have hk : Knows (c :: jar) cookie.key := ⟨c, List.mem_cons_self, hc⟩
        rw [if_pos hc, if_pos hc, decide_eq_true hk]
        split <;> rfl
      · have hk : Knows (c :: jar) cookie.key ↔ Knows jar cookie.key := by
          refine ⟨?_, ?_⟩
          · intro h
            rcases h with ⟨d, hd, hkey⟩
            rcases List.mem_cons.1 hd with rfl | hd
            · exact absurd hkey hc
            · exact ⟨d, hd, hkey⟩
          · intro h
            rcases h with ⟨d, hd, hkey⟩
            exact ⟨d, List.mem_cons_of_mem c hd, hkey⟩
        rw [if_neg hc, if_neg hc, decide_eq_decide.2 hk]

/-- A cookie the jar has is overwritten or erased where it stands. -/
theorem storeCookie_known (now : Int) (cookie : Cookie) (jar : CookieJar)
    (h : Knows jar cookie.key) : storeCookie now jar cookie = replaced now cookie jar := by
  simp only [storeCookie, overwrite_eq, decide_eq_true h, Bool.not_true, Bool.false_and,
    Bool.false_eq_true, if_false]

/-- The loop leaves the cookies of other keys alone. -/
theorem filter_replaced (now : Int) (cookie : Cookie) (jar : CookieJar) :
    (replaced now cookie jar).filter (·.key ≠ cookie.key) =
      jar.filter (·.key ≠ cookie.key) := by
  induction jar with
  | nil => rfl
  | cons c jar ih =>
      rw [replaced]
      by_cases hc : c.key = cookie.key
      · rw [if_pos hc,
          List.filter_cons_of_neg (by simpa only [decide_eq_true_eq, not_not] using hc)]
        split
        · exact ih
        · rw [List.filter_cons_of_neg (by simp only [ne_eq, not_true_eq_false, decide_false,
            Bool.false_eq_true, not_false_eq_true])]
          exact ih
      · rw [if_neg hc, List.filter_cons_of_pos (by simpa only [decide_eq_true_eq] using hc),
          List.filter_cons_of_pos (by simpa only [decide_eq_true_eq] using hc), ih]

/-- The keys the loop leaves are among those it met, in their order. -/
theorem keys_replaced (now : Int) (cookie : Cookie) (jar : CookieJar) :
    ((replaced now cookie jar).map Cookie.key).Sublist (jar.map Cookie.key) := by
  induction jar with
  | nil => exact List.Sublist.refl []
  | cons c jar ih =>
      rw [replaced, List.map_cons]
      by_cases hc : c.key = cookie.key
      · rw [if_pos hc]
        split
        · exact ih.cons c.key
        · rw [List.map_cons, hc]
          exact ih.cons_cons cookie.key
      · rw [if_neg hc, List.map_cons]
        exact ih.cons_cons c.key

/-- No path makes a second cookie of one key. -/
theorem keys_storeCookie (now : Int) (cookie : Cookie) (jar : CookieJar) (h : AtMostOne jar) :
    AtMostOne (storeCookie now jar cookie) := by
  by_cases hk : Knows jar cookie.key
  · rw [storeCookie_known now cookie jar hk]
    exact h.sublist (keys_replaced now cookie jar)
  · rw [storeCookie_new now cookie jar hk]
    split
    · exact h
    · -- The new key is not among those of the jar.
      rw [AtMostOne, List.map_append, List.map_singleton, List.nodup_append]
      refine ⟨h, List.nodup_singleton _, ?_⟩
      intro key hkey other hother
      rw [List.mem_singleton.1 hother]
      intro heq
      rcases List.mem_map.1 hkey with ⟨d, hd, rfl⟩
      exact hk ⟨d, hd, heq⟩

theorem atMostOne_setCookie (lib : TimeLibrary) (jar : CookieJar) (call : SetCookieCall)
    (h : AtMostOne jar) : AtMostOne (setCookie lib jar call) := by
  unfold setCookie
  split
  · exact keys_storeCookie call.now _ jar h
  · exact h

end Http

end ArduinoBeken
