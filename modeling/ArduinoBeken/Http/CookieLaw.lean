import ArduinoBeken.Http.SetCookie
import ArduinoBeken.Library.Run

/-!
# The Law of the Cookie Jar

What a jar should hold after a `Set-Cookie` header: of the key the header
names, the new value and nothing else, or nothing when the header has
expired; of every other key, what it held.

A header is read the way it is written when its pair stands unpadded before a
semicolon and each of its attributes is written at most once (`Plain`). For
such a header the jar obeys the law exactly when the header is `Timely`. The
loop over the jar erases a cookie whose `Max-Age` is zero, and a header
without `Max-Age` leaves zero there, so a known cookie is erased by every such
header, expired or not. A new cookie is kept whatever its `Expires` says. What
`Timely` asks of a header without `Max-Age` is therefore that it is expired
exactly when the jar knows its cookie.

## Main definitions

* `expired`, `cookieKey`: What the header means for the jar.
* `Puts`, `Lawful`: The law, for one header.
* `Plain`, `Timely`, `Sound`: The headers that the jar gets right.

## Theorems

* `readCookie_of_plain`: How a plain header is read.
* `readCookie_of_no_pair`: A field without an equals sign is no cookie.
* `puts_iff_timely`: The law for one plain header.
* `setCookies_lawful`: The law along a run of sound headers.
-/

namespace ArduinoBeken

namespace Http

/-! ### The law -/

/-- The host may set a cookie for the domain the header names. -/
def mayStore (host header : Text) : Prop :=
  ∀ domain ∈ domainOf header, 0 ≤ indexOf host domain 0

/-- The key of the cookie that the header names. -/
def cookieKey (host header : Text) : Text × Text :=
  ((domainOf header).getD (defaultDomain host), pairName header)

/-- The header asks to forget the cookie: by its `Max-Age`, or by its
`Expires` if it has none. -/
def expired (lib : TimeLibrary) (now : Int) (header : Text) : Prop :=
  match maxAgeOf header with
  | some age => age ≤ 0
  | none => ∃ date ∈ expiresOf lib header, date < now

/-- The header names a cookie. -/
def NamesCookie (header : Text) : Prop :=
  '=' ∈ pairField header ∧ pairName header ≠ []

instance (header : Text) : Decidable (NamesCookie header) :=
  inferInstanceAs (Decidable (_ ∧ _))

/-- Of one key the jar then holds what it should, of all others what it held. -/
def Puts (jar jar' : CookieJar) (key : Text × Text) (value : Option Text) : Prop :=
  (jar'.filter (·.key = key)).map Cookie.value = value.toList ∧
    jar'.filter (·.key ≠ key) = jar.filter (·.key ≠ key)

/-- The law, for a header that names a cookie its host may set, and for one
that does not. -/
def Lawful (lib : TimeLibrary) (jar : CookieJar) (call : SetCookieCall) : Prop :=
  AtMostOne (setCookie lib jar call) ∧
    (NamesCookie call.headerValue ∧ mayStore call.host call.headerValue →
      (expired lib call.now call.headerValue →
        Puts jar (setCookie lib jar call) (cookieKey call.host call.headerValue) none) ∧
      (¬ expired lib call.now call.headerValue →
        Puts jar (setCookie lib jar call) (cookieKey call.host call.headerValue)
          (some (pairValue call.headerValue)))) ∧
    (¬ (NamesCookie call.headerValue ∧ mayStore call.host call.headerValue) →
      setCookie lib jar call = jar)

/-! ### The headers the jar gets right -/

/-- The pair is followed by a semicolon, and its name and value stand without
blanks around them. -/
def PlainPair (header : Text) : Prop :=
  ∃ name value attributes, fields header = (name ++ '=' :: value) :: attributes ∧
    attributes ≠ [] ∧ '=' ∉ name ∧ name ≠ [] ∧ trim name = name ∧ trim value = value

/-- `Max-Age` and `Domain` are written at most once each, and the age is a
number. -/
structure Plain (header : Text) : Prop where
  pair : PlainPair header
  age : Silent "max-age".toList header ∨
    ∃ v n, Writes "max-age".toList header v ∧ wholeNumber v = some n
  domain : Silent "domain".toList header ∨ ∃ v, Writes "domain".toList header v

/-- The time from which the client counts the age of the cookie. -/
def ageFrom (lib : TimeLibrary) (call : SetCookieCall) : Int :=
  (parseHttpTime lib call.date).getD call.leftover

/-- A positive age is no trouble for a new cookie, nor for a known one that
does not seem outdated; a header without `Max-Age` must be expired exactly when
the jar knows its cookie. -/
def Timely (lib : TimeLibrary) (jar : CookieJar) (call : SetCookieCall) : Prop :=
  match maxAgeOf call.headerValue with
  | some age =>
    age ≤ 0 ∨ ¬ Knows jar (cookieKey call.host call.headerValue) ∨
      call.now ≤ ageFrom lib call + clampLong age
  | none =>
    Knows jar (cookieKey call.host call.headerValue) ↔ expired lib call.now call.headerValue

/-- The header names no cookie, or it is plain, and timely if its host may set
the cookie. -/
def Sound (lib : TimeLibrary) (jar : CookieJar) (call : SetCookieCall) : Prop :=
  '=' ∉ pairField call.headerValue ∨
    (Plain call.headerValue ∧
      (mayStore call.host call.headerValue → Timely lib jar call))

/-! ### How a header is read -/

theorem header_eq_fields (header : Text) :
    header = [';'].intercalate (fields header) :=
  (List.intercalate_splitOn ';').symm

theorem semicolon_not_mem_field (header f : Text) (hf : f ∈ fields header) : ';' ∉ f :=
  Search.sep_not_mem_splitOn ';' header f hf

/-- A field without an equals sign is no cookie, whatever follows it. -/
theorem readCookie_of_no_pair (lib : TimeLibrary) (call : SetCookieCall)
    (h : '=' ∉ pairField call.headerValue) : readCookie lib call = none := by
  have hnot : ¬ (0 ≤ indexOfChar call.headerValue '=' 0 ∧
      indexOfChar call.headerValue '=' 0 < indexOfChar call.headerValue ';' 0) := by
    rintro ⟨hpos, hlt⟩
    have hne : call.headerValue ≠ [] := by
      intro hnil
      rw [hnil] at hpos
      exact absurd hpos (by decide)
    have hheader := header_eq_fields call.headerValue
    have hsemi : ∀ f ∈ fields call.headerValue, ';' ∉ f :=
      semicolon_not_mem_field call.headerValue
    simp only [indexOfChar] at hpos hlt
    rw [indexOf_zero _ _ hne] at hpos hlt
    rw [indexOf_zero _ _ hne] at hlt
    rw [pairField] at h
    rcases hfields : fields call.headerValue with _ | ⟨pair, attributes⟩
    · exact absurd hfields (List.splitOn_ne_nil ';' call.headerValue)
    · rw [hfields, List.headD_cons] at h
      rw [hfields] at hheader hsemi
      have hpair := hsemi pair List.mem_cons_self
      cases attributes with
      | nil =>
          -- There is no semicolon to come after the equals sign.
          rw [List.intercalate_singleton] at hheader
          rw [hheader, Search.find_singleton_eq_none ';' pair hpair] at hlt
          rw [hheader] at hpos
          simp only [] at hlt
          omega
      | cons a attributes =>
          -- The equals sign, if there is one, comes behind the first semicolon.
          rw [List.intercalate_cons_cons, List.append_assoc, List.singleton_append] at hheader
          rw [hheader, Search.find_singleton ';' pair _ hpair,
            Search.find_append_sep (List.cons_ne_nil '=' []) (by decide) pair _
              (by rwa [List.singleton_infix_iff])] at hlt
          rw [hheader, Search.find_append_sep (List.cons_ne_nil '=' []) (by decide) pair _
              (by rwa [List.singleton_infix_iff])] at hpos
          cases hrest : Search.find ['='] ([';'].intercalate (a :: attributes)) with
          | none =>
              simp only [hrest, Option.map_none] at hpos
              omega
          | some n =>
              simp only [hrest, Option.map_some] at hlt
              exact absurd (Int.ofNat_lt.1 hlt) (by omega)
  rw [readCookie]
  simp only [hnot, if_false]

/-- The places of the pair in a plain header. -/
theorem plainPair_places (header : Text) (h : PlainPair header) :
    ∃ name value, indexOfChar header '=' 0 = (name.length : Int) ∧
      indexOfChar header ';' 0 = ((name.length + 1 + value.length : Nat) : Int) ∧
      substring header 0 name.length = name ∧
      substring header (name.length + 1) ((name.length + 1 + value.length : Nat) : Int) = value ∧
      pairName header = name ∧ pairValue header = value ∧ name ≠ [] ∧
      '=' ∈ pairField header := by
  rcases h with ⟨name, value, attributes, hfields, hattr, heq, hne, hname, hvalue⟩
  -- The first field is the pair, and a field has no semicolon.
  have hsemi : ';' ∉ name ++ '=' :: value := by
    refine semicolon_not_mem_field header _ ?_
    rw [hfields]
    exact List.mem_cons_self
  have hheader := header_eq_fields header
  rw [hfields] at hheader
  -- There is an attribute, so the pair ends at a semicolon.
  rcases attributes with _ | ⟨a, attributes⟩
  · exact absurd rfl hattr
  rw [List.intercalate_cons_cons, List.append_assoc, List.singleton_append] at hheader
  have hnil : header ≠ [] := by
    rw [hheader]
    exact List.append_ne_nil_of_right_ne_nil _ (List.cons_ne_nil _ _)
  refine ⟨name, value, ?_, ?_, ?_, ?_, ?_, ?_, hne, ?_⟩
  · rw [indexOfChar, indexOf_zero _ _ hnil, hheader, List.append_assoc, List.cons_append,
      Search.find_singleton '=' name _ heq]
  · rw [indexOfChar, indexOf_zero _ _ hnil, hheader, Search.find_singleton ';' _ _ hsemi]
    simp only [List.length_append, List.length_cons]
    omega
  · rw [hheader, List.append_assoc]
    exact substring_before name _
  · rw [hheader, show name ++ '=' :: value ++ ';' :: [';'].intercalate (a :: attributes) =
      (name ++ ['=']) ++ (value ++ ';' :: [';'].intercalate (a :: attributes)) by
        simp only [List.append_assoc, List.cons_append, List.nil_append],
      show ((name.length : Int) + 1) = ((name ++ ['=']).length : Int) by
        rw [List.length_append, List.length_singleton]; rfl,
      show name.length + 1 + value.length = (name ++ ['=']).length + value.length by
        rw [List.length_append, List.length_singleton]]
    exact substring_between (name ++ ['=']) value _
  · rw [pairName, pairField, hfields, List.headD_cons, beforeEquals_append name value heq, hname]
  · rw [pairValue, pairField, hfields, List.headD_cons, afterEquals_append name value heq, hvalue]
  · rw [pairField, hfields, List.headD_cons]
    exact List.mem_append_right name List.mem_cons_self

/-- The age the client reads is the age the header gives. -/
theorem readMaxAge_of_plain (header : Text) (h : Plain header) :
    readMaxAge (toLowerCase header) =
      match maxAgeOf header with
      | some age => ⟨clampLong age, true⟩
      | none => ⟨0, false⟩ := by
  have htoken : IsToken "max-age".toList := by decide
  have hmark : "max-age=".toList = mark "max-age".toList := rfl
  rw [readMaxAge, hmark, maxAgeOf]
  rcases h.age with hs | ⟨v, n, hw, hn⟩
  · rw [attributeValue_of_silent _ header htoken hs, attributeTexts_of_silent _ header hs]
    rfl
  · rw [attributeValue_of_writes _ header v htoken hw,
      attributeTexts_of_writes _ header v htoken hw]
    simp only [List.filterMap_cons, hn, List.filterMap_nil, List.getLast?_singleton]
    rw [toInt_of_wholeNumber v n hn]

/-- The domain the client accepts is the one the header names, or the last
labels of the host. -/
theorem acceptDomain_of_plain (host header : Text) (h : Plain header) :
    (mayStore host header →
      acceptDomain host (toLowerCase header) = some ((domainOf header).getD (defaultDomain host))) ∧
    (¬ mayStore host header → acceptDomain host (toLowerCase header) = none) := by
  have htoken : IsToken "domain".toList := by decide
  have hmark : "domain=".toList = mark "domain".toList := rfl
  rw [acceptDomain, hmark, mayStore]
  -- A plain header names the domain once, in a whole attribute, or not at all.
  rcases h.domain with hs | ⟨v, hw⟩
  · have hdomain : domainOf header = none := by
      rw [domainOf, attributeTexts_of_silent _ header hs]
      rfl
    rw [attributeValue_of_silent _ header htoken hs, hdomain]
    refine ⟨fun _ => rfl, fun hno => ?_⟩
    exact absurd (fun d hd => absurd hd (Option.not_mem_none d)) hno
  · have hv : v ≠ [] := by
      rcases hw with ⟨_, _, _, _, _, _, _, _, hv, _⟩
      exact hv
    have hdomain : domainOf header = some (withoutLeadingDot (toLowerCase v)) := by
      rw [domainOf, attributeTexts_of_writes _ header v htoken hw,
        List.filter_cons_of_pos (by rw [decide_eq_true_eq]; exact hv)]
      rfl
    rw [attributeValue_of_writes _ header v htoken hw, hdomain]
    refine ⟨fun hyes => ?_, fun hno => ?_⟩
    · exact if_pos (hyes _ rfl)
    · refine if_neg (fun hpos => hno ?_)
      intro d hd
      rw [← Option.some.inj hd]
      exact hpos

/-- How a plain header is read. -/
theorem readCookie_of_plain (lib : TimeLibrary) (call : SetCookieCall)
    (h : Plain call.headerValue) :
    (mayStore call.host call.headerValue →
      ∃ cookie, readCookie lib call = some cookie ∧
        cookie.key = cookieKey call.host call.headerValue ∧
        cookie.value = pairValue call.headerValue ∧ cookie.date = ageFrom lib call ∧
        cookie.max_age = readMaxAge (toLowerCase call.headerValue)) ∧
    (¬ mayStore call.host call.headerValue → readCookie lib call = none) := by
  rcases plainPair_places call.headerValue h.pair with
    ⟨name, value, hpos1, hpos2, hname, hvalue, hpair, hpairv, -, -⟩
  have hcond : 0 ≤ indexOfChar call.headerValue '=' 0 ∧
      indexOfChar call.headerValue '=' 0 < indexOfChar call.headerValue ';' 0 := by
    rw [hpos1, hpos2]
    omega
  have haccept := acceptDomain_of_plain call.host call.headerValue h
  refine ⟨fun hmay => ?_, fun hno => ?_⟩
  · rw [readCookie]
    simp only [hcond, and_self, if_true, haccept.1 hmay, Option.some.injEq, exists_eq_left']
    refine ⟨?_, ?_, rfl, trivial⟩
    · rw [Cookie.key, cookieKey, hpos1, hname, hpair]
    · rw [hpos1, hpos2, hvalue, hpairv]
  · rw [readCookie]
    simp only [hcond, and_self, if_true, haccept.2 hno]

/-! ### The jar after a plain header -/

/-- A jar without doubles holds a known cookie once. -/
theorem filter_key_of_known (jar : CookieJar) (key : Text × Text) (hone : AtMostOne jar)
    (h : Knows jar key) : ∃ c, jar.filter (·.key = key) = [c] := by
  induction jar with
  | nil =>
      rcases h with ⟨c, hc, -⟩
      exact absurd hc List.not_mem_nil
  | cons c jar ih =>
      have hnot := (List.nodup_cons.1 hone).1
      by_cases hc : c.key = key
      · refine ⟨c, ?_⟩
        rw [List.filter_cons_of_pos (by rwa [decide_eq_true_eq]), List.filter_eq_nil_iff.2]
        intro d hd
        rw [decide_eq_true_eq]
        intro hkey
        exact hnot (List.mem_map.2 ⟨d, hd, hkey.trans hc.symm⟩)
      · rw [List.filter_cons_of_neg (by rwa [decide_eq_true_eq])]
        refine ih (List.nodup_cons.1 hone).2 ?_
        rcases h with ⟨d, hd, hkey⟩
        rcases List.mem_cons.1 hd with rfl | hd
        · exact absurd hkey hc
        · exact ⟨d, hd, hkey⟩

/-- What the loop leaves of the key it looks for. -/
theorem filter_key_replaced (now : Int) (cookie : Cookie) (jar : CookieJar) :
    (replaced now cookie jar).filter (·.key = cookie.key) =
      if erasesKnown now cookie then []
      else (jar.filter (·.key = cookie.key)).map fun _ => cookie := by
  induction jar with
  | nil =>
      rw [replaced]
      split <;> rfl
  | cons c jar ih =>
      rw [replaced]
      by_cases hc : c.key = cookie.key
      · rw [if_pos hc, List.filter_cons_of_pos (l := jar) (by rwa [decide_eq_true_eq])]
        by_cases herase : erasesKnown now cookie = true
        · rw [if_pos herase] at ih ⊢
          rwa [if_pos herase]
        · rw [if_neg herase] at ih ⊢
          rw [if_neg herase, List.filter_cons_of_pos (by rw [decide_eq_true_eq]), ih,
            List.map_cons]
      · rw [if_neg hc, List.filter_cons_of_neg (by rwa [decide_eq_true_eq]),
          List.filter_cons_of_neg (l := jar) (by rwa [decide_eq_true_eq]), ih]

/-- What the jar holds of the key of the stored cookie: nothing, if the cookie
was known and erased or new and refused. -/
theorem filter_key_storeCookie (now : Int) (cookie : Cookie) (jar : CookieJar)
    (hone : AtMostOne jar) :
    (storeCookie now jar cookie).filter (·.key = cookie.key) =
      if (Knows jar cookie.key ∧ erasesKnown now cookie = true) ∨
        (¬ Knows jar cookie.key ∧ cookie.max_age.valid = true ∧ cookie.max_age.duration ≤ 0)
      then [] else [cookie] := by
  -- a known cookie is replaced in its place, or erased
  by_cases hk : Knows jar cookie.key
  · rw [storeCookie_known now cookie jar hk, filter_key_replaced]
    rcases filter_key_of_known jar cookie.key hone hk with ⟨c, hc⟩
    rw [hc, List.map_cons, List.map_nil]
    by_cases herase : erasesKnown now cookie = true
    · rw [if_pos herase, if_pos (Or.inl ⟨hk, herase⟩)]
    · rw [if_neg herase, if_neg]
      rintro (⟨-, h⟩ | ⟨h, -⟩)
      · exact herase h
      · exact h hk
  · -- No cookie of this key is stored, so only the new one can be.
    have hnone : jar.filter (·.key = cookie.key) = [] := by
      rw [List.filter_eq_nil_iff]
      intro d hd
      rw [decide_eq_true_eq]
      exact fun hkey => hk ⟨d, hd, hkey⟩
    rw [storeCookie_new now cookie jar hk]
    by_cases hage : cookie.max_age.valid = true ∧ cookie.max_age.duration ≤ 0
    · rw [if_pos hage, if_pos (Or.inr ⟨hk, hage⟩), hnone]
    · rw [if_neg hage, List.filter_append, hnone, List.nil_append,
        List.filter_cons_of_pos (by rw [decide_eq_true_eq]), List.filter_nil, if_neg]
      rintro (⟨h, -⟩ | ⟨-, h⟩)
      · exact hk h
      · exact hage h

/-- The cookies of other keys stay as they are. -/
theorem filter_other_storeCookie (now : Int) (cookie : Cookie) (jar : CookieJar) :
    (storeCookie now jar cookie).filter (·.key ≠ cookie.key) =
      jar.filter (·.key ≠ cookie.key) := by
  by_cases hk : Knows jar cookie.key
  · rw [storeCookie_known now cookie jar hk, filter_replaced]
  · rw [storeCookie_new now cookie jar hk]
    split
    · rfl
    · rw [List.filter_append, List.filter_cons_of_neg (by
        simp only [ne_eq, not_true_eq_false, decide_false, Bool.false_eq_true,
          not_false_eq_true]), List.filter_nil, List.append_nil]

/-- A header without `Max-Age` leaves a zero where the loop looks for the age. -/
theorem erasesKnown_of_ageless (now : Int) (cookie : Cookie)
    (h : cookie.max_age = ⟨0, false⟩) : erasesKnown now cookie = true := by
  simp only [erasesKnown, h, Int.le_refl, decide_true, Bool.or_true, Bool.true_or]

theorem erasesKnown_of_age (now : Int) (cookie : Cookie) (age : Int)
    (h : cookie.max_age = ⟨age, true⟩) :
    erasesKnown now cookie = true ↔ cookie.date + age < now ∨ age ≤ 0 := by
  simp only [erasesKnown, h, Bool.true_and, Bool.not_true, Bool.false_and, Bool.or_false,
    Bool.or_eq_true, decide_eq_true_eq]

theorem clampLong_nonpos_iff (n : Int) : clampLong n ≤ 0 ↔ n ≤ 0 := by
  unfold clampLong
  omega

/-- A cookie stored from a plain header is there afterwards exactly when the
header is not expired, if and only if the header is timely. -/
theorem puts_iff_timely (lib : TimeLibrary) (jar : CookieJar) (call : SetCookieCall)
    (hone : AtMostOne jar) (hplain : Plain call.headerValue)
    (hmay : mayStore call.host call.headerValue) :
    ((expired lib call.now call.headerValue →
        Puts jar (setCookie lib jar call) (cookieKey call.host call.headerValue) none) ∧
      (¬ expired lib call.now call.headerValue →
        Puts jar (setCookie lib jar call) (cookieKey call.host call.headerValue)
          (some (pairValue call.headerValue)))) ↔ Timely lib jar call := by
  rcases (readCookie_of_plain lib call hplain).1 hmay with
    ⟨cookie, hread, hkey, hvalue, hdate, hage⟩
  have hset : setCookie lib jar call = storeCookie call.now jar cookie := by
    rw [setCookie, hread]
  -- the other cookies stay in every case
  have hother := filter_other_storeCookie call.now cookie jar
  have hsame := filter_key_storeCookie call.now cookie jar hone
  rw [readMaxAge_of_plain call.headerValue hplain] at hage
  rw [hset, Timely, ← hkey, ← hvalue]
  simp only [Puts, hother, and_true, hsame, Option.toList_none, Option.toList_some]
  -- `Max-Age` is looked at first, and it decides when it is there
  cases hmax : maxAgeOf call.headerValue with
  | some age =>
      rw [hmax] at hage
      have hexp : expired lib call.now call.headerValue ↔ age ≤ 0 := by
        rw [expired, hmax]
      simp only [hexp, erasesKnown_of_age call.now cookie _ hage, hage, true_and,
        clampLong_nonpos_iff, hdate]
      by_cases hneg : age ≤ 0 <;> by_cases hk : Knows jar cookie.key <;>
        simp only [hneg, hk, or_true, true_and, not_true_eq_false, false_and, or_false, if_true,
          List.map_nil, true_implies, false_implies, and_true, and_self, not_false_eq_true,
          false_or, true_or, and_false, if_false, List.map_cons]
      -- A known cookie of a positive age: it stays unless it seems outdated.
      refine ⟨fun h => ?_, fun h => ?_⟩
      · by_contra hlt
        rw [if_pos (by omega)] at h
        exact absurd h.symm (List.cons_ne_nil _ _)
      · rw [if_neg (by omega), List.map_cons, List.map_nil]
  -- without it the date decides
  | none =>
      rw [hmax] at hage
      have herase := erasesKnown_of_ageless call.now cookie hage
      simp only [herase, hage, and_true, Bool.false_eq_true, false_and, and_false, or_false]
      by_cases hk : Knows jar cookie.key <;>
        by_cases he : expired lib call.now call.headerValue <;>
        simp only [hk, he, if_true, if_false, List.map_nil, List.map_cons, true_implies,
          not_true_eq_false, false_implies, and_self, not_false_eq_true, and_true, true_and,
          iff_true, iff_false, iff_self, List.nil_eq, List.cons_ne_nil]

/-- One sound header obeys the law. -/
theorem lawful_of_sound (lib : TimeLibrary) (jar : CookieJar) (call : SetCookieCall)
    (hone : AtMostOne jar) (h : Sound lib jar call) : Lawful lib jar call := by
  refine ⟨atMostOne_setCookie lib jar call hone, ?_, ?_⟩
  · rintro ⟨hnames, hmay⟩
    rcases h with hno | ⟨hplain, htimely⟩
    · exact absurd hnames.1 hno
    · exact (puts_iff_timely lib jar call hone hplain hmay).2 (htimely hmay)
  · intro hno
    have hread : readCookie lib call = none := by
      rcases h with hpair | ⟨hplain, -⟩
      · exact readCookie_of_no_pair lib call hpair
      · refine (readCookie_of_plain lib call hplain).2 (fun hmay => hno ⟨?_, hmay⟩)
        rcases plainPair_places call.headerValue hplain.pair with
          ⟨name, -, -, -, -, -, hpair, -, hne, hmem⟩
        exact ⟨hmem, hpair ▸ hne⟩
    rw [setCookie, hread]

/-- The law along a run of sound headers. -/
theorem setCookies_lawful (lib : TimeLibrary) (jar : CookieJar) (calls : List SetCookieCall)
    (hone : AtMostOne jar) (h : EventRun.Always (setCookie lib) (Sound lib) jar calls) :
    EventRun.Always (setCookie lib) (Lawful lib) jar calls ∧
      AtMostOne (EventRun.run (setCookie lib) jar calls) := by
  refine ⟨?_, ?_⟩
  · refine EventRun.always_of_inv (I := AtMostOne) ?_ ?_ hone h
    · intro jar call hone hsound
      exact lawful_of_sound lib jar call hone hsound
    · intro jar call hone _
      exact atMostOne_setCookie lib jar call hone
  · exact EventRun.inv_run (fun jar call hone => atMostOne_setCookie lib jar call hone) hone calls

/-- A C library without `strptime`. -/
def plainTime : TimeLibrary := ⟨false, fun _ => none⟩

/-- A response of `shop.example.com`. -/
def fromShop (headerValue : String) : SetCookieCall :=
  ⟨"shop.example.com".toList, [], headerValue.toList, 1000, 1000⟩

/-- A header of a pair and a `Max-Age` is plain. -/
theorem plain_of_age (name value digits header : Text) (n : Int)
    (hfields : fields header = [name ++ '=' :: value, " Max-Age=".toList ++ digits])
    (heq : '=' ∉ name) (hne : name ≠ []) (hname : trim name = name) (hvalue : trim value = value)
    (hdigits : digits ≠ []) (htrim : trim digits = digits) (hn : wholeNumber digits = some n)
    (hquiet : Quiet "max-age".toList (name ++ '=' :: value))
    (hdomain : Silent "domain".toList header) : Plain header := by
  refine ⟨⟨name, value, _, hfields, List.cons_ne_nil _ _, heq, hne, hname, hvalue⟩,
    Or.inr ⟨digits, n, ?_, hn⟩, Or.inl hdomain⟩
  refine ⟨[name ++ '=' :: value], " ".toList, "Max-Age".toList, [], hfields, List.cons_ne_nil _ _,
    ?_, rfl, hdigits, htrim, ?_⟩
  · intro c hc
    rw [List.mem_singleton.1 hc]
    rfl
  intro f hf
  rw [List.append_nil, List.mem_singleton] at hf
  rw [hf]
  exact hquiet

/-- A cookie of a positive age, refreshed with a new value and then forgotten. -/
theorem setCookies_lawful_aged :
    EventRun.Always (setCookie plainTime) (Lawful plainTime) []
      [fromShop "sid=1; Max-Age=60", fromShop "sid=2; Max-Age=60", fromShop "sid=; Max-Age=0"] := by
  refine (setCookies_lawful plainTime [] _ (by decide) ?_).1
  have hage : ∀ s n, maxAgeOf (fromShop s).headerValue = some n →
      (n ≤ 0 ∨ 1000 ≤ 1000 + clampLong n) →
      ∀ jar, Timely plainTime jar (fromShop s) := by
    intro s n hn hok jar
    rw [Timely, hn]
    exact hok.imp_right Or.inr
  refine ⟨Or.inr ⟨?_, fun _ => ?_⟩, Or.inr ⟨?_, fun _ => ?_⟩, Or.inr ⟨?_, fun _ => ?_⟩, trivial⟩
  · exact plain_of_age "sid".toList "1".toList "60".toList _ 60 (by decide) (by decide) (by decide)
      (by decide) (by decide) (by decide) (by decide) (by decide) (by decide) (by decide)
  · exact hage _ 60 (by decide) (by decide) _
  · exact plain_of_age "sid".toList "2".toList "60".toList _ 60 (by decide) (by decide) (by decide)
      (by decide) (by decide) (by decide) (by decide) (by decide) (by decide) (by decide)
  · exact hage _ 60 (by decide) (by decide) _
  · exact plain_of_age "sid".toList "".toList "0".toList _ 0 (by decide) (by decide) (by decide)
      (by decide) (by decide) (by decide) (by decide) (by decide) (by decide) (by decide)
  · exact hage _ 0 (by decide) (by decide) _

/-- A session cookie the jar has is erased when it is set again. -/
theorem session_cookie_erased :
    ¬ ∀ calls : List SetCookieCall,
      EventRun.Always (setCookie plainTime) (Lawful plainTime) [] calls := by
  intro h
  have hlaw := (h [fromShop "sid=1; Path=/", fromShop "sid=2; Path=/"]).2.1.2.1
  have hfresh : ¬ expired plainTime (fromShop "sid=2; Path=/").now
      (fromShop "sid=2; Path=/").headerValue := by
    have hexpires : expiresOf plainTime (fromShop "sid=2; Path=/").headerValue = none := by decide
    rintro ⟨date, hdate, -⟩
    rw [hexpires] at hdate
    exact Option.not_mem_none date hdate
  have hdomain : domainOf (fromShop "sid=2; Path=/").headerValue = none := by decide
  have hmay : mayStore (fromShop "sid=2; Path=/").host (fromShop "sid=2; Path=/").headerValue := by
    intro domain hd
    rw [hdomain] at hd
    exact absurd hd (Option.not_mem_none domain)
  -- The jar is empty, and should hold the new value.
  have hempty := ((hlaw ⟨by decide, hmay⟩).2 hfresh).1
  exact absurd hempty (by decide)

end Http

end ArduinoBeken
