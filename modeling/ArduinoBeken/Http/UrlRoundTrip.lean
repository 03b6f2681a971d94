import ArduinoBeken.Http.SetCookie
import ArduinoBeken.Http.Targets

/-!
# URLs Composed and Read Back

`begin` takes a URL apart by one search after the other, for the colon behind
the scheme, the slash behind the authority, the `@` behind a user's name and the
colon before a port. Here URLs are composed of their parts, and `begin` is asked
for the parts again. It finds them unless the host is an address with colons,
the query follows the authority directly, or the port does not fit in 16 bits.

## Main definitions

* `UrlParts`, `UrlParts.compose`: The parts, and the URL made of them.
* `Opening`, `World.begun`: The two forms of `begin` for both schemes.
* `ReadsBack`, `Inverts`: Reading is the inverse of composing.

## Theorems

* `readUrl_at_slash`, `readUrl_without_slash`, `readAuthority_at`,
  `readHost_colon`: What each search finds.
* `stores_begun`: `begin` stores what was read.
* `inverts_iff`: The URLs that are read back.
-/

namespace ArduinoBeken

namespace Http

/-! ### Searches for a character -/

theorem indexOfChar_here (u v : Text) (c : Char) (h : c ∉ u) :
    indexOfChar (u ++ c :: v) c 0 = u.length := by
  have hne : u ++ c :: v ≠ [] := List.append_ne_nil_of_right_ne_nil _ (List.cons_ne_nil _ _)
  rw [indexOfChar, indexOf_zero _ _ hne, Search.find_singleton c u v h]

theorem indexOfChar_absent (s : Text) (c : Char) (h : c ∉ s) : indexOfChar s c 0 = -1 := by
  rw [indexOfChar, indexOf_eq_neg_one_iff s [c] (List.cons_ne_nil _ _)]
  intro hpart
  exact h (hpart.subset (List.mem_singleton.2 rfl))

theorem remove_before (u v : Text) : remove (u ++ v) 0 u.length = v := by
  rw [remove, List.take_zero, List.nil_append, Nat.zero_add, List.drop_left]

/-- The text behind a character. -/
theorem remove_through (u v : Text) (c : Char) : remove (u ++ c :: v) 0 (u.length + 1) = v := by
  have hbefore := remove_before (u ++ [c]) v
  rwa [List.append_assoc, List.singleton_append, List.length_append, List.length_singleton]
    at hbefore

/-! ### What the searches find -/

/-- The search for a port, in an authority without a credential. -/
theorem readHost_colon (auth : Option Text) (host port uri : Text) (h : ':' ∉ host) :
    readHost auth (host ++ ':' :: port) uri =
      { auth, host, port := some (toInt port % 65536).toNat, uri } := by
  have hlen : ((host.length : Int) + 1).toNat = host.length + 1 := by omega
  unfold readHost
  simp only [indexOfChar_here host port ':' h]
  rw [if_pos (by omega), substring_before, hlen, remove_through]

theorem readHost_without_colon (auth : Option Text) (host uri : Text) (h : ':' ∉ host) :
    readHost auth host uri = { auth, host, port := none, uri } := by
  unfold readHost
  simp only [indexOfChar_absent host ':' h]
  rw [if_neg (by omega)]

/-- The search for a credential. -/
def readAuthority (authority uri : Text) : Url :=
  let index := indexOfChar authority '@' 0
  if 0 ≤ index then
    readHost (some (substring authority 0 index)) (remove authority 0 (index + 1).toNat) uri
  else readHost none authority uri

theorem readAuthority_at (auth host uri : Text) (h : '@' ∉ auth) :
    readAuthority (auth ++ '@' :: host) uri = readHost (some auth) host uri := by
  have hlen : ((auth.length : Int) + 1).toNat = auth.length + 1 := by omega
  unfold readAuthority
  simp only [indexOfChar_here auth host '@' h]
  rw [if_pos (by omega), substring_before, hlen, remove_through]

theorem readAuthority_without_at (authority uri : Text) (h : '@' ∉ authority) :
    readAuthority authority uri = readHost none authority uri := by
  unfold readAuthority
  simp only [indexOfChar_absent authority '@' h]
  rw [if_neg (by omega)]

/-- The text behind the scheme. -/
theorem remove_scheme (protocol rest : Text) (h : ':' ∉ protocol) :
    remove (protocol ++ ':' :: '/' :: '/' :: rest) 0
      (indexOfChar (protocol ++ ':' :: '/' :: '/' :: rest) ':' 0 + 3).toNat = rest := by
  -- The three characters behind the scheme go with it.
  have hlen : ((protocol.length : Int) + 3).toNat = (protocol ++ [':', '/', '/']).length := by
    rw [List.length_append]
    exact Int.toNat_natCast (protocol.length + 3)
  have := remove_before (protocol ++ [':', '/', '/']) rest
  rw [List.append_assoc] at this
  rw [indexOfChar_here protocol _ ':' h, hlen]
  exact this

/-- The authority ends before the first slash. -/
theorem readUrl_at_slash (protocol authority path : Text) (h : ':' ∉ protocol)
    (hauthority : '/' ∉ authority) :
    readUrl (protocol ++ ':' :: '/' :: '/' :: (authority ++ '/' :: path)) =
      readAuthority authority ('/' :: path) := by
  have hslash : (authority.length : Int) ≠ -1 := by omega
  unfold readUrl
  rw [remove_scheme protocol _ h]
  simp only [indexOfChar_here authority path '/' hauthority, if_neg hslash, substring_before,
    Int.toNat_natCast, remove_before]
  rfl

/-- Without a slash, one is appended. -/
theorem readUrl_without_slash (protocol authority : Text) (h : ':' ∉ protocol)
    (hauthority : '/' ∉ authority) :
    readUrl (protocol ++ ':' :: '/' :: '/' :: authority) = readAuthority authority ['/'] := by
  unfold readUrl
  rw [remove_scheme protocol _ h]
  simp only [indexOfChar_absent authority '/' hauthority, if_true, substring_before,
    Int.toNat_natCast, remove_before]
  rfl

/-- A host is read up to a colon, and a port into 16 bits. -/
theorem readHost_bounds (auth : Option Text) (host uri : Text) :
    ':' ∉ (readHost auth host uri).host ∧ (∀ n ∈ (readHost auth host uri).port, n < 65536) ∧
      (readHost auth host uri).uri = uri := by
  -- A host with a colon is cut off at the first one.
  by_cases h : ':' ∈ host
  · rcases List.eq_append_cons_of_mem h with ⟨before, port, rfl, hbefore⟩
    rw [readHost_colon auth before port uri hbefore]
    refine ⟨hbefore, ?_, rfl⟩
    intro n hn
    rw [Option.mem_some_iff] at hn
    omega
  · rw [readHost_without_colon auth host uri h]
    exact ⟨h, fun n hn => absurd hn (Option.not_mem_none n), rfl⟩

theorem readAuthority_bounds (authority uri : Text) :
    ':' ∉ (readAuthority authority uri).host ∧
      (∀ n ∈ (readAuthority authority uri).port, n < 65536) ∧
        (readAuthority authority uri).uri = uri := by
  by_cases h : '@' ∈ authority
  · rcases List.eq_append_cons_of_mem h with ⟨auth, host, rfl, hauth⟩
    rw [readAuthority_at auth host uri hauth]
    exact readHost_bounds (some auth) host uri
  · rw [readAuthority_without_at authority uri h]
    exact readHost_bounds none authority uri

/-! ### The two forms of `begin` -/

/-- A call of `begin` that takes URLs of both schemes: with a client object of
the sketch's, or with one of its own. -/
inductive Opening where
  | withClient (client : Nat)
  | own

/-- The world after `begin`, and what it returned. -/
def World.begun (w : World) (opening : Opening) (url : Text) : World × Bool :=
  match opening with
  | .withClient client => w.beginClientUrl client url
  | .own => w.beginUrl url

/-- The URL is accepted, and its parts are stored: the port of the scheme when
it has none. -/
structure Stores (r : World × Bool) (protocol : Text) (u : Url) : Prop where
  accepted : r.2 = true
  host : r.1.http.host = u.host
  port : r.1.http.port = u.port.getD (portFor protocol)
  uri : r.1.http.uri = u.uri
  authorization : ∀ auth ∈ u.auth, r.1.http.base64Authorization = base64Encode auth

/-- Aiming stores the parts, with the port of the scheme as it was set before. -/
theorem stores_aim (v : World) (protocol : Text) (u : Url)
    (hport : v.http.port = portFor protocol) :
    Stores (v.aim protocol u, true) protocol u := by
  refine ⟨rfl, rfl, ?_, rfl, ?_⟩
  · rw [← hport]
    rfl
  · intro auth hauth
    rw [Option.mem_def] at hauth
    simp only [World.aim, hauth, Option.map_some, Option.getD_some]

theorem beginInternal_known (v : World) (url protocol : Text)
    (h : urlProtocol url = some protocol) :
    v.beginInternal url protocol = (v.aim protocol (readUrl url), true) := by
  rw [World.beginInternal_eq, urlTarget_of_protocol _ _ _ h, if_pos (List.mem_singleton.2 rfl)]

theorem stores_beginUrlCert (w : World) (url : Text) (CAcert : Option Text)
    (h : urlProtocol url = some "https".toList) :
    Stores (w.beginUrlCert url CAcert) "https".toList (readUrl url) := by
  have haim := stores_aim { w.beginOwn with http := { w.beginOwn.http with port := 443 } }
    "https".toList (readUrl url) rfl
  unfold World.beginUrlCert
  simp only [beginInternal_known _ url _ h, if_true]
  exact ⟨rfl, haim.host, haim.port, haim.uri, haim.authorization⟩

/-- What `begin` reads in a URL of a known scheme is what it stores. -/
theorem stores_begun (w : World) (opening : Opening) (url protocol : Text)
    (h : urlProtocol url = some protocol)
    (hknown : protocol = "http".toList ∨ protocol = "https".toList) :
    Stores (w.begun opening url) protocol (readUrl url) := by
  cases opening with
  | withClient client =>
      unfold World.begun World.beginClientUrl
      -- What was open before does not matter to what is stored.
      generalize w.endMixed w.http.tcpDeprecated.isSome = v
      simp only [h]
      rw [if_neg (fun hne => hknown.elim hne.1 hne.2), beginInternal_known _ url _ h]
      have haim := stores_aim { v with
        http := { v.http with
          client := some client, port := portFor protocol,
          secure := decide (protocol = "https".toList) }
        fresh := max v.fresh (client + 1) } protocol (readUrl url) rfl
      exact ⟨rfl, haim.host, haim.port, haim.uri, haim.authorization⟩
  | own =>
      unfold World.begun World.beginUrl
      rcases hknown with rfl | rfl
      · have haim := stores_aim { w.beginOwn with http := { w.beginOwn.http with port := 80 } }
          "http".toList (readUrl url) rfl
        simp only [beginInternal_known _ url _ h, if_true]
        exact ⟨rfl, haim.host, haim.port, haim.uri, haim.authorization⟩
      · -- The first attempt expects the other scheme.
        have hother : urlTarget ["http".toList] url = none := by
          rw [urlTarget_of_protocol _ _ _ h, if_neg (by decide)]
        simp only [World.beginInternal_eq _ url "http".toList, hother, h, Bool.false_eq_true,
          if_false]
        exact stores_beginUrlCert _ url none h

/-! ### Composition -/

/-- The parts of a URL. A colon stands in a host only within the brackets of an
address, and digits write the port. -/
structure UrlParts where
  protocol : Text
  userInfo : Option Text
  host : Text
  port : Option Text
  target : Text
  known : protocol = "http".toList ∨ protocol = "https".toList
  userInfo_plain : ∀ u ∈ userInfo, '/' ∉ u ∧ '@' ∉ u
  host_plain : ∀ c ∈ ['/', '?', '#', '@'], c ∉ host
  host_colon : ':' ∈ host → host.head? = some '[' ∧ host.getLast? = some ']'
  port_digits : ∀ digits ∈ port, digits ≠ [] ∧ digits.all isDigit = true
  target_start : target = [] ∨ target.head? = some '/' ∨ target.head? = some '?'

namespace UrlParts

/-- The host, and the port if there is one. -/
def place (p : UrlParts) : Text :=
  match p.port with
  | some digits => p.host ++ ':' :: digits
  | none => p.host

/-- The user-info, the host and the port. -/
def authority (p : UrlParts) : Text :=
  match p.userInfo with
  | some u => u ++ '@' :: p.place
  | none => p.place

/-- The URL of the parts. -/
def compose (p : UrlParts) : Text :=
  p.protocol ++ ':' :: '/' :: '/' :: (p.authority ++ p.target)

/-- The number of the port. -/
def number (p : UrlParts) : Option Nat :=
  p.port.map (scanDigits 10 0)

/-- The path is `/` where it is empty. -/
def uri (p : UrlParts) : Text :=
  if p.target.head? = some '/' then p.target else '/' :: p.target

/-- What a URL of the parts is to be read as. -/
def written (p : UrlParts) : Url :=
  { auth := p.userInfo, host := p.host, port := p.number, uri := p.uri }

/-- The host is not an address with colons, a path stands before a query, and
the port fits in 16 bits. -/
def Plain (p : UrlParts) : Prop :=
  ':' ∉ p.host ∧ p.target.head? ≠ some '?' ∧ ∀ n ∈ p.number, n ≤ 65535

instance (p : UrlParts) : Decidable p.Plain :=
  inferInstanceAs (Decidable (_ ∧ _ ∧ _))

end UrlParts

/-- `begin` finds the parts of the URL composed of them, and accepts none with a
port that is not the one written. -/
def Inverts (w : World) (opening : Opening) (p : UrlParts) : Prop :=
  ((∀ n ∈ p.number, n ≤ 65535) → Stores (w.begun opening p.compose) p.protocol p.written) ∧
    ((w.begun opening p.compose).2 = true →
      ∀ n ∈ p.number, (w.begun opening p.compose).1.http.port = n)

namespace UrlParts

variable (p : UrlParts)

theorem colon_not_mem_protocol : ':' ∉ p.protocol := by
  rcases p.known with h | h
  · rw [h]
    decide
  · rw [h]
    decide

theorem urlProtocol_compose : urlProtocol p.compose = some p.protocol := by
  have hcolon := p.colon_not_mem_protocol
  unfold urlProtocol compose
  simp only [indexOfChar_here p.protocol _ ':' hcolon, substring_before]
  exact if_neg (by omega)

theorem digit_of_mem_port (digits : Text) (h : digits ∈ p.port) (c : Char) (hc : c ∈ digits) :
    isDigit c = true :=
  List.all_eq_true.1 (p.port_digits digits h).2 c hc

/-- A mark that ends the host does not occur in the place. -/
theorem not_mem_place (c : Char) (hc : c ∈ ['/', '?', '#', '@']) : c ∉ p.place := by
  have hdigit : isDigit c = false := by
    simp only [List.mem_cons, List.not_mem_nil, or_false] at hc
    rcases hc with rfl | rfl | rfl | rfl <;> decide
  unfold place
  -- A mark is neither in the host nor the colon nor a digit.
  cases hport : p.port with
  | none => exact p.host_plain c hc
  | some digits =>
      intro hm
      rcases List.mem_append.1 hm with hm | hm
      · exact p.host_plain c hc hm
      · rcases List.mem_cons.1 hm with rfl | hm
        · revert hc
          decide
        · rw [p.digit_of_mem_port digits hport c hm] at hdigit
          exact absurd hdigit.symm Bool.false_ne_true

theorem slash_not_mem_authority : '/' ∉ p.authority := by
  have hplace := p.not_mem_place '/' (by decide)
  unfold authority
  cases huser : p.userInfo with
  | none => exact hplace
  | some u =>
      intro hm
      rcases List.mem_append.1 hm with hm | hm
      · exact (p.userInfo_plain u huser).1 hm
      · rcases List.mem_cons.1 hm with hm | hm
        · exact absurd hm (by decide)
        · exact hplace hm

/-- The digits of a port are read as its number, in 16 bits. -/
theorem toInt_port (digits : Text) (h : digits ∈ p.port) (hfits : scanDigits 10 0 digits ≤ 65535) :
    (toInt digits % 65536).toNat = scanDigits 10 0 digits := by
  rcases p.port_digits digits h with ⟨hne, hdigits⟩
  rw [toInt, strtol_of_digits digits hne hdigits, clampLong]
  omega

/-- The search for a port finds the one written. -/
theorem readHost_place (auth : Option Text) (uri : Text) (hcolon : ':' ∉ p.host)
    (hfits : ∀ n ∈ p.number, n ≤ 65535) :
    readHost auth p.place uri = { auth, host := p.host, port := p.number, uri } := by
  unfold place
  cases hport : p.port with
  | none =>
      rw [readHost_without_colon auth p.host uri hcolon, number, hport]
      rfl
  | some digits =>
      have hn : scanDigits 10 0 digits ∈ p.number := by
        rw [number, hport]
        rfl
      -- The port is cut to 16 bits, which it fits in.
      have hread := p.toInt_port digits hport (hfits _ hn)
      rw [readHost_colon auth p.host digits uri hcolon, hread, number, hport]
      rfl

theorem readAuthority_authority (uri : Text) (hcolon : ':' ∉ p.host)
    (hfits : ∀ n ∈ p.number, n ≤ 65535) :
    readAuthority p.authority uri =
      { auth := p.userInfo, host := p.host, port := p.number, uri } := by
  unfold authority
  cases huser : p.userInfo with
  | none =>
      rw [readAuthority_without_at p.place uri (p.not_mem_place '@' (by decide))]
      exact p.readHost_place none uri hcolon hfits
  | some u =>
      rw [readAuthority_at u p.place uri (p.userInfo_plain u huser).2]
      exact p.readHost_place (some u) uri hcolon hfits

/-- The authority is cut off at the target when that is empty or a path. -/
theorem readUrl_compose (h : p.target.head? ≠ some '?') :
    readUrl p.compose = readAuthority p.authority p.uri := by
  have hslash := p.slash_not_mem_authority
  unfold compose uri
  cases htarget : p.target with
  | nil =>
      rw [List.append_nil]
      exact readUrl_without_slash p.protocol p.authority p.colon_not_mem_protocol hslash
  | cons c path =>
      -- A target that is neither empty nor a query begins with a slash.
      rcases p.target_start with hstart | hstart | hstart
      · rw [htarget] at hstart
        exact absurd hstart (List.cons_ne_nil c path)
      · rw [htarget] at hstart
        rw [if_pos hstart]
        obtain rfl : c = '/' := Option.some.inj hstart
        exact readUrl_at_slash p.protocol p.authority path p.colon_not_mem_protocol hslash
      · exact absurd hstart h

/-- A query that follows the authority loses what stands before its first
slash. -/
theorem readUrl_query (query : Text) (h : p.target = '?' :: query) :
    (readUrl p.compose).uri ≠ p.uri := by
  have huri : p.uri = '/' :: '?' :: query := by
    have hhead : ('?' :: query).head? ≠ some '/' := by
      intro heq
      exact absurd (Option.some.inj heq) (by decide)
    rw [uri, h, if_neg hhead]
  rw [huri, compose, h]
  -- Up to the first slash, the query is taken for a part of the authority.
  have hauthority : ∀ before, '/' ∉ before → '/' ∉ p.authority ++ '?' :: before := by
    intro before hbefore hm
    rcases List.mem_append.1 hm with hm | hm
    · exact p.slash_not_mem_authority hm
    · rcases List.mem_cons.1 hm with hm | hm
      · exact absurd hm (by decide)
      · exact hbefore hm
  by_cases hslash : '/' ∈ query
  · rcases List.eq_append_cons_of_mem hslash with ⟨before, path, rfl, hbefore⟩
    have hsplit : p.authority ++ '?' :: (before ++ '/' :: path) =
        (p.authority ++ '?' :: before) ++ '/' :: path := by
      rw [List.append_assoc, List.cons_append]
    rw [hsplit, readUrl_at_slash p.protocol _ path p.colon_not_mem_protocol
      (hauthority before hbefore), (readAuthority_bounds _ _).2.2]
    intro heq
    -- The path that is read is shorter than the query.
    have := congrArg List.length heq
    simp only [List.length_cons, List.length_append] at this
    omega
  · rw [readUrl_without_slash p.protocol _ p.colon_not_mem_protocol (hauthority query hslash),
      (readAuthority_bounds _ _).2.2]
    exact fun heq => absurd heq (by simp only [List.cons.injEq, reduceCtorEq, and_false,
      not_false_eq_true])

/-- Plain parts are read back. -/
theorem readUrl_compose_plain (h : p.Plain) : readUrl p.compose = p.written := by
  rw [p.readUrl_compose h.2.1]
  exact p.readAuthority_authority p.uri h.1 h.2.2

end UrlParts

/-- Whatever the URL, the host read has no colon, and the port fits in 16
bits. -/
theorem readUrl_bounds (protocol rest : Text) (h : ':' ∉ protocol) :
    ':' ∉ (readUrl (protocol ++ ':' :: '/' :: '/' :: rest)).host ∧
      ∀ n ∈ (readUrl (protocol ++ ':' :: '/' :: '/' :: rest)).port, n < 65536 := by
  by_cases hslash : '/' ∈ rest
  · rcases List.eq_append_cons_of_mem hslash with ⟨authority, path, rfl, hauthority⟩
    rw [readUrl_at_slash protocol authority path h hauthority]
    have hread := readAuthority_bounds authority ('/' :: path)
    exact ⟨hread.1, hread.2.1⟩
  · rw [readUrl_without_slash protocol rest h hslash]
    have hread := readAuthority_bounds rest ['/']
    exact ⟨hread.1, hread.2.1⟩

theorem portFor_lt (protocol : Text) : portFor protocol < 65536 := by
  unfold portFor
  split <;> omega

/-- `begin` reads back what was composed exactly if the host is not an address
with colons, a path stands before a query, and the port fits in 16 bits. -/
theorem inverts_iff (w : World) (opening : Opening) (p : UrlParts) :
    Inverts w opening p ↔ p.Plain := by
  have hstores := stores_begun w opening p.compose p.protocol p.urlProtocol_compose p.known
  constructor
  · intro h
    have hread := readUrl_bounds p.protocol (p.authority ++ p.target) p.colon_not_mem_protocol
    -- What is stored as the port fits in 16 bits, and it is the number written.
    have hfits : ∀ n ∈ p.number, n ≤ 65535 := by
      intro n hn
      rw [← h.2 hstores.accepted n hn, hstores.port]
      cases hport : (readUrl p.compose).port with
      | none => exact Nat.le_of_lt_succ (portFor_lt p.protocol)
      | some m => exact Nat.le_of_lt_succ (hread.2 m hport)
    have hwritten := h.1 hfits
    refine ⟨?_, ?_, hfits⟩
    · have hhost : p.host = (readUrl p.compose).host := hwritten.host.symm.trans hstores.host
      -- The host that is read ends at a colon, so the one written has none.
      rw [hhost]
      exact hread.1
    · intro hquery
      -- A query right behind the host is not read back.
      cases htarget : p.target with
      | nil =>
          rw [htarget] at hquery
          exact absurd hquery (by decide)
      | cons c query =>
          rw [htarget] at hquery
          obtain rfl : c = '?' := Option.some.inj hquery
          exact p.readUrl_query query htarget (hstores.uri.symm.trans hwritten.uri)
  · intro h
    rw [p.readUrl_compose_plain h] at hstores
    refine ⟨fun _ => hstores, ?_⟩
    intro _ n hn
    rw [hstores.port, UrlParts.written, hn]
    rfl

instance (s t : Text) : Decidable (∀ c ∈ s, c ∉ t) :=
  List.decidableBAll _ _

/-- A query right behind the host. -/
def queryOnly : UrlParts where
  protocol := "http".toList
  userInfo := none
  host := "h".toList
  port := none
  target := "?x=1".toList
  known := Or.inl rfl
  userInfo_plain := fun u hu => absurd hu (Option.not_mem_none u)
  host_plain := by decide
  host_colon := by decide
  port_digits := fun digits hdigits => absurd hdigits (Option.not_mem_none digits)
  target_start := by decide

/-- The query is taken for a part of the host. -/
theorem query_kept_in_host : ¬ Inverts {} (.withClient 0) queryOnly := by
  intro h
  have hwritten := (h.1 (fun n hn => absurd hn (Option.not_mem_none n))).host
  have hstores := (stores_begun {} (.withClient 0) queryOnly.compose queryOnly.protocol
    queryOnly.urlProtocol_compose queryOnly.known).host
  -- The host that is stored ends with the query.
  have hread : (readUrl queryOnly.compose).host = "h?x=1".toList := by decide
  rw [hstores, hread] at hwritten
  exact absurd hwritten (by decide)

end Http

end ArduinoBeken
