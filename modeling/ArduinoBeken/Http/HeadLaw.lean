import ArduinoBeken.Http.BodyLength
import ArduinoBeken.Http.CookieLaw

/-!
# What a Head Specifies

A head specifies a status, a size, a transfer encoding, whether the connection is
kept, a Location and the values that a caller wants collected. Here each is defined
from the fields as a server writes them, and `handleHeaderResponse` is asked for it.

A coding that the client does not have is answered with an error, and a connection
is never kept for HTTP/1.0. The options of a Connection field are looked for as they
are written in lower case.

## Main definitions

* `Head.WellFormed`: The heads of the grammar.
* `Head.size`, `Head.encoding`, `Head.keeps`, `lastValue`: What a head specifies.
* `HTTPClient.header`: A collected value.
* `Obeys`: The client has all that the head specifies.
* `PlainOptions`: Options in lower case.
* `Reads`: What the client has of every head.

## Theorems

* `header_collect`, `header_applyFields`: The collected values.
* `encoding_of_single`, `closing_iff`: What the tests of the code come to.
* `head_read`: What the client has of every head.
-/

namespace ArduinoBeken

namespace Http

open Arrivals

/-! ### What a head specifies -/

/-- The last value of the fields of one name. -/
def lastValue (name : Text) (h : Head) : Option Text :=
  (valuesOf name h.fields).getLast?

/-- The options of a list, in lower case. -/
def optionsOf (value : Text) : List Text :=
  (value.splitOn ',').map fun o => toLowerCase (trim o)

/-- The values of the `Connection` fields. -/
def connections (h : Head) : List Text :=
  valuesOf "Connection".toList h.fields

namespace Head

/-- A head of HTTP/1: a code of three digits, lengths that are one number, and lists
without empty elements. -/
structure WellFormed (h : Head) : Prop where
  plain : h.Plain
  version : ∃ minor, isDigit minor = true ∧ h.version = "HTTP/1.".toList ++ [minor]
  code : h.code.length = 3
  lengths : ∀ v ∈ contentLengths h, v ≠ [] ∧ v.all isDigit = true ∧
    ∀ v' ∈ contentLengths h, scanDigits 10 0 v' = scanDigits 10 0 v
  codings : ∀ v ∈ transferEncodings h, v = [] ∨ [] ∉ optionsOf v

/-- The size, if one is given. -/
def size (h : Head) : Option Nat :=
  (contentLengths h).head?.map (scanDigits 10 0)

/-- The codings of the body, in their order. -/
def codings (h : Head) : List Text :=
  ((transferEncodings h).flatMap optionsOf).filter (· ≠ [])

/-- The transfer encoding, if it is one of those that the client has. -/
def encoding (h : Head) : Option TransferEncoding :=
  match h.codings with
  | [] => some .identity
  | [coding] =>
    if coding = "chunked".toList then some .chunked
    else if coding = "identity".toList then some .identity
    else none
  | _ => none

/-- The options that concern the connection. -/
def options (h : Head) : List Text :=
  (connections h).flatMap optionsOf

/-- The connection is kept: by default, or in HTTP/1.0 if that is said. -/
def keeps (h : Head) : Bool :=
  decide ("close".toList ∉ h.options) &&
    (decide (h.version ≠ "HTTP/1.0".toList) || decide ("keep-alive".toList ∈ h.options))

end Head

/-- The first collected header of the name. -/
def headerOf (hs : List RequestArgument) (name : Text) : Text :=
  match hs.find? (fun h => equalsIgnoreCase h.key name) with
  | some h => h.value
  | none => []

/-- The name is one that was asked for. -/
def Collected (hs : List RequestArgument) (name : Text) : Prop :=
  ∃ h ∈ hs, equalsIgnoreCase h.key name = true

/-- `header(name)`. -/
def HTTPClient.header (c : HTTPClient) (name : Text) : Text :=
  headerOf c.currentHeaders name

/-- The outcome of `handleHeaderResponse` is all that the head specifies, and the
connection is left behind it. -/
structure Obeys (c : HTTPClient) (h : Head) (rest : Text)
    (r : HTTPClient × Source Char × Int) : Prop where
  consumed : items r.2.1.ticks = rest
  code : r.2.2 = h.status
  size : r.1.size = (h.size.map Int.ofNat).getD (-1)
  encoding : ∀ te, h.encoding = some te → r.1.transferEncoding = te
  keeps : r.1.canReuse = (c.reuse && h.keeps)
  location : r.1.location = (lastValue "Location".toList h).getD []
  collected : ∀ name, Collected c.currentHeaders name →
    r.1.header name = (lastValue name h).getD []

/-- Options in lower case. The word `close` occurs only as an option of its own, and
not beside `keep-alive`. -/
def PlainOptions (value : Text) : Prop :=
  toLowerCase value = value ∧
    ("close".toList <:+: value → "close".toList ∈ optionsOf value ∧
      ¬ "keep-alive".toList <:+: value)

/-- What the client has of every head. A coding that it does not have is an error. -/
structure Reads (c : HTTPClient) (h : Head) (rest : Text)
    (r : HTTPClient × Source Char × Int) : Prop where
  consumed : items r.2.1.ticks = rest
  known : (transferEncodings h).length ≤ 1 → ∀ te, h.encoding = some te →
    r.2.2 = h.status ∧ r.1.transferEncoding = te
  unknown : (transferEncodings h).length ≤ 1 → h.encoding = none → r.2.2 = errorEncoding
  size : ∀ n, h.size = some n → n < 2 ^ 31 → r.1.size = n
  unsized : h.size = none → r.1.size = -1
  keeps : (∀ v ∈ connections h, PlainOptions v) →
    r.1.canReuse = (c.reuse && decide (h.version ≠ "HTTP/1.0".toList) &&
      decide ("close".toList ∉ h.options))
  location : ∀ v, lastValue "Location".toList h = some v → r.1.location = v
  collected : ∀ name, Collected c.currentHeaders name →
    r.1.header name = (lastValue name h).getD []

/-! ### Collected values -/

theorem equalsIgnoreCase_iff (s t : Text) :
    equalsIgnoreCase s t = true ↔ toLowerCase s = toLowerCase t := by
  rw [equalsIgnoreCase, beq_iff_eq]

/-- A value is found under its name, and no other is changed. -/
theorem header_collect (name value : Text) (hs : List RequestArgument) (q : Text)
    (hq : Collected hs q) :
    headerOf (HTTPClient.collect name value hs) q =
      if equalsIgnoreCase name q = true then value else headerOf hs q := by
  induction hs with
  | nil =>
      rcases hq with ⟨h, hh, -⟩
      exact absurd hh List.not_mem_nil
  | cons h hs ih =>
      rw [HTTPClient.collect]
      by_cases hname : equalsIgnoreCase h.key name = true
      · rw [if_pos hname]
        -- This is the entry that is set. Its key and the name are the same to any query.
        have hsame : equalsIgnoreCase h.key q = equalsIgnoreCase name q := by
          rw [equalsIgnoreCase, equalsIgnoreCase, (equalsIgnoreCase_iff _ _).1 hname]
        by_cases hkey : equalsIgnoreCase name q = true
        · rw [if_pos hkey]
          simp only [headerOf, List.find?_cons, hsame, hkey]
        · rw [if_neg hkey]
          simp only [headerOf, List.find?_cons, hsame, hkey]
      · rw [if_neg hname]
        by_cases hkey : equalsIgnoreCase h.key q = true
        · -- The query finds this entry, which is not the one of the name.
          have hother : ¬ equalsIgnoreCase name q = true := by
            intro hno
            rw [equalsIgnoreCase_iff] at hkey hno hname
            exact hname (hkey.trans hno.symm)
          rw [if_neg hother]
          simp only [headerOf, List.find?_cons, hkey]
        · have hrest : Collected hs q := by
            rcases hq with ⟨g, hg, hgq⟩
            -- The entry that was asked for is further on.
            rcases List.mem_cons.1 hg with rfl | hg
            · exact absurd hgq hkey
            · exact ⟨g, hg, hgq⟩
          have hskip : ∀ gs, headerOf (h :: gs) q = headerOf gs q := by
            intro gs
            simp only [headerOf, List.find?_cons, hkey]
          rw [hskip, hskip]
          exact ih hrest

theorem keys_collect (name value : Text) (hs : List RequestArgument) :
    (HTTPClient.collect name value hs).map RequestArgument.key =
      hs.map RequestArgument.key := by
  induction hs with
  | nil => rfl
  | cons h hs ih =>
      rw [HTTPClient.collect]
      split
      · rfl
      · rw [List.map_cons, List.map_cons, ih]

theorem collected_of_keys {hs hs' : List RequestArgument} {q : Text}
    (hkeys : hs'.map RequestArgument.key = hs.map RequestArgument.key) (h : Collected hs q) :
    Collected hs' q := by
  rcases h with ⟨g, hg, hgq⟩
  have hmem : g.key ∈ hs'.map RequestArgument.key := by
    rw [hkeys]
    exact List.mem_map_of_mem hg
  rcases List.mem_map.1 hmem with ⟨g', hg', heq⟩
  exact ⟨g', hg', by rw [heq]; exact hgq⟩

/-- The last field of a collected name gives its value. -/
theorem header_applyFields (lib : TimeLibrary) (moment : Moment) (host : Text) (st : HeadState)
    (fields : List Field) (q : Text) (hq : Collected st.answer.currentHeaders q) :
    Collected (applyFields lib moment host st fields).answer.currentHeaders q ∧
      headerOf (applyFields lib moment host st fields).answer.currentHeaders q =
        (valuesOf q fields).getLast?.getD (headerOf st.answer.currentHeaders q) := by
  induction fields generalizing st with
  | nil => exact ⟨hq, rfl⟩
  | cons f fields ih =>
      -- The induction begins behind the first field, with the same keys.
      have hnext := ih { applyField lib moment host st f.name f.value with lines := st.lines + 1 }
        (collected_of_keys (keys_collect f.name f.value st.answer.currentHeaders) hq)
      rw [applyFields, List.foldl_cons]
      refine ⟨hnext.1, hnext.2.trans ?_⟩
      have hone : headerOf (applyField lib moment host st f.name f.value).answer.currentHeaders q =
          if equalsIgnoreCase f.name q = true then f.value
          else headerOf st.answer.currentHeaders q :=
        header_collect f.name f.value st.answer.currentHeaders q hq
      rw [hone, valuesOf_cons]
      by_cases h : equalsIgnoreCase f.name q = true
      · rw [if_pos h, if_pos h, List.getLast?_cons]
        cases (valuesOf q fields).getLast? <;> rfl
      · rw [if_neg h, if_neg h]

theorem header_wiped (hs : List RequestArgument) (q : Text) :
    headerOf (hs.map fun h => { h with value := [] }) q = [] := by
  induction hs with
  | nil => rfl
  | cons h hs ih =>
      unfold headerOf at ih ⊢
      rw [List.map_cons, List.find?_cons]
      by_cases hkey : equalsIgnoreCase h.key q = true
      · simp only [hkey]
      · simp only [hkey]
        exact ih

/-! ### The transfer encoding -/

theorem trim_of_mem_valuesOf (name : Text) (fields : List Field) (v : Text)
    (hv : v ∈ valuesOf name fields) : trim v = v := by
  rcases List.mem_map.1 hv with ⟨f, -, rfl⟩
  exact trim_trim f.raw

/-- A value without a comma is one option. -/
theorem optionsOf_single (v : Text) (htrim : trim v = v) (hcomma : ',' ∉ v) :
    optionsOf v = [toLowerCase v] := by
  have hsplit : v.splitOn ',' = [v] := by
    have hone : ∀ l ∈ [v], ',' ∉ l := by
      intro l hl
      rw [List.mem_singleton.1 hl]
      exact hcomma
    have hsplits : ([','].intercalate [v]).splitOn ',' = [v] :=
      List.splitOn_intercalate ',' hone (List.cons_ne_nil _ _)
    rwa [List.intercalate_singleton] at hsplits
  rw [optionsOf, hsplit, List.map_singleton, htrim]

/-- A value with a comma is several. -/
theorem optionsOf_several (v : Text) (hcomma : ',' ∈ v) :
    ∃ a b rest, optionsOf v = a :: b :: rest := by
  unfold optionsOf
  cases hsplit : v.splitOn ',' with
  | nil => exact absurd hsplit (List.splitOn_ne_nil ',' v)
  | cons a fields =>
      cases fields with
      | nil =>
          -- A single field holds no separator.
          have hjoin : [','].intercalate (v.splitOn ',') = v := List.intercalate_splitOn ','
          rw [hsplit, List.intercalate_singleton] at hjoin
          have hno := Search.sep_not_mem_splitOn ',' v a (by
            rw [hsplit]
            exact List.mem_cons_self)
          rw [hjoin] at hno
          exact absurd hcomma hno
      | cons b fields => exact ⟨_, _, _, rfl⟩

theorem comma_mem_toLowerCase (v : Text) (h : ',' ∈ v) : ',' ∈ toLowerCase v :=
  List.mem_map.2 ⟨',', h, rfl⟩

/-- The test of the code on a value of one field is that of its codings. -/
theorem encoding_of_value (v : Text) (htrim : trim v = v)
    (helements : v = [] ∨ [] ∉ optionsOf v) (h : Head) (hv : transferEncodings h = [v]) :
    h.encoding = if KnownCoding v then some (encodingFor v) else none := by
  -- The tests of the code, on the value in lower case.
  have hknown : KnownCoding v ↔ v = [] ∨ toLowerCase v = "chunked".toList ∨
      toLowerCase v = "identity".toList := by
    unfold KnownCoding
    rw [equalsIgnoreCase_iff, equalsIgnoreCase_iff]
    rfl
  have hfor : encodingFor v = if toLowerCase v = "chunked".toList then .chunked
      else .identity := by
    unfold encodingFor
    simp only [equalsIgnoreCase_iff]
    rfl
  have hcodings : h.codings = (optionsOf v).filter (· ≠ []) := by
    rw [Head.codings, hv, List.flatMap_cons, List.flatMap_nil, List.append_nil]
  unfold Head.encoding
  rw [hcodings]
  rcases helements with rfl | hfull
  · have hnone : (optionsOf []).filter (· ≠ []) = [] := by decide
    rw [hnone, if_pos (show KnownCoding [] from Or.inl rfl)]
    rfl
  · have hall : (optionsOf v).filter (· ≠ []) = optionsOf v := by
      rw [List.filter_eq_self]
      intro o ho
      rw [decide_eq_true_eq]
      rintro rfl
      exact hfull ho
    rw [hall]
    -- A comma makes a list of codings, and none of the words has one.
    by_cases hcomma : ',' ∈ v
    · rcases optionsOf_several v hcomma with ⟨a, b, rest, hoptions⟩
      have hno : ¬ KnownCoding v := by
        have hlower := comma_mem_toLowerCase v hcomma
        rw [hknown]
        rintro (rfl | hch | hid)
        · exact absurd hcomma List.not_mem_nil
        · rw [hch] at hlower
          exact absurd hlower (by decide)
        · rw [hid] at hlower
          exact absurd hlower (by decide)
      rw [hoptions, if_neg hno]
    · rw [optionsOf_single v htrim hcomma, hfor]
      have hne : v ≠ [] := by
        rintro rfl
        exact hfull (by decide)
      by_cases hch : toLowerCase v = "chunked".toList
      · rw [if_pos (hknown.2 (Or.inr (Or.inl hch)))]
        simp only [if_pos hch]
      · by_cases hid : toLowerCase v = "identity".toList
        · rw [if_pos (hknown.2 (Or.inr (Or.inr hid)))]
          simp only [if_neg hch, if_pos hid]
        · have hno : ¬ KnownCoding v := by
            rw [hknown]
            rintro (hnil | hyes | hyes)
            · exact hne hnil
            · exact hch hyes
            · exact hid hyes
          rw [if_neg hno]
          simp only [if_neg hch, if_neg hid]

/-- With one field at most, the client has the encoding exactly if it knows the value. -/
theorem encoding_of_single (h : Head) (hw : h.WellFormed)
    (hsingle : (transferEncodings h).length ≤ 1) :
    h.encoding = if KnownCoding (codingOf h.fields) then
      some (encodingFor (codingOf h.fields)) else none := by
  cases hte : transferEncodings h with
  | nil =>
      -- Without a field the body has no coding.
      have hcoding : codingOf h.fields = [] := by
        rw [codingOf, show valuesOf "Transfer-Encoding".toList h.fields = [] from hte]
        rfl
      have hcodings : h.codings = [] := by
        rw [Head.codings, hte]
        rfl
      rw [hcoding, if_pos (show KnownCoding [] from Or.inl rfl), Head.encoding, hcodings]
      rfl
  | cons v others =>
      cases others with
      | nil =>
          have hcoding : codingOf h.fields = v := by
            rw [codingOf, show valuesOf "Transfer-Encoding".toList h.fields = [v] from hte]
            rfl
          have hmem : v ∈ transferEncodings h := by
            rw [hte]
            exact List.mem_cons_self
          rw [hcoding]
          exact encoding_of_value v (trim_of_mem_valuesOf _ _ v hmem) (hw.codings v hmem) h hte
      | cons v' others =>
          rw [hte, List.length_cons, List.length_cons] at hsingle
          omega

/-! ### The connection -/

/-- What the code takes for a connection that is closed. -/
def Closing (value : Text) : Prop :=
  "close".toList <:+: value ∧ ¬ "keep-alive".toList <:+: value

theorem toLowerCase_of_part {o v : Text} (ho : o <:+: v) (hv : toLowerCase v = v) :
    toLowerCase o = o := by
  have hfix : ∀ c ∈ v, toLower c = c := by
    rw [toLowerCase] at hv
    intro c hc
    -- The character is compared at its place in the value.
    rcases List.append_of_mem hc with ⟨a, b, hab⟩
    rw [hab, List.map_append, List.map_cons] at hv
    have hlen : (a.map toLower).length = a.length := List.length_map _
    exact (List.cons.inj (List.append_inj hv hlen).2).1
  rw [toLowerCase]
  calc o.map toLower = o.map id := List.map_congr_left fun c hc => hfix c (ho.subset hc)
    _ = o := List.map_id o

theorem trim_part (s : Text) : trim s <:+: s := by
  rcases exists_trim_append s with ⟨pad, hpad, -⟩
  refine ⟨s.takeWhile isSpace, pad, ?_⟩
  rw [List.append_assoc, ← hpad, List.takeWhile_append_dropWhile]

/-- In plain options the test of the code finds the option. -/
theorem closing_iff (v : Text) (h : PlainOptions v) :
    Closing v ↔ "close".toList ∈ optionsOf v := by
  constructor
  · intro hclosing
    exact (h.2 hclosing.1).1
  · intro hoption
    rcases List.mem_map.1 hoption with ⟨o, ho, hlower⟩
    -- The option is a part of the value as it is, being in lower case.
    have hpart : trim o <:+: v :=
      (trim_part o).trans (Search.infix_of_mem_splitOn ',' v o ho)
    rw [toLowerCase_of_part hpart h.1] at hlower
    rw [hlower] at hpart
    exact ⟨hpart, (h.2 hpart).2⟩

theorem indexOf_nonneg_iff (s part : Text) (hpart : part ≠ []) :
    0 ≤ indexOf s part 0 ↔ part <:+: s := by
  by_cases hs : s = []
  · subst hs
    rw [List.infix_nil]
    have hend : indexOf [] part 0 = -1 := indexOf_end [] part
    rw [hend]
    exact ⟨fun h => absurd h (by decide), fun h => absurd h hpart⟩
  · rw [indexOf_zero s part hs]
    cases hfind : Search.find part s with
    | none =>
        refine ⟨fun h => absurd h (by decide), fun h => ?_⟩
        exact absurd h ((Search.find_eq_none_iff part s).1 hfind)
    | some n =>
        refine ⟨fun _ => ?_, fun _ => by simp only []; omega⟩
        by_contra hno
        rw [(Search.find_eq_none_iff part s).2 hno] at hfind
        exact absurd hfind (fun hno => nomatch hno)

/-- A field that closes the connection is one of those. -/
theorem canReuse_applyFields (lib : TimeLibrary) (moment : Moment) (host : Text) (st : HeadState)
    (fields : List Field) :
    (applyFields lib moment host st fields).answer.canReuse = true ↔
      st.answer.canReuse = true ∧ ∀ v ∈ valuesOf "Connection".toList fields, ¬ Closing v := by
  -- by induction on the fields; the last one that closes is as good as the first
  induction fields generalizing st with
  | nil =>
      simp only [applyFields, List.foldl_nil, valuesOf, List.filter_nil, List.map_nil,
        List.not_mem_nil, false_implies, implies_true, and_true]
  | cons f fields ih =>
      have hone : (applyField lib moment host st f.name f.value).answer.canReuse = true ↔
          st.answer.canReuse = true ∧
            (equalsIgnoreCase f.name "Connection".toList = true → ¬ Closing f.value) := by
        have hclose := indexOf_nonneg_iff f.value "close".toList (by decide)
        have hkeep := indexOf_nonneg_iff f.value "keep-alive".toList (by decide)
        unfold applyField Closing
        simp only [← hclose, ← hkeep, Int.not_le]
        -- Once closed it stays closed; else this field decides.
        cases st.answer.canReuse with
        | false => simp only [Bool.false_and, Bool.false_eq_true, if_false, false_and]
        | true =>
            cases equalsIgnoreCase f.name "Connection".toList with
            | false =>
                simp only [Bool.and_false, Bool.false_and, Bool.false_eq_true, if_false,
                  false_implies, and_true]
            | true =>
                simp only [Bool.true_and, true_and, true_implies, Bool.and_eq_true,
                  decide_eq_true_eq]
                split
                next h => exact ⟨fun hno => absurd hno Bool.false_ne_true, fun hno => absurd h hno⟩
                next h => exact ⟨fun _ => h, fun _ => rfl⟩
      rw [applyFields, List.foldl_cons]
      refine (ih _).trans ?_
      rw [hone, valuesOf_cons]
      -- only a field of that name counts
      by_cases hname : equalsIgnoreCase f.name "Connection".toList = true
      · rw [if_pos hname, List.forall_mem_cons, and_assoc]
        exact and_congr_right fun _ => and_congr_left' ⟨fun h => h hname, fun h _ => h⟩
      · rw [if_neg hname]
        exact ⟨fun h => ⟨h.1.1, h.2⟩, fun h => ⟨⟨h.1, fun hyes => absurd hyes hname⟩, h.2⟩⟩

/-- HTTP/1.0 is told by the eighth character of the status line. -/
theorem canReuse_statusState (c : HTTPClient) (h : Head) (hp : h.Plain) (minor : Char)
    (hversion : h.version = "HTTP/1.".toList ++ [minor]) :
    (statusState c h).answer.canReuse =
      (c.reuse && decide (h.version ≠ "HTTP/1.0".toList)) := by
  rcases trim_statusLine h hp with ⟨tail, hline, -⟩
  -- The versions differ in the eighth character only.
  have hminor : h.version ≠ "HTTP/1.0".toList ↔ some minor ≠ some '0' := by
    rw [hversion]
    refine not_congr ⟨fun heq => ?_, fun heq => ?_⟩
    · exact congrArg some (List.cons.inj (List.append_cancel_left
        (show "HTTP/1.".toList ++ [minor] = "HTTP/1.".toList ++ ['0'] from heq))).1
    · rw [Option.some.inj heq]
      rfl
  have hstarts : startsWith (trim h.statusLine) "HTTP/1.".toList = true := by
    rw [hline, hversion, List.append_assoc]
    exact List.isPrefixOf_iff_prefix.2 (List.prefix_append _ _)
  have hget : (trim h.statusLine)[7]? = some minor := by
    rw [hline, hversion]
    rfl
  have hset : (statusState c h).answer.canReuse =
      if (c.reuse && startsWith (trim h.statusLine) "HTTP/1.".toList) = true then
        decide ((trim h.statusLine)[7]? ≠ some '0')
      else c.reuse := rfl
  rw [hset, hstarts, hget, Bool.and_true, decide_eq_decide.2 hminor]
  cases c.reuse with
  | true => rfl
  | false => rfl

/-! ### The numbers -/

theorem scanDigits_lt (base v : Nat) (hbase : 0 < base) (s : Text) :
    scanDigits base v s < (v + 1) * base ^ s.length := by
  induction s generalizing v with
  | nil =>
      rw [scanDigits, List.length_nil, Nat.pow_zero, Nat.mul_one]
      exact Nat.lt_succ_self v
  | cons c s ih =>
      have hstop : v < (v + 1) * base ^ (c :: s).length :=
        (Nat.lt_succ_self v).trans_le (Nat.le_mul_of_pos_right _ (Nat.pow_pos hbase))
      rw [scanDigits]
      cases hd : digitValue c with
      | none => exact hstop
      | some d =>
          simp only
          by_cases hlt : d < base
          · rw [if_pos hlt]
            -- A digit is less than the base.
            have hstep : v * base + d + 1 ≤ (v + 1) * base := by
              rw [Nat.add_mul, Nat.one_mul]
              omega
            calc scanDigits base (v * base + d) s
                < (v * base + d + 1) * base ^ s.length := ih (v * base + d)
              _ ≤ (v + 1) * base * base ^ s.length := Nat.mul_le_mul_right _ hstep
              _ = (v + 1) * base ^ (c :: s).length := by
                  rw [List.length_cons, Nat.pow_succ', Nat.mul_assoc]
          · rw [if_neg hlt]
            exact hstop

/-- A code of three digits is read in full. -/
theorem clampLong_status (h : Head) (hw : h.WellFormed) : clampLong h.status = h.status := by
  refine clampLong_of_fits h.status ?_
  have hlt := scanDigits_lt 10 0 (by decide) h.code
  rw [hw.code] at hlt
  rw [Head.status]
  omega

/-- Any of the lengths is the size. -/
theorem sizeOf_of_size (h : Head) (hw : h.WellFormed) (n : Nat) (hn : h.size = some n)
    (hfits : n < 2 ^ 31) : sizeOf h.fields = n := by
  cases hlengths : contentLengths h with
  | nil =>
      rw [Head.size, hlengths] at hn
      exact absurd hn (fun hno => nomatch hno)
  | cons v others =>
      rw [Head.size, hlengths] at hn
      have hv : scanDigits 10 0 v = n := Option.some.inj hn
      have hmem : v ∈ contentLengths h := by
        rw [hlengths]
        exact List.mem_cons_self
      -- The last length is the one that counts, and the first is the size: they are one number.
      rw [size_of_lengths h n (by rw [hlengths]; exact List.cons_ne_nil _ _) ?_,
        clampLong_of_fits n hfits]
      intro v' hv'
      exact ⟨(hw.lengths v' hv').1, (hw.lengths v' hv').2.1,
        ((hw.lengths v hmem).2.2 v' hv').trans hv⟩

theorem sizeOf_of_unsized (h : Head) (hn : h.size = none) : sizeOf h.fields = -1 := by
  have hnone : valuesOf "Content-Length".toList h.fields = [] := by
    rw [Head.size, Option.map_eq_none_iff, List.head?_eq_none_iff] at hn
    exact hn
  rw [sizeOf, hnone]
  rfl

/-! ### A whole head -/

/-- The empty line is taken for a field without a name. -/
theorem readLine_nil (lib : TimeLibrary) (moment : Moment) (host : Text) (st : HeadState)
    (hst : st.firstLine = false) :
    readLine lib moment host st [] =
      { applyField lib moment host st [] [] with lines := st.lines + 1 } := by
  rw [readLine]
  simp only [hst, Bool.false_eq_true, if_false]
  rfl

theorem finishHead_frame (st : HeadState) :
    (finishHead st).1.canReuse = st.answer.canReuse ∧
      (finishHead st).1.location = st.answer.location ∧
      (finishHead st).1.currentHeaders = st.answer.currentHeaders := by
  unfold finishHead
  by_cases hnil : st.transferEncoding = []
  · rw [if_pos hnil]
    exact ⟨rfl, rfl, rfl⟩
  · by_cases hch : equalsIgnoreCase st.transferEncoding "chunked".toList = true
    · rw [if_neg hnil, if_pos hch]
      exact ⟨rfl, rfl, rfl⟩
    · by_cases hid : equalsIgnoreCase st.transferEncoding "identity".toList = true
      · rw [if_neg hnil, if_neg hch, if_pos hid]
        exact ⟨rfl, rfl, rfl⟩
      · rw [if_neg hnil, if_neg hch, if_neg hid]
        exact ⟨rfl, rfl, rfl⟩

theorem location_applyFields (lib : TimeLibrary) (moment : Moment) (host : Text) (st : HeadState)
    (fields : List Field) :
    (applyFields lib moment host st fields).answer.location =
      (valuesOf "Location".toList fields).getLast?.getD st.answer.location := by
  have hlast := last_applyFields lib moment host (fun st => st.answer.location)
    "Location".toList id (fun _ _ => rfl) st fields
  refine hlast.trans ?_
  cases (valuesOf "Location".toList fields).getLast? with
  | none => rfl
  | some v => rfl

/-- No field is without a name. -/
theorem valuesOf_nil_name (fields : List Field) (h : ∀ f ∈ fields, f.Plain) :
    valuesOf [] fields = [] := by
  rw [valuesOf, List.map_eq_nil_iff, List.filter_eq_nil_iff]
  intro f hf hname
  rw [equalsIgnoreCase_iff] at hname
  exact (h f hf).1 (List.map_eq_nil_iff.1 hname)

/-- The client has what the fields set, the empty line for one without a name. -/
theorem handleHeaderResponse_sets (lib : TimeLibrary) (moment : Moment) (c : HTTPClient)
    (h : Head) (hp : h.Plain) (s : Source Char) (hprompt : Prompt s.ticks) (rest : Text)
    (hitems : items s.ticks = headText h.lines ++ rest) :
    ∃ st, st = applyField lib moment c.host
        (applyFields lib moment c.host (statusState c h) h.fields) [] [] ∧
      (handleHeaderResponse lib moment c s).1.canReuse = st.answer.canReuse ∧
      (handleHeaderResponse lib moment c s).1.location = st.answer.location ∧
      (handleHeaderResponse lib moment c s).1.currentHeaders = st.answer.currentHeaders := by
  rcases handleHeaderResponse_eq lib moment c h hp s hprompt rest hitems with
    ⟨ticks', st, -, -, -, hst, hhandle⟩
  rw [readLine_nil lib moment c.host _
    ((firstLine_applyFields lib moment c.host (statusState c h) h.fields).trans rfl)] at hst
  rw [hhandle]
  refine ⟨_, rfl, ?_⟩
  have hframe := finishHead_frame st
  rw [hst] at hframe ⊢
  exact hframe

/-- The collected values are those of the head, whatever was collected before. -/
theorem collected_of_head (c : HTTPClient) (lib : TimeLibrary) (moment : Moment) (host : Text)
    (h : Head) (hp : h.Plain) (q : Text) (hq : Collected c.currentHeaders q) :
    headerOf (applyField lib moment host (applyFields lib moment host
      (statusState c.wipeHeaders h) h.fields) [] []).answer.currentHeaders q =
        (lastValue q h).getD [] := by
  have hwiped : Collected c.wipeHeaders.currentHeaders q := by
    refine collected_of_keys ?_ hq
    rw [HTTPClient.wipeHeaders, List.map_map]
    rfl
  have hlast := header_applyFields lib moment host (statusState c.wipeHeaders h) h.fields q hwiped
  -- What was collected before has been wiped out.
  have hstart : headerOf (statusState c.wipeHeaders h).answer.currentHeaders q = [] :=
    header_wiped c.currentHeaders q
  rw [hstart] at hlast
  refine (header_collect [] [] _ q hlast.1).trans ?_
  by_cases hempty : equalsIgnoreCase [] q = true
  · -- The name is empty, and no field has it.
    have hnil : q = [] := List.map_eq_nil_iff.1 ((equalsIgnoreCase_iff [] q).1 hempty).symm
    rw [if_pos hempty, lastValue, hnil, valuesOf_nil_name h.fields hp.fields]
    rfl
  · rw [if_neg hempty]
    exact hlast.2

theorem options_closed_iff (h : Head) (hplain : ∀ v ∈ connections h, PlainOptions v) :
    "close".toList ∉ h.options ↔ ∀ v ∈ connections h, ¬ Closing v := by
  rw [Head.options, List.mem_flatMap, not_exists]
  refine forall_congr' fun v => ?_
  rw [not_and]
  exact forall_congr' fun hv => not_congr (closing_iff v (hplain v hv)).symm

/-- The connection is kept unless a field closes it. -/
theorem keeps_of_head (c : HTTPClient) (lib : TimeLibrary) (moment : Moment) (host : Text)
    (h : Head) (hw : h.WellFormed) (hplain : ∀ v ∈ connections h, PlainOptions v) :
    (applyField lib moment host (applyFields lib moment host (statusState c h) h.fields)
      [] []).answer.canReuse =
        (c.reuse && decide (h.version ≠ "HTTP/1.0".toList) &&
          decide ("close".toList ∉ h.options)) := by
  rcases hw.version with ⟨minor, -, hversion⟩
  have hfields := canReuse_applyFields lib moment host (statusState c h) h.fields
  -- The empty line is one field more, which is no Connection field.
  have hempty := canReuse_applyFields lib moment host
    (applyFields lib moment host (statusState c h) h.fields) [⟨[], []⟩]
  have hno : valuesOf "Connection".toList [⟨[], []⟩] = [] := rfl
  rw [hno, hfields, canReuse_statusState c h hw.plain minor hversion] at hempty
  rw [Bool.eq_iff_iff, Bool.and_eq_true (_ && _), decide_eq_true_iff,
    options_closed_iff h hplain]
  exact hempty.trans (and_iff_left fun v hv => absurd hv List.not_mem_nil)

/-- What the client has of every head, however it arrives and whatever the client
held before. -/
theorem head_read (lib : TimeLibrary) (moment : Moment) (c : HTTPClient) (h : Head)
    (hw : h.WellFormed) (s : Source Char) (hprompt : Prompt s.ticks) (rest : Text)
    (hitems : items s.ticks = headText h.lines ++ rest) :
    Reads c h rest (handleHeaderResponse lib moment c.wipeHeaders s) := by
  -- What the body depends on is known already; the rest is what the fields have set.
  rcases handleHeaderResponse_of_head lib moment c.wipeHeaders h hw.plain s hprompt rest hitems
    with ⟨ticks', hrest, -, -, hleft, hsize, hknown, hunknown⟩
  rcases handleHeaderResponse_sets lib moment c.wipeHeaders h hw.plain s hprompt rest hitems
    with ⟨st, hst, hreuse, hlocation, hheaders⟩
  exact
    { consumed := by
        rw [hleft]
        exact hrest
      known := by
        intro hsingle te hte
        rw [encoding_of_single h hw hsingle] at hte
        by_cases hk : KnownCoding (codingOf h.fields)
        · rw [if_pos hk] at hte
          rw [(hknown hk).2, clampLong_status h hw, (hknown hk).1]
          exact ⟨rfl, Option.some.inj hte⟩
        · rw [if_neg hk] at hte
          exact absurd hte (fun hno => nomatch hno)
      unknown := by
        intro hsingle hte
        rw [encoding_of_single h hw hsingle] at hte
        by_cases hk : KnownCoding (codingOf h.fields)
        · rw [if_pos hk] at hte
          exact absurd hte (fun hno => nomatch hno)
        · exact hunknown hk
      size := fun n hn hfits => hsize.trans (sizeOf_of_size h hw n hn hfits)
      unsized := fun hn => hsize.trans (sizeOf_of_unsized h hn)
      keeps := by
        intro hplain
        rw [hreuse, hst]
        exact keeps_of_head c.wipeHeaders lib moment c.wipeHeaders.host h hw hplain
      location := by
        intro v hv
        have hlast := location_applyFields lib moment c.wipeHeaders.host
          (statusState c.wipeHeaders h) h.fields
        rw [show (valuesOf "Location".toList h.fields).getLast? = some v from hv] at hlast
        rw [hlocation, hst]
        exact hlast
      collected := by
        intro name hname
        rw [HTTPClient.header, hheaders, hst]
        exact collected_of_head c lib moment c.wipeHeaders.host h hw.plain name hname }

/-- A response to a client that has collected a value before. -/
def taggedHead : Head :=
  ⟨"HTTP/1.1".toList, "200".toList, "OK".toList,
    [⟨"content-length".toList, " 5".toList⟩, ⟨"CONNECTION".toList, "close".toList⟩,
      ⟨"etag".toList, " a:b".toList⟩, ⟨"Transfer-Encoding".toList, "Identity".toList⟩]⟩

theorem taggedHead_wellFormed : taggedHead.WellFormed where
  plain := by decide
  version := ⟨'1', rfl, rfl⟩
  code := rfl
  lengths := by decide
  codings := by decide

theorem head_read_tagged :
    Reads { currentHeaders := [⟨"ETag".toList, "old".toList⟩] } taggedHead []
      (handleHeaderResponse plainTime ⟨0, fun _ => 0⟩
        (HTTPClient.wipeHeaders { currentHeaders := [⟨"ETag".toList, "old".toList⟩] })
        ⟨.wait :: (headText taggedHead.lines).map .item, .stays⟩) := by
  have hprompt : Prompt (.wait :: (headText taggedHead.lines).map .item) := by
    intro t ht
    rcases List.mem_cons.1 ht with rfl | ht
    · exact fun hno => nomatch hno
    · exact prompt_map_item _ t ht
  exact head_read plainTime ⟨0, fun _ => 0⟩ _ taggedHead taggedHead_wellFormed _ hprompt []
    ((items_map_item _).trans (List.append_nil _).symm)

/-- A response in a coding that the client does not have. -/
def zippedHead : Head :=
  ⟨"HTTP/1.1".toList, "200".toList, "OK".toList,
    [⟨"Transfer-Encoding".toList, " gzip".toList⟩]⟩

theorem zippedHead_wellFormed : zippedHead.WellFormed where
  plain := by decide
  version := ⟨'1', rfl, rfl⟩
  code := rfl
  lengths := by decide
  codings := by decide

/-- Its status is not returned. -/
theorem zipped_status_lost :
    ¬ ∀ (lib : TimeLibrary) (moment : Moment) (c : HTTPClient) (h : Head), h.WellFormed →
      ∀ s : Source Char, Prompt s.ticks → ∀ rest, items s.ticks = headText h.lines ++ rest →
        Obeys c h rest (handleHeaderResponse lib moment c.wipeHeaders s) := by
  intro hall
  let s : Source Char := ⟨(headText zippedHead.lines).map .item, .stays⟩
  have hitems : items s.ticks = headText zippedHead.lines ++ [] :=
    (items_map_item _).trans (List.append_nil _).symm
  have hobeys := hall plainTime ⟨0, fun _ => 0⟩ {} zippedHead zippedHead_wellFormed s
    (prompt_map_item _) [] hitems
  rcases handleHeaderResponse_of_head plainTime ⟨0, fun _ => 0⟩ (HTTPClient.wipeHeaders {})
    zippedHead zippedHead_wellFormed.plain s (prompt_map_item _) [] hitems with
    ⟨ticks', -, -, -, -, -, -, hunknown⟩
  -- The code returns an error, and the status is 200.
  have herror := hunknown (by decide)
  rw [hobeys.code] at herror
  exact absurd herror (by decide)

end Http

end ArduinoBeken
