import ArduinoBeken.Http.Request

/-!
# Lines of a Head

The headers of a request are one string, to which `addHeader` adds a line and
from which it takes one. Here that string is read as its lines: which of them
are fields of a name, and what `addHeader` does to these; and the fields of the
whole head that `sendHeader` writes are its own lines and those of the string.

## Main definitions

* `linesOf`, `isField`, `fieldsOf`: The lines of a text, and its fields.
* `Whole`: A text of whole lines.
* `Unbroken`: A client whose texts have no line break in them.

## Theorems

* `dropLine_hit`, `dropLine_miss`, `dropLine_cases`: One line is taken, or none.
* `whole_withLine`, `fieldsOf_withLine`: What `addHeader` does.
* `fieldsOf_headOf`: The fields of a head.
-/

namespace ArduinoBeken

namespace Http

/-- The lines of a header block. -/
def linesOf (text : Text) : List Text :=
  text.splitOn '\n'

/-- The line is a header field of the name. -/
def isField (name line : Text) : Bool :=
  decide (':' ∈ line) && equalsIgnoreCase (line.takeWhile (· ≠ ':')) name

/-- The lines of a name. -/
def fieldsOf (name text : Text) : List Text :=
  (linesOf text).filter (isField name)

/-- The text is made of lines with their ends. -/
def Whole (text : Text) : Prop :=
  text = [] ∨ ∃ s, text = s ++ ['\n']

/-! ### Lines -/

theorem linesOf_line (line : Text) (h : '\n' ∉ line) : linesOf line = [line] :=
  List.splitOn_eq_singleton h

/-- A line end splits the lines of a text. -/
theorem linesOf_append_line (a b : Text) : linesOf (a ++ '\n' :: b) = linesOf a ++ linesOf b :=
  List.splitOn_append_cons_self a b

/-- A line without a colon is no field. -/
theorem not_isField_of_no_colon (name line : Text) (h : ':' ∉ line) :
    isField name line = false := by
  rw [isField, decide_eq_false h, Bool.false_and]

@[simp] theorem fieldsOf_nil (name : Text) : fieldsOf name [] = [] := rfl

/-- A line end splits the fields of a text. -/
theorem fieldsOf_append_line (name a b : Text) :
    fieldsOf name (a ++ '\n' :: b) = fieldsOf name a ++ fieldsOf name b := by
  rw [fieldsOf, linesOf_append_line, List.filter_append, fieldsOf, fieldsOf]

/-- The fields of one line are that line or nothing. -/
theorem fieldsOf_line (name line : Text) (h : '\n' ∉ line) :
    fieldsOf name line = if isField name line then [line] else [] := by
  rw [fieldsOf, linesOf_line line h, List.filter_singleton]
  cases isField name line <;> rfl

/-- A line with its end. -/
theorem fieldsOf_ended (name line : Text) (h : '\n' ∉ line) :
    fieldsOf name (line ++ ['\n']) = if isField name line then [line] else [] := by
  rw [fieldsOf_append_line, fieldsOf_nil, List.append_nil, fieldsOf_line name line h]

/-- The fields of whole lines and a text are those of both. -/
theorem fieldsOf_append (name a b : Text) (h : Whole a) :
    fieldsOf name (a ++ b) = fieldsOf name a ++ fieldsOf name b := by
  rcases h with rfl | ⟨s, rfl⟩
  · rfl
  · rw [List.append_assoc, List.singleton_append, fieldsOf_append_line, fieldsOf_append_line,
      fieldsOf_nil, List.append_nil]

/-- Whole lines after whole lines are whole lines. -/
theorem Whole.append {a b : Text} (ha : Whole a) (hb : Whole b) : Whole (a ++ b) := by
  rcases hb with rfl | ⟨s, rfl⟩
  · rwa [List.append_nil]
  · exact Or.inr ⟨a ++ s, (List.append_assoc a s ['\n']).symm⟩

/-- A line with its end is whole. -/
theorem whole_ended (line : Text) : Whole (line ++ ['\n']) :=
  Or.inr ⟨line, rfl⟩

/-- A whole text that goes on has a line to its end. -/
theorem Whole.first_line {text : Text} (h : Whole text) (hne : text ≠ []) :
    ∃ line rest, text = line ++ '\n' :: rest ∧ '\n' ∉ line := by
  have hmem : '\n' ∈ text := by
    rcases h with rfl | ⟨s, rfl⟩
    · exact absurd rfl hne
    · exact List.mem_append_right s List.mem_cons_self
  exact List.eq_append_cons_of_mem hmem

/-- The rest of whole lines is whole. -/
theorem Whole.tail_of_append {a b : Text} (h : Whole (a ++ b)) : Whole b := by
  rcases h with h | ⟨s, h⟩
  · exact Or.inl (List.append_eq_nil_iff.1 h).2
  · by_cases hb : b = []
    · exact Or.inl hb
    · rcases List.eq_nil_or_concat b with hnil | ⟨b', c, hc⟩
      · exact absurd hnil hb
      · rw [List.concat_eq_append] at hc
        rw [hc, ← List.append_assoc] at h
        have hlast := List.append_inj_right' h rfl
        exact Or.inr ⟨b', by rw [hc, hlast]⟩

/-! ### Adding a header -/

/-- The line that `addHeader` adds. -/
def headerLine (name value : Text) : Text :=
  name ++ ": ".toList ++ value ++ "\r\n".toList

namespace HTTPClient

/-- The first place of the start is the front of a line, which is taken off. -/
theorem dropLine_hit (before line after start : Text) (hbefore : Whole before)
    (hline : '\n' ∉ line)
    (hfind : Search.find start (before ++ (line ++ '\n' :: after)) = some before.length) :
    dropLine (before ++ (line ++ '\n' :: after)) start = before ++ after := by
  have hheaders : before ++ (line ++ '\n' :: after) ≠ [] :=
    List.append_ne_nil_of_right_ne_nil _
      (List.append_ne_nil_of_right_ne_nil _ (List.cons_ne_nil _ _))
  have hfirst : indexOf (before ++ (line ++ '\n' :: after)) start 0 = (before.length : Int) := by
    rw [indexOf_zero _ start hheaders, hfind]
  -- The hit is the front of a line: of the whole text, or behind a line feed.
  have hfront : (before.length : Int) ≠ -1 ∧ ((before.length : Int) = 0 ∨
      (before ++ (line ++ '\n' :: after))[((before.length : Int) - 1).toNat]? = some '\n') := by
    refine ⟨by omega, ?_⟩
    rcases hbefore with rfl | ⟨s, rfl⟩
    · exact Or.inl rfl
    · right
      have hpos : (((s ++ ['\n']).length : Int) - 1).toNat = s.length := by
        rw [List.length_append, List.length_singleton]
        omega
      rw [hpos, List.append_assoc, List.getElem?_append_right (Nat.le_refl _), Nat.sub_self]
      rfl
  -- The line ends at the first line feed behind the hit, which is not part of `line`.
  have hends : indexOfChar (before ++ (line ++ '\n' :: after)) '\n' (before.length : Int) =
      ((before ++ line).length : Int) := by
    rw [indexOfChar, indexOf_append before _ _
      (List.append_ne_nil_of_right_ne_nil _ (List.cons_ne_nil _ _)),
      Search.find_singleton '\n' _ after hline]
    simp only [List.length_append]
  have hright : substringFrom (before ++ (line ++ '\n' :: after))
      (((before ++ line).length : Int) + 1) = after := by
    have hcut := substring_from (before ++ (line ++ ['\n'])) after
    have hlength : (before ++ (line ++ ['\n'])).length = (before ++ line).length + 1 := by
      simp only [List.length_append, List.length_singleton]
      omega
    rw [hlength, List.append_assoc, List.append_assoc, List.singleton_append] at hcut
    exact_mod_cast hcut
  unfold dropLine
  simp only [hfirst]
  rw [if_pos hfront, hends, substring_before before (line ++ '\n' :: after), hright]

/-- Otherwise nothing is taken off. -/
theorem dropLine_miss (headers start : Text)
    (h : ∀ before rest, headers = before ++ rest →
      Search.find start headers = some before.length → ¬ Whole before) :
    dropLine headers start = headers := by
  unfold dropLine
  by_cases hfound : indexOf headers start 0 ≠ -1 ∧ (indexOf headers start 0 = 0 ∨
      headers[(indexOf headers start 0 - 1).toNat]? = some '\n')
  · -- A line would be taken off, so the hit is the front of one, against `h`.
    exfalso
    have hheaders : headers ≠ [] := by
      rintro rfl
      exact hfound.1 (indexOf_end [] start)
    have hfirst := indexOf_zero headers start hheaders
    -- the first hit decides, and the source looks at no other
    cases hfind : Search.find start headers with
    | none =>
        rw [hfind] at hfirst
        exact absurd hfirst hfound.1
    | some n =>
        rw [hfind] at hfirst
        simp only [] at hfirst
        rcases Search.find_split start headers n hfind with ⟨before, rest, hsplit, rfl⟩
        refine h before _ hsplit hfind ?_
        -- the hit is at the front, or behind the end of a line
        rcases hfound.2 with hzero | hprev
        · rw [hfirst] at hzero
          exact Or.inl (List.length_eq_zero_iff.1 (by omega))
        · rcases List.eq_nil_or_concat before with rfl | ⟨s, c, rfl⟩
          · exact Or.inl rfl
          · rw [List.concat_eq_append] at hsplit hfirst ⊢
            have hpos : (indexOf headers start 0 - 1).toNat = s.length := by
              rw [hfirst, List.length_append, List.length_singleton]
              omega
            rw [hpos, hsplit, List.append_assoc, List.getElem?_append_right (Nat.le_refl _),
              Nat.sub_self] at hprev
            exact Or.inr ⟨s, by rw [Option.some.inj hprev]⟩
  · rw [if_neg hfound]

/-- The line that is taken off whole lines begins as it should. -/
theorem dropLine_whole (before rest start : Text) (h : Whole (before ++ rest)) (hne : start ≠ [])
    (hfind : Search.find start (before ++ rest) = some before.length) (hbefore : Whole before) :
    ∃ line after, rest = line ++ '\n' :: after ∧ Whole after ∧ '\n' ∉ line ∧
      ('\n' ∉ start → start <+: line) ∧ dropLine (before ++ rest) start = before ++ after := by
  have htail : Whole rest := h.tail_of_append
  rcases Search.find_split start _ _ hfind with ⟨before', rest', hsplit, hlen⟩
  obtain ⟨rfl, rfl⟩ := List.append_inj hsplit hlen.symm
  -- The line ends behind what it begins with.
  rcases htail.first_line (List.append_ne_nil_of_left_ne_nil hne rest') with
    ⟨line, after, hline, hlf⟩
  have hafter : Whole after := by
    rw [hline, List.append_cons] at htail
    exact htail.tail_of_append
  have hbegins : '\n' ∉ start → start <+: line := fun hstart =>
    Search.prefix_of_prefix_append_sep hstart (hline ▸ List.prefix_append start rest')
  rw [hline] at hfind ⊢
  exact ⟨line, after, rfl, hafter, hlf, hbegins,
    dropLine_hit before line after start hbefore hlf hfind⟩

/-- Taking a line off a block of whole lines takes one that begins as it should,
or none. -/
theorem dropLine_cases (headers start : Text) (h : Whole headers) (hne : start ≠ []) :
    dropLine headers start = headers ∨
      ∃ before line after, headers = before ++ (line ++ '\n' :: after) ∧ Whole before ∧
        Whole after ∧ '\n' ∉ line ∧ ('\n' ∉ start → start <+: line) ∧
        dropLine headers start = before ++ after := by
  by_cases hhit : ∃ before rest, headers = before ++ rest ∧
      Search.find start headers = some before.length ∧ Whole before
  · right
    rcases hhit with ⟨before, rest, rfl, hfind, hbefore⟩
    rcases dropLine_whole before rest start h hne hfind hbefore with
      ⟨line, after, rfl, hafter, hlf, hbegins, hdrop⟩
    exact ⟨before, line, after, rfl, hbefore, hafter, hlf, hbegins, hdrop⟩
  · left
    exact dropLine_miss headers start fun before rest hsplit hfind hbefore =>
      hhit ⟨before, rest, hsplit, hfind, hbefore⟩

/-- Taking a line out of whole lines leaves whole lines. -/
theorem whole_dropLine (headers start : Text) (h : Whole headers) (hne : start ≠ []) :
    Whole (dropLine headers start) := by
  rcases dropLine_cases headers start h hne with heq | ⟨_, _, _, -, hb, ha, -, -, heq⟩
  · rwa [heq]
  · rw [heq]
    exact hb.append ha

/-- No field is added by taking a line off. -/
theorem fieldsOf_dropLine (field headers start : Text) (h : Whole headers) (hne : start ≠ []) :
    (fieldsOf field (dropLine headers start)).Sublist (fieldsOf field headers) := by
  rcases dropLine_cases headers start h hne with
    heq | ⟨before, line, after, hsplit, hb, -, -, -, heq⟩
  · rw [heq]
  · rw [heq, hsplit, fieldsOf_append _ _ _ hb, fieldsOf_append _ _ _ hb, fieldsOf_append_line]
    exact (List.Sublist.refl _).append (List.sublist_append_right _ _)

end HTTPClient

/-- A field's start is never empty, so a search for it is one for something. -/
theorem start_ne_nil (name : Text) : name ++ ": ".toList ≠ [] :=
  List.append_ne_nil_of_right_ne_nil _ (List.cons_ne_nil _ _)

/-- The header block behind the taking off that `replace` asks for. -/
def keptLines (headers name : Text) (replace : Bool) : Text :=
  if replace then HTTPClient.dropLine headers (name ++ ": ".toList) else headers

/-- What `addHeader` keeps of whole lines is whole. -/
theorem whole_keptLines (headers name : Text) (replace : Bool) (h : Whole headers) :
    Whole (keptLines headers name replace) := by
  unfold keptLines
  cases replace with
  | false => exact h
  | true => exact HTTPClient.whole_dropLine headers _ h (start_ne_nil name)

/-- What `addHeader` keeps has no field that was not there. -/
theorem fieldsOf_keptLines (field headers name : Text) (replace : Bool) (h : Whole headers) :
    (fieldsOf field (keptLines headers name replace)).Sublist (fieldsOf field headers) := by
  unfold keptLines
  cases replace with
  | false => exact List.Sublist.refl _
  | true => exact HTTPClient.fieldsOf_dropLine field headers _ h (start_ne_nil name)

/-- `addHeader` puts the new line before or behind what it keeps. -/
theorem withLine_eq (headers name value : Text) (first replace : Bool) :
    HTTPClient.withLine headers name value first replace =
      if first then headerLine name value ++ keptLines headers name replace
      else keptLines headers name replace ++ headerLine name value := by
  cases replace <;> rfl

/-- A header line is whole. -/
theorem whole_headerLine (name value : Text) : Whole (headerLine name value) :=
  Or.inr ⟨name ++ ": ".toList ++ value ++ ['\r'], by
    rw [headerLine, List.append_assoc _ ['\r']]
    rfl⟩

/-- `addHeader` leaves whole lines. -/
theorem whole_withLine (headers name value : Text) (first replace : Bool) (h : Whole headers) :
    Whole (HTTPClient.withLine headers name value first replace) := by
  have hkept := whole_keptLines headers name replace h
  rw [withLine_eq]
  cases first with
  | false => exact hkept.append (whole_headerLine name value)
  | true => exact (whole_headerLine name value).append hkept

/-- The fields of a block with a line more: those that are kept, and the new
one. -/
theorem fieldsOf_withLine (field headers name value : Text) (first replace : Bool)
    (h : Whole headers) :
    fieldsOf field (HTTPClient.withLine headers name value first replace) =
      if first then
        fieldsOf field (headerLine name value) ++ fieldsOf field (keptLines headers name replace)
      else
        fieldsOf field (keptLines headers name replace) ++
          fieldsOf field (headerLine name value) := by
  rw [withLine_eq]
  cases first with
  | false => exact fieldsOf_append field _ _ (whole_keptLines headers name replace h)
  | true => exact fieldsOf_append field _ _ (whole_headerLine name value)

/-- A prefix without a colon is read over. -/
theorem takeWhile_of_no_colon (a b : Text) (h : ':' ∉ a) :
    (a ++ b).takeWhile (· ≠ ':') = a ++ b.takeWhile (· ≠ ':') := by
  refine List.takeWhile_append_of_pos ?_
  intro c hc
  refine decide_eq_true ?_
  rintro rfl
  exact h hc

/-- A line that begins with a name is a field of that name only. -/
theorem isField_of_name (field name line : Text) (h : ':' ∉ name) :
    isField field (name ++ ':' :: line) = equalsIgnoreCase name field := by
  have htake : (name ++ ':' :: line).takeWhile (· ≠ ':') = name := by
    rw [takeWhile_of_no_colon name _ h, List.takeWhile_cons_of_neg (by decide), List.append_nil]
  rw [isField, htake, decide_eq_true (List.mem_append_right name List.mem_cons_self),
    Bool.true_and]

/-- The field of a header line. -/
theorem fieldsOf_headerLine (field name value : Text) (hname : '\n' ∉ name)
    (hvalue : '\n' ∉ value) :
    fieldsOf field (headerLine name value) =
      if isField field (name ++ ": ".toList ++ value ++ ['\r']) then
        [name ++ ": ".toList ++ value ++ ['\r']]
      else [] := by
  have hline : '\n' ∉ name ++ ": ".toList ++ value ++ ['\r'] := by
    simp only [List.mem_append, not_or]
    exact ⟨⟨⟨hname, by decide⟩, hvalue⟩, by decide⟩
  rw [← fieldsOf_ended field _ hline, headerLine, List.append_assoc _ ['\r']]
  rfl

/-! ### The whole head -/

/-- No text that goes into a head has a line break in it, and the method has no
colon. -/
structure Unbroken (c : HTTPClient) (type : Text) : Prop where
  type : '\n' ∉ type ∧ ':' ∉ type
  uri : '\n' ∉ c.uri
  host : '\n' ∉ c.host
  userAgent : '\n' ∉ c.userAgent
  authorizationType : '\n' ∉ c.authorizationType
  cookies : ∀ jar, c.cookieJar = some jar → ∀ cookie ∈ jar, '\n' ∉ pairText cookie

instance (c : HTTPClient) (type : Text) : Decidable (Unbroken c type) :=
  decidable_of_iff
    (('\n' ∉ type ∧ ':' ∉ type) ∧ '\n' ∉ c.uri ∧ '\n' ∉ c.host ∧ '\n' ∉ c.userAgent ∧
      '\n' ∉ c.authorizationType ∧ ∀ cookie ∈ c.cookieJar.getD [], '\n' ∉ pairText cookie)
    ⟨fun ⟨htype, huri, hhost, hagent, hauth, hcookies⟩ => ⟨htype, huri, hhost, hagent, hauth,
        fun jar hjar cookie hcookie => hcookies cookie (by rw [hjar]; exact hcookie)⟩,
      fun h => ⟨h.type, h.uri, h.host, h.userAgent, h.authorizationType, fun cookie hcookie => by
        cases hjar : c.cookieJar with
        | none =>
            rw [hjar] at hcookie
            exact absurd hcookie List.not_mem_nil
        | some jar =>
            rw [hjar] at hcookie
            exact h.cookies jar hjar cookie hcookie⟩⟩

/-- A name of which `sendHeader` writes no line of its own, but for the
credential. -/
def Foreign (field : Text) : Prop :=
  ' ' ∉ toLowerCase field ∧ equalsIgnoreCase "Host".toList field = false ∧
    equalsIgnoreCase "User-Agent".toList field = false ∧
    equalsIgnoreCase "Connection".toList field = false ∧
    equalsIgnoreCase "Accept-Encoding".toList field = false

instance (field : Text) : Decidable (Foreign field) :=
  inferInstanceAs (Decidable (_ ∧ _ ∧ _ ∧ _ ∧ _))

/-- A decimal number has no line feed. -/
theorem lf_not_mem_decimal (n : Nat) : '\n' ∉ World.decimal n := by
  intro h
  have hdigit := Nat.isDigit_of_mem_toDigits (b := 10) (by omega) (by omega) h
  exact absurd hdigit (by decide)

/-- The first line of a head is no field. -/
theorem not_isField_requestLine (field type rest : Text) (hfield : ' ' ∉ toLowerCase field)
    (htype : ':' ∉ type) : isField field (type ++ ' ' :: rest) = false := by
  have htake : (type ++ ' ' :: rest).takeWhile (· ≠ ':') =
      type ++ ' ' :: rest.takeWhile (· ≠ ':') := by
    rw [takeWhile_of_no_colon type _ htype, List.takeWhile_cons_of_pos (by decide)]
  rw [isField, htake, Bool.and_eq_false_iff]
  right
  rw [equalsIgnoreCase, beq_eq_false_iff_ne]
  intro heq
  apply hfield
  rw [← heq, toLowerCase, List.map_append, List.map_cons]
  exact List.mem_append_right _ List.mem_cons_self

/-- A line of another name is passed over. -/
theorem fieldsOf_named (field name line rest : Text) (hcolon : ':' ∉ name) (hlf : '\n' ∉ line)
    (hname : '\n' ∉ name) (h : equalsIgnoreCase name field = false) :
    fieldsOf field ((name ++ ':' :: line) ++ '\n' :: rest) = fieldsOf field rest := by
  have hline : '\n' ∉ name ++ ':' :: line := by
    rw [List.mem_append, List.mem_cons, not_or, not_or]
    exact ⟨hname, by decide, hlf⟩
  rw [fieldsOf_append_line, fieldsOf_line _ _ hline, isField_of_name field name line hcolon, h,
    if_neg Bool.false_ne_true, List.nil_append]

/-- The authorization line is whole, where there is one. -/
theorem whole_authorizationField (c : HTTPClient) : Whole (authorizationField c) := by
  unfold authorizationField
  split
  · exact Or.inl rfl
  · exact Or.inr ⟨"Authorization: ".toList ++ c.authorizationType ++ ' ' ::
      withoutChar c.base64Authorization '\n' ++ ['\r'], by
        rw [List.append_assoc _ ['\r']]
        rfl⟩

/-- The fields of a head are those of its credential and of the header block. -/
theorem fieldsOf_headOf (field : Text) (hfield : Foreign field) (c : HTTPClient) (type : Text)
    (h : Unbroken c type) (hwhole : Whole c.headers) :
    fieldsOf field (headOf c type) =
      fieldsOf field (authorizationField c) ++ fieldsOf field c.headers := by
  rcases hfield with ⟨hblank, hhost, hagent, hconnection, haccept⟩
  let port : Text := if c.port ≠ 80 ∧ c.port ≠ 443 then ':' :: World.decimal c.port else []
  let keep : Text := if c.reuse then "keep-alive".toList else "close".toList
  let version : Text := if c.useHTTP10 then ['0'] else ['1']
  let accept : Text := if c.useHTTP10 then []
    else "Accept-Encoding: identity;q=1,chunked;q=0.1,*;q=0\r\n".toList
  have hport : '\n' ∉ port := by
    simp only [port]
    split
    · rw [List.mem_cons, not_or]
      exact ⟨by decide, lf_not_mem_decimal c.port⟩
    · exact List.not_mem_nil
  have hkeep : '\n' ∉ keep := by
    simp only [keep]
    split <;> decide
  have hversion : '\n' ∉ version := by
    simp only [version]
    split <;> decide
  -- the head line by line
  have hlines : headOf c type =
      (type ++ ' ' :: (c.uri ++ " HTTP/1.".toList ++ version ++ ['\r'])) ++ '\n' ::
        (("Host".toList ++ ':' :: (' ' :: c.host ++ port ++ ['\r'])) ++ '\n' ::
          (("User-Agent".toList ++ ':' :: (' ' :: c.userAgent ++ ['\r'])) ++ '\n' ::
            (("Connection".toList ++ ':' :: (' ' :: keep ++ ['\r'])) ++ '\n' ::
              (accept ++ (authorizationField c ++ (c.headers ++ "\r\n".toList)))))) := by
    simp only [headOf, List.append_assoc, List.cons_append]
    rfl
  -- Its own lines have other names.
  have hrequest : isField field
      (type ++ ' ' :: (c.uri ++ " HTTP/1.".toList ++ version ++ ['\r'])) = false :=
    not_isField_requestLine field type _ hblank h.type.2
  have haccepted : ∀ rest, fieldsOf field (accept ++ rest) = fieldsOf field rest := by
    intro rest
    simp only [accept]
    split
    · rfl
    · exact fieldsOf_named field "Accept-Encoding".toList
        " identity;q=1,chunked;q=0.1,*;q=0\r".toList rest (by decide) (by decide) (by decide)
        haccept
  rw [hlines, fieldsOf_append_line, fieldsOf_line _ _ (by
      simp only [List.mem_append, List.mem_cons, not_or]
      exact ⟨h.type.1, by decide, ⟨⟨h.uri, by decide⟩, hversion⟩, by decide⟩), hrequest,
    if_neg Bool.false_ne_true, List.nil_append,
    fieldsOf_named field "Host".toList _ _ (by decide) (by
      simp only [List.mem_append, List.mem_cons, not_or]
      exact ⟨⟨⟨by decide, h.host⟩, hport⟩, by decide⟩) (by decide) hhost,
    fieldsOf_named field "User-Agent".toList _ _ (by decide) (by
      simp only [List.mem_append, List.mem_cons, not_or]
      exact ⟨⟨by decide, h.userAgent⟩, by decide⟩) (by decide) hagent,
    fieldsOf_named field "Connection".toList _ _ (by decide) (by
      simp only [List.mem_append, List.mem_cons, not_or]
      exact ⟨⟨by decide, hkeep⟩, by decide⟩) (by decide) hconnection,
    haccepted, fieldsOf_append field _ _ (whole_authorizationField c),
    fieldsOf_append field _ _ hwhole]
  -- the empty line at the end is no field
  have hend : fieldsOf field "\r\n".toList = [] := by
    rw [show "\r\n".toList = ['\r'] ++ ['\n'] from rfl, fieldsOf_ended field ['\r'] (by decide),
      not_isField_of_no_colon field ['\r'] (by decide)]
    rfl
  rw [hend, List.append_nil]

/-! ### The headers that the code adds -/

/-- The header block with the length of the payload. -/
def lengthLine (headers payload : Text) : Text :=
  if payload = [] then headers
  else HTTPClient.withLine headers "Content-Length".toList (World.decimal payload.length) false true

/-- The cookies that go with a request. -/
def cookieText (c : HTTPClient) (now : Int) : Option Text :=
  c.cookieJar.bind fun jar => (generateCookieString c.host c.secure now jar).2

/-- The header block as it is sent. -/
def preparedHeaders (c : HTTPClient) (payload : Text) (now : Int) : Text :=
  match cookieText c now with
  | some cookie_string =>
    HTTPClient.withLine (lengthLine c.headers payload) "Cookie".toList cookie_string false true
  | none => lengthLine c.headers payload

/-- The jar behind the erasing of what has expired. -/
def remainingJar (c : HTTPClient) (now : Int) : Option CookieJar :=
  c.cookieJar.map fun jar => jar.filter (!expiredAt now ·)

/-- Parts without line feeds, put together without one, have none. -/
theorem lf_not_mem_intercalate (sep : Text) (hsep : '\n' ∉ sep) (parts : List Text)
    (h : ∀ part ∈ parts, '\n' ∉ part) : '\n' ∉ sep.intercalate parts := by
  induction parts with
  | nil => exact List.not_mem_nil
  | cons part parts ih =>
      have hrest := ih (fun q hq => h q (List.mem_cons_of_mem part hq))
      cases parts with
      | nil =>
          rw [List.intercalate_singleton]
          exact h part List.mem_cons_self
      | cons q parts =>
          rw [List.intercalate_cons_cons]
          simp only [List.mem_append, not_or]
          exact ⟨⟨h part List.mem_cons_self, hsep⟩, hrest⟩

/-- Cookies without line breaks give a text without. -/
theorem lf_not_mem_cookieText (c : HTTPClient) (now : Int)
    (h : ∀ jar, c.cookieJar = some jar → ∀ cookie ∈ jar, '\n' ∉ pairText cookie)
    (cookie_string : Text) (hs : cookieText c now = some cookie_string) :
    '\n' ∉ cookie_string := by
  rcases Option.bind_eq_some_iff.1 hs with ⟨jar, hjar, htext⟩
  simp only [generateCookieString] at htext
  split at htext
  · exact absurd htext (fun hno => nomatch hno)
  · rw [← Option.some.inj htext]
    refine lf_not_mem_intercalate _ (by decide) _ ?_
    intro part hpart
    rcases List.mem_map.1 hpart with ⟨cookie, hcookie, rfl⟩
    exact h jar hjar cookie (List.mem_filter.1 hcookie).1

/-- The headers with the length line are whole. -/
theorem whole_lengthLine (headers payload : Text) (h : Whole headers) :
    Whole (lengthLine headers payload) := by
  unfold lengthLine
  split
  · exact h
  · exact whole_withLine headers _ _ false true h

/-- The prepared headers are whole where the user's are. -/
theorem whole_preparedHeaders (c : HTTPClient) (payload : Text) (now : Int)
    (h : Whole c.headers) : Whole (preparedHeaders c payload now) := by
  unfold preparedHeaders
  split
  · exact whole_withLine _ _ _ false true (whole_lengthLine c.headers payload h)
  · exact whole_lengthLine c.headers payload h

/-- A line of another name adds no field. -/
theorem fieldsOf_withLine_sublist (field headers name value : Text) (first replace : Bool)
    (h : Whole headers) (hname : '\n' ∉ name) (hvalue : '\n' ∉ value)
    (hother : isField field (name ++ ": ".toList ++ value ++ ['\r']) = false) :
    (fieldsOf field (HTTPClient.withLine headers name value first replace)).Sublist
      (fieldsOf field headers) := by
  have hnew : fieldsOf field (headerLine name value) = [] := by
    rw [fieldsOf_headerLine field name value hname hvalue, hother]
    rfl
  rw [fieldsOf_withLine field headers name value first replace h, hnew, List.append_nil,
    List.nil_append, ite_self]
  exact fieldsOf_keptLines field headers name replace h

/-- A line of another name is not the field, whatever its value. -/
theorem not_isField_of_name (field name value : Text) (hcolon : ':' ∉ name)
    (h : equalsIgnoreCase name field = false) :
    isField field (name ++ ": ".toList ++ value ++ ['\r']) = false := by
  rw [show name ++ ": ".toList ++ value ++ ['\r'] = name ++ ':' :: (' ' :: value ++ ['\r']) by
    simp only [List.append_assoc, List.cons_append]; rfl, isField_of_name field name _ hcolon, h]

/-- The code adds no field but its own two. -/
theorem fieldsOf_preparedHeaders (field : Text) (c : HTTPClient) (payload : Text) (now : Int)
    (hwhole : Whole c.headers)
    (hcookies : ∀ jar, c.cookieJar = some jar → ∀ cookie ∈ jar, '\n' ∉ pairText cookie)
    (hlength : equalsIgnoreCase "Content-Length".toList field = false)
    (hcookie : equalsIgnoreCase "Cookie".toList field = false) :
    (fieldsOf field (preparedHeaders c payload now)).Sublist (fieldsOf field c.headers) := by
  have hfirst : (fieldsOf field (lengthLine c.headers payload)).Sublist
      (fieldsOf field c.headers) := by
    unfold lengthLine
    split
    · exact List.Sublist.refl _
    · exact fieldsOf_withLine_sublist field c.headers _ _ false true hwhole (by decide)
        (lf_not_mem_decimal _) (not_isField_of_name field _ _ (by decide) hlength)
  unfold preparedHeaders
  cases hs : cookieText c now with
  | none => exact hfirst
  | some cookie_string =>
      refine List.Sublist.trans ?_ hfirst
      exact fieldsOf_withLine_sublist field _ _ _ false true (whole_lengthLine _ payload hwhole)
        (by decide) (lf_not_mem_cookieText c now hcookies cookie_string hs)
        (not_isField_of_name field _ _ (by decide) hcookie)

/-- `addHeader` of a name the code does not write itself changes the header text alone. -/
theorem addHeader_of_unhandled (c : HTTPClient) (name value : Text) (first replace : Bool)
    (h : c.handledByCode name = false) :
    c.addHeader name value first replace =
      { c with headers := HTTPClient.withLine c.headers name value first replace } := by
  rw [HTTPClient.addHeader, h]
  rfl

namespace World

theorem prepare_http (w : World) (p : Pending) (r : Reply) :
    w.prepare p r = { w with
      http := { w.http with
        headers := preparedHeaders w.http p.payload r.moment.now
        cookieJar := remainingJar w.http r.moment.now } } := by
  -- neither line is one that `addHeader` refuses
  have hlength : ∀ c : HTTPClient, c.handledByCode "Content-Length".toList = false := fun _ => rfl
  have hcookie : ∀ c : HTTPClient, c.handledByCode "Cookie".toList = false := fun _ => rfl
  have hline : (if p.payload = [] then w.http
      else w.http.addHeader "Content-Length".toList (decimal p.payload.length) false true) =
      { w.http with headers := lengthLine w.http.headers p.payload } := by
    unfold lengthLine
    split_ifs
    · rfl
    · exact addHeader_of_unhandled _ _ _ _ _ (hlength _)
  unfold prepare preparedHeaders cookieText remainingJar
  simp only [hline]
  cases w.http.cookieJar with
  | none => rfl
  | some jar =>
      simp only [Option.map_some, Option.bind_some]
      cases (generateCookieString w.http.host w.http.secure r.moment.now jar).2 with
      | none => rfl
      | some s =>
          simp only [addHeader_of_unhandled _ _ _ _ _ (hcookie _)]
          rfl

/-- The client as it is when its head is written. -/
theorem ready_frame (w w' : World) (p : Pending) (r : Reply) (h : w.ready p r = some w') :
    ∃ client dep current,
      w'.http = { w.http.withObjects client dep w.http.transportTraits with
        currentHeaders := current
        headers := preparedHeaders w.http p.payload r.moment.now
        cookieJar := remainingJar w.http r.moment.now } ∧
      w'.credentialHost = w.credentialHost ∧ w'.asked = w.asked := by
  rcases connect_frame { w with http := w.http.wipeHeaders } r with
    ⟨client, dep, hhttp, hcred, hasked⟩
  unfold ready at h
  simp only [] at h
  split at h
  · split at h
    · rw [← Option.some.inj h, prepare_http, hhttp]
      exact ⟨client, dep, _, rfl, hcred, hasked⟩
    · exact absurd h (fun hno => nomatch hno)
  · exact absurd h (fun hno => nomatch hno)

end World

end Http

end ArduinoBeken
