import ArduinoBeken.Http.HttpClient

/-!
# The Head of a Response

`handleHeaderResponse`: the status line and the fields up to the empty line,
read line by line from the connection, and what they set in the client.

The function sets a few of the client's fields and leaves the rest alone. They
are gathered in `Answer`, so that the client afterwards is the client before
with another answer (`HTTPClient.answered`).

A line that a silence interrupts is taken as it stands, and what comes after
the silence is taken as the next line.

## Main definitions

* `Answer`, `HTTPClient.answered`: The fields a response sets.
* `Moment`: The clock, and what uninitialised variables hold.
* `readStatusLine`, `readField`, `readLine`: One line.
* `finishHead`: The empty line.
* `headLoop`, `handleHeaderResponse`: The head.

## Theorems

* `headLoop_of_lines`: A head that comes without a silence is read line by
  line, however it arrives.
-/

namespace ArduinoBeken

namespace Http

open Arrivals

/-- The fields of the client that a response sets. -/
structure Answer where
  returnCode : Int
  size : Int
  canReuse : Bool
  transferEncoding : TransferEncoding
  location : Text
  currentHeaders : List RequestArgument
  cookieJar : Option CookieJar
deriving DecidableEq, Repr

namespace HTTPClient

/-- The client with the fields of a response. -/
def answered (c : HTTPClient) (a : Answer) : HTTPClient :=
  { c with
    returnCode := a.returnCode, size := a.size, canReuse := a.canReuse,
    transferEncoding := a.transferEncoding, location := a.location,
    currentHeaders := a.currentHeaders, cookieJar := a.cookieJar }

/-- The fields of a response as they stand before its first line. -/
def unanswered (c : HTTPClient) : Answer :=
  { returnCode := 0, size := -1, canReuse := c.reuse, transferEncoding := .identity,
    location := c.location, currentHeaders := c.currentHeaders, cookieJar := c.cookieJar }

end HTTPClient

/-- The time at which a response is handled, and the values that the
uninitialised `date` of a cookie has at each of its lines. -/
structure Moment where
  now : Int
  leftover : Nat → Int

/-- The variables of `handleHeaderResponse` between two lines. -/
structure HeadState where
  answer : Answer
  transferEncoding : Text := []
  firstLine : Bool := true
  date : Text := []
  lines : Nat := 0

/-- The first line: the version and the code. -/
def readStatusLine (st : HeadState) (headerLine : Text) : HeadState :=
  let codePos := indexOfChar headerLine ' ' 0 + 1
  { st with
    firstLine := false
    answer := { st.answer with
      canReuse :=
        if st.answer.canReuse && startsWith headerLine "HTTP/1.".toList then
          decide (headerLine[7]? ≠ some '0')
        else st.answer.canReuse
      returnCode := toInt (substring headerLine codePos (indexOfChar headerLine ' ' codePos)) } }

/-- What one field sets, by its name. -/
def applyField (lib : TimeLibrary) (moment : Moment) (host : Text) (st : HeadState)
    (headerName headerValue : Text) : HeadState :=
  { st with
    -- a date counts for the cookies that follow it
    date := if equalsIgnoreCase headerName "Date".toList then headerValue else st.date
    transferEncoding :=
      if equalsIgnoreCase headerName "Transfer-Encoding".toList then headerValue
      else st.transferEncoding
    answer := { st.answer with
      size :=
        if equalsIgnoreCase headerName "Content-Length".toList then toInt headerValue
        else st.answer.size
      canReuse :=
        -- `close` counts unless the value has `keep-alive` too
        if st.answer.canReuse && equalsIgnoreCase headerName "Connection".toList &&
            decide (0 ≤ indexOf headerValue "close".toList 0) &&
            decide (indexOf headerValue "keep-alive".toList 0 < 0) then false
        else st.answer.canReuse
      location :=
        if equalsIgnoreCase headerName "Location".toList then headerValue
        else st.answer.location
      cookieJar :=
        if equalsIgnoreCase headerName "Set-Cookie".toList then
          st.answer.cookieJar.map fun jar =>
            setCookie lib jar ⟨host, st.date, headerValue, moment.now, moment.leftover st.lines⟩
        else st.answer.cookieJar
      currentHeaders := HTTPClient.collect headerName headerValue st.answer.currentHeaders } }

/-- A line after the first. One that begins with a colon is passed over, and
one without a colon is a name and a value of itself. -/
def readField (lib : TimeLibrary) (moment : Moment) (host : Text) (st : HeadState)
    (headerLine : Text) : HeadState :=
  let colon := indexOfChar headerLine ':' 0
  if colon = 0 then st
  else applyField lib moment host st (substring headerLine 0 colon)
    (trim (substringFrom headerLine (colon + 1)))

/-- One line of the head. -/
def readLine (lib : TimeLibrary) (moment : Moment) (host : Text) (st : HeadState)
    (headerLine : Text) : HeadState :=
  let st' := if st.firstLine then readStatusLine st headerLine
    else readField lib moment host st headerLine
  { st' with lines := st.lines + 1 }

/-- What the empty line concludes, and the code that is returned. -/
def finishHead (st : HeadState) : Answer × Int :=
  let result (te : TransferEncoding) : Answer × Int :=
    ({ st.answer with transferEncoding := te },
      if st.answer.returnCode ≠ 0 then st.answer.returnCode else errorNoHttpServer)
  if st.transferEncoding = [] then result .identity
  else if equalsIgnoreCase st.transferEncoding "chunked".toList then result .chunked
  else if equalsIgnoreCase st.transferEncoding "identity".toList then result .identity
  else (st.answer, errorEncoding)

/-- The loop over the lines. It takes at least one tick of the stream at each
turn, so a fuel of more than their number does not run out. -/
def headLoop (lib : TimeLibrary) (moment : Moment) (host : Text) :
    Nat → HeadState → Source Char → Answer × Source Char × Int
  | 0, st, s => (st.answer, s, errorConnectionLost)
  | fuel + 1, st, s =>
    if s.connected then
      if 0 < s.available then
        let r := takeUntil '\n' s.ending s.ticks
        let headerLine := trim r.got
        let st' := readLine lib moment host st headerLine
        if headerLine = [] then ((finishHead st').1, r.rest, (finishHead st').2)
        else headLoop lib moment host fuel st' r.rest
      else
        -- Nothing has arrived: the loop waits, as long as its patience lasts.
        match s.ticks with
        | .wait :: ticks => headLoop lib moment host fuel st ⟨ticks, s.ending⟩
        | .silence :: ticks => (st.answer, ⟨ticks, s.ending⟩, errorReadTimeout)
        | _ => (st.answer, s, errorReadTimeout)
    else (st.answer, s, errorConnectionLost)

/-- The client and the connection after the head, and the code. -/
def handleHeaderResponse (lib : TimeLibrary) (moment : Moment) (c : HTTPClient)
    (s : Source Char) : HTTPClient × Source Char × Int :=
  if s.connected then
    let (a, s', code) :=
      headLoop lib moment c.host (s.ticks.length + 1) { answer := c.unanswered } s
    (c.answered a, s', code)
  else (c, s, errorNotConnected)

/-! ### A head that comes without a silence -/

theorem available_eq_zero_of_wait (ticks : List (Tick Char)) (ending : Ending) :
    (⟨.wait :: ticks, ending⟩ : Source Char).available = 0 := rfl

/-- One line, however it arrives: the loop goes on behind it, and the fuel still
exceeds what is left. -/
theorem headLoop_line (lib : TimeLibrary) (moment : Moment) (host : Text) (st : HeadState)
    (ending : Ending) (line rest : Text) (hline : '\n' ∉ line) (fuel : Nat)
    (ticks : List (Tick Char)) (hprompt : Prompt ticks) (hfuel : ticks.length < fuel)
    (hitems : items ticks = line ++ '\n' :: rest) :
    ∃ fuel' ticks', items ticks' = rest ∧ Prompt ticks' ∧ ticks' <:+ ticks ∧
      ticks'.length < fuel' ∧
      headLoop lib moment host fuel st ⟨ticks, ending⟩ =
        if trim line = [] then
          ((finishHead (readLine lib moment host st (trim line))).1, ⟨ticks', ending⟩,
            (finishHead (readLine lib moment host st (trim line))).2)
        else headLoop lib moment host fuel' (readLine lib moment host st (trim line))
          ⟨ticks', ending⟩ := by
  -- The induction is on the ticks before the first character of the line.
  induction ticks generalizing fuel with
  | nil => exact absurd hitems.symm (List.append_ne_nil_of_right_ne_nil line (List.cons_ne_nil _ _))
  | cons x ticks ih =>
      cases fuel with
      | zero => exact absurd hfuel (Nat.not_lt_zero _)
      | succ fuel =>
          cases x with
          -- the line begins here, and one turn reads it whole
          | item a =>
              rcases takeUntil_of_prompt '\n' ending (.item a :: ticks) line rest hprompt hline
                hitems with ⟨ticks', heq, hrest, -⟩
              have hsuf : ticks' <:+ ticks := by
                have := takeUntil_shorter '\n' ending (.item a) ticks
                rwa [heq] at this
              have hlen := hsuf.length_le
              rw [List.length_cons] at hfuel
              refine ⟨fuel, ticks', hrest, hprompt.tail.of_suffix hsuf,
                hsuf.trans (List.suffix_cons _ ticks), by omega, ?_⟩
              have hav : 0 < (⟨.item a :: ticks, ending⟩ : Source Char).available :=
                Nat.succ_pos _
              have hconn : (⟨.item a :: ticks, ending⟩ : Source Char).connected = true := rfl
              rw [headLoop, if_pos hconn, if_pos hav]
              simp only [heq]
          -- nothing yet: the turn is spent
          | wait =>
              rw [List.length_cons] at hfuel
              rcases ih fuel hprompt.tail (by omega) hitems with
                ⟨fuel', ticks', hrest, hp, hsuf, hlen, heq⟩
              refine ⟨fuel', ticks', hrest, hp, hsuf.trans (List.suffix_cons _ ticks), hlen, ?_⟩
              have hconn : (⟨.wait :: ticks, ending⟩ : Source Char).connected = true := rfl
              rw [headLoop, if_pos hconn, available_eq_zero_of_wait, if_neg (Nat.lt_irrefl 0)]
              exact heq
          | silence => exact absurd rfl (hprompt Tick.silence List.mem_cons_self)

/-- The state after some lines. -/
def readLines (lib : TimeLibrary) (moment : Moment) (host : Text) (st : HeadState)
    (lines : List Text) : HeadState :=
  lines.foldl (fun st line => readLine lib moment host st (trim line)) st

/-- The text of a head: its lines, and the empty one. -/
def headText (lines : List Text) : Text :=
  lines.flatMap (· ++ "\r\n".toList) ++ "\r\n".toList

/-- A head that comes without a silence is read line by line, however it
arrives, and the stream is left at what follows the head. -/
theorem headLoop_of_lines (lib : TimeLibrary) (moment : Moment) (host : Text)
    (ending : Ending) (lines : List Text) (rest : Text)
    (hlines : ∀ line ∈ lines, '\n' ∉ line ∧ trim line ≠ []) (st : HeadState) (fuel : Nat)
    (ticks : List (Tick Char)) (hprompt : Prompt ticks) (hfuel : ticks.length < fuel)
    (hitems : items ticks = headText lines ++ rest) :
    ∃ ticks', items ticks' = rest ∧ Prompt ticks' ∧ ticks' <:+ ticks ∧
      headLoop lib moment host fuel st ⟨ticks, ending⟩ =
        ((finishHead (readLine lib moment host (readLines lib moment host st lines) [])).1,
          ⟨ticks', ending⟩,
          (finishHead (readLine lib moment host (readLines lib moment host st lines) [])).2) := by
  -- a line ends with CR and LF, and the CR is trimmed
  have hcr : ∀ line : Text, trim (line ++ ['\r']) = trim line := by
    intro line
    refine trim_append_space line ['\r'] ?_
    intro c hc
    rw [List.mem_singleton.1 hc]
    rfl
  induction lines generalizing st fuel ticks with
  -- the empty line ends the head
  | nil =>
      have hempty : items ticks = ['\r'] ++ '\n' :: rest := hitems
      rcases headLoop_line lib moment host st ending ['\r'] rest (by decide) fuel ticks hprompt
        hfuel
        hempty with ⟨fuel', ticks', hrest, hp, hsuf, -, heq⟩
      have htrim : trim ['\r'] = [] := by decide
      rw [htrim, if_pos rfl] at heq
      exact ⟨ticks', hrest, hp, hsuf, heq⟩
  | cons line lines ih =>
      have hline := hlines line List.mem_cons_self
      have hfirst : items ticks = (line ++ ['\r']) ++ '\n' :: (headText lines ++ rest) := by
        rw [hitems, headText, List.flatMap_cons, headText]
        simp only [List.append_assoc]
        rfl
      have hlf : '\n' ∉ line ++ ['\r'] := by
        rw [List.mem_append, not_or]
        exact ⟨hline.1, by decide⟩
      rcases headLoop_line lib moment host st ending (line ++ ['\r']) _ hlf fuel ticks hprompt hfuel
        hfirst with ⟨fuel', ticks', hrest, hp, hsuf, hlen, heq⟩
      rw [hcr line, if_neg hline.2] at heq
      rcases ih (fun l hl => hlines l (List.mem_cons_of_mem line hl))
        (readLine lib moment host st (trim line)) fuel' ticks' hp hlen hrest with
        ⟨ticks'', hrest', hp', hsuf', heq'⟩
      exact ⟨ticks'', hrest', hp', hsuf'.trans hsuf, heq.trans heq'⟩

end Http

end ArduinoBeken
