import ArduinoBeken.Http.Body
import ArduinoBeken.Library.Run

/-!
# Copying a Block

The loops that copy a body: `writeToStreamDataBlock` from the connection into a stream
of the caller, and the upload in `sendRequest` the other way. Here the source may read
less than it is asked for and the destination may take less than it is given, in any
order. What a turn of a loop meets is a `Turn`, and a run is a list of them.

A turn that has delivered less than it read sends the rest once more, and takes for the
rest what was asked of the source and not what it gave. Where both are short the buffer
still holds bytes of an earlier turn there, and they are sent.

## Main definitions

* `Turn`, `Copy`: What a turn meets, and the variables of a loop.
* `Copy.batch`, `Copy.turn`: One turn, of either loop.
* `Loop`, `Loop.result`: The two loops.
* `Loop.Delivers`: What is promised.
* `Copy.Sound`, `Loop.Sound`: The condition on a turn.

## Theorems

* `batch_sound`, `batch_unsound`: A turn that copies.
* `delivers_turn`: One turn of a loop.
* `copy_delivers_iff`: The promise along a run.
-/

namespace ArduinoBeken

namespace Http

namespace BlockCopy

/-- `HTTPC_ERROR_TOO_LESS_RAM`. -/
def errorTooLessRam : Int := -8

/-- An `int` as a `size_t`. -/
def asSize (n : Int) : Nat :=
  (n % 2 ^ 32).toNat

/-- What one turn meets: whether the connection is open, what the two calls of
`available` answer, the bytes that the source has for a read, and for each of two writes
how much the destination takes at most and whether an error is set then. -/
structure Turn where
  connected : Bool
  ready : Int
  available : Int
  source : Text
  first : Nat
  firstError : Bool
  second : Nat
  secondError : Bool
deriving DecidableEq, Repr

/-- How a loop ends: by its own condition, at a write that failed, without a buffer, or
with a step outside its buffer or beyond the range of `int`, which leaves it undefined. -/
inductive Exit where
  | left
  | refused
  | tooLessRam
  | undefined
deriving DecidableEq, Repr

/-- The variables of a loop, and as history the bytes that the source has given and
those that the destination has taken. -/
structure Copy where
  buff : Text
  len : Int
  bytesWritten : Int := 0
  received : Text := []
  written : Text := []
  exit : Option Exit := none
deriving DecidableEq, Repr

namespace Copy

/-- How many bytes are asked for. -/
def readBytes (c : Copy) (t : Turn) : Int :=
  let readBytes := if 0 < c.len ∧ c.len < t.available then c.len else t.available
  if (c.buff.length : Int) < readBytes then c.buff.length else readBytes

/-- What the source gives. -/
def got (c : Copy) (t : Turn) : Text :=
  t.source.take (asSize (c.readBytes t))

/-- How many bytes the first write takes. -/
def taken (c : Copy) (t : Turn) : Nat :=
  min t.first (c.got t).length

/-- How many bytes are written once more. -/
def leftBytes (c : Copy) (t : Turn) : Int :=
  c.readBytes t - c.taken t

/-- How many of them the second write takes. -/
def retaken (c : Copy) (t : Turn) : Nat :=
  min t.second (asSize (c.leftBytes t))

/-- The destination takes some bytes. -/
def deliver (c : Copy) (bytes : Text) : Copy :=
  { c with written := c.written ++ bytes, bytesWritten := c.bytesWritten + bytes.length }

/-- The source gives some bytes. -/
def fill (c : Copy) (bytes : Text) : Copy :=
  { c with buff := bytes ++ c.buff.drop bytes.length, received := c.received ++ bytes }

/-- The bytes to be read are counted down. -/
def count (c : Copy) (readBytes : Int) : Copy :=
  { c with len := if 0 < c.len then c.len - readBytes else c.len }

/-- An `int` that has left its range leaves the loop undefined. -/
def checked (c : Copy) : Copy :=
  if 2 ^ 31 ≤ c.bytesWritten ∨ 2 ^ 31 ≤ c.len then { c with exit := some .undefined } else c

/-- A turn that copies. -/
def batch (c : Copy) (t : Turn) : Copy :=
  let got := c.got t
  let taken := c.taken t
  if c.buff.length < got.length then { c with exit := some .undefined }
  else
    let d := (c.fill got).deliver (got.take taken)
    if taken ≠ got.length then
      -- are all bytes written?
      let leftBytes := c.leftBytes t
      let retaken := c.retaken t
      if d.buff.length < taken + retaken then { d with exit := some .undefined }
      else
        let d := d.deliver ((d.buff.drop taken).take retaken)
        if (retaken : Int) ≠ leftBytes ∨ t.secondError = true then
          { d with exit := some .refused }.checked
        else (d.count (c.readBytes t)).checked
    else if t.firstError then { d with exit := some .refused }.checked
    else (d.count (c.readBytes t)).checked

/-- One turn of a loop with a condition of its own. One of the loops stops when there is
nothing to be read. -/
def turn (goesOn : Turn → Bool) (stops : Bool) (c : Copy) (t : Turn) : Copy :=
  if c.exit.isSome then c
  else if goesOn t && decide (Wanting c.len) then
    if t.available = 0 then c
    else if stops && decide (c.readBytes t = 0) then { c with exit := some .left }
    else c.batch t
  else { c with exit := some .left }

/-- The variables before the first turn. What a new buffer holds is not known. -/
def start (allocated : Bool) (garbage : Nat → Char) (len : Int) : Copy where
  buff := (List.range (buffSizeFor len)).map garbage
  len := len
  exit := if allocated then none else some .tooLessRam

end Copy

/-! ### The two loops -/

/-- A loop and the size it was asked for: an `int`, or a `size_t`. -/
inductive Loop where
  | writeToStreamDataBlock (size : Int)
  | sendRequest (size : UInt32)

namespace Loop

/-- `(int) size`. -/
def intOf (size : UInt32) : Int :=
  Int.bmod size.toNat (2 ^ 32)

/-- The bytes to be read at first. -/
def len : Loop → Int
  | writeToStreamDataBlock size => size
  | sendRequest size => if intOf size = 0 then -1 else intOf size

/-- The condition of the loop, as far as it is not about the size. -/
def goesOn (l : Loop) (t : Turn) : Bool :=
  match l with
  | writeToStreamDataBlock _ => t.connected
  | sendRequest _ => t.connected && decide (-1 < t.ready)

/-- A turn of the one loop or of the other. -/
def turn : Loop → Copy → Turn → Copy
  | writeToStreamDataBlock size => Copy.turn (writeToStreamDataBlock size).goesOn true
  | sendRequest size => Copy.turn (sendRequest size).goesOn false

/-- The state before the first turn. -/
def start (l : Loop) (allocated : Bool) (garbage : Nat → Char) : Copy :=
  Copy.start allocated garbage l.len

/-- What the call returns once its loop is over, or the count with which it goes on to
the response. -/
def result : Loop → Copy → Option Int
  | writeToStreamDataBlock size, c =>
    match c.exit with
    | some .left =>
      if 0 < size ∧ size ≠ c.bytesWritten then some errorStreamWrite else some c.bytesWritten
    | some .refused => some errorStreamWrite
    | some .tooLessRam => some errorTooLessRam
    | _ => none
  | sendRequest size, c =>
    match c.exit with
    | some .left =>
      if size ≠ 0 ∧ intOf size ≠ c.bytesWritten then some errorSendPayloadFailed
      else some c.bytesWritten
    | some .refused => some errorSendPayloadFailed
    | some .tooLessRam => some errorTooLessRam
    | _ => none

/-- The size, if one was given. -/
def requested : Loop → Option Int
  | writeToStreamDataBlock size => if 0 ≤ size then some size else none
  | sendRequest size => if size = 0 then none else some size.toNat

end Loop

/-! ### The promise -/

namespace Loop

/-- What the destination has taken is a first part of what the source has given. A
result that is no error is the number of bytes taken, and the size that was given. -/
def Delivers (l : Loop) (c : Copy) : Prop :=
  c.exit ≠ some .undefined ∧ c.written <+: c.received ∧
    ∀ v, l.result c = some v → 0 ≤ v → v = c.written.length ∧ ∀ n ∈ l.requested, v = n

end Loop

namespace Copy

/-- How many bytes the destination takes in a turn. -/
def takenInAll (c : Copy) (t : Turn) : Nat :=
  if c.taken t = (c.got t).length then c.taken t else c.taken t + c.retaken t

/-- A turn that ends the loop at a write. -/
def refuses (c : Copy) (t : Turn) : Bool :=
  if c.taken t = (c.got t).length then t.firstError
  else decide ((c.retaken t : Int) ≠ c.leftBytes t) || t.secondError

/-- The bytes to be read after a turn. -/
def lenAfter (c : Copy) (t : Turn) : Int :=
  if c.refuses t = true ∨ c.len ≤ 0 then c.len else c.len - c.readBytes t

/-- What is read fits in the buffer, what is sent once more is no more than what was read
and not taken, and the counts stay in their range. -/
def Sound (c : Copy) (t : Turn) : Prop :=
  (c.got t).length ≤ c.buff.length ∧
    (c.taken t = (c.got t).length ∨ c.retaken t ≤ (c.got t).length - c.taken t) ∧
    c.bytesWritten + c.takenInAll t < 2 ^ 31 ∧ c.lenAfter t < 2 ^ 31

end Copy

/-- The condition on a turn, which is only about turns that copy. -/
def Loop.Sound (l : Loop) (c : Copy) (t : Turn) : Prop :=
  c.exit = none → l.goesOn t = true → Wanting c.len → t.available ≠ 0 → c.Sound t

/-! ### A turn that copies -/

namespace Copy

variable (c : Copy) (t : Turn)

theorem taken_le : c.taken t ≤ (c.got t).length :=
  Nat.min_le_right _ _

theorem length_got_le : (c.got t).length ≤ asSize (c.readBytes t) :=
  List.length_take_le _ _

/-- A turn that does not end the loop has delivered what it read. -/
theorem all_taken (hretry : c.taken t = (c.got t).length ∨
    c.retaken t ≤ (c.got t).length - c.taken t) (hon : c.refuses t = false) :
    c.takenInAll t = (c.got t).length := by
  unfold takenInAll
  unfold refuses at hon
  by_cases hall : c.taken t = (c.got t).length
  · rw [if_pos hall, hall]
  · rw [if_neg hall, Bool.or_eq_false_iff] at hon
    rw [if_neg hall]
    -- The second write has taken what was asked of it, no more than was read.
    have hleft : (c.retaken t : Int) = c.leftBytes t := by
      by_contra hne
      rw [decide_eq_true hne] at hon
      exact absurd hon.1.symm Bool.false_ne_true
    have hretaken := hretry.resolve_left hall
    have htaken := c.taken_le t
    have hgot := c.length_got_le t
    rw [leftBytes] at hleft
    have hsize : (asSize (c.readBytes t) : Int) ≤ c.readBytes t := by
      unfold asSize
      omega
    omega

/-- What the second write takes is in the buffer behind what the first has taken. -/
theorem written_twice (hretry : c.retaken t ≤ (c.got t).length - c.taken t) :
    (c.got t).take (c.taken t) ++
        (((c.got t) ++ c.buff.drop (c.got t).length).drop (c.taken t)).take (c.retaken t) =
      (c.got t).take (c.taken t + c.retaken t) := by
  have htaken := c.taken_le t
  -- It stays in front of what the buffer held before.
  rw [List.drop_append_of_le_length htaken, List.take_append_of_le_length
    (by rw [List.length_drop]; exact hretry), List.take_add]

/-- The variables after a turn whose retry stays within what was read. -/
def after (c : Copy) (t : Turn) : Copy :=
  { buff := c.got t ++ c.buff.drop (c.got t).length
    len := c.lenAfter t
    bytesWritten := c.bytesWritten + c.takenInAll t
    received := c.received ++ c.got t
    written := c.written ++ (c.got t).take (c.takenInAll t)
    exit := if c.refuses t then some .refused else c.exit }

theorem count_eq (c : Copy) (n : Int) :
    c.count n = { c with len := if c.len ≤ 0 then c.len else c.len - n } := by
  unfold count
  by_cases h : 0 < c.len
  · rw [if_pos h, if_neg (by omega)]
  · rw [if_neg h, if_pos (by omega)]

theorem length_filled (hfits : (c.got t).length ≤ c.buff.length) :
    (c.got t ++ c.buff.drop (c.got t).length).length = c.buff.length := by
  rw [List.length_append, List.length_drop]
  omega

/-- A turn whose retry stays within what was read. -/
theorem batch_sound (hfits : (c.got t).length ≤ c.buff.length)
    (hretry : c.taken t = (c.got t).length ∨ c.retaken t ≤ (c.got t).length - c.taken t) :
    c.batch t = (c.after t).checked := by
  have hlength := c.length_filled t hfits
  have htaken := c.taken_le t
  have hfirst : ((c.got t).take (c.taken t)).length = c.taken t := by
    rw [List.length_take]
    omega
  unfold batch
  simp only [if_neg (Nat.not_lt.2 hfits)]
  by_cases hall : c.taken t = (c.got t).length
  · simp only [hall, ne_eq, not_true_eq_false, if_false, List.take_length]
    unfold after lenAfter takenInAll refuses
    simp only [hall, if_true, List.take_length]
    -- The first write has taken all, and may still have failed.
    cases t.firstError with
    | true =>
        simp only [if_true, true_or]
        rfl
    | false =>
        simp only [Bool.false_eq_true, if_false, false_or, count_eq]
        rfl
  · -- The second write goes on behind the first, within the buffer.
    have hsecond := hretry.resolve_left hall
    have hmore := c.written_twice t hsecond
    simp only [hall, ne_eq, not_false_eq_true, if_true, fill, deliver, hlength, hfirst]
    have hin : ¬ c.buff.length < c.taken t + c.retaken t := by omega
    have hlast : ((((c.got t) ++ c.buff.drop (c.got t).length).drop (c.taken t)).take
        (c.retaken t)).length = c.retaken t := by
      rw [List.length_take, List.length_drop, hlength]
      omega
    rw [if_neg hin, List.append_assoc, hmore, hlast]
    have hsum : c.bytesWritten + (c.taken t : Int) + (c.retaken t : Int) =
        c.bytesWritten + ((c.taken t + c.retaken t : Nat) : Int) := by omega
    rw [hsum]
    unfold after lenAfter takenInAll refuses
    simp only [if_neg hall]
    -- Then the count of the second write is compared with what was left.
    by_cases hleft : (c.retaken t : Int) = c.leftBytes t
    · cases herror : t.secondError with
      | true => simp only [hleft, or_true, if_true, Bool.or_true, true_or]
      | false =>
          simp only [hleft, ne_eq, Bool.false_eq_true, not_true_eq_false, decide_false,
            Bool.or_false, or_self, if_false, false_or, count_eq]
    · simp only [hleft, ne_eq, not_false_eq_true, decide_true, Bool.true_or, true_or, if_true]

/-- A sink that answers as the destination does. -/
def sink (c : Copy) (t : Turn) : Sink :=
  ⟨c.written, [(t.first, t.firstError), (t.second, t.secondError)]⟩

/-- A turn that does not fit leaves the loop undefined, and one whose retry takes more
delivers bytes that were not received then. -/
theorem batch_unsound (h : c.written = c.received)
    (hunsound : ¬ ((c.got t).length ≤ c.buff.length ∧
      (c.taken t = (c.got t).length ∨ c.retaken t ≤ (c.got t).length - c.taken t))) :
    (c.batch t).exit = some .undefined ∨ ¬ (c.batch t).written <+: (c.batch t).received := by
  have hchecked : ∀ d : Copy, d.checked.written = d.written ∧ d.checked.received = d.received := by
    intro d
    unfold checked
    split <;> exact ⟨rfl, rfl⟩
  unfold batch
  by_cases hfits : (c.got t).length ≤ c.buff.length
  · have hretry : ¬ (c.taken t = (c.got t).length ∨
        c.retaken t ≤ (c.got t).length - c.taken t) := fun hr => hunsound ⟨hfits, hr⟩
    have hlength := c.length_filled t hfits
    rcases not_or.1 hretry with ⟨hall, hmore⟩
    simp only [if_neg (Nat.not_lt.2 hfits), hall, ne_eq, not_false_eq_true, if_true, fill, deliver,
      hlength]
    -- Beyond the buffer it is undefined, and within it there are stale bytes.
    by_cases hin : c.buff.length < c.taken t + c.retaken t
    · rw [if_pos hin]
      exact Or.inl rfl
    · rw [if_neg hin]
      right
      -- More has been delivered than received.
      have hlonger : ∀ d : Copy, d.written = c.written ++ (c.got t).take (c.taken t) ++
          (((c.got t) ++ c.buff.drop (c.got t).length).drop (c.taken t)).take (c.retaken t) →
          d.received = c.received ++ c.got t → ¬ d.checked.written <+: d.checked.received := by
        intro d hw hr hprefix
        rw [(hchecked d).1, (hchecked d).2, hw, hr, h] at hprefix
        have hle := hprefix.length_le
        have htaken := c.taken_le t
        simp only [List.length_append, List.length_take, List.length_drop] at hle
        omega
      split
      · exact hlonger _ rfl rfl
      · refine hlonger _ ?_ ?_
        · rw [count_eq]
        · rw [count_eq]
  · rw [if_pos (Nat.not_le.1 hfits)]
    exact Or.inl rfl

end Copy

/-! ### A turn of a loop -/

namespace Loop

variable (l : Loop) (c : Copy) (t : Turn)

/-- The promise is kept, and until the loop ends all that was received is delivered. -/
structure Keeps (l : Loop) (c : Copy) : Prop where
  delivers : l.Delivers c
  level : c.exit = none →
    c.written = c.received ∧ c.bytesWritten = c.written.length ∧ c.bytesWritten < 2 ^ 31
  nothing : l.len = 0 → c.len = 0 ∧ c.written = []
  room : 0 < c.buff.length

theorem turn_eq : l.turn c t =
    if c.exit.isSome then c
    else if l.goesOn t && decide (Wanting c.len) then
      if t.available = 0 then c
      else if (l matches .writeToStreamDataBlock _) && decide (c.readBytes t = 0) then
        { c with exit := some .left }
      else c.batch t
    else { c with exit := some .left } := by
  cases l <;> rfl

/-- With a buffer and something available, there is something to be read. -/
theorem readBytes_ne_zero (hroom : 0 < c.buff.length) (havailable : t.available ≠ 0) :
    c.readBytes t ≠ 0 := by
  unfold Copy.readBytes
  simp only []
  split
  · omega
  · split <;> omega

/-- An error is no count. -/
theorem result_refused (h : c.exit = some .refused) (v : Int) (hv : l.result c = some v) :
    v < 0 := by
  cases l with
  | writeToStreamDataBlock size =>
      simp only [result, h] at hv
      rw [← Option.some.inj hv]
      decide
  | sendRequest size =>
      simp only [result, h] at hv
      rw [← Option.some.inj hv]
      decide

/-- A size that is an `int` is that `int`. -/
theorem intOf_of_nonneg (size : UInt32) (h : 0 ≤ intOf size) : intOf size = size.toNat := by
  -- A size from 2^31 on would be negative.
  have hbmod : ∀ n : Nat, n < 4294967296 → 0 ≤ Int.bmod n (2 ^ 32) → Int.bmod n (2 ^ 32) = n := by
    intro n hn hpos
    rw [Int.bmod_def] at hpos ⊢
    split at hpos <;> omega
  exact hbmod size.toNat size.toNat_lt h

/-- A loop that ends by its own condition keeps the promise. -/
theorem delivers_left (h : l.Keeps c) (hexit : c.exit = none) :
    l.Delivers { c with exit := some .left } := by
  rcases h.level hexit with ⟨hlevel, hcount, -⟩
  refine ⟨(fun hno => nomatch hno), ?_, ?_⟩
  · rw [hlevel]
  · intro v hv hpos
    cases l with
    | writeToStreamDataBlock size =>
        simp only [result] at hv
        split at hv
        · rw [← Option.some.inj hv] at hpos
          exact absurd hpos (by decide)
        next hsize =>
          obtain rfl := Option.some.inj hv
          refine ⟨hcount, ?_⟩
          intro n hn
          -- A size below zero asks for no number of bytes.
          by_cases hgiven : 0 ≤ size
          · simp only [requested, if_pos hgiven, Option.mem_some_iff] at hn
            rw [← hn]
            by_cases hzero : size = 0
            · -- Nothing was asked for and nothing was read.
              rw [hcount, (h.nothing hzero).2, hzero]
              rfl
            · by_contra hne
              exact hsize ⟨by omega, fun heq => hne heq.symm⟩
          · simp only [requested, if_neg hgiven] at hn
            exact absurd hn (Option.not_mem_none n)
    | sendRequest size =>
        simp only [result] at hv
        split at hv
        · rw [← Option.some.inj hv] at hpos
          exact absurd hpos (by decide)
        next hsize =>
          obtain rfl := Option.some.inj hv
          refine ⟨hcount, ?_⟩
          intro n hn
          -- The size 0 asks for all there is.
          by_cases hgiven : size = 0
          · simp only [requested, if_pos hgiven] at hn
            exact absurd hn (Option.not_mem_none n)
          · simp only [requested, if_neg hgiven, Option.mem_some_iff] at hn
            have heq : intOf size = c.bytesWritten := by
              by_contra hne
              exact hsize ⟨hgiven, hne⟩
            rw [← hn, ← heq]
            rw [← heq] at hpos
            exact intOf_of_nonneg size hpos

/-- The counts of a turn that leave no range. -/
theorem checked_after (hcount : c.bytesWritten + c.takenInAll t < 2 ^ 31)
    (hlen : c.lenAfter t < 2 ^ 31) : (c.after t).checked = c.after t := by
  unfold Copy.checked
  rw [if_neg]
  rintro (h | h)
  · exact absurd h (by simp only [Copy.after]; omega)
  · exact absurd h (by simp only [Copy.after]; omega)

/-- A sound turn keeps the promise, and the destination level with the source. -/
theorem keeps_after (h : l.Keeps c) (hexit : c.exit = none) (hwant : Wanting c.len)
    (hsound : c.Sound t) : l.Keeps (c.after t) := by
  rcases h.level hexit with ⟨hlevel, hcount, -⟩
  refine ⟨⟨?_, ?_, ?_⟩, ?_, ?_, ?_⟩
  · simp only [Copy.after, hexit]
    split <;> exact fun hno => nomatch hno
  · simp only [Copy.after, hlevel]
    exact (List.prefix_append_right_inj c.received).2 (List.take_prefix _ _)
  · intro v hv hpos
    -- An end by a write is an error, and without one there is no result yet.
    cases hrefuses : c.refuses t with
    | true =>
        have hrefused : (c.after t).exit = some .refused := by
          simp only [Copy.after, hrefuses, if_true]
        exact absurd (l.result_refused (c.after t) hrefused v hv) (by omega)
    | false =>
        have hnone : (c.after t).exit = none := by
          simp only [Copy.after, hrefuses, Bool.false_eq_true, if_false, hexit]
        cases l <;> simp only [result, hnone, reduceCtorEq] at hv
  · intro hnone
    have hrefuses : c.refuses t = false := by
      by_contra hr
      rw [Bool.not_eq_false] at hr
      simp only [Copy.after, hr, if_true, reduceCtorEq] at hnone
    -- The loop goes on only when all that was read was taken.
    have hall := c.all_taken t hsound.2.1 hrefuses
    refine ⟨?_, ?_, hsound.2.2.1⟩
    · simp only [Copy.after, hall, hlevel, List.take_length]
    · simp only [Copy.after, hall, hcount, List.take_length, List.length_append]
      omega
  · intro hzero
    have hno := (h.nothing hzero).1
    unfold Wanting at hwant
    omega
  · rw [Copy.after, c.length_filled t hsound.1]
    exact h.room

/-- A turn that copies keeps the promise exactly if it is sound. -/
theorem delivers_batch (h : l.Keeps c) (hexit : c.exit = none) (hwant : Wanting c.len) :
    l.Delivers (c.batch t) ↔ c.Sound t := by
  constructor
  · intro hdelivers
    have hlevel := (h.level hexit).1
    -- The bytes are right only if the two writes stay within what was read.
    have hwithin : (c.got t).length ≤ c.buff.length ∧
        (c.taken t = (c.got t).length ∨ c.retaken t ≤ (c.got t).length - c.taken t) := by
      by_contra hunsound
      rcases c.batch_unsound t hlevel hunsound with hundefined | hno
      · exact hdelivers.1 hundefined
      · exact hno hdelivers.2.1
    have hdefined := hdelivers.1
    rw [c.batch_sound t hwithin.1 hwithin.2] at hdefined
    -- The counts stay in their range, or the turn is undefined.
    have hrange : ¬ (2 ^ 31 ≤ (c.after t).bytesWritten ∨ 2 ^ 31 ≤ (c.after t).len) := by
      intro hover
      rw [Copy.checked, if_pos hover] at hdefined
      exact hdefined rfl
    rcases not_or.1 hrange with ⟨hcount, hlen⟩
    exact ⟨hwithin.1, hwithin.2, Int.not_le.1 hcount, Int.not_le.1 hlen⟩
  · intro hsound
    rw [c.batch_sound t hsound.1 hsound.2.1, checked_after c t hsound.2.2.1 hsound.2.2.2]
    exact (keeps_after l c t h hexit hwant hsound).delivers

/-- What a turn does: nothing, it ends the loop, or it copies. -/
theorem turn_cases (hroom : 0 < c.buff.length) :
    (l.turn c t = c ∧ (c.exit ≠ none ∨ t.available = 0)) ∨
    (l.turn c t = { c with exit := some .left } ∧ c.exit = none ∧
      ¬ (l.goesOn t = true ∧ Wanting c.len)) ∨
    (l.turn c t = c.batch t ∧ c.exit = none ∧ l.goesOn t = true ∧ Wanting c.len ∧
      t.available ≠ 0) := by
  rw [turn_eq]
  -- by the exit the copy has already, then by the test of the loop, then by what is there
  cases hexit : c.exit with
  | some e => exact Or.inl ⟨rfl, Or.inl (fun hno => nomatch hno)⟩
  | none =>
      simp only [Option.isSome_none, Bool.false_eq_true, if_false]
      by_cases hon : l.goesOn t = true ∧ Wanting c.len
      · rw [if_pos (by rw [hon.1, decide_eq_true hon.2]; rfl)]
        by_cases havailable : t.available = 0
        · rw [if_pos havailable]
          exact Or.inl ⟨rfl, Or.inr havailable⟩
        · -- The loop of `writeToStreamDataBlock` has a test that never holds.
          have hread := readBytes_ne_zero c t hroom havailable
          rw [if_neg havailable, if_neg (by
            rw [Bool.and_eq_true, decide_eq_true_eq]
            exact fun hstop => hread hstop.2)]
          exact Or.inr (Or.inr ⟨rfl, trivial, hon.1, hon.2, havailable⟩)
      · rw [if_neg (by rw [Bool.and_eq_true, decide_eq_true_eq]; exact hon)]
        exact Or.inr (Or.inl ⟨rfl, trivial, hon⟩)

/-- One turn of a loop keeps the promise exactly if it is sound. -/
theorem delivers_turn (h : l.Keeps c) : l.Delivers (l.turn c t) ↔ l.Sound c t := by
  unfold Sound
  rcases l.turn_cases c t h.room with ⟨hturn, hidle⟩ | ⟨hturn, hexit, hon⟩ |
    ⟨hturn, hexit, hgoes, hwant, havailable⟩
  · rw [hturn]
    refine ⟨fun _ hexit _ _ havailable => ?_, fun _ => h.delivers⟩
    rcases hidle with hended | hnothing
    · exact absurd hexit hended
    · exact absurd hnothing havailable
  · rw [hturn]
    exact ⟨fun _ _ hgoes hwant => absurd ⟨hgoes, hwant⟩ hon, fun _ => l.delivers_left c h hexit⟩
  · rw [hturn, l.delivers_batch c t h hexit hwant]
    exact ⟨fun hsound _ _ _ _ => hsound, fun hsound => hsound hexit hgoes hwant havailable⟩

theorem keeps_turn (h : l.Keeps c) (hdelivers : l.Delivers (l.turn c t)) :
    l.Keeps (l.turn c t) := by
  rcases l.turn_cases c t h.room with ⟨hturn, -⟩ | ⟨hturn, hexit, -⟩ |
    ⟨hturn, hexit, -, hwant, -⟩
  · rw [hturn]
    exact h
  · rw [hturn]
    exact ⟨l.delivers_left c h hexit, (fun hno => nomatch hno), h.nothing, h.room⟩
  · rw [hturn] at hdelivers ⊢
    have hsound := (l.delivers_batch c t h hexit hwant).1 hdelivers
    rw [c.batch_sound t hsound.1 hsound.2.1, checked_after c t hsound.2.2.1 hsound.2.2.2]
    exact l.keeps_after c t h hexit hwant hsound

theorem buffSizeFor_pos (size : Int) : 0 < buffSizeFor size := by
  unfold buffSizeFor tcpBufferSize
  split <;> omega

theorem keeps_start (allocated : Bool) (garbage : Nat → Char) :
    l.Keeps (l.start allocated garbage) := by
  refine ⟨⟨?_, List.prefix_refl _, ?_⟩, ?_, ?_, ?_⟩
  · unfold start Copy.start
    -- Without memory it has ended with an error, and not by a copy.
    cases allocated <;> exact fun hno => nomatch hno
  · intro v hv hpos
    cases allocated with
    | true => cases l <;> exact absurd hv (fun hno => nomatch hno)
    | false =>
        have herror : errorTooLessRam = v := by
          cases l <;> exact Option.some.inj hv
        rw [← herror] at hpos
        exact absurd hpos (by decide)
  · intro _
    exact ⟨rfl, rfl, (by decide : (0 : Int) < 2 ^ 31)⟩
  · intro hzero
    exact ⟨hzero, rfl⟩
  · simp only [start, Copy.start, List.length_map, List.length_range]
    exact buffSizeFor_pos l.len

end Loop

/-- A loop delivers a first part of what it receives, and counts it, exactly in the runs
of sound turns. -/
theorem copy_delivers_iff (l : Loop) (allocated : Bool) (garbage : Nat → Char) (ts : List Turn) :
    EventRun.Always l.turn (fun c t => l.Delivers (l.turn c t)) (l.start allocated garbage) ts ↔
      EventRun.Always l.turn l.Sound (l.start allocated garbage) ts :=
  EventRun.always_iff_of_good (I := l.Keeps) (fun c t hc hd => l.keeps_turn c t hc hd)
    (fun c t hc => l.delivers_turn c t hc) (l.keeps_start allocated garbage) ts

/-- Five bytes are there, two are read and one is taken. Then all is taken. -/
def shortOnBothSides : Turn where
  connected := true
  ready := 5
  available := 5
  source := "ab".toList
  first := 1
  firstError := false
  second := 4
  secondError := false

/-- What the buffer held before is delivered behind the two bytes. -/
theorem stale_bytes_delivered :
    ¬ ∀ (l : Loop) (allocated : Bool) (garbage : Nat → Char) (ts : List Turn),
      EventRun.Always l.turn (fun c t => l.Delivers (l.turn c t))
        (l.start allocated garbage) ts := by
  intro hall
  -- Four bytes are sent once more, of which only one was received.
  have hlaw := (hall (.writeToStreamDataBlock 5) true (fun _ => 'x') [shortOnBothSides]).1
  exact absurd hlaw.2.1 (by decide)

end BlockCopy

end Http

end ArduinoBeken
