import ArduinoBeken.Library.TimedReads
import Mathlib
import ArduinoBeken.Library.PrefixMatch

/-!
# Reading from a Stream

The readers of the class `Stream` on top of `read` and `peek`: each takes one character after
another and gives up when a read times out. What a reader can hear is what comes before the
first silence.

`findMulti` looks for several strings at once without keeping what it has read. Each target
has an index, how much of it stands at the end of what was read, and on a character that does
not fit the index falls back to the longest shorter part that still does. So it stops at the
first place at which one of the targets has been read whole, with the first of those that end
there: `findMulti_first`. The plain search would compare all targets at every place.

## Main definitions

* `readBytes`, `readBytesUntil`, `readString`, `readStringUntil`: Reads of a piece.
* `MultiTarget`, `findMulti`, `find`, `findUntil`: The search.
* `LookaheadMode`, `peekNextDigit`, `parseInt`: Reads of a number.

## Theorems

* `readStringUntil_eq`, `readBytes_eq`: The reads of a piece are those of the library.
* `feed_longest`: One target and one character.
* `findMulti_first`: The search stops at the first match.
* `findUntil_iff`, `find_iff`: A string before another, and a string alone.
* `findUntil_exact`: How far the search of a string before another reads.
-/

namespace ArduinoBeken

namespace Core

namespace Stream

open Arrivals
open PrefixMatch (Longest FirstMatch)

/-! ### Pieces -/

/-- `readBytes`: so many characters, or those before the timeout. -/
def readBytes (length : Nat) (s : Source UInt8) : List UInt8 × Source UInt8 :=
  if length = 0 then ([], s)
  else
    readLoop
      (fun got c => if got.length + 1 < length then .inl (got ++ [c]) else .inr (got ++ [c]))
      id s.ending [] s.ticks

/-- `readBytesUntil`: the delimiter is taken off and not kept. -/
def readBytesUntil (terminator : UInt8) (length : Nat) (s : Source UInt8) :
    List UInt8 × Source UInt8 :=
  if length = 0 then ([], s)
  else
    readLoop
      (fun got c =>
        if c = terminator then .inr got
        else if got.length + 1 < length then .inl (got ++ [c]) else .inr (got ++ [c]))
      id s.ending [] s.ticks

/-- `readString`: all that comes before the timeout. -/
def readString (s : Source UInt8) : List UInt8 × Source UInt8 :=
  readLoop (fun ret c => .inl (ret ++ [c])) id s.ending [] s.ticks

/-- `readStringUntil`. -/
def readStringUntil (terminator : UInt8) (s : Source UInt8) : List UInt8 × Source UInt8 :=
  readLoop (fun ret c => if c = terminator then .inr ret else .inl (ret ++ [c])) id
    s.ending [] s.ticks

/-! ### The search -/

/-- A string to look for, and how much of it has been read. -/
structure MultiTarget where
  str : List UInt8
  index : Nat := 0
deriving DecidableEq, Repr

/-- The index after a character that does not complete the target. -/
def MultiTarget.feed (t : MultiTarget) (c : UInt8) : MultiTarget :=
  { t with index := PrefixMatch.next t.str t.index c }

/-- The targets after a character, or the place of the one it completes. -/
def pass (c : UInt8) : List MultiTarget → List MultiTarget ⊕ Nat
  | [] => .inl []
  | t :: ts =>
    if t.str[t.index]? = some c ∧ t.index + 1 = t.str.length then .inr 0
    else
      match pass c ts with
      | .inl ts' => .inl (t.feed c :: ts')
      | .inr i => .inr (i + 1)

/-- `findMulti`, with nothing for its `-1`. -/
def findMulti (targets : List MultiTarget) (s : Source UInt8) : Option Nat × Source UInt8 :=
  match targets.findIdx? (fun t => t.str.length ≤ 0) with
  | some i => (some i, s)
  | none =>
    readLoop (fun ts c => (pass c ts).map id some) (fun _ => none) s.ending targets s.ticks

/-- The targets of a search, nothing read of any. -/
def fresh (strs : List (List UInt8)) : List MultiTarget :=
  strs.map fun str => { str }

/-- `findUntil`: whether the first of the two to be found is the target. -/
def findUntil (target : List UInt8) (terminator : Option (List UInt8)) (s : Source UInt8) :
    Bool × Source UInt8 :=
  let r := findMulti (fresh (target :: terminator.toList)) s
  (r.1 = some 0, r.2)

/-- `find`. -/
def find (target : List UInt8) (s : Source UInt8) : Bool × Source UInt8 :=
  findUntil target none s

/-! ### Numbers -/

/-- What `parseInt` passes over in front of a number. -/
inductive LookaheadMode where
  | skipAll
  | skipNone
  | skipWhitespace
deriving DecidableEq, Repr

/-- A digit of base 10. -/
def isDigit (c : UInt8) : Bool :=
  48 ≤ c && c ≤ 57

/-- The character may be passed over on the way to a number. -/
def LookaheadMode.skips (lookahead : LookaheadMode) (c : UInt8) : Bool :=
  match lookahead with
  | .skipAll => true
  | .skipNone => false
  | .skipWhitespace => c == 32 || c == 9 || c == 13 || c == 10

/-- `peekNextDigit`, without the decimal point; the digit or sign that is found stays. -/
def peekNextDigit (lookahead : LookaheadMode) (ending : Ending) :
    List (Tick UInt8) → Option UInt8 × Source UInt8
  | [] => (none, ⟨[], ending.noticed⟩)
  | .item c :: ticks =>
    if c == 45 || isDigit c then (some c, ⟨.item c :: ticks, ending⟩)
    else if lookahead.skips c then peekNextDigit lookahead ending ticks
    else (none, ⟨.item c :: ticks, ending⟩)
  | .wait :: ticks => peekNextDigit lookahead ending ticks
  | .silence :: ticks => (none, ⟨ticks, ending⟩)

/-- A `long` has 32 bits, and what does not fit wraps. -/
def toLong (v : Int) : Int :=
  v.bmod (2 ^ 32)

/-- The sign and the value after a character of a number. -/
def accumulate (ignore : UInt8) (acc : Bool × Int) (c : UInt8) : Bool × Int :=
  if c = ignore then acc
  else if c = 45 then (true, acc.2)
  else if isDigit c then (acc.1, toLong (acc.2 * 10 + c.toNat - 48))
  else acc

/-- The value that the characters of a number stand for. -/
def numberValue (ignore : UInt8) (number : List UInt8) : Int :=
  let acc := number.foldl (accumulate ignore) (false, 0)
  if acc.1 then toLong (-acc.2) else acc.2

/-- The character goes on with a number. -/
def inNumber (ignore c : UInt8) : Bool :=
  isDigit c || c == ignore

/-- `parseInt`. An `ignore` of `0xFF` is outside the model: a time-out passes for it. -/
def parseInt (lookahead : LookaheadMode) (ignore : UInt8) (s : Source UInt8) :
    Int × Source UInt8 :=
  match peekNextDigit lookahead s.ending s.ticks with
  | (none, rest) => (0, rest)
  | (some c, rest) =>
    let r := peekWhile (inNumber ignore) rest.ending rest.ticks.tail
    (numberValue ignore (c :: r.1), r.2)

/-! ### Reads of a piece -/

/-- `readStringUntil` is a read up to a delimiter. -/
theorem readStringUntil_eq (terminator : UInt8) (s : Source UInt8) :
    readStringUntil terminator s =
      ((takeUntil terminator s.ending s.ticks).got,
        (takeUntil terminator s.ending s.ticks).rest) := by
  -- the loop of the source appends to what it was given
  have h : ∀ ticks ret, readLoop
      (fun ret c => if c = terminator then .inr ret else .inl (ret ++ [c])) id
        s.ending ret ticks =
      (ret ++ (takeUntil terminator s.ending ticks).got,
        (takeUntil terminator s.ending ticks).rest) := by
    intro ticks
    -- by induction on the arrivals
    induction ticks with
    | nil =>
        intro ret
        rw [readLoop, takeUntil, List.append_nil]
        rfl
    | cons x ticks ih =>
        intro ret
        cases x with
        | item c =>
            by_cases hc : c = terminator
            · simp only [readLoop, takeUntil, if_pos hc, List.append_nil]
            · simp only [readLoop, takeUntil, if_neg hc, ih, List.append_assoc,
                List.singleton_append]
        | wait => exact ih ret
        | silence =>
            rw [readLoop, takeUntil, List.append_nil]
            rfl
  exact h s.ticks []

/-- `readBytes` is a read of a length. -/
theorem readBytes_eq (length : Nat) (s : Source UInt8) :
    readBytes length s =
      ((takeExactly s.ending length s.ticks).got,
        (takeExactly s.ending length s.ticks).rest) := by
  -- for any part of the block already there
  have h : ∀ (ticks : List (Tick UInt8)) (got : List UInt8) (n : Nat),
      got.length + n + 1 = length → readLoop
      (fun got c => if got.length + 1 < length then .inl (got ++ [c]) else .inr (got ++ [c])) id
        s.ending got ticks =
      (got ++ (takeExactly s.ending (n + 1) ticks).got,
        (takeExactly s.ending (n + 1) ticks).rest) := by
    -- by induction on the arrivals, with the number of bytes still missing
    intro ticks
    induction ticks with
    | nil =>
        intro got n _
        rw [readLoop, takeExactly, List.append_nil]
        rfl
    | cons x ticks ih =>
        intro got n hn
        cases x with
        | item c =>
            cases n with
            | zero =>
                simp only [readLoop, takeExactly, if_neg (show ¬got.length + 1 < length by omega)]
            | succ n =>
                have hlen : (got ++ [c]).length + n + 1 = length := by
                  rw [List.length_append, List.length_singleton]
                  omega
                simp only [readLoop, takeExactly, if_pos (show got.length + 1 < length by omega),
                  ih _ n hlen, List.append_assoc, List.singleton_append]
        | wait => exact ih got n hn
        | silence =>
            rw [readLoop, takeExactly, List.append_nil]
            rfl
  rw [readBytes]
  cases length with
  | zero =>
      rw [if_pos rfl]
      obtain ⟨ticks, ending⟩ := s
      cases ticks <;> rfl
  | succ n =>
      rw [if_neg (Nat.succ_ne_zero n)]
      exact h s.ticks [] n (by rw [List.length_nil]; omega)

/-! ### The first match -/

/-- What is known of the targets when a text has been read: each has its string, the longest
part of it that ends the text, and no prefix of the text ends with all of it. -/
def Searching (strs : List (List UInt8)) (t : List UInt8) (targets : List MultiTarget) : Prop :=
  targets.map MultiTarget.str = strs ∧
    (∀ x ∈ targets, x.index < x.str.length ∧ Longest x.str t x.index) ∧
    ∀ m ≤ t.length, ∀ p ∈ strs, ¬p <:+ t.take m

/-- A character completes a target, or its index is that of the longer text. -/
theorem feed_longest {x : MultiTarget} {t : List UInt8} (c : UInt8)
    (hlt : x.index < x.str.length) (h : Longest x.str t x.index) :
    (x.str[x.index]? = some c ∧ x.index + 1 = x.str.length ↔ x.str <:+ t ++ [c]) ∧
      (¬x.str <:+ t ++ [c] →
        (x.feed c).index < x.str.length ∧ Longest x.str (t ++ [c]) (x.feed c).index) := by
  have hnext := h.next hlt c
  have hiff : x.str[x.index]? = some c ∧ x.index + 1 = x.str.length ↔ x.str <:+ t ++ [c] := by
    rw [← hnext.length_iff, PrefixMatch.next]
    by_cases hc : x.str[x.index]? = some c
    · rw [if_pos hc, and_iff_right hc]
    · rw [if_neg hc]
      refine ⟨fun hall => absurd hall.1 hc, fun hlen => ?_⟩
      -- a part found by falling back is not longer than the one there was
      split_ifs at hlen with h0
      · omega
      · obtain ⟨hshape, -⟩ :=
          PrefixMatch.fallback_spec x.str c h.le x.index (Nat.le_refl x.index)
        rcases hshape with hz | ⟨i, hi, heq, -⟩ <;> omega
  refine ⟨hiff, fun hnot => ⟨?_, hnext⟩⟩
  have hne := mt hnext.length_iff.1 hnot
  exact Nat.lt_of_le_of_ne hnext.le hne

/-- A pass over the targets finds the first that the character completes, or none is. -/
theorem pass_spec (c : UInt8) {t : List UInt8} {targets : List MultiTarget}
    (h : ∀ x ∈ targets, x.index < x.str.length ∧ Longest x.str t x.index) :
    match pass c targets with
    | .inl targets' =>
        targets'.map MultiTarget.str = targets.map MultiTarget.str ∧
          (∀ x ∈ targets', x.index < x.str.length ∧ Longest x.str (t ++ [c]) x.index) ∧
          ∀ x ∈ targets, ¬x.str <:+ t ++ [c]
    | .inr i =>
        (∃ x, targets[i]? = some x ∧ x.str <:+ t ++ [c]) ∧
          ∀ j x, targets[j]? = some x → x.str <:+ t ++ [c] → i ≤ j := by
  -- by induction on the targets, which a character passes in their order
  induction targets with
  | nil =>
      exact ⟨rfl, fun x hx => absurd hx List.not_mem_nil, fun x hx => absurd hx List.not_mem_nil⟩
  | cons y ys ih =>
      obtain ⟨hlt, hlong⟩ := h y List.mem_cons_self
      obtain ⟨hiff, hfeed⟩ := feed_longest c hlt hlong
      have ih := ih fun x hx => h x (List.mem_cons_of_mem y hx)
      rw [pass]
      -- a target that is whole now ends the pass, and those behind it are not asked
      by_cases hy : y.str[y.index]? = some c ∧ y.index + 1 = y.str.length
      · rw [if_pos hy]
        exact ⟨⟨y, rfl, hiff.1 hy⟩, fun j x _ _ => Nat.zero_le j⟩
      · rw [if_neg hy]
        have hnot : ¬y.str <:+ t ++ [c] := mt hiff.2 hy
        cases hpass : pass c ys with
        | inl ys' =>
            rw [hpass] at ih
            obtain ⟨hmap, hall, hnone⟩ := ih
            refine ⟨by rw [List.map_cons, List.map_cons, hmap]; rfl, ?_, ?_⟩
            · exact List.forall_mem_cons.2 ⟨hfeed hnot, hall⟩
            · exact List.forall_mem_cons.2 ⟨hnot, hnone⟩
        | inr i =>
            rw [hpass] at ih
            obtain ⟨⟨x, hx, hsuf⟩, hfirst⟩ := ih
            refine ⟨⟨x, hx, hsuf⟩, ?_⟩
            -- an earlier target would have ended the pass before
            intro j z hz hends
            cases j with
            | zero =>
                rw [List.getElem?_cons_zero, Option.some_inj] at hz
                exact absurd (hz ▸ hends) hnot
            | succ j => exact Nat.succ_le_succ (hfirst j z hz hends)

/-- A character that completes no target leaves the search going. -/
theorem searching_step {strs : List (List UInt8)} (t : List UInt8)
    (targets : List MultiTarget) (c : UInt8) (targets' : List MultiTarget)
    (h : Searching strs t targets) (hpass : pass c targets = .inl targets') :
    Searching strs (t ++ [c]) targets' := by
  obtain ⟨hmap, hall, hnone⟩ := h
  have hspec := pass_spec c hall
  rw [hpass] at hspec
  obtain ⟨hmap', hall', hends⟩ := hspec
  refine ⟨hmap'.trans hmap, hall', ?_⟩
  intro m hm p hp hsuf
  rw [List.length_append, List.length_singleton] at hm
  rcases Nat.le_succ_iff.1 hm with hm | rfl
  · rw [List.take_append_of_le_length hm] at hsuf
    exact hnone m hm p hp hsuf
  · rw [← hmap] at hp
    obtain ⟨x, hx, rfl⟩ := List.mem_map.1 hp
    rw [List.take_of_length_le (by rw [List.length_append, List.length_singleton])] at hsuf
    exact hends x hx hsuf

/-- The character that completes a target is the end of the first match. -/
theorem searching_match {strs : List (List UInt8)} {t : List UInt8}
    {targets : List MultiTarget} {c : UInt8} {i : Nat} {text : List UInt8}
    (h : Searching strs t targets) (hpass : pass c targets = .inr i)
    (hpre : t ++ [c] <+: text) : FirstMatch strs text (t.length + 1) i := by
  obtain ⟨hmap, hall, hnone⟩ := h
  have hspec := pass_spec c hall
  rw [hpass] at hspec
  obtain ⟨⟨x, hx, hsuf⟩, hfirst⟩ := hspec
  have hlen : (t ++ [c]).length = t.length + 1 := by
    rw [List.length_append, List.length_singleton]
  have htake : text.take (t.length + 1) = t ++ [c] := by
    rw [← hlen]
    exact (List.prefix_iff_eq_take.1 hpre).symm
  refine ⟨by rw [← hlen]; exact hpre.length_le, ⟨x.str, ?_, htake ▸ hsuf⟩, ?_⟩
  · rw [← hmap, List.getElem?_map, hx]
    rfl
  -- the end is the first, and among the targets that end there the index is the least
  · intro m hm j p hj hends
    have hp : p ∈ strs := List.mem_of_getElem? hj
    rcases Nat.le_succ_iff.1 hm with hm | rfl
    · -- no target had been read whole before
      refine absurd ?_ (hnone m hm p hp)
      rwa [← @List.take_append_of_le_length _ t [c] m hm, ← htake, List.take_take,
        Nat.min_eq_left (by omega)]
    · rw [← hmap, List.getElem?_map, Option.map_eq_some_iff] at hj
      obtain ⟨y, hy, rfl⟩ := hj
      exact ⟨rfl, hfirst j y hy (htake ▸ hends)⟩

theorem searching_fresh {strs : List (List UInt8)} (h : ∀ p ∈ strs, p ≠ []) :
    Searching strs [] (fresh strs) := by
  refine ⟨?_, ?_, ?_⟩
  · rw [fresh, List.map_map]
    exact List.map_id strs
  · intro x hx
    obtain ⟨p, hp, rfl⟩ := List.mem_map.1 hx
    exact ⟨List.length_pos_of_ne_nil (h p hp), Longest.nil p⟩
  · intro m _ p hp hsuf
    rw [List.take_nil, List.suffix_nil] at hsuf
    exact h p hp hsuf

/-- `findMulti` stops right behind the first place at which a target has been read whole, and
    says which, the first of those that end there; or no target is to be heard at all. -/
theorem findMulti_first (strs : List (List UInt8)) (s : Source UInt8) :
    (∃ n i, FirstMatch strs (heard s.ticks) n i ∧ (findMulti (fresh strs) s).1 = some i ∧
        items (findMulti (fresh strs) s).2.ticks = (items s.ticks).drop n) ∨
      ((∀ p ∈ strs, ¬p <:+: heard s.ticks) ∧ (findMulti (fresh strs) s).1 = none) := by
  rw [findMulti]
  cases hidx : (fresh strs).findIdx? (fun t => t.str.length ≤ 0) with
  | some i =>
      -- an empty target has been read whole before anything was
      left
      rw [fresh, List.findIdx?_map, List.findIdx?_eq_some_iff_getElem] at hidx
      obtain ⟨hi, hnil, hfirst⟩ := hidx
      have hnil : strs[i] = [] := by simpa using hnil
      refine ⟨0, i, ⟨Nat.zero_le _, ⟨strs[i], List.getElem?_eq_getElem hi, ?_⟩, ?_⟩, rfl, rfl⟩
      · rw [hnil]
        exact List.nil_suffix
      · intro m hm j p hj hsuf
        rw [Nat.le_zero.1 hm, List.take_zero, List.suffix_nil] at hsuf
        obtain ⟨hjlt, hjp⟩ := List.getElem?_eq_some_iff.1 hj
        refine ⟨Nat.le_zero.1 hm, Nat.le_of_not_lt fun hji => ?_⟩
        refine hfirst j hji ?_
        simpa [hjp] using hsuf
  | none =>
      have hne : ∀ p ∈ strs, p ≠ [] := by
        rw [fresh, List.findIdx?_map, List.findIdx?_eq_none_iff] at hidx
        intro p hp hnil
        simpa [hnil] using hidx p hp
      -- a character that ends no target keeps the invariant
      have hstep : ∀ t ts c ts', Searching strs t ts →
          ((pass c ts).map id some : List MultiTarget ⊕ Option Nat) = .inl ts' →
          Searching strs (t ++ [c]) ts' := by
        intro t ts c ts' hI hbody
        cases hpass : pass c ts with
        | inl ts'' =>
            rw [hpass] at hbody
            exact Sum.inl.inj hbody ▸ searching_step t ts c ts'' hI hpass
        | inr i =>
            rw [hpass] at hbody
            cases hbody
      have hrule := @readLoop_rule _ _ _ _ (fun _ => none) _ hstep s.ending s.ticks _ _
        (searching_fresh hne)
      rcases hrule with ⟨u, c, ts, b, hpre, hI, hb, hres, hrest⟩ | ⟨ts, hI, hres⟩
      · left
        rw [List.nil_append] at hI
        cases hpass : pass c ts with
        | inl ts' =>
            rw [hpass] at hb
            cases hb
        | inr i =>
            rw [hpass] at hb
            have hb : some i = b := Sum.inr.inj hb
            exact ⟨u.length + 1, i, searching_match hI hpass hpre, hres.trans hb.symm, hrest⟩
      · right
        refine ⟨?_, hres⟩
        intro p hp ⟨a, b, hab⟩
        rw [List.nil_append] at hI
        refine hI.2.2 (a ++ p).length ?_ p hp ?_
        · rw [← hab]
          exact (List.prefix_append (a ++ p) b).length_le
        · rw [← hab, List.take_left]
          exact List.suffix_append a p

/-- A target is found before a terminator just when the first match is one of it. -/
theorem findUntil_iff (target : List UInt8) (terminator : Option (List UInt8))
    (s : Source UInt8) :
    (findUntil target terminator s).1 = true ↔
      ∃ n, FirstMatch (target :: terminator.toList) (heard s.ticks) n 0 := by
  rw [findUntil, decide_eq_true_iff]
  rcases findMulti_first (target :: terminator.toList) s with
    ⟨n, i, hfirst, hres, -⟩ | ⟨hnone, hres⟩
  · rw [hres, Option.some_inj]
    constructor
    · rintro rfl
      exact ⟨n, hfirst⟩
    · rintro ⟨m, hm⟩
      exact (hfirst.unique hm).2
  · rw [hres]
    refine ⟨fun h => absurd h (by decide), ?_⟩
    rintro ⟨n, hn⟩
    obtain ⟨p, hp, hsuf⟩ := hn.ends
    exact absurd (hsuf.isInfix.trans (List.take_prefix n _).isInfix)
      (hnone p (List.mem_of_getElem? hp))

/-- A target is found before a terminator just when it is the first to be read whole, and nothing
    behind the match is read. -/
theorem findUntil_exact (target : List UInt8) (terminator : Option (List UInt8))
    (s : Source UInt8) :
    ((findUntil target terminator s).1 = true ↔
        ∃ n, FirstMatch (target :: terminator.toList) (heard s.ticks) n 0) ∧
      ∀ n i, FirstMatch (target :: terminator.toList) (heard s.ticks) n i →
        items (findUntil target terminator s).2.ticks = (items s.ticks).drop n := by
  refine ⟨findUntil_iff target terminator s, fun n i hn => ?_⟩
  rcases findMulti_first (target :: terminator.toList) s with
    ⟨m, j, hm, -, hrest⟩ | ⟨hnone, -⟩
  · rw [(hn.unique hm).1]
    exact hrest
  · obtain ⟨p, hp, hsuf⟩ := hn.ends
    exact absurd (hsuf.isInfix.trans (List.take_prefix n _).isInfix)
      (hnone p (List.mem_of_getElem? hp))

/-- A string is found just when it is to be heard. -/
theorem find_iff (target : List UInt8) (s : Source UInt8) :
    (find target s).1 = true ↔ target <:+: heard s.ticks := by
  rw [find, findUntil_iff]
  rcases findMulti_first [target] s with ⟨n, i, hfirst, -, -⟩ | ⟨hnone, -⟩
  · obtain ⟨p, hp, hsuf⟩ := hfirst.ends
    have hi : i = 0 := by
      have := (List.getElem?_eq_some_iff.1 hp).1
      rw [List.length_singleton] at this
      omega
    subst hi
    rw [List.getElem?_cons_zero, Option.some_inj] at hp
    exact ⟨fun _ => hp ▸ hsuf.isInfix.trans (List.take_prefix n _).isInfix,
      fun _ => ⟨n, hfirst⟩⟩
  · have hnot := hnone target (List.mem_singleton_self target)
    refine ⟨?_, fun h => absurd h hnot⟩
    rintro ⟨n, hn⟩
    obtain ⟨p, hp, hsuf⟩ := hn.ends
    rw [List.getElem?_cons_zero, Option.some_inj] at hp
    exact hp ▸ hsuf.isInfix.trans (List.take_prefix n _).isInfix

end Stream

end Core

end ArduinoBeken
