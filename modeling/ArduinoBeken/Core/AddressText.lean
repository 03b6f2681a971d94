import ArduinoBeken.Core.IpAddress

/-!
# Addresses Read Back

What the readers of `IPAddress` make of the texts that stand for addresses. A text of IPv6 is
its fields in hexadecimal digits with colons between them: eight of them, or at most six with
two colons where zeros are left out. Behind each field the reader holds those so far at the
front of the bytes (`Holds`), and what stands behind the double colon moves to the end.

The texts that the class writes are among these, so that an address is read back from either
of them: `fromString_toString`. The canonical one leaves out the leftmost of the longest runs
of at least two zero fields, and no other: `printTo_canonical`.

## Main definitions

* `pair`, `Spells`: A field in bytes, and in digits.
* `Holds`: What the reader has behind a field.
* `Leftmost`: The run that is left out.

## Theorems

* `fromString6_full`, `fromString6_short`: Texts of IPv6 are read as their fields.
* `fromString_toString`: The texts of an address are read as the address.
* `printTo_canonical`: The canonical text.
-/

namespace ArduinoBeken

namespace Core

namespace IPAddress

open CheckedBytes (Block Fault byte store)
open ArduinoBeken.Core.Stream (isDigit)
open Print (numeral)

/-! ### Fields in bytes -/

/-- The two bytes of a field, the higher one in front. -/
def pair (f : Nat) : List UInt8 :=
  [UInt8.ofNat (f / 256), UInt8.ofNat (f % 256)]

theorem take_pairs (fs : List Nat) (n : Nat) :
    (fs.flatMap pair).take (n * 2) = (fs.take n).flatMap pair := by
  induction fs generalizing n with
  | nil => rw [List.take_nil, List.flatMap_nil, List.take_nil]
  | cons f fs ih =>
      cases n with
      | zero => rw [Nat.zero_mul, List.take_zero, List.take_zero, List.flatMap_nil]
      | succ n =>
          rw [List.take_succ_cons, List.flatMap_cons, List.flatMap_cons, ← ih, Nat.succ_mul]
          rfl

theorem drop_pairs (fs : List Nat) (n : Nat) :
    (fs.flatMap pair).drop (n * 2) = (fs.drop n).flatMap pair := by
  induction fs generalizing n with
  | nil => rw [List.drop_nil, List.flatMap_nil, List.drop_nil]
  | cons f fs ih =>
      cases n with
      | zero => rfl
      | succ n =>
          rw [List.drop_succ_cons, List.flatMap_cons, ← ih, Nat.succ_mul]
          rfl

theorem replicate_pairs (n : Nat) :
    (List.replicate n 0).flatMap pair = List.replicate (n * 2) 0 := by
  induction n with
  | zero => rfl
  | succ n ih =>
      rw [List.replicate_succ, List.flatMap_cons, ih, Nat.succ_mul, List.replicate_succ,
        List.replicate_succ]
      rfl

/-- The fields stand at the front of the bytes. -/
def Filled (b : Block 16) (fs : List Nat) : Prop :=
  b.1.take (fs.length * 2) = fs.flatMap pair

theorem Filled.whole {b : Block 16} {fs : List Nat} (h : Filled b fs) (hfs : fs.length = 8) :
    b.1 = fs.flatMap pair := by
  rw [← h, List.take_of_length_le (by rw [b.2, hfs])]

/-- The fields from the place on stand at the end, with zero fields in front of them. -/
theorem spread_fields (b : Block 16) (fs : List Nat) (place : Nat) (h : Filled b fs)
    (hplace : place ≤ fs.length) (hfs : fs.length ≤ 8) :
    ∃ b', spread place fs.length b = .ok b' ∧
      b'.1 = (fs.take place ++ List.replicate (8 - fs.length) 0 ++ fs.drop place).flatMap pair := by
  obtain ⟨b', hspread, hb'⟩ := spread_spec place fs.length b hplace hfs
  refine ⟨b', hspread, ?_⟩
  have htake : b.1.take (place * 2) = (fs.take place).flatMap pair := by
    rw [← take_pairs, ← h, List.take_take, Nat.min_eq_left (by omega)]
  have hdrop : (b.1.drop (place * 2)).take (fs.length * 2 - place * 2) =
      (fs.drop place).flatMap pair := by
    rw [← List.drop_take, h, drop_pairs]
  rw [hb', htake, hdrop, List.flatMap_append, List.flatMap_append, replicate_pairs]
  congr 4
  omega

/-! ### Fields in digits -/

/-- The value of hexadecimal digits behind a value. -/
def hexadecimal (v : Nat) (ds : List Nat) : Nat :=
  ds.foldl (fun v d => v * 16 + d) v

/-- A text of hexadecimal digits that stands for the field. -/
structure Spells (text : List UInt8) (f : Nat) : Prop where
  digits : ∃ ds ≠ [], (∀ d ∈ ds, d < 16) ∧ text = ds.map hexDigit ∧ hexadecimal 0 ds = f
  small : f < 65536

theorem hexValue_hexDigit : ∀ d < 16, hexValue (hexDigit d) = some d := by
  decide

theorem hexDigit_ne_colon : ∀ d < 16, hexDigit d ≠ 58 := by
  decide

theorem le_hexadecimal (v : Nat) (ds : List Nat) : v ≤ hexadecimal v ds := by
  induction ds generalizing v with
  | nil => exact Nat.le_refl v
  | cons d ds ih => exact Nat.le_trans (by omega) (ih (v * 16 + d))

/-- Digits are taken into the field. -/
theorem scan6_digits (ds : List Nat) (rest : List UInt8) (st : Scan6) (hds : ∀ d ∈ ds, d < 16)
    (hsmall : hexadecimal st.acc ds < 65536) :
    scan6 (ds.map hexDigit ++ rest) st = scan6 rest { st with acc := hexadecimal st.acc ds } := by
  induction ds generalizing st with
  | nil => rfl
  | cons d ds ih =>
      have hle := le_hexadecimal (st.acc * 16 + d) ds
      have hsmall' : hexadecimal (st.acc * 16 + d) ds < 65536 := hsmall
      have hfits : ¬ 0xffff < (st.append d).acc := by
        change ¬ 0xffff < st.acc * 16 + d
        omega
      rw [List.map_cons, List.cons_append, scan6.eq_def]
      dsimp only
      rw [hexValue_hexDigit d (hds d List.mem_cons_self)]
      dsimp only
      rw [if_neg hfits]
      exact ih _ (fun x hx => hds x (List.mem_cons_of_mem d hx)) hsmall

/-- What the reader has behind a field: those in front of it in the bytes. -/
structure Holds (st : Scan6) (stored : List Nat) (f : Nat) : Prop where
  acc : st.acc = f
  colons : st.colons = stored.length
  bytes : Filled st.bytes stored

theorem Holds.put {st : Scan6} {stored : List Nat} {f : Nat} (h : Holds st stored f)
    (hroom : stored.length < 8) :
    ∃ bytes, st.put = .ok bytes ∧ Filled bytes (stored ++ [f]) := by
  obtain ⟨bytes, hput⟩ := @Scan6.put_safe st (by rw [h.colons]; omega)
  refine ⟨bytes, hput, ?_⟩
  have htake := CheckedBytes.take_store _ _ _ _ hput
  rw [h.colons, h.bytes, h.acc] at htake
  rw [Filled, List.length_append, List.flatMap_append, List.flatMap_singleton, Nat.add_mul]
  exact htake

theorem Holds.separate {st : Scan6} {stored : List Nat} {f : Nat} (h : Holds st stored f)
    (hroom : stored.length < 7) :
    ∃ bytes, st.separate =
        .ok (some { st with acc := 0, colons := st.colons + 1, bytes }) ∧
      Holds { st with acc := 0, colons := st.colons + 1, bytes } (stored ++ [f]) 0 := by
  obtain ⟨bytes, hput, hfilled⟩ := h.put (by omega)
  refine ⟨bytes, ?_, rfl, ?_, hfilled⟩
  · rw [Scan6.separate, if_neg (by rw [h.colons]; omega), hput]
    rfl
  · rw [List.length_append, List.length_singleton]
    exact congrArg (· + 1) h.colons

/-- The fields of texts with colons between them. -/
abbrev SpellAll (texts : List (List UInt8)) (fs : List Nat) : Prop :=
  List.Forall₂ Spells texts fs

/-- The texts with colons between them. -/
abbrev joined (texts : List (List UInt8)) : List UInt8 :=
  [58].intercalate texts

theorem joined_cons (text next : List UInt8) (texts : List (List UInt8)) :
    joined (text :: next :: texts) = text ++ 58 :: joined (next :: texts) := by
  rw [joined, List.intercalate_cons_cons, List.append_assoc]
  rfl

/-- A text of fields begins with a digit. -/
theorem joined_eq_cons {texts : List (List UInt8)} {fs : List Nat} (h : SpellAll texts fs)
    (hne : texts ≠ []) : ∃ c rest, joined texts = c :: rest ∧ c ≠ 58 := by
  cases h with
  | nil => exact absurd rfl hne
  | @cons text f texts fs hspells h =>
      obtain ⟨⟨ds, hds, hlt, rfl, -⟩, -⟩ := hspells
      obtain ⟨d, ds, rfl⟩ := List.exists_cons_of_ne_nil hds
      refine ⟨hexDigit d, ?_⟩
      cases texts with
      | nil => exact ⟨_, List.intercalate_singleton, hexDigit_ne_colon d (hlt d List.mem_cons_self)⟩
      | cons next texts =>
          exact ⟨_, joined_cons _ _ _, hexDigit_ne_colon d (hlt d List.mem_cons_self)⟩

/-- The reader goes over fields and holds the last of them. -/
theorem scan6_fields {texts : List (List UInt8)} {fs : List Nat} (h : SpellAll texts fs)
    (hne : fs ≠ []) (rest : List UInt8) (st : Scan6) (stored : List Nat)
    (hst : Holds st stored 0) (hroom : stored.length + fs.length ≤ 8) :
    ∃ st', scan6 (joined texts ++ rest) st = scan6 rest st' ∧
      Holds st' (stored ++ fs.dropLast) (fs.getLast hne) ∧
      st'.double_colons = st.double_colons := by
  -- by induction on the fields, with what is stored so far in the invariant
  induction h generalizing st stored with
  | nil => exact absurd rfl hne
  | @cons text f texts fs hspells h ih =>
      obtain ⟨⟨ds, -, hlt, rfl, hvalue⟩, hsmall⟩ := hspells
      have hdigits : ∀ rest, scan6 (ds.map hexDigit ++ rest) st =
          scan6 rest { st with acc := f } := fun rest => by
        rw [scan6_digits ds rest st hlt (by rw [hst.acc, hvalue]; exact hsmall), hst.acc, hvalue]
      -- the last field stays in the accumulator, and a colon stores any other
      cases h with
      | nil =>
          refine ⟨{ st with acc := f }, ?_, ⟨rfl, ?_, ?_⟩, rfl⟩
          · rw [joined, List.intercalate_singleton]
            exact hdigits rest
          · rw [List.dropLast_singleton, List.append_nil]
            exact hst.colons
          · rw [List.dropLast_singleton, List.append_nil]
            exact hst.bytes
      | @cons next g texts fs hnext h =>
          rw [List.length_cons, List.length_cons] at hroom
          -- the colon behind the field is single, as a digit follows it
          obtain ⟨c, more, htext, hc⟩ :=
            joined_eq_cons (List.Forall₂.cons hnext h) (List.cons_ne_nil next texts)
          obtain ⟨bytes, hsep, hholds⟩ :=
            @Holds.separate { st with acc := f } stored f ⟨rfl, hst.colons, hst.bytes⟩ (by omega)
          obtain ⟨st', hscan, hst', hdouble⟩ := ih (List.cons_ne_nil g fs) _ _ hholds (by
            rw [List.length_append, List.length_singleton, List.length_cons]
            omega)
          refine ⟨st', ?_, ?_, hdouble⟩
          · rw [joined_cons, List.append_assoc, hdigits, ← hscan, htext, List.cons_append,
              List.cons_append, scan6.eq_def]
            dsimp only
            rw [show hexValue 58 = none from rfl]
            dsimp only
            rw [if_pos rfl, if_neg hc, hsep]
          · rw [List.dropLast_cons_cons, List.getLast_cons_cons, ← List.singleton_append,
              ← List.append_assoc]
            exact hst'

/-! ### Texts of IPv6 -/

/-- The reader stores the field that the text ends with. -/
theorem conclude_single {st : Scan6} {stored : List Nat} {f : Nat} (a : IPAddress)
    (h : Holds st stored f) (hlen : stored.length = 7) (hdouble : st.double_colons = none) :
    ∃ bytes : Block 16, st.conclude a = .ok (true, { type := .v6, bytes }) ∧
      bytes.1 = (stored ++ [f]).flatMap pair := by
  obtain ⟨bytes, hput, hfilled⟩ := h.put (by omega)
  have hgood : ¬ ((st.double_colons = none ∧ st.colons ≠ 7) ∨
      (st.double_colons.isSome ∧ 6 < st.colons)) := by
    rw [hdouble, h.colons, hlen]
    decide
  refine ⟨bytes, ?_, hfilled.whole (by rw [List.length_append, hlen]; rfl)⟩
  rw [Scan6.conclude, if_neg hgood, hput, hdouble]
  rfl

/-- The reader stores the field that the text ends with, and spreads those there are. -/
theorem conclude_double {st : Scan6} {stored : List Nat} {f place : Nat} (a : IPAddress)
    (h : Holds st stored f) (hlen : stored.length ≤ 6) (hplace : place ≤ stored.length)
    (hdouble : st.double_colons = some place) :
    ∃ bytes : Block 16, st.conclude a = .ok (true, { type := .v6, bytes }) ∧
      bytes.1 = ((stored ++ [f]).take place ++ List.replicate (7 - stored.length) 0 ++
        (stored ++ [f]).drop place).flatMap pair := by
  have hcolons := h.colons
  -- the field in the accumulator is put behind the stored ones before they are spread
  obtain ⟨bytes, hput, hfilled⟩ := h.put (by omega)
  have hlen' : (stored ++ [f]).length = st.colons + 1 := by
    rw [List.length_append, List.length_singleton, h.colons]
  have hgood : ¬ ((st.double_colons = none ∧ st.colons ≠ 7) ∨
      (st.double_colons.isSome ∧ 6 < st.colons)) := by
    rw [hdouble, h.colons]
    rintro (⟨hnone, -⟩ | ⟨-, hmany⟩)
    · cases hnone
    · omega
  obtain ⟨b', hspread, hb'⟩ := spread_fields bytes _ place hfilled (by omega) (by omega)
  refine ⟨b', ?_, ?_⟩
  · rw [Scan6.conclude, if_neg hgood, hput, hdouble]
    change (spread place (st.colons + 1) bytes >>= fun bytes =>
      Except.ok (true, ({ type := .v6, bytes } : IPAddress))) = _
    rw [← hlen', hspread]
    rfl
  · have hgap : 8 - (stored ++ [f]).length = 7 - stored.length := by omega
    rw [hb', hgap]

/-- The reader before a text. -/
theorem holds_start (b : Block 16) : Holds { bytes := b } [] 0 :=
  ⟨rfl, rfl, by rw [Filled, List.length_nil, Nat.zero_mul, List.take_zero, List.flatMap_nil]⟩

/-- Eight fields are read as they are. -/
theorem fromString6_full (a : IPAddress) {texts : List (List UInt8)} {fs : List Nat}
    (h : SpellAll texts fs) (hlen : fs.length = 8) :
    ∃ bytes : Block 16, fromString6 a (joined texts) = .ok (true, { type := .v6, bytes }) ∧
      bytes.1 = fs.flatMap pair := by
  have hne : fs ≠ [] := fun h0 => by rw [h0] at hlen; cases hlen
  obtain ⟨st, hscan, hholds, hdouble⟩ :=
    scan6_fields h hne [] _ [] (holds_start a.bytes) (by rw [hlen]; decide)
  obtain ⟨bytes, hconclude, hbytes⟩ := conclude_single a hholds
    (by rw [List.nil_append, List.length_dropLast, hlen]) hdouble
  refine ⟨bytes, ?_, ?_⟩
  · rw [List.append_nil] at hscan
    rw [fromString6, hscan]
    exact hconclude
  · rw [hbytes, List.nil_append, List.dropLast_concat_getLast]

/-- The reader at a double colon: it remembers the place, and stores the field in front of it. -/
theorem scan6_double {st : Scan6} {stored : List Nat} {f : Nat} (rest : List UInt8)
    (h : Holds st stored f) (hroom : stored.length < 7) (hdouble : st.double_colons = none)
    (hrest : rest.head? ≠ some 58) :
    ∃ st', scan6 (58 :: 58 :: rest) st = scan6 rest st' ∧ Holds st' (stored ++ [f]) 0 ∧
      st'.double_colons = some (stored.length + if f = 0 then 0 else 1) := by
  obtain ⟨bytes, hsep, hholds⟩ :=
    @Holds.separate st.remember stored f ⟨h.acc, h.colons, h.bytes⟩ hroom
  refine ⟨_, ?_, hholds, ?_⟩
  · rw [scan6.eq_def]
    dsimp only
    rw [show hexValue 58 = none from rfl]
    dsimp only
    rw [if_pos rfl, if_pos rfl, hdouble, if_neg (by simpa using hrest), hsep]
  · change some (st.colons + if st.acc = 0 then 0 else 1) = _
    rw [h.acc, h.colons]

/-- At most six fields with a double colon are read with zeros between them. -/
theorem fromString6_short (a : IPAddress) {front back : List (List UInt8)} {fs gs : List Nat}
    (hfront : SpellAll front fs) (hback : SpellAll back gs) (hlen : fs.length + gs.length ≤ 6) :
    ∃ bytes : Block 16, fromString6 a (joined front ++ 58 :: 58 :: joined back) =
        .ok (true, { type := .v6, bytes }) ∧
      bytes.1 = (fs ++ List.replicate (8 - fs.length - gs.length) 0 ++ gs).flatMap pair := by
  -- the reader at the double colon holds the last field in front of it, or an empty one
  obtain ⟨stored, f, st, hscan, hholds, hdouble, hfields⟩ : ∃ stored f st,
      scan6 (joined front ++ 58 :: 58 :: joined back) { bytes := a.bytes } =
        scan6 (58 :: 58 :: joined back) st ∧ Holds st stored f ∧ st.double_colons = none ∧
      ((fs = [] ∧ stored = [] ∧ f = 0) ∨ fs = stored ++ [f]) := by
    by_cases hne : fs = []
    · subst hne
      cases hfront
      exact ⟨[], 0, _, rfl, holds_start a.bytes, rfl, Or.inl ⟨rfl, rfl, rfl⟩⟩
    · obtain ⟨st, hscan, hholds, hdouble⟩ :=
        scan6_fields hfront hne (58 :: 58 :: joined back) _ [] (holds_start a.bytes)
          (by rw [List.length_nil]; omega)
      exact ⟨_, _, st, hscan, hholds, hdouble, Or.inr (List.dropLast_concat_getLast hne).symm⟩
  -- the place is in front of an empty field, and of a zero one
  obtain ⟨kept, i, j, hfs, hall, hj, hplace⟩ : ∃ kept i j, fs = kept ++ List.replicate i 0 ∧
      stored ++ [f] = kept ++ List.replicate j 0 ∧ i ≤ j ∧
      stored.length + (if f = 0 then 0 else 1) = kept.length := by
    by_cases hf : f = 0
    · rw [if_pos hf]
      rcases hfields with ⟨rfl, rfl, -⟩ | rfl
      · exact ⟨[], 0, 1, rfl, by rw [hf]; rfl, by decide, rfl⟩
      · exact ⟨stored, 1, 1, by rw [hf]; rfl, by rw [hf]; rfl, by decide, rfl⟩
    · rw [if_neg hf]
      rcases hfields with ⟨-, -, h0⟩ | rfl
      · exact absurd h0 hf
      · refine ⟨stored ++ [f], 0, 0, ?_, ?_, by decide, ?_⟩
        · rw [List.replicate_zero, List.append_nil]
        · rw [List.replicate_zero, List.append_nil]
        · rw [List.length_append, List.length_singleton]
  have hstored : stored.length + 1 = kept.length + j ∧ fs.length = kept.length + i := by
    have h1 := congrArg List.length hall
    have h2 := congrArg List.length hfs
    rw [List.length_append, List.length_append, List.length_replicate] at h1
    rw [List.length_append, List.length_replicate] at h2
    exact ⟨h1, h2⟩
  have hroom : stored.length + 1 ≤ max 1 fs.length := by
    rcases hfields with ⟨-, rfl, -⟩ | rfl
    · exact Nat.le_max_left _ _
    · rw [List.length_append]
      exact Nat.le_max_right _ _
  have hhead : (joined back).head? ≠ some 58 := by
    by_cases hne : back = []
    · rw [hne]
      exact fun h => Option.some_ne_none _ h.symm
    · obtain ⟨c, more, htext, hc⟩ := joined_eq_cons hback hne
      rw [htext, List.head?_cons]
      exact fun h => hc (Option.some_inj.1 h)
  obtain ⟨st', hscan', hholds', hdouble'⟩ :=
    scan6_double (joined back) hholds (by omega) hdouble hhead
  rw [hplace] at hdouble'
  -- behind the double colon stand the fields there, or an empty one
  obtain ⟨stored', g, k, st'', hscan'', hholds'', hdouble'', hk, hback'⟩ : ∃ stored' g k st'',
      scan6 (joined back) st' = .ok (true, st'') ∧ Holds st'' stored' g ∧
      st''.double_colons = some kept.length ∧ k + gs.length = max 1 gs.length ∧
      stored' ++ [g] = stored ++ [f] ++ (List.replicate k 0 ++ gs) := by
    by_cases hne : gs = []
    · subst hne
      cases hback
      exact ⟨stored ++ [f], 0, 1, st', rfl, hholds', hdouble', rfl, rfl⟩
    · obtain ⟨st'', hscan'', hholds'', hkeeps⟩ := scan6_fields hback hne [] _ _ hholds' (by
        rw [List.length_append, List.length_singleton]
        omega)
      rw [List.append_nil] at hscan''
      refine ⟨_, _, 0, st'', hscan'', hholds'', hkeeps.trans hdouble', ?_, ?_⟩
      · rw [Nat.zero_add, Nat.max_eq_right (List.length_pos_iff.2 hne)]
      · rw [List.append_assoc, List.dropLast_concat_getLast, List.replicate_zero, List.nil_append]
  have hlen' : stored'.length + 1 = kept.length + j + (k + gs.length) := by
    have h1 := congrArg List.length hback'
    rw [List.length_append, List.length_append, List.length_append, List.length_append,
      List.length_replicate, List.length_singleton, List.length_singleton] at h1
    omega
  obtain ⟨bytes, hconclude, hbytes⟩ := conclude_double a hholds'' (by omega) (by omega) hdouble''
  refine ⟨bytes, ?_, ?_⟩
  · rw [fromString6, hscan, hscan', hscan'']
    exact hconclude
  · have hzeros : 7 - stored'.length + (j + k) = i + (8 - fs.length - gs.length) := by omega
    rw [hbytes, hback', hall, List.append_assoc kept, List.take_left, List.drop_left, hfs,
      List.append_assoc kept, List.append_assoc kept, List.append_assoc kept,
      ← List.append_assoc (List.replicate j 0), ← List.append_assoc (List.replicate (7 - _) 0),
      List.replicate_append_replicate, List.replicate_append_replicate, hzeros]
    rw [← List.replicate_append_replicate, List.append_assoc, List.append_assoc, ← hfs]

/-! ### The fields of an address -/

/-- Two bytes of an address as a number. -/
def field (a : IPAddress) (f : Nat) : Nat :=
  a.byteAt (f * 2) * 256 + a.byteAt (f * 2 + 1)

theorem byteAt_lt (a : IPAddress) (i : Nat) : a.byteAt i < 256 :=
  UInt8.toNat_lt _

theorem eq_flatMap_range (n : Nat) (bs : List UInt8) (h : bs.length = 2 * n) :
    bs = (List.range n).flatMap fun f => [bs.getD (f * 2) 0, bs.getD (f * 2 + 1) 0] := by
  induction n generalizing bs with
  | zero => exact List.eq_nil_of_length_eq_zero h
  | succ n ih =>
      obtain ⟨x, bs, rfl⟩ := List.exists_cons_of_length_eq_add_one h
      obtain ⟨y, bs, rfl⟩ := List.exists_cons_of_length_eq_add_one (Nat.succ.inj h)
      have hrest := ih bs (Nat.succ.inj (Nat.succ.inj h))
      rw [List.range_succ_eq_map, List.flatMap_cons, List.flatMap_map]
      have hshift : ∀ f, (x :: y :: bs).getD (Nat.succ f * 2) 0 = bs.getD (f * 2) 0 ∧
          (x :: y :: bs).getD (Nat.succ f * 2 + 1) 0 = bs.getD (f * 2 + 1) 0 := fun f => by
        rw [Nat.succ_mul]
        exact ⟨rfl, rfl⟩
      simp only [hshift]
      exact congrArg (fun t => x :: y :: t) hrest

/-- The bytes of an address are those of its fields. -/
theorem bytes_eq (a : IPAddress) : a.bytes.1 = ((List.range 8).map a.field).flatMap pair := by
  have hpair : ∀ f, pair (a.field f) = [a.bytes.1.getD (f * 2) 0, a.bytes.1.getD (f * 2 + 1) 0] :=
    fun f => by
    have hlt := a.byteAt_lt (f * 2 + 1)
    have hhigh : a.field f / 256 = a.byteAt (f * 2) := by
      rw [field]
      omega
    have hlow : a.field f % 256 = a.byteAt (f * 2 + 1) := by
      rw [field]
      omega
    rw [pair, hhigh, hlow, byteAt, byteAt, UInt8.ofNat_toNat, UInt8.ofNat_toNat]
  rw [List.flatMap_map]
  simp only [hpair]
  exact eq_flatMap_range 8 a.bytes.1 a.bytes.2

/-- The full text of a field stands for it. -/
theorem fullField_spells (a : IPAddress) (f : Nat) : Spells (a.fullField f) (a.field f) := by
  have h1 := a.byteAt_lt (f * 2)
  have h2 := a.byteAt_lt (f * 2 + 1)
  refine ⟨⟨[a.byteAt (f * 2) / 16, a.byteAt (f * 2) % 16, a.byteAt (f * 2 + 1) / 16,
    a.byteAt (f * 2 + 1) % 16], List.cons_ne_nil _ _, ?_, rfl, ?_⟩, ?_⟩
  · simp only [List.forall_mem_cons, List.not_mem_nil, false_imp_iff, implies_true, and_true]
    omega
  · simp only [hexadecimal, List.foldl_cons, List.foldl_nil, field]
    omega
  · rw [field]
    omega

/-- The short text of a field stands for it. -/
theorem shortField_spells (a : IPAddress) (f : Nat) : Spells (a.shortField f) (a.field f) := by
  have h1 := a.byteAt_lt (f * 2)
  have h2 := a.byteAt_lt (f * 2 + 1)
  have hsmall : a.field f < 65536 := by
    rw [field]
    omega
  -- the leading zeros are left out, all but the last
  have hkept : ∀ ds : List Nat, ds ≠ [] → (∀ d ∈ ds, d < 16) → hexadecimal 0 ds = a.field f →
      Spells (ds.map hexDigit) (a.field f) :=
    fun ds hne hlt hvalue => ⟨⟨ds, hne, hlt, rfl, hvalue⟩, hsmall⟩
  rw [field] at hkept
  rw [shortField, field]
  -- the first of the four digits that is not zero decides how many are printed
  by_cases hc1 : 0 < a.byteAt (f * 2) / 16
  · rw [if_pos hc1, if_pos (Or.inl hc1), if_pos (Or.inl hc1)]
    refine hkept [_, _, _, _] (List.cons_ne_nil _ _) ?_ ?_
    · simp only [List.forall_mem_cons, List.not_mem_nil, false_imp_iff, implies_true, and_true]
      omega
    · simp only [hexadecimal, List.foldl_cons, List.foldl_nil]
      omega
  · rw [if_neg hc1]
    by_cases hc2 : 0 < a.byteAt (f * 2) % 16
    · rw [if_pos (Or.inr hc2), if_pos (Or.inr (Or.inl hc2))]
      refine hkept [_, _, _] (List.cons_ne_nil _ _) ?_ ?_
      · simp only [List.forall_mem_cons, List.not_mem_nil, false_imp_iff, implies_true, and_true]
        omega
      · simp only [hexadecimal, List.foldl_cons, List.foldl_nil]
        omega
    · rw [if_neg (not_or.2 ⟨hc1, hc2⟩)]
      by_cases hc3 : 0 < a.byteAt (f * 2 + 1) / 16
      · rw [if_pos (Or.inr (Or.inr hc3))]
        refine hkept [_, _] (List.cons_ne_nil _ _) ?_ ?_
        · simp only [List.forall_mem_cons, List.not_mem_nil, false_imp_iff, implies_true,
            and_true]
          omega
        · simp only [hexadecimal, List.foldl_cons, List.foldl_nil]
          omega
      · rw [if_neg (not_or.2 ⟨hc1, not_or.2 ⟨hc2, hc3⟩⟩)]
        refine hkept [_] (List.cons_ne_nil _ _) ?_ ?_
        · simp only [List.forall_mem_cons, List.not_mem_nil, false_imp_iff, implies_true,
            and_true]
          omega
        · simp only [hexadecimal, List.foldl_cons, List.foldl_nil]
          omega

/-! ### The longest run of zero fields -/

/-- The fields from one to another are zero. -/
def AllZero (a : IPAddress) (s e : Nat) : Prop :=
  ∀ f, s ≤ f → f < e → a.field f = 0

/-- A run of zero fields below `n` that is the leftmost of the longest. -/
structure Leftmost (a : IPAddress) (n s l : Nat) : Prop where
  inside : s + l ≤ n
  zero : a.AllZero s (s + l)
  longest : ∀ s' l', s' + l' ≤ n → a.AllZero s' (s' + l') → l' ≤ l ∧ (l' = l → s ≤ s')

/-- What the search has behind so many fields: the run that goes on begins behind a field that
is not zero, and the longest so far has two fields at least, or there is none. -/
structure Runs.Sound (a : IPAddress) (n : Nat) (r : Runs) : Prop where
  current : (r.current_start = -1 ∧ (n = 0 ∨ a.field (n - 1) ≠ 0)) ∨
    ∃ c : Nat, r.current_start = c ∧ c < n ∧ r.current_length = n - c ∧ a.AllZero c n ∧
      (c = 0 ∨ a.field (c - 1) ≠ 0)
  longest : (r.longest_start = -1 ∧ r.longest_length = 1 ∧
      ∀ s l, s + l ≤ n → a.AllZero s (s + l) → l ≤ 1) ∨
    ∃ s l : Nat, r.longest_start = s ∧ r.longest_length = l ∧ 2 ≤ l ∧ a.Leftmost n s l

theorem field_eq_zero (a : IPAddress) (f : Nat) :
    a.field f = 0 ↔ a.byteAt (f * 2) = 0 ∧ a.byteAt (f * 2 + 1) = 0 := by
  rw [field]
  omega

/-- A run that ends behind a field that goes on from `c` begins there or later. -/
theorem le_of_allZero {a : IPAddress} {c s e : Nat} (hc : c = 0 ∨ a.field (c - 1) ≠ 0)
    (hce : c < e) (h : a.AllZero s e) : c ≤ s := by
  by_contra hlt
  rcases hc with rfl | hne
  · omega
  · exact hne (h (c - 1) (by omega) (by omega))

/-- A field that is not zero ends no run. -/
theorem Runs.Sound.next_nonzero {a : IPAddress} {n : Nat} {r : Runs} (h : r.Sound a n)
    (hn : a.field n ≠ 0) : (r.next a n).Sound a (n + 1) := by
  have hruns : ∀ s l, s + l ≤ n + 1 → a.AllZero s (s + l) → s + l ≤ n ∨ l = 0 := by
    intro s l hle hzero
    by_contra hcon
    exact hn (hzero n (by omega) (by omega))
  rw [Runs.next, if_neg fun h0 => hn ((field_eq_zero a n).2 h0)]
  refine ⟨Or.inl ⟨rfl, Or.inr hn⟩, ?_⟩
  rcases h.longest with ⟨hstart, hlength, hnone⟩ | ⟨s, l, hstart, hlength, hl, hrun⟩
  · refine Or.inl ⟨hstart, hlength, fun s l hle hzero => ?_⟩
    rcases hruns s l hle hzero with hle | h0
    · exact hnone s l hle hzero
    · omega
  · refine Or.inr ⟨s, l, hstart, hlength, hl, Nat.le_succ_of_le hrun.inside, hrun.zero, ?_⟩
    intro s' l' hle hzero
    rcases hruns s' l' hle hzero with hle | h0
    · exact hrun.longest s' l' hle hzero
    · omega

/-- A zero field goes on with a run or begins one, and the run may have become the longest. -/
theorem Runs.Sound.next_zero {a : IPAddress} {n : Nat} {r : Runs} (h : r.Sound a n)
    (hn : a.field n = 0) : (r.next a n).Sound a (n + 1) := by
  obtain ⟨r', c, hnext, hls, hll, hstart, hcn, hlength, hzero, hc⟩ : ∃ (r' : Runs) (c : Nat),
      r.next a n = (if r'.longest_length < r'.current_length then
        { r' with longest_start := r'.current_start, longest_length := r'.current_length }
        else r') ∧ r'.longest_start = r.longest_start ∧ r'.longest_length = r.longest_length ∧
      r'.current_start = c ∧ c < n + 1 ∧ r'.current_length = (n + 1 : Nat) - c ∧
      a.AllZero c (n + 1) ∧ (c = 0 ∨ a.field (c - 1) ≠ 0) := by
    -- a zero starts a run or lengthens the one that ends here
    rcases h.current with ⟨hnone, hbefore⟩ | ⟨c, hstart, hcn, hlength, hzero, hc⟩
    · refine ⟨{ r with current_start := n, current_length := 1 }, n, ?_, rfl, rfl, rfl,
        Nat.lt_succ_self n, by push_cast; omega, ?_, hbefore⟩
      · rw [Runs.next, if_pos ((field_eq_zero a n).1 hn), if_pos hnone]
      · intro f hf hlt
        rwa [show f = n by omega]
    · refine ⟨{ r with current_length := r.current_length + 1 }, c, ?_, rfl, rfl, hstart,
        by omega, by rw [hlength]; push_cast; omega, ?_, hc⟩
      · have hgoing : r.current_start ≠ -1 := by
          rw [hstart]
          omega
        rw [Runs.next, if_pos ((field_eq_zero a n).1 hn), if_neg hgoing]
      · intro f hf hlt
        by_cases hfn : f = n
        · rwa [hfn]
        · exact hzero f hf (by omega)
  -- a run that ends here is no longer than the one that goes on
  have hends : ∀ s l, s + l = n + 1 → a.AllZero s (s + l) → 0 < l → c ≤ s := fun s l hle hz hl =>
    le_of_allZero hc (by omega) hz
  have hcurrent : ((n + 1 - c : Nat) : Int) = r'.current_length := by
    rw [hlength]
    omega
  rw [hnext]
  -- the recorded run is replaced only by one that is longer
  by_cases hlonger : r'.longest_length < r'.current_length
  · rw [if_pos hlonger]
    have hall : ∀ s' l', s' + l' ≤ n + 1 → a.AllZero s' (s' + l') →
        l' ≤ n + 1 - c ∧ (l' = n + 1 - c → c ≤ s') ∧ 2 ≤ n + 1 - c := by
      intro s' l' hle hz
      rcases h.longest with ⟨-, hone, hnone⟩ | ⟨s, l, -, htwo, hl, hrun⟩
      · by_cases hend : s' + l' = n + 1 ∧ 0 < l'
        · have := hends s' l' hend.1 hz hend.2
          omega
        · have hshort : l' ≤ 1 := by
            by_cases h0 : l' = 0
            · omega
            · exact hnone s' l' (by omega) hz
          omega
      · by_cases hend : s' + l' = n + 1 ∧ 0 < l'
        · have := hends s' l' hend.1 hz hend.2
          omega
        · have hshort : l' ≤ l := by
            by_cases h0 : l' = 0
            · omega
            · exact (hrun.longest s' l' (by omega) hz).1
          omega
    have hzero' : a.AllZero c (c + (n + 1 - c)) := by
      rwa [show c + (n + 1 - c) = n + 1 by omega]
    refine ⟨Or.inr ⟨c, hstart, hcn, hlength, hzero, hc⟩, Or.inr ⟨c, n + 1 - c, hstart,
      hcurrent.symm, (hall c _ (by omega) hzero').2.2, by omega, hzero', fun s' l' hle hz =>
        ⟨(hall s' l' hle hz).1, (hall s' l' hle hz).2.1⟩⟩⟩
  · rw [if_neg hlonger]
    refine ⟨Or.inr ⟨c, hstart, hcn, hlength, hzero, hc⟩, ?_⟩
    rw [hls, hll]
    rcases h.longest with ⟨hminus, hone, hnone⟩ | ⟨s, l, hs, htwo, hl, hrun⟩
    · refine Or.inl ⟨hminus, hone, fun s' l' hle hz => ?_⟩
      by_cases hend : s' + l' = n + 1 ∧ 0 < l'
      · have := hends s' l' hend.1 hz hend.2
        omega
      · by_cases h0 : l' = 0
        · omega
        · exact hnone s' l' (by omega) hz
    · refine Or.inr ⟨s, l, hs, htwo, hl, Nat.le_succ_of_le hrun.inside, hrun.zero, ?_⟩
      intro s' l' hle hz
      have hinside := hrun.inside
      by_cases hend : s' + l' = n + 1 ∧ 0 < l'
      · have := hends s' l' hend.1 hz hend.2
        omega
      · by_cases h0 : l' = 0
        · omega
        · exact hrun.longest s' l' (by omega) hz

/-- The search finds the leftmost of the longest runs of at least two zero fields. -/
theorem longestRun_sound (a : IPAddress) : a.longestRun.Sound a 8 := by
  have hrun : ∀ n, ((List.range n).foldl (Runs.next a) {}).Sound a n := by
    intro n
    induction n with
    | zero =>
        exact ⟨Or.inl ⟨rfl, Or.inl rfl⟩, Or.inl ⟨rfl, rfl, fun s l hle _ => by omega⟩⟩
    | succ n ih =>
        rw [List.range_succ, List.foldl_append, List.foldl_cons, List.foldl_nil]
        by_cases hn : a.field n = 0
        · exact ih.next_zero hn
        · exact ih.next_nonzero hn
  exact hrun 8

/-! ### The canonical text -/

theorem flatMap_closed (F : Nat → List UInt8) (lo n : Nat) :
    (List.range' lo n).flatMap (fun f => F f ++ [58]) =
      if n = 0 then [] else joined ((List.range' lo n).map F) ++ [58] := by
  induction n generalizing lo with
  | zero => rfl
  | succ n ih =>
      rw [if_neg n.succ_ne_zero, List.range'_succ, List.flatMap_cons, ih (lo + 1), List.map_cons]
      cases n with
      | zero =>
          rw [if_pos rfl, List.append_nil, List.range'_zero, List.map_nil, joined,
            List.intercalate_singleton]
      | succ n =>
          rw [if_neg n.succ_ne_zero, List.range'_succ, List.map_cons, joined_cons]
          simp only [List.append_assoc, List.cons_append, List.nil_append]

theorem flatMap_open (F : Nat → List UInt8) (lo n : Nat) (h : lo + n = 8) :
    (List.range' lo n).flatMap (fun f => F f ++ if f < 7 then [58] else []) =
      joined ((List.range' lo n).map F) := by
  induction n generalizing lo with
  | zero => rfl
  | succ n ih =>
      rw [List.range'_succ, List.flatMap_cons, ih (lo + 1) (by omega), List.map_cons]
      cases n with
      | zero =>
          rw [if_neg (by omega), List.range'_zero, List.map_nil, joined, joined,
            List.intercalate_singleton, List.intercalate_nil, List.append_nil, List.append_nil]
      | succ n =>
          rw [if_pos (by omega), List.range'_succ, List.map_cons, joined_cons]
          simp only [List.append_assoc, List.cons_append, List.nil_append]

/-- The eight fields in front of a run, in it and behind it. -/
theorem range_cut {s l : Nat} (h : s + l ≤ 8) : List.range 8 =
    List.range' 0 s ++ List.range' s l ++ List.range' (s + l) (8 - s - l) := by
  have hfront := @List.range'_append_1 0 s l
  have hall := @List.range'_append_1 0 (s + l) (8 - s - l)
  rw [Nat.zero_add] at hfront hall
  rw [hfront, hall, List.range_eq_range']
  congr 1
  omega

/-- Without a run every field is printed. -/
theorem flatMap_printField_all (a : IPAddress) {r : Runs} (hstart : r.longest_start = -1)
    (hlength : r.longest_length = 1) :
    (List.range 8).flatMap (a.printField r) = joined ((List.range 8).map a.shortField) := by
  have hfield : a.printField r = fun f => a.shortField f ++ if f < 7 then [58] else [] := by
    funext f
    rw [printField, hstart, hlength, if_pos (Or.inr (by omega))]
  rw [hfield, List.range_eq_range']
  exact flatMap_open a.shortField 0 8 rfl

/-- The fields in front of a run, and those behind it. -/
theorem flatMap_printField_cut (a : IPAddress) {r : Runs} {s l : Nat} (hstart : r.longest_start = s)
    (hlength : r.longest_length = l) (hl : 2 ≤ l) (hinside : s + l ≤ 8) :
    (List.range 8).flatMap (a.printField r) =
      joined ((List.range' 0 s).map a.shortField) ++
        58 :: 58 :: joined ((List.range' (s + l) (8 - s - l)).map a.shortField) := by
  -- each field before the cut is followed by a colon, each behind it by one unless it is the last
  have hfront : (List.range' 0 s).flatMap (a.printField r) =
      (List.range' 0 s).flatMap fun f => a.shortField f ++ [58] := by
    refine List.flatMap_congr fun f hf => ?_
    rw [List.mem_range'_1] at hf
    rw [printField, hstart, hlength, if_pos (Or.inl (by omega)), if_pos (by omega)]
  have hrun : (List.range' (s + 1) (l - 1)).flatMap (a.printField r) = [] := by
    rw [List.flatMap_eq_nil_iff]
    intro f hf
    rw [List.mem_range'_1] at hf
    rw [printField, hstart, hlength, if_neg (by omega), if_neg (by omega)]
  have hback : (List.range' (s + l) (8 - s - l)).flatMap (a.printField r) =
      (List.range' (s + l) (8 - s - l)).flatMap
        fun f => a.shortField f ++ if f < 7 then [58] else [] := by
    refine List.flatMap_congr fun f hf => ?_
    rw [List.mem_range'_1] at hf
    rw [printField, hstart, hlength, if_pos (Or.inr (by omega))]
  -- the run itself prints its colon once, and one more where it opens the text
  have hfirst : a.printField r s = (if s = 0 then [58] else []) ++ [58] := by
    rw [printField, hstart, hlength, if_neg (by omega), if_pos rfl]
    congr 1
    exact if_congr Int.natCast_eq_zero rfl rfl
  have hmiddle : List.range' s l = s :: List.range' (s + 1) (l - 1) := by
    rw [← List.range'_succ, Nat.sub_add_cancel (by omega)]
  rw [range_cut hinside, hmiddle, List.flatMap_append, List.flatMap_append, List.flatMap_cons,
    hfront, hrun, hback, hfirst, flatMap_closed, flatMap_open _ _ _ (by omega), List.append_nil]
  -- the opening colon of the double one is printed by the run or by the field before it
  by_cases hs : s = 0
  · subst hs
    rfl
  · rw [if_neg hs, if_neg hs]
    simp only [List.append_assoc, List.cons_append, List.nil_append]

/-- The canonical text leaves out the leftmost of the longest runs of zero fields, unless they
    have one field at most, and has the short text of every other field. -/
theorem printTo_canonical (a : IPAddress) (h : a.type = .v6) :
    ((∀ s l, s + l ≤ 8 → a.AllZero s (s + l) → l ≤ 1) ∧
        a.printTo = joined ((List.range 8).map a.shortField)) ∨
      ∃ s l, 2 ≤ l ∧ a.Leftmost 8 s l ∧
        a.printTo = joined ((List.range' 0 s).map a.shortField) ++
          58 :: 58 :: joined ((List.range' (s + l) (8 - s - l)).map a.shortField) := by
  rw [printTo, h]
  rcases a.longestRun_sound.longest with
    ⟨hstart, hlength, hnone⟩ | ⟨s, l, hstart, hlength, hl, hrun⟩
  · exact Or.inl ⟨hnone, a.flatMap_printField_all hstart hlength⟩
  · exact Or.inr ⟨s, l, hl, hrun, a.flatMap_printField_cut hstart hlength hl hrun.inside⟩

/-- In 2001:db8::1 five fields are left out, behind the first two. -/
theorem printTo_canonical_demo :
    let a : IPAddress :=
      ⟨.v6, ⟨[32, 1, 13, 184, 0, 0, 0, 0, 0, 0, 0, 0, 0, 0, 0, 1], by decide⟩⟩
    a.Leftmost 8 2 5 ∧ a.printTo = [50, 48, 48, 49, 58, 100, 98, 56, 58, 58, 49] := by
  intro a
  have hzero : a.AllZero 2 7 := by
    intro f hlow hhigh
    interval_cases f <;> decide +kernel
  -- there is such a run, so one is left out, and it lies between the fields that are not zero
  rcases printTo_canonical a rfl with h | ⟨s, l, -, hrun, -⟩
  · exact absurd (h.1 2 5 (by decide) hzero) (by decide)
  · have hlong := (hrun.longest 2 5 (by decide) hzero).1
    have hinside := hrun.inside
    have hoff : ∀ f, a.field f ≠ 0 → f < s ∨ s + l ≤ f := fun f hf => by
      by_contra h
      exact hf (hrun.zero f (by omega) (by omega))
    have h1 := hoff 1 (by decide +kernel)
    have h7 := hoff 7 (by decide +kernel)
    obtain rfl : s = 2 := by omega
    obtain rfl : l = 5 := by omega
    exact ⟨hrun, by decide +kernel⟩

/-! ### Texts of IPv4 -/

theorem le_decimal {v : Int} (hv : 0 ≤ v) (ds : List Nat) : v ≤ Print.decimal v ds := by
  induction ds generalizing v with
  | nil => exact Int.le_refl v
  | cons d ds ih => exact Int.le_trans (by omega) (@ih (v * 10 + d) (by omega))

/-- Digits are taken into the number. -/
theorem scan4_digits (ds : List Nat) (rest : List UInt8) (st : Scan4) (hds : ∀ d ∈ ds, d < 10)
    (hacc : 0 ≤ st.acc) (hsmall : Print.decimal st.acc ds < 256) :
    scan4 (ds.map Print.numeralChar ++ rest) st =
      scan4 rest { st with acc := Print.decimal st.acc ds } := by
  induction ds generalizing st with
  | nil => rfl
  | cons d ds ih =>
      have hd := hds d List.mem_cons_self
      have hacc' : (st.append (Print.numeralChar d)).acc = st.acc * 10 + d := by
        change (if st.acc < 0 then _ else _) = _
        rw [if_neg (by omega), Print.toNat_numeralChar hd]
        push_cast
        omega
      have hle := le_decimal (show 0 ≤ st.acc * 10 + d by omega) ds
      have hsmall' : Print.decimal (st.acc * 10 + d) ds < 256 := hsmall
      rw [List.map_cons, List.cons_append, scan4, if_pos (Print.isDigit_numeralChar hd),
        if_neg (by omega), ih _ (fun x hx => hds x (List.mem_cons_of_mem d hx)) (by omega)
          (by rwa [hacc']), hacc']
      rfl

/-- The numeral of a byte is taken into the number. -/
theorem scan4_numeral {n : Nat} (hn : n < 256) (rest : List UInt8) (st : Scan4)
    (hacc : st.acc = -1) :
    scan4 (numeral 10 n ++ rest) st = scan4 rest { st with acc := n } := by
  obtain ⟨ds, hds, hlt, hne, hvalue⟩ := Print.numeral_ten n
  obtain ⟨d, ds, rfl⟩ := List.exists_cons_of_ne_nil hne
  have hd := hlt d List.mem_cons_self
  have hfirst : (st.append (Print.numeralChar d)).acc = d := by
    change (if st.acc < 0 then _ else _) = _
    rw [if_pos (by omega), Print.toNat_numeralChar hd]
    push_cast
    omega
  have hvalue' : Print.decimal d ds = n := by
    rw [← hvalue, Print.decimal, Print.decimal, List.foldl_cons, Int.zero_mul, Int.zero_add]
  rw [hds, List.map_cons, List.cons_append, scan4, if_pos (Print.isDigit_numeralChar hd),
    if_neg (by omega), scan4_digits ds rest _ (fun x hx => hlt x (List.mem_cons_of_mem d hx))
      (by omega) (by rw [hfirst, hvalue']; omega), hfirst, hvalue']
  rfl

/-- What the reader has behind so many dots. -/
structure Holds4 (st : Scan4) (stored : List UInt8) : Prop where
  acc : st.acc = -1
  dots : st.dots = stored.length
  bytes : st.bytes.1.take (12 + stored.length) = List.replicate 12 0 ++ stored

/-- The byte that is stored of a number is the number. -/
theorem store_byte {st : Scan4} {stored : List UInt8} (h : Holds4 st stored) (b : UInt8)
    (hroom : stored.length < 4) :
    ∃ bytes, store st.bytes (12 + st.dots) [UInt8.ofInt b.toNat] = .ok bytes ∧
      bytes.1.take (12 + (stored ++ [b]).length) = List.replicate 12 0 ++ (stored ++ [b]) := by
  obtain ⟨bytes, hstore⟩ := CheckedBytes.exists_store st.bytes (12 + st.dots)
    [UInt8.ofInt b.toNat] (by rw [List.length_singleton, h.dots]; omega)
  have htake := CheckedBytes.take_store _ _ _ _ hstore
  have hb : UInt8.ofInt (b.toNat : Int) = b := by
    have hlt := b.toNat_lt
    have hmod : ((b.toNat : Int) % 2 ^ 8).toNat = b.toNat := by omega
    change UInt8.ofNat ((b.toNat : Int) % 2 ^ 8).toNat = b
    rw [hmod, UInt8.ofNat_toNat]
  refine ⟨bytes, hstore, ?_⟩
  rw [h.dots, h.bytes, hb, List.append_assoc] at htake
  rw [List.length_append]
  exact htake

/-- The reader goes over a byte and a dot. -/
theorem scan4_dot {st : Scan4} {stored : List UInt8} (h : Holds4 st stored) (b : UInt8)
    (rest : List UInt8) (hroom : stored.length < 3) :
    ∃ st', scan4 (numeral 10 b.toNat ++ 46 :: rest) st = scan4 rest st' ∧
      Holds4 st' (stored ++ [b]) := by
  obtain ⟨bytes, hstore, htake⟩ := store_byte h b (by omega)
  refine ⟨{ acc := -1, dots := st.dots + 1, bytes }, ?_, rfl, ?_, htake⟩
  · rw [scan4_numeral b.toNat_lt _ st h.acc, scan4, if_neg (by decide), if_pos rfl,
      if_neg (by dsimp only; rw [h.dots]; omega), if_neg (by dsimp only; omega), hstore]
  · rw [List.length_append, List.length_singleton]
    exact congrArg (· + 1) h.dots

/-- The text of four bytes is read as the four bytes. -/
theorem fromString4_text (a : IPAddress) (b1 b2 b3 b4 : UInt8) :
    ∃ bytes : Block 16, fromString4 a (numeral 10 b1.toNat ++ 46 :: (numeral 10 b2.toNat ++
        46 :: (numeral 10 b3.toNat ++ 46 :: numeral 10 b4.toNat))) =
        .ok (true, { type := .v4, bytes }) ∧
      bytes.1 = List.replicate 12 0 ++ [b1, b2, b3, b4] := by
  -- one dot after another, each storing its byte
  have hstart : Holds4 {} [] := ⟨rfl, rfl, rfl⟩
  obtain ⟨st1, hscan1, h1⟩ := scan4_dot hstart b1 (numeral 10 b2.toNat ++
    46 :: (numeral 10 b3.toNat ++ 46 :: numeral 10 b4.toNat)) (by decide)
  obtain ⟨st2, hscan2, h2⟩ := scan4_dot h1 b2
    (numeral 10 b3.toNat ++ 46 :: numeral 10 b4.toNat) (by change 1 < 3; decide)
  obtain ⟨st3, hscan3, h3⟩ := scan4_dot h2 b3 (numeral 10 b4.toNat) (by change 2 < 3; decide)
  obtain ⟨bytes, hstore, htake⟩ := store_byte h3 b4 (by change 3 < 4; decide)
  have hscan4 : scan4 (numeral 10 b4.toNat) st3 = .ok (true, { st3 with acc := b4.toNat }) := by
    rw [← List.append_nil (numeral 10 b4.toNat), scan4_numeral b4.toNat_lt [] st3 h3.acc]
    rfl
  have hdots : st3.dots = 3 := h3.dots
  refine ⟨bytes, ?_, ?_⟩
  · rw [fromString4, hscan1, hscan2, hscan3, hscan4]
    have hgood : ¬ (true = false ∨ st3.dots ≠ 3 ∨ (b4.toNat : Int) < 0) := by
      rw [hdots]
      simp
    rw [hdots] at hstore
    change (if _ then _ else _) = _
    rw [if_neg hgood, hstore]
    rfl
  · rw [List.take_of_length_le (by rw [bytes.2]; rfl)] at htake
    exact htake

/-- A text with a colon is none of IPv4. -/
theorem scan4_colon (address : List UInt8) (st : Scan4) (h : st.dots ≤ 3)
    (hcolon : 58 ∈ address) : ∃ st', scan4 address st = .ok (false, st') := by
  -- a colon is neither a digit nor a dot, and whatever comes earlier stops the loop too
  induction address generalizing st with
  | nil => cases hcolon
  | cons c address ih =>
      rw [scan4]
      by_cases hdigit : isDigit c = true
      · have hc : c ≠ 58 := fun h0 => by
          rw [h0] at hdigit
          revert hdigit
          decide
        rw [if_pos hdigit]
        split_ifs
        · exact ⟨_, rfl⟩
        · exact ih _ h ((List.mem_cons.1 hcolon).resolve_left fun h0 => hc h0.symm)
      · rw [if_neg hdigit]
        by_cases hdot : c = 46
        · have hmem : 58 ∈ address := (List.mem_cons.1 hcolon).resolve_left fun h0 => by
            rw [hdot] at h0
            revert h0
            decide
          rw [if_pos hdot]
          by_cases hdots : st.dots = 3
          · rw [if_pos hdots]
            exact ⟨st, rfl⟩
          · rw [if_neg hdots]
            by_cases hacc : st.acc < 0
            · rw [if_pos hacc]
              exact ⟨st, rfl⟩
            · rw [if_neg hacc]
              obtain ⟨bytes, hstore⟩ := CheckedBytes.exists_store st.bytes (12 + st.dots)
                [UInt8.ofInt st.acc] (by rw [List.length_singleton]; omega)
              rw [hstore]
              exact ih _ (by dsimp only; omega) hmem
        · rw [if_neg hdot]
          exact ⟨st, rfl⟩

/-- A text with a colon is left to the reader of IPv6. -/
theorem fromString_colon (a : IPAddress) (address : List UInt8) (h : 58 ∈ address) :
    ∃ b, fromString a address = fromString6 b address := by
  obtain ⟨st, hscan⟩ := scan4_colon address {} (by decide) h
  refine ⟨{ a with bytes := st.bytes }, ?_⟩
  rw [fromString, fromString4, hscan]
  rfl

/-! ### Addresses read back -/

/-- The address without the bytes that one of IPv4 does not have. -/
def normal (a : IPAddress) : IPAddress :=
  match a.type with
  | .v4 => { a with
      bytes := ⟨List.replicate 12 0 ++ a.bytes.1.drop 12, by
        rw [List.length_append, List.length_replicate, List.length_drop, a.bytes.2]⟩ }
  | .v6 => a

theorem length_numeral_le {n : Nat} (h : n < 256) : (numeral 10 n).length ≤ 3 := by
  rw [numeral, List.length_map, Print.digitsOf]
  split_ifs
  · decide
  · rw [List.length_reverse, Nat.digits_length_le_iff (by decide : 1 < 10)]
    omega

/-- Both texts of an address of IPv4 are its bytes with dots between them. -/
theorem text4 (a : IPAddress) (h : a.type = .v4) :
    a.toString = a.printTo ∧ a.printTo = numeral 10 (a.byteAt 12) ++ 46 ::
      (numeral 10 (a.byteAt 13) ++ 46 :: (numeral 10 (a.byteAt 14) ++
        46 :: numeral 10 (a.byteAt 15))) := by
  -- both printers write the same four numerals
  have hprint : a.printTo = numeral 10 (a.byteAt 12) ++ 46 ::
      (numeral 10 (a.byteAt 13) ++ 46 :: (numeral 10 (a.byteAt 14) ++
        46 :: numeral 10 (a.byteAt 15))) := by
    rw [printTo, h]
    change (numeral 10 (a.byteAt 12) ++ [46] ++ (numeral 10 (a.byteAt 13) ++ [46] ++
      (numeral 10 (a.byteAt 14) ++ [46] ++ []))) ++ numeral 10 (a.byteAt 15) = _
    simp only [List.append_assoc, List.cons_append, List.nil_append]
  refine ⟨?_, hprint⟩
  -- the buffer of `toString` holds the four numerals and three dots
  have hlen := fun i => length_numeral_le (a.byteAt_lt i)
  rw [toString, h, hprint]
  dsimp only
  rw [toString4, List.take_of_length_le]
  · simp only [List.append_assoc, List.cons_append]
  · simp only [List.length_append, List.length_cons]
    have h12 := hlen 12
    have h13 := hlen 13
    have h14 := hlen 14
    have h15 := hlen 15
    omega

/-- The fields of an address in texts that stand for them. -/
theorem spellAll (a : IPAddress) (F : Nat → List UInt8) (h : ∀ f, Spells (F f) (a.field f))
    (l : List Nat) : SpellAll (l.map F) (l.map a.field) := by
  rw [SpellAll, List.forall₂_map_left_iff, List.forall₂_map_right_iff, List.forall₂_same]
  exact fun f _ => h f

theorem colon_mem_joined (text next : List UInt8) (texts : List (List UInt8)) :
    58 ∈ joined (text :: next :: texts) := by
  rw [joined_cons]
  exact List.mem_append_right _ List.mem_cons_self

/-- Every text that an address is written as is read as that address. -/
theorem fromString_toString (a b : IPAddress) :
    fromString b a.toString = .ok (true, a.normal) ∧
      fromString b a.printTo = .ok (true, a.normal) := by
  cases htype : a.type with
  | v4 =>
      obtain ⟨hsame, hprint⟩ := a.text4 htype
      obtain ⟨bytes, hread, hbytes⟩ := fromString4_text b (a.bytes.1.getD 12 0)
        (a.bytes.1.getD 13 0) (a.bytes.1.getD 14 0) (a.bytes.1.getD 15 0)
      have hnormal : ({ type := .v4, bytes } : IPAddress) = a.normal := by
        -- the twelve bytes in front are cleared, as the normal form has them
        have hdrop := congrArg (List.drop 12) (eq_flatMap_range 8 a.bytes.1 a.bytes.2)
        rw [normal, htype]
        dsimp only
        congr 1
        rw [Subtype.ext_iff, hbytes]
        exact congrArg (List.replicate 12 0 ++ ·) hdrop.symm
      have hfound : fromString b a.printTo = .ok (true, a.normal) := by
        rw [fromString, hprint]
        change (fromString4 b (numeral 10 (a.bytes.1.getD 12 0).toNat ++ 46 ::
          (numeral 10 (a.bytes.1.getD 13 0).toNat ++ 46 ::
            (numeral 10 (a.bytes.1.getD 14 0).toNat ++ 46 ::
              numeral 10 (a.bytes.1.getD 15 0).toNat))) >>= _) = _
        rw [hread, ← hnormal]
        rfl
      exact ⟨by rw [hsame, hfound], hfound⟩
  | v6 =>
      have hnormal : a.normal = a := by rw [normal, htype]
      -- an address is its type and its eight fields
      have hsame : ∀ bytes : Block 16, bytes.1 = ((List.range 8).map a.field).flatMap pair →
          ({ type := .v6, bytes } : IPAddress) = a := fun bytes hbytes => by
        rw [← a.bytes_eq] at hbytes
        cases a
        congr 1
        · exact htype.symm
        · exact Subtype.ext hbytes
      have hfull : ∀ F : Nat → List UInt8, (∀ f, Spells (F f) (a.field f)) →
          fromString b (joined ((List.range 8).map F)) = .ok (true, a) := fun F hF => by
        obtain ⟨b', hb'⟩ := fromString_colon b (joined ((List.range 8).map F))
          (colon_mem_joined _ _ _)
        obtain ⟨bytes, hread, hbytes⟩ := fromString6_full b' (a.spellAll F hF (List.range 8)) rfl
        rw [hb', hread, hsame bytes hbytes]
      rw [hnormal]
      refine ⟨?_, ?_⟩
      · rw [toString, htype]
        exact hfull a.fullField a.fullField_spells
      · rw [printTo, htype]
        dsimp only
        -- the cut text needs a run of two fields, and without one all eight are printed
        rcases a.longestRun_sound.longest with
          ⟨hstart, hlength, -⟩ | ⟨s, l, hstart, hlength, hl, hrun⟩
        · rw [a.flatMap_printField_all hstart hlength]
          exact hfull a.shortField a.shortField_spells
        · have hinside := hrun.inside
          rw [a.flatMap_printField_cut hstart hlength hl hinside]
          obtain ⟨b', hb'⟩ := fromString_colon b _
            (List.mem_append_right (joined ((List.range' 0 s).map a.shortField))
              (@List.mem_cons_self _ 58 (58 ::
                joined ((List.range' (s + l) (8 - s - l)).map a.shortField))))
          obtain ⟨bytes, hread, hbytes⟩ := fromString6_short b'
            (a.spellAll _ a.shortField_spells (List.range' 0 s))
            (a.spellAll _ a.shortField_spells (List.range' (s + l) (8 - s - l))) (by
              rw [List.length_map, List.length_map, List.length_range', List.length_range']
              omega)
          -- what the double colon stands for is what the run holds
          have hzero : (List.range' s l).map a.field = List.replicate l 0 := by
            rw [List.eq_replicate_iff]
            refine ⟨by rw [List.length_map, List.length_range'], fun v hv => ?_⟩
            obtain ⟨f, hf, rfl⟩ := List.mem_map.1 hv
            rw [List.mem_range'_1] at hf
            exact hrun.zero f hf.1 hf.2
          rw [hb', hread, hsame bytes]
          rw [hbytes, range_cut hinside, List.map_append, List.map_append, hzero,
            List.length_map, List.length_map, List.length_range', List.length_range']
          congr 4
          omega

end IPAddress

end Core

end ArduinoBeken
