import ArduinoBeken.Library.Cutting
import ArduinoBeken.Library.Search
import Mathlib.Data.List.TakeWhile

/-!
# The Text of a Name

The methods of `String` that the server uses on names. A label may hold any byte, so a text may
hold zeros, and the methods that walk a C string see only what stands in front of the first
one.

`downcaseAndRemoveWwwPrefix` cuts every `www.` out of that part, from the right, and not only
one at the front (`downcaseAndRemoveWwwPrefix_eq`). Two names that are the same without one
leading `www.` are the same to the server (`bare_of_plain_eq`), but not the other way around.

## Main definitions

* `cstr`, `toLowerCase`, `strstr`, `lastIndexOf`, `replace`, `equals`: The methods.
* `downcaseAndRemoveWwwPrefix`: What the server does to a name.
* `plain`: The name in lower case and without one leading `www.`.
* `bare`: The name up to a zero, in lower case and without any `www.`.

## Theorems

* `lastIndexOf_cases`: The last place of a part.
* `replaceLoop_eq`: The loop of `replace` cuts the part out from the right.
* `downcaseAndRemoveWwwPrefix_eq`: The name without any `www.`.
* `equalsCstr_star_iff`, `equals_iff`: What the server makes of names.
* `bare_of_plain_eq`: Names that are the same in plain form are the same to the server.
-/

namespace ArduinoBeken

namespace Dns

/-- The bytes of a `String`. -/
abbrev Text := List UInt8

namespace Text

/-! ### Methods -/

/-- What a C function sees of the buffer. -/
def cstr (s : Text) : Text :=
  s.takeWhile (· != 0)

/-- What it does not see, from the first zero on. -/
def behind (s : Text) : Text :=
  s.dropWhile (· != 0)

/-- `tolower`. -/
def tolower (c : UInt8) : UInt8 :=
  if 65 ≤ c.toNat ∧ c.toNat ≤ 90 then c + 32 else c

/-- `toLowerCase`, up to the first zero. -/
def toLowerCase (s : Text) : Text :=
  (cstr s).map tolower ++ behind s

/-- The first place of the part in a C string. -/
def strstr (s find : Text) : Option Nat :=
  Search.find find s

/-- The loop of `lastIndexOf` over the C string, from the place. -/
def lastIndexLoop (s find : Text) (fromIndex p : Nat) (found : Option Nat) : Option Nat :=
  if p ≤ fromIndex then
    match strstr (s.drop p) find with
    | none => found
    | some k =>
      lastIndexLoop s find fromIndex (p + k + 1) (if p + k ≤ fromIndex then some (p + k) else found)
  else found
termination_by fromIndex + 1 - p

/-- `lastIndexOf(find, fromIndex)`, where -1 is `none`. -/
def lastIndexOf (s find : Text) (fromIndex : Nat) : Option Nat :=
  if find.length = 0 ∨ s.length = 0 ∨ s.length < find.length then none
  else lastIndexLoop (cstr s) find (min fromIndex (s.length - 1)) 0 none

theorem lastIndexLoop_le (s find : Text) (fromIndex p : Nat) (found : Option Nat) (i : Nat)
    (hfound : ∀ j ∈ found, j ≤ fromIndex)
    (h : lastIndexLoop s find fromIndex p found = some i) : i ≤ fromIndex := by
  -- induction on the search's own calls, with what was found so far
  induction p, found using lastIndexLoop.induct s find fromIndex with
  | case1 p found hp hnone =>
      rw [lastIndexLoop, if_pos hp, hnone] at h
      exact hfound i h
  | case2 p found hp k hk ih =>
      rw [lastIndexLoop, if_pos hp, hk] at h
      refine ih ?_ h
      intro j hj
      split_ifs at hj with hle
      · exact (Option.some.inj hj) ▸ hle
      · exact hfound j hj
  | case3 p found hp =>
      rw [lastIndexLoop, if_neg hp] at h
      exact hfound i h

theorem lastIndexOf_le (s find : Text) (fromIndex i : Nat)
    (h : lastIndexOf s find fromIndex = some i) : i ≤ fromIndex := by
  unfold lastIndexOf at h
  split_ifs at h
  have := lastIndexLoop_le _ _ _ _ _ _ (by intro j hj; cases hj) h
  omega

/-- The loop of `replace` with a shorter replacement, in front of the place. -/
def replaceLoop (find replacement : Text) : Nat → Text → Text
  | 0, s => s
  | n + 1, s =>
    match _h : lastIndexOf s find n with
    | none => s
    | some i =>
      replaceLoop find replacement i (s.take i ++ replacement ++ s.drop (i + find.length))
termination_by n => n
decreasing_by
  have := lastIndexOf_le s find n i _h
  omega

theorem replaceLoop_none (find replacement : Text) (n : Nat) (s : Text)
    (h : lastIndexOf s find n = none) : replaceLoop find replacement (n + 1) s = s := by
  rw [replaceLoop]
  split
  · rfl
  · next i hi =>
      rw [h] at hi
      cases hi

theorem replaceLoop_some (find replacement : Text) (n i : Nat) (s : Text)
    (h : lastIndexOf s find n = some i) :
    replaceLoop find replacement (n + 1) s =
      replaceLoop find replacement i (s.take i ++ replacement ++ s.drop (i + find.length)) := by
  rw [replaceLoop]
  split
  · next hi =>
      rw [h] at hi
      cases hi
  · next j hj =>
      rw [h] at hj
      cases hj
      rfl

/-- `replace(find, replacement)`, where the replacement is shorter. The size that the result
    needs is computed only to see whether there is something to replace. -/
def replace (s find replacement : Text) : Text :=
  if s.length = 0 ∨ find.length = 0 then s
  else if strstr (cstr s) find = none then s
  else replaceLoop find replacement s.length s

/-- `equals(const String &)`. -/
def equals (s t : Text) : Bool :=
  s.length == t.length && cstr s == cstr t

/-- `equals(const char *)`. -/
def equalsCstr (s lit : Text) : Bool :=
  if s.length = 0 then lit.isEmpty else cstr s == lit

/-- `www.`. -/
def www : Text := [119, 119, 119, 46]

/-- `*`. -/
def star : Text := [42]

end Text

open Text

/-- What the server does to the configured domain and to every name. -/
def downcaseAndRemoveWwwPrefix (domainName : Text) : Text :=
  replace (toLowerCase domainName) www []

/-- The name in lower case and without one leading `www.`. -/
def plain (name : Text) : Text :=
  if www <+: name.map tolower then (name.map tolower).drop www.length else name.map tolower

/-- The name up to a zero, in lower case and without any `www.`. -/
def bare (name : Text) : Text :=
  Cutting.cut www ((cstr name).map tolower)

namespace Text

/-! ### The last place of a part -/

/-- A search in the rest passes over every place up to the one it finds. -/
theorem strstr_drop (s find : Text) (p k : Nat) (h : strstr (s.drop p) find = some k) :
    find <+: s.drop (p + k) ∧ ∀ j, p ≤ j → j < p + k → ¬ find <+: s.drop j := by
  obtain ⟨hhere, hbefore⟩ := Search.find_first find (s.drop p) k h
  rw [List.drop_drop] at hhere
  refine ⟨hhere, ?_⟩
  intro j hpj hj
  have := hbefore (j - p) (by omega)
  rwa [List.drop_drop, Nat.add_sub_cancel' hpj] at this

theorem strstr_drop_none (s find : Text) (p : Nat) (h : strstr (s.drop p) find = none) (j : Nat)
    (hpj : p ≤ j) : ¬ find <+: s.drop j := by
  have := Search.not_prefix_of_find_eq_none find (s.drop p) h (j - p)
  rwa [List.drop_drop, Nat.add_sub_cancel' hpj] at this

/-- The loop of `lastIndexOf`: the last place from `p` to the index, if there is one. -/
theorem lastIndexLoop_cases (s find : Text) (fromIndex p : Nat) (found : Option Nat) :
    (lastIndexLoop s find fromIndex p found = found ∧
      ∀ j, p ≤ j → j ≤ fromIndex → ¬ find <+: s.drop j) ∨
    ∃ i, lastIndexLoop s find fromIndex p found = some i ∧ p ≤ i ∧ i ≤ fromIndex ∧
      find <+: s.drop i ∧ ∀ j, i < j → j ≤ fromIndex → ¬ find <+: s.drop j := by
  induction p, found using lastIndexLoop.induct s find fromIndex with
  | case1 p found hp hnone =>
      rw [lastIndexLoop, if_pos hp, hnone]
      exact Or.inl ⟨rfl, fun j hpj _ => strstr_drop_none s find p hnone j hpj⟩
  | case2 p found hp k hk ih =>
      obtain ⟨hhere, hbefore⟩ := strstr_drop s find p k hk
      rw [lastIndexLoop, if_pos hp, hk]
      simp only [dite_eq_ite] at ih ⊢
      -- the place that was found counts only if nothing is found behind it
      rcases ih with ⟨hsame, hnone⟩ | ⟨i, hi, hpi, hle, hmatch, hlast⟩
      · rw [hsame]
        by_cases hle : p + k ≤ fromIndex
        · rw [if_pos hle]
          refine Or.inr ⟨p + k, rfl, by omega, hle, hhere, ?_⟩
          intro j hj hjle
          exact hnone j hj hjle
        · rw [if_neg hle]
          refine Or.inl ⟨rfl, ?_⟩
          intro j hpj hj
          exact hbefore j hpj (by omega)
      · exact Or.inr ⟨i, hi, by omega, hle, hmatch, hlast⟩
  | case3 p found hp =>
      rw [lastIndexLoop, if_neg hp]
      exact Or.inl ⟨rfl, fun j hpj hj => absurd (Nat.le_trans hpj hj) hp⟩

/-- A part is no longer than what it is in front of. -/
theorem length_of_prefix_drop (s find : Text) (j : Nat) (hfind : find ≠ [])
    (h : find <+: (cstr s).drop j) : j + find.length ≤ s.length ∧ 0 < find.length := by
  have hle := h.length_le
  have hpos := List.length_pos_iff.2 hfind
  have hc : (cstr s).length ≤ s.length := (List.takeWhile_sublist _).length_le
  rw [List.length_drop] at hle
  omega

/-- The last place of a part up to an index, or none. -/
theorem lastIndexOf_cases (s find : Text) (fromIndex : Nat) (hfind : find ≠ []) :
    (lastIndexOf s find fromIndex = none ∧
      ∀ j ≤ fromIndex, ¬ find <+: (cstr s).drop j) ∨
    ∃ i, lastIndexOf s find fromIndex = some i ∧ i ≤ fromIndex ∧ find <+: (cstr s).drop i ∧
      ∀ j, i < j → j ≤ fromIndex → ¬ find <+: (cstr s).drop j := by
  unfold lastIndexOf
  split_ifs with hshort
  · refine Or.inl ⟨rfl, ?_⟩
    intro j _ hpre
    have := length_of_prefix_drop s find j hfind hpre
    omega
  · -- the index is cut to the text, behind which the part does not begin
    have hcut : ∀ j, find <+: (cstr s).drop j → j ≤ s.length - 1 := by
      intro j hpre
      have := length_of_prefix_drop s find j hfind hpre
      omega
    -- a match inside the loop's range is the last one, or there is none
    rcases lastIndexLoop_cases (cstr s) find (min fromIndex (s.length - 1)) 0 none with
      ⟨hnone, hno⟩ | ⟨i, hi, -, hle, hmatch, hlast⟩
    · refine Or.inl ⟨hnone, ?_⟩
      intro j hj hpre
      exact hno j (Nat.zero_le j) (Nat.le_min.2 ⟨hj, hcut j hpre⟩) hpre
    · refine Or.inr ⟨i, hi, by omega, hmatch, ?_⟩
      intro j hij hj hpre
      exact hlast j hij (Nat.le_min.2 ⟨hj, hcut j hpre⟩) hpre

/-! ### Cutting -/

/-- A text of a part without zeros and of one that is empty or begins with a zero. -/
def Joins (c t : Text) : Prop :=
  (∀ b ∈ c, b ≠ 0) ∧ ∀ b ∈ t.head?, b = 0

theorem joins_cstr (s : Text) : Joins (cstr s) (behind s) := by
  refine ⟨?_, ?_⟩
  · intro b hb
    have := List.mem_takeWhile_imp hb
    simpa using this
  · intro b hb
    have := List.head?_dropWhile_not (· != 0) s
    rw [behind] at hb
    -- what is behind the C string is empty or begins with its zero
    cases hd : s.dropWhile (· != 0) with
    | nil =>
        rw [hd] at hb
        cases hb
    | cons a rest =>
        rw [hd] at hb this
        cases hb
        simpa using this

theorem cstr_append (c t : Text) (h : Joins c t) : cstr (c ++ t) = c := by
  rw [cstr, List.takeWhile_append_of_pos]
  · cases t with
    | nil => rw [List.takeWhile_nil, List.append_nil]
    | cons b t =>
        have hb : b = 0 := h.2 b rfl
        rw [List.takeWhile_cons, hb]
        simp
  · intro b hb
    simpa using h.1 b hb

/-- The loop of `replace` cuts the part out of what is in front of the place, from the right. -/
theorem replaceLoop_eq (find : Text) (n : Nat) (c t : Text) (hfind : find ≠ []) (h : Joins c t) :
    replaceLoop find [] n (c ++ t) =
      (c.take n).foldr (Cutting.step find) (c.drop n) ++ t := by
  -- on the place; the text in front of it shrinks with every part that goes
  induction n using Nat.strongRecOn generalizing c with
  | ind n ih =>
      cases n with
      | zero => rw [replaceLoop, List.take_zero, List.drop_zero, List.foldr_nil]
      | succ n =>
          have hcstr := cstr_append c t h
          rcases lastIndexOf_cases (c ++ t) find n hfind with
            ⟨hnone, hno⟩ | ⟨i, hi, hle, hmatch, hlast⟩
          · rw [hcstr] at hno
            rw [replaceLoop_none find [] n _ hnone, Cutting.foldr_step_eq_append,
              List.take_append_drop]
            intro j hj
            rw [List.take_append_drop]
            rw [List.length_take] at hj
            exact hno j (by omega)
          · rw [hcstr] at hmatch hlast
            have hfit := hmatch.length_le
            have hpos := List.length_pos_iff.2 hfind
            rw [List.length_drop] at hfit
            have hcut : (c ++ t).take i ++ [] ++ (c ++ t).drop (i + find.length) =
                (c.take i ++ c.drop (i + find.length)) ++ t := by
              rw [List.append_nil, List.take_append_of_le_length (by omega),
                List.drop_append_of_le_length (by omega), List.append_assoc]
            have hjoins : Joins (c.take i ++ c.drop (i + find.length)) t := by
              refine ⟨?_, h.2⟩
              intro b hb
              rcases List.mem_append.1 hb with hb | hb
              · exact h.1 b (List.mem_of_mem_take hb)
              · exact h.1 b (List.mem_of_mem_drop hb)
            have hlen : (c.take i).length = i := by
              rw [List.length_take]
              omega
            -- between the part and the place nothing is cut out
            have hlast' := Cutting.foldr_step_last find (c.take (n + 1)) (c.drop (n + 1)) i
              (by rw [List.length_take]; omega) (by rw [List.take_append_drop]; exact hmatch)
              (by
                intro j hij hj
                rw [List.take_append_drop]
                rw [List.length_take] at hj
                exact hlast j hij (by omega))
            rw [replaceLoop_some find [] n i _ hi, hcut, ih i (by omega) _ hjoins, hlast',
              List.take_append_drop, List.take_take, Nat.min_eq_left (by omega),
              List.take_left' hlen, List.drop_left' hlen]

theorem tolower_ne_zero (b : UInt8) : (tolower b != 0) = (b != 0) := by
  have hzero : ∀ x : UInt8, x = 0 ↔ x.toNat = 0 := fun x => UInt8.toNat_inj.symm
  have hsum : (b + 32).toNat = (b.toNat + 32) % 256 := UInt8.toNat_add b 32
  rw [Bool.eq_iff_iff, bne_iff_ne, bne_iff_ne, Ne, Ne, hzero, hzero, tolower]
  split_ifs
  · rw [hsum]
    omega
  · exact Iff.rfl

theorem cstr_map_tolower (s : Text) : cstr (s.map tolower) = (cstr s).map tolower := by
  have hp : ((· != 0) ∘ tolower) = (· != (0 : UInt8)) := funext tolower_ne_zero
  rw [cstr, List.takeWhile_map, hp]
  rfl

theorem behind_map_tolower (s : Text) : behind (s.map tolower) = (behind s).map tolower := by
  have hp : ((· != 0) ∘ tolower) = (· != (0 : UInt8)) := funext tolower_ne_zero
  rw [behind, List.dropWhile_map, hp]
  rfl

theorem joins_lower (s : Text) : Joins ((cstr s).map tolower) (behind s) := by
  refine ⟨?_, (joins_cstr s).2⟩
  intro b hb
  obtain ⟨a, ha, rfl⟩ := List.mem_map.1 hb
  intro hzero
  have hkeep := tolower_ne_zero a
  rw [hzero, bne_self_eq_false, eq_comm, bne_eq_false_iff_eq] at hkeep
  exact (joins_cstr s).1 a ha hkeep

theorem unbordered_www : Cutting.Unbordered www := by decide

end Text

/-- The server cuts every `www.` out of the part of a name in front of the first zero. -/
theorem downcaseAndRemoveWwwPrefix_eq (s : Text) :
    downcaseAndRemoveWwwPrefix s = bare s ++ behind s := by
  have hjoins := joins_lower s
  have hcstr : cstr (toLowerCase s) = (cstr s).map tolower := cstr_append _ _ hjoins
  have hwww : www ≠ [] := by decide
  rw [downcaseAndRemoveWwwPrefix, replace]
  split_ifs with hempty hnone
  · rcases hempty with hempty | hempty
    · rw [List.length_eq_zero_iff] at hempty
      obtain ⟨hc, ht⟩ := List.append_eq_nil_iff.1 hempty
      rw [hempty, bare, hc, ht]
      rfl
    · cases hempty
  · -- nothing to cut out
    have hkeep : bare s = (cstr s).map tolower := by
      rw [bare, Cutting.cut, Cutting.foldr_step_eq_append, List.append_nil]
      intro j _
      rw [List.append_nil, ← hcstr]
      exact Search.not_prefix_of_find_eq_none www _ hnone j
    rw [hkeep]
    rfl
  -- the text that the replacing loop walks has the length of the whole `String`
  · have hlen : ((cstr s).map tolower).length ≤ (toLowerCase s).length := by
      rw [toLowerCase, List.length_append]
      omega
    have hloop := replaceLoop_eq www (toLowerCase s).length _ _ hwww hjoins
    rw [List.take_of_length_le hlen, List.drop_eq_nil_of_le hlen] at hloop
    exact hloop

theorem joins_bare (s : Text) : Joins (bare s) (behind s) := by
  refine ⟨?_, (joins_cstr s).2⟩
  intro b hb
  exact (joins_lower s).1 b (Cutting.mem_of_mem_cut www _ b hb)

/-- When the server takes a configured domain for `*`. -/
theorem equalsCstr_star_iff (s : Text) :
    equalsCstr (downcaseAndRemoveWwwPrefix s) star = true ↔ bare s = star := by
  rw [equalsCstr, downcaseAndRemoveWwwPrefix_eq, cstr_append _ _ (joins_bare s)]
  split_ifs with hempty
  · -- an empty domain is not `*`
    have hbare : bare s = [] :=
      (List.append_eq_nil_iff.1 (List.length_eq_zero_iff.1 hempty)).1
    rw [hbare]
    exact ⟨fun h => (by cases h), fun h => (by cases h)⟩
  · exact beq_iff_eq

/-- When the server takes two names for one. -/
theorem equals_iff (s t : Text) :
    equals (downcaseAndRemoveWwwPrefix s) (downcaseAndRemoveWwwPrefix t) = true ↔
      bare s = bare t ∧ (behind s).length = (behind t).length := by
  rw [equals, downcaseAndRemoveWwwPrefix_eq, downcaseAndRemoveWwwPrefix_eq,
    cstr_append _ _ (joins_bare s), cstr_append _ _ (joins_bare t), Bool.and_eq_true, beq_iff_eq,
    beq_iff_eq, List.length_append, List.length_append]
  constructor
  · rintro ⟨hlen, hbare⟩
    rw [hbare] at hlen
    exact ⟨hbare, Nat.add_left_cancel hlen⟩
  · rintro ⟨hbare, hlen⟩
    rw [hbare, hlen]
    exact ⟨rfl, rfl⟩

/-- What is in front of the first zero, and how much is behind it, in plain form. -/
theorem plain_parts (s : Text) :
    Cutting.cut www (cstr (plain s)) = bare s ∧
      (behind (plain s)).length = (behind s).length := by
  have hlen : (behind (s.map tolower)).length = (behind s).length := by
    rw [behind_map_tolower, List.length_map]
  unfold plain
  -- one prefix is cut off in front, and the cutting goes on from what is left
  split_ifs with hwww
  · obtain ⟨rest, hrest⟩ := hwww
    have hdrop : (s.map tolower).drop www.length = rest := by rw [← hrest, List.drop_left]
    have hcstr : cstr (s.map tolower) = www ++ cstr rest := by
      rw [← hrest]
      rfl
    have hbehind : behind (s.map tolower) = behind rest := by
      rw [← hrest]
      rfl
    rw [hdrop, ← hlen, hbehind, bare, ← cstr_map_tolower, hcstr,
      Cutting.cut_append _ _ unbordered_www]
    exact ⟨rfl, rfl⟩
  · rw [cstr_map_tolower]
    exact ⟨rfl, hlen⟩

/-- Names that are the same without one leading `www.` are the same without any. -/
theorem bare_of_plain_eq (s t : Text) (h : plain s = plain t) :
    bare s = bare t ∧ (behind s).length = (behind t).length := by
  obtain ⟨hs, hslen⟩ := plain_parts s
  obtain ⟨ht, htlen⟩ := plain_parts t
  rw [← hs, ← ht, ← hslen, ← htlen, h]
  exact ⟨rfl, rfl⟩

end Dns

end ArduinoBeken
