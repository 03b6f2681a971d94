import Mathlib.Data.List.Basic
import Mathlib.Data.List.Infix

/-!
# Searching a List for a Part

The first position at which one list occurs within another, and how such a
search behaves on a list made of fields behind separators. Nothing here is
specific to one system.

A pattern without the separator never straddles two fields, so a search
passes over every field that does not hold it (`find_append_sep`). That is
what makes a search over the whole list agree with a reading field by field,
and `find_field` says when it does.

## Main definitions

* `find`: The first position of a part.

## Theorems

* `find_eq_none_iff`: Nothing is found exactly when the part does not occur.
* `find_split`: What is found lies behind the position.
* `find_le_of_append`: The first position is no later than any other.
* `find_first`: The part begins there, and nowhere in front of it.
* `find_append_of_isSome`: What is found is found however the list goes on.
* `infix_append_sep_iff`: A part without the separator lies on one side of it.
* `find_append_sep`: A search passes over a field that does not hold the part.
* `find_pad`: A part behind characters it does not begin with is found there.
* `sep_not_mem_splitOn`: A field holds no separator.
* `infix_of_mem_splitOn`: A field is a part of the text.
* `intercalate_middle`: The text around one field of a list.
* `find_field`: The only field that holds the part is where it is found.
* `eq_repeat_of_append_comm`: A line that stands at either end of others is all of them.
-/

namespace Search

variable {α : Type*} [DecidableEq α]

/-- The first position at which `part` occurs. -/
def find (part : List α) : List α → Option Nat
  | [] => if part = [] then some 0 else none
  | a :: s => if part.isPrefixOf (a :: s) then some 0 else (find part s).map (· + 1)

theorem find_cons_here (part : List α) (a : α) (s : List α) (h : part <+: a :: s) :
    find part (a :: s) = some 0 := by
  rw [find, if_pos (List.isPrefixOf_iff_prefix.2 h)]

theorem find_cons_later (part : List α) (a : α) (s : List α) (h : ¬ part <+: a :: s) :
    find part (a :: s) = (find part s).map (· + 1) := by
  rw [find, if_neg (fun hp => h (List.isPrefixOf_iff_prefix.1 hp))]

theorem find_eq_none_iff (part s : List α) : find part s = none ↔ ¬ part <:+: s := by
  induction s with
  | nil =>
      by_cases h : part = []
      · simp only [find, h, if_true, reduceCtorEq, List.infix_nil, not_true_eq_false]
      · simp only [find, h, if_false, List.infix_nil, not_false_eq_true]
  | cons a s ih =>
      -- the first match is here, or in the rest
      by_cases h : part <+: a :: s
      · rw [find_cons_here part a s h]
        simp only [reduceCtorEq, h.isInfix, not_true_eq_false]
      · rw [find_cons_later part a s h, Option.map_eq_none_iff, ih, List.infix_cons_iff,
          not_or]
        exact ⟨fun hs => ⟨h, hs⟩, fun hs => hs.2⟩

/-- The found position lies within the list. -/
theorem find_le (part : List α) (s : List α) (n : Nat) (h : find part s = some n) :
    n + part.length ≤ s.length := by
  induction s generalizing n with
  | nil =>
      by_cases hp : part = []
      · simp only [find, hp, if_true, Option.some.injEq] at h
        subst h hp
        simp only [List.length_nil, Nat.add_zero, Nat.le_refl]
      · simp only [find, hp, if_false, reduceCtorEq] at h
  | cons a s ih =>
      by_cases hp : part <+: a :: s
      · rw [find_cons_here part a s hp, Option.some.injEq] at h
        subst h
        have := hp.length_le
        omega
      · rw [find_cons_later part a s hp] at h
        rcases Option.map_eq_some_iff.1 h with ⟨m, hm, rfl⟩
        have := ih m hm
        rw [List.length_cons]
        omega

/-- What is found lies behind the position. -/
theorem find_split (part s : List α) (n : Nat) (h : find part s = some n) :
    ∃ u v, s = u ++ (part ++ v) ∧ u.length = n := by
  induction s generalizing n with
  | nil =>
      by_cases hp : part = []
      · simp only [find, hp, if_true, Option.some.injEq] at h
        exact ⟨[], [], by rw [hp]; rfl, h⟩
      · simp only [find, hp, if_false, reduceCtorEq] at h
  | cons a s ih =>
      by_cases hp : part <+: a :: s
      · rw [find_cons_here part a s hp, Option.some.injEq] at h
        rcases hp with ⟨v, hv⟩
        exact ⟨[], v, hv.symm, h⟩
      · rw [find_cons_later part a s hp] at h
        rcases Option.map_eq_some_iff.1 h with ⟨m, hm, rfl⟩
        rcases ih m hm with ⟨u, v, rfl, rfl⟩
        exact ⟨a :: u, v, rfl, rfl⟩

/-- The first position is no later than any other. -/
theorem find_le_of_append (part u v : List α) :
    ∃ n, find part (u ++ (part ++ v)) = some n ∧ n ≤ u.length := by
  induction u with
  | nil =>
      rw [List.nil_append]
      cases hs : part ++ v with
      | nil =>
          rw [(List.append_eq_nil_iff.1 hs).1]
          exact ⟨0, rfl, Nat.le_refl 0⟩
      | cons a s =>
          exact ⟨0, find_cons_here part a s (hs ▸ List.prefix_append part v), Nat.le_refl 0⟩
  | cons a u ih =>
      rw [List.cons_append]
      by_cases hp : part <+: a :: (u ++ (part ++ v))
      · exact ⟨0, find_cons_here part a _ hp, Nat.zero_le _⟩
      · rcases ih with ⟨n, hn, hle⟩
        rw [find_cons_later part a _ hp, hn]
        exact ⟨n + 1, rfl, Nat.succ_le_succ hle⟩

/-- The part begins at the position that is found, and nowhere in front of it. -/
theorem find_first (part s : List α) (n : Nat) (h : find part s = some n) :
    part <+: s.drop n ∧ ∀ j < n, ¬ part <+: s.drop j := by
  -- what is found splits the text, and a match further in front would have been found
  obtain ⟨u, v, hs, hlen⟩ := find_split part s n h
  refine ⟨?_, ?_⟩
  · rw [hs, ← hlen, List.drop_left]
    exact List.prefix_append part v
  · intro j hj hpre
    obtain ⟨t, ht⟩ := hpre
    have hle : j ≤ s.length := by
      have := find_le part s n h
      omega
    obtain ⟨m, hm, hmj⟩ := find_le_of_append part (s.take j) t
    rw [ht, List.take_append_drop, h, Option.some.injEq] at hm
    rw [List.length_take, Nat.min_eq_left hle] at hmj
    omega

/-- Where nothing is found, the part begins nowhere. -/
theorem not_prefix_of_find_eq_none (part s : List α) (h : find part s = none) (j : Nat) :
    ¬ part <+: s.drop j := by
  intro hpre
  exact (find_eq_none_iff part s).1 h (hpre.isInfix.trans (List.drop_suffix j s).isInfix)

/-- What is found is found however the list goes on, if it fits. -/
theorem find_append_of_isSome (part s t : List α) (n : Nat) (h : find part s = some n) :
    find part (s ++ t) = some n := by
  induction s generalizing n with
  | nil =>
      by_cases hp : part = []
      · subst hp
        simp only [find, if_true, Option.some.injEq] at h
        subst h
        cases t with
        | nil => rfl
        | cons a t => exact find_cons_here [] a t List.nil_prefix
      · simp only [find, hp, if_false, reduceCtorEq] at h
  | cons a s ih =>
      rw [List.cons_append]
      by_cases hp : part <+: a :: s
      · rw [find_cons_here part a s hp] at h
        rw [find_cons_here part a (s ++ t) (hp.trans (List.prefix_append (a :: s) t)), h]
      · rw [find_cons_later part a s hp] at h
        rcases Option.map_eq_some_iff.1 h with ⟨m, hm, rfl⟩
        have hlen := find_le part s m hm
        have hp' : ¬ part <+: a :: (s ++ t) := by
          intro hpre
          -- The part fits into the shorter list, where it is no prefix.
          exact hp (List.prefix_of_prefix_length_le hpre (List.prefix_append (a :: s) t)
            (by rw [List.length_cons]; omega))
        rw [find_cons_later part a (s ++ t) hp', ih m hm]
        rfl

/-! ### Separators -/

omit [DecidableEq α] in
/-- A prefix without the separator ends before it. -/
theorem prefix_of_prefix_append_sep {part u s : List α} {sep : α} (hsep : sep ∉ part)
    (h : part <+: u ++ sep :: s) : part <+: u := by
  by_cases hlen : part.length ≤ u.length
  · exact List.prefix_of_prefix_length_le h (List.prefix_append u (sep :: s)) hlen
  · exfalso
    have hpre : u ++ [sep] <+: part := by
      refine List.prefix_of_prefix_length_le ?_ h ?_
      · rw [show u ++ sep :: s = u ++ [sep] ++ s by
          rw [List.append_assoc, List.singleton_append]]
        exact List.prefix_append (u ++ [sep]) s
      · rw [List.length_append, List.length_singleton]
        omega
    exact hsep (hpre.subset (List.mem_append_right u (List.mem_singleton.2 rfl)))

omit [DecidableEq α] in
/-- A part without the separator lies on one side of it. -/
theorem infix_append_sep_iff {part : List α} {sep : α} (hne : part ≠ []) (hsep : sep ∉ part)
    (u s : List α) : part <:+: u ++ sep :: s ↔ part <:+: u ∨ part <:+: s := by
  -- a part without the separator lies on one side of it
  induction u with
  | nil =>
      rw [List.nil_append, List.infix_cons_iff, List.infix_nil]
      refine or_congr ⟨?_, fun h => absurd h hne⟩ Iff.rfl
      intro h
      exact List.prefix_nil.1 (prefix_of_prefix_append_sep (u := []) hsep h)
  | cons a u ih =>
      rw [List.cons_append, List.infix_cons_iff, ih, List.infix_cons_iff, or_assoc]
      refine or_congr ⟨?_, ?_⟩ Iff.rfl
      · intro h
        exact prefix_of_prefix_append_sep (u := a :: u) hsep h
      · intro h
        exact h.trans (List.prefix_append (a :: u) (sep :: s))

/-- A search passes over a field that does not hold the part. -/
theorem find_append_sep {part : List α} {sep : α} (hne : part ≠ []) (hsep : sep ∉ part)
    (u s : List α) (hu : ¬ part <:+: u) :
    find part (u ++ sep :: s) = (find part s).map (· + (u.length + 1)) := by
  induction u with
  | nil =>
      have hp : ¬ part <+: sep :: s := by
        intro h
        exact hne (List.prefix_nil.1 (prefix_of_prefix_append_sep (u := []) hsep h))
      rw [List.nil_append, find_cons_later part sep s hp]
      rfl
  | cons a u ih =>
      -- not in the first field, so neither at its front nor further in
      rw [List.infix_cons_iff, not_or] at hu
      have hp : ¬ part <+: a :: (u ++ sep :: s) := by
        intro h
        exact hu.1 (prefix_of_prefix_append_sep (u := a :: u) hsep h)
      rw [List.cons_append, find_cons_later part a _ hp, ih hu.2, Option.map_map]
      rfl

/-- A part behind characters it does not begin with is found there. -/
theorem find_pad (pad : List α) (a : α) (part s : List α) (hpad : a ∉ pad) :
    find (a :: part) (pad ++ (a :: part ++ s)) = some pad.length := by
  induction pad with
  | nil => exact find_cons_here (a :: part) a (part ++ s) (List.prefix_append (a :: part) s)
  | cons b pad ih =>
      rw [List.mem_cons, not_or] at hpad
      have hp : ¬ a :: part <+: b :: (pad ++ (a :: part ++ s)) := by
        intro h
        exact hpad.1 (List.cons_prefix_cons.1 h).1
      rw [List.cons_append, find_cons_later _ b _ hp, ih hpad.2]
      rfl

/-- The first place of a single member. -/
theorem find_singleton (a : α) (u s : List α) (h : a ∉ u) :
    find [a] (u ++ a :: s) = some u.length :=
  find_pad u a [] s h

theorem find_singleton_eq_none (a : α) (s : List α) (h : a ∉ s) : find [a] s = none := by
  rw [find_eq_none_iff, List.singleton_infix_iff]
  exact h

/-- A list is split at its first separator in one way. -/
theorem append_sep_inj {sep : α} {u v u' v' : List α} (hu : sep ∉ u) (hu' : sep ∉ u')
    (h : u ++ sep :: v = u' ++ sep :: v') : u = u' ∧ v = v' := by
  have hfind := find_singleton sep u v hu
  rw [h, find_singleton sep u' v' hu', Option.some_inj] at hfind
  have hboth := List.append_inj h hfind.symm
  exact ⟨hboth.1, (List.cons.inj hboth.2).2⟩

/-! ### Fields -/

/-- A field holds no separator. -/
theorem sep_not_mem_splitOn (sep : α) (s f : List α) (hf : f ∈ s.splitOn sep) : sep ∉ f := by
  induction s generalizing f with
  | nil =>
      rw [List.splitOn_nil, List.mem_singleton] at hf
      subst hf
      exact List.not_mem_nil
  | cons a s ih =>
      rw [List.splitOn_cons_eq_if_modifyHead] at hf
      -- the separator ends a field and is not one of its members
      by_cases ha : (a == sep) = true
      · rw [if_pos ha] at hf
        rcases List.mem_cons.1 hf with rfl | hf
        · exact List.not_mem_nil
        · exact ih f hf
      · rw [if_neg ha] at hf
        cases hs : s.splitOn sep with
        | nil => exact absurd hs (List.splitOn_ne_nil sep s)
        | cons g fields =>
            rw [hs, List.modifyHead_cons] at hf
            rcases List.mem_cons.1 hf with rfl | hf
            · -- The first field is the one of the rest behind one more member.
              have hg := ih g (hs ▸ List.mem_cons_self)
              rw [List.mem_cons, not_or]
              exact ⟨fun h => ha (beq_iff_eq.2 h.symm), hg⟩
            · exact ih f (hs ▸ List.mem_cons_of_mem g hf)

omit [DecidableEq α] in
/-- The text around one field of a list. -/
theorem intercalate_middle (sep : α) (before : List (List α)) (f : List α)
    (after : List (List α)) :
    [sep].intercalate (before ++ f :: after) =
      before.flatMap (· ++ [sep]) ++ (f ++ after.flatMap (sep :: ·)) := by
  have htail : ∀ (f : List α) (after : List (List α)),
      [sep].intercalate (f :: after) = f ++ after.flatMap (sep :: ·) := by
    intro f after
    induction after generalizing f with
    | nil => simp only [List.intercalate_singleton, List.flatMap_nil, List.append_nil]
    | cons g after ih =>
        rw [List.intercalate_cons_cons, ih g, List.flatMap_cons, List.append_assoc,
          List.cons_append, List.cons_append, List.nil_append]
  induction before with
  | nil => exact htail f after
  | cons g before ih =>
      rw [List.cons_append, htail g, List.flatMap_cons, List.append_assoc, List.append_assoc,
        ← ih, List.singleton_append]
      congr 1
      cases before with
      | nil =>
          rw [List.nil_append, List.flatMap_cons, htail f after, List.cons_append]
      | cons b before =>
          rw [List.cons_append, List.flatMap_cons, htail b, List.cons_append]

/-- A field is a part of the text. -/
theorem infix_of_mem_splitOn (sep : α) (s f : List α) (hf : f ∈ s.splitOn sep) : f <:+: s := by
  rcases List.append_of_mem hf with ⟨before, after, hsplit⟩
  have hjoin : [sep].intercalate (s.splitOn sep) = s := List.intercalate_splitOn sep
  rw [hsplit, intercalate_middle, ← List.append_assoc] at hjoin
  exact ⟨_, _, hjoin⟩

/-- A part that no field holds is not found. -/
theorem find_fields_eq_none {part : List α} {sep : α} (hne : part ≠ []) (hsep : sep ∉ part)
    (fields : List (List α)) (h : ∀ f ∈ fields, ¬ part <:+: f) :
    find part ([sep].intercalate fields) = none := by
  rw [find_eq_none_iff]
  -- none of the fields has the part, and no part goes over a separator
  induction fields with
  | nil =>
      rw [List.intercalate_nil, List.infix_nil]
      exact hne
  | cons f fields ih =>
      have hf := h f List.mem_cons_self
      have hfs := ih (fun g hg => h g (List.mem_cons_of_mem f hg))
      cases fields with
      | nil => rwa [List.intercalate_singleton]
      | cons g fields =>
          rw [List.intercalate_cons_cons, List.append_assoc, List.singleton_append,
            infix_append_sep_iff hne hsep, not_or]
          exact ⟨hf, hfs⟩

/-- The only field that holds the part is where it is found. -/
theorem find_field {part : List α} {sep : α} (hne : part ≠ []) (hsep : sep ∉ part)
    (before : List (List α)) (f : List α) (after : List (List α))
    (hbefore : ∀ g ∈ before, ¬ part <:+: g) (n : Nat) (hf : find part f = some n) :
    find part ([sep].intercalate (before ++ f :: after)) =
      some ((before.flatMap (· ++ [sep])).length + n) := by
  rw [intercalate_middle]
  -- induction on the fields that are passed over
  induction before with
  | nil =>
      rw [List.flatMap_nil, List.nil_append, List.length_nil, Nat.zero_add]
      exact find_append_of_isSome part f _ n hf
  | cons g before ih =>
      rw [List.flatMap_cons, List.append_assoc, List.append_assoc, List.singleton_append,
        find_append_sep hne hsep g _ (hbefore g List.mem_cons_self),
        ih (fun x hx => hbefore x (List.mem_cons_of_mem g hx)), Option.map_some]
      simp only [List.length_append, List.length_cons, List.length_nil]
      congr 1
      omega

/-! ### Repeats -/

/-- A line that can stand at either end of whole lines stands all over them. -/
theorem eq_repeat_of_append_comm {sep : α} {line : List α} (hline : sep ∉ line) (t : List α)
    (n : Nat) (y : List α) (hn : y.length ≤ n) (hy : y = [] ∨ ∃ s, y = s ++ [sep])
    (h : (line ++ [sep]) ++ y = y ++ t) :
    t = line ++ [sep] ∧ ∃ k, y = (List.replicate k (line ++ [sep])).flatten := by
  induction n generalizing y with
  | zero =>
      obtain rfl := List.length_eq_zero_iff.1 (Nat.le_zero.1 hn)
      rw [List.append_nil, List.nil_append] at h
      exact ⟨h.symm, 0, rfl⟩
  | succ n ih =>
      rcases hy with rfl | ⟨s, rfl⟩
      · rw [List.append_nil, List.nil_append] at h
        exact ⟨h.symm, 0, rfl⟩
      · -- the first line of what is repeated is the line
        have hmem : sep ∈ s ++ [sep] := List.mem_append_right s (List.mem_singleton_self sep)
        rcases List.eq_append_cons_of_mem hmem with ⟨first, rest, hsplit, hfirst⟩
        rw [hsplit, List.append_assoc, List.append_assoc, List.singleton_append,
          List.cons_append] at h
        obtain ⟨rfl, hrest⟩ := append_sep_inj hline hfirst h
        have hwhole : rest = [] ∨ ∃ s', rest = s' ++ [sep] := by
          rcases List.eq_nil_or_concat rest with rfl | ⟨s', c, rfl⟩
          · exact Or.inl rfl
          · rw [List.concat_eq_append, ← List.cons_append, ← List.append_assoc] at hsplit
            have hlast := List.append_inj_right' hsplit rfl
            rw [List.concat_eq_append, ← hlast]
            exact Or.inr ⟨s', rfl⟩
        have hshort : rest.length ≤ n := by
          rw [hsplit, List.length_append, List.length_cons] at hn
          omega
        have hagain : (line ++ [sep]) ++ rest = rest ++ t := by
          rw [List.append_assoc, List.singleton_append]
          exact hrest
        rcases ih rest hshort hwhole hagain with ⟨rfl, k, hk⟩
        refine ⟨rfl, k + 1, ?_⟩
        rw [hsplit, List.replicate_succ, List.flatten_cons, ← hk, List.append_assoc,
          List.singleton_append]

end Search
