import Mathlib.Logic.Function.Basic
import Mathlib.Data.List.Basic

/-!
# Copying Files

A tree of files and directories, as what stands at each place, and what making
directories and copying files does to it. Nothing here is specific to one
system: the places are of any type, so two names of one file are one place.

A place holds what was copied to it last. Where all that is copied to it is one
file, and nothing is copied over that file, it ends with what that file held in
the beginning, whatever the order of the copies and whatever else is copied.

## Main definitions

* `Entry`, `Tree`: What stands at a place, and at each place.
* `Change`, `change?`, `changeAll?`: Making a directory, copying a file.
* `contents`, `isDir`: What a file holds, and whether there is a directory.

## Theorems

* `changeAll?_contents_of_not_copied`: A file that nothing is copied over stays.
* `changeAll?_contents_of_copied`: What a place ends with.
* `changeAll?_isDir_iff`: Only the directories that are made come to be there.
-/

namespace FileTree

/-- What stands at a place. -/
inductive Entry (γ : Type*) where
  | file (contents : γ)
  | dir

/-- What stands at each place. -/
abbrev Tree (κ γ : Type*) := κ → Option (Entry γ)

/-- One change of a tree. -/
inductive Change (κ : Type*) where
  | mkdir (place : κ)
  | copy (src dst : κ)
deriving DecidableEq

variable {κ γ : Type*} [DecidableEq κ]

/-- What the file at a place holds, if there is one. -/
def contents (t : Tree κ γ) (k : κ) : Option γ :=
  match t k with
  | some (.file c) => some c
  | _ => none

/-- There is a directory at the key. -/
def isDir (t : Tree κ γ) (k : κ) : Bool :=
  match t k with
  | some .dir => true
  | _ => false

/-- One change. A directory may be there already, a file is not copied onto
itself nor onto a directory. -/
def change? (t : Tree κ γ) : Change κ → Option (Tree κ γ)
  | .mkdir k =>
    match t k with
    | none => some (Function.update t k (some .dir))
    | some .dir => some t
    | some (.file _) => none
  | .copy src dst =>
    match t src with
    | some (.file c) =>
      if src = dst ∨ isDir t dst = true then none
      else some (Function.update t dst (some (.file c)))
    | _ => none

/-- Changes one after the other. -/
def changeAll? (t : Tree κ γ) : List (Change κ) → Option (Tree κ γ)
  | [] => some t
  | c :: cs => (change? t c).bind fun t' => changeAll? t' cs

theorem changeAll?_append (t : Tree κ γ) (cs ds : List (Change κ)) :
    changeAll? t (cs ++ ds) = (changeAll? t cs).bind fun t' => changeAll? t' ds := by
  induction cs generalizing t with
  | nil => rfl
  | cons c cs ih =>
      rw [List.cons_append, changeAll?, changeAll?, Option.bind_assoc]
      exact congrArg _ (funext fun t' => ih t')

/-! ### One change -/

/-- No file changes where a directory is made. -/
theorem change?_mkdir_contents {t t' : Tree κ γ} {k : κ} (h : change? t (.mkdir k) = some t') :
    contents t' = contents t := by
  rw [change?] at h
  split at h
  next hk =>
    rw [Option.some.injEq] at h
    funext j
    rcases eq_or_ne j k with rfl | hj
    · rw [← h, contents, contents, Function.update_self, hk]
    · rw [← h, contents, contents, Function.update_of_ne hj]
  next => rw [Option.some.inj h]
  next => exact absurd h (by simp only [reduceCtorEq, not_false_eq_true])

/-- A copy gives its place the contents of its source, and no other place. -/
theorem change?_copy_contents {t t' : Tree κ γ} {src dst : κ}
    (h : change? t (.copy src dst) = some t') :
    contents t' = Function.update (contents t) dst (contents t src) := by
  rw [change?] at h
  -- a copy succeeds only from a file, and not onto a directory
  split at h
  next c hsrc =>
    split at h
    next => exact absurd h (by simp only [reduceCtorEq, not_false_eq_true])
    next =>
      rw [Option.some.injEq] at h
      funext j
      rcases eq_or_ne j dst with rfl | hj
      · rw [← h, contents, Function.update_self, Function.update_self, contents, hsrc]
      · rw [← h, contents, Function.update_of_ne hj, Function.update_of_ne hj, contents]
  next => exact absurd h (by simp only [reduceCtorEq, not_false_eq_true])

theorem change?_copy_src {t t' : Tree κ γ} {src dst : κ}
    (h : change? t (.copy src dst) = some t') : (contents t src).isSome = true := by
  rw [change?] at h
  split at h
  next c hsrc => rw [contents, hsrc]; rfl
  next => exact absurd h (by simp only [reduceCtorEq, not_false_eq_true])

/-- The directories behind a change are those before it and the one made. -/
theorem change?_isDir_iff {t t' : Tree κ γ} {c : Change κ} (h : change? t c = some t') (k : κ) :
    isDir t' k = true ↔ isDir t k = true ∨ c = .mkdir k := by
  -- only `mkdir` makes a directory, and only where there is no file
  cases c with
  | mkdir j =>
      rw [Change.mkdir.injEq]
      rw [change?] at h
      split at h
      next hj =>
        rw [Option.some.injEq] at h
        rcases eq_or_ne k j with rfl | hk
        · simp only [← h, isDir, Function.update_self, or_true]
        · simp only [← h, isDir, Function.update_of_ne hk, hk.symm, or_false]
      next hj =>
        rw [← Option.some.inj h]
        refine ⟨Or.inl, fun hor => hor.elim id ?_⟩
        rintro rfl
        rw [isDir, hj]
      next => exact absurd h (by simp only [reduceCtorEq, not_false_eq_true])
  | copy src dst =>
      rw [change?] at h
      split at h
      next d hsrc =>
        split at h
        next => exact absurd h (by simp only [reduceCtorEq, not_false_eq_true])
        next hor =>
          rw [Option.some.injEq] at h
          -- There was no directory where the copy lands, and there is none.
          have hdst := (not_or.1 hor).2
          rcases eq_or_ne k dst with rfl | hk
          · simp only [← h, isDir, Function.update_self, reduceCtorEq, or_false, false_iff]
            exact hdst
          · simp only [← h, isDir, Function.update_of_ne hk, reduceCtorEq, or_false]
      next => exact absurd h (by simp only [reduceCtorEq, not_false_eq_true])

/-! ### Many changes -/

theorem changeAll?_isDir_iff {t t' : Tree κ γ} {cs : List (Change κ)}
    (h : changeAll? t cs = some t') (k : κ) :
    isDir t' k = true ↔ isDir t k = true ∨ .mkdir k ∈ cs := by
  induction cs generalizing t with
  | nil =>
      rw [← Option.some.inj h]
      simp only [List.not_mem_nil, or_false]
  | cons c cs ih =>
      obtain ⟨s, hs, hrest⟩ := Option.bind_eq_some_iff.1 h
      rw [ih hrest, change?_isDir_iff hs, List.mem_cons, or_assoc, eq_comm (a := c)]

/-- The step behind the next two: what one change does to a place that holds `v`
already, where all that is copied there holds `v`. -/
theorem change?_contents_kept {t t' : Tree κ γ} {c : Change κ} (h : change? t c = some t') {k : κ}
    (hc : ∀ src, c = .copy src k → contents t src = contents t k) :
    contents t' k = contents t k := by
  cases c with
  | mkdir j => rw [change?_mkdir_contents h]
  | copy src dst =>
      rw [change?_copy_contents h]
      rcases eq_or_ne k dst with rfl | hk
      · rw [Function.update_self, hc src rfl]
      · rw [Function.update_of_ne hk]

/-- A file that nothing is copied over stays as it is. -/
theorem changeAll?_contents_of_not_copied {t t' : Tree κ γ} {cs : List (Change κ)}
    (h : changeAll? t cs = some t') {k : κ} (hk : ∀ src, .copy src k ∉ cs) :
    contents t' k = contents t k := by
  induction cs generalizing t with
  | nil => rw [← Option.some.inj h]
  | cons c cs ih =>
      obtain ⟨s, hs, hrest⟩ := Option.bind_eq_some_iff.1 h
      rw [ih hrest fun src hmem => hk src (List.mem_cons_of_mem _ hmem)]
      exact change?_contents_kept hs fun src hc => absurd (hc ▸ List.mem_cons_self) (hk src)

/-- Where all that is copied to a place is one file that nothing is copied over,
the place ends with what that file held in the beginning. -/
theorem changeAll?_contents_of_copied {t t' : Tree κ γ} {cs : List (Change κ)}
    (h : changeAll? t cs = some t') {src dst : κ} (hmem : .copy src dst ∈ cs)
    (halone : ∀ s, .copy s dst ∈ cs → s = src) (hsrc : ∀ s, .copy s src ∉ cs) :
    contents t' dst = contents t src := by
  induction cs generalizing t with
  | nil => exact absurd hmem List.not_mem_nil
  | cons c cs ih =>
      obtain ⟨s, hs, hrest⟩ := Option.bind_eq_some_iff.1 h
      have halone' : ∀ s, .copy s dst ∈ cs → s = src :=
        fun s hm => halone s (List.mem_cons_of_mem _ hm)
      have hsrc' : ∀ s, .copy s src ∉ cs := fun s hm => hsrc s (List.mem_cons_of_mem _ hm)
      -- The source is the same behind the first change.
      have hkept : contents s src = contents t src :=
        change?_contents_kept hs fun s' hc => absurd (hc ▸ List.mem_cons_self) (hsrc s')
      by_cases hlater : Change.copy src dst ∈ cs
      · rw [ih hrest hlater halone' hsrc', hkept]
      · -- The first change was the last copy to the place.
        have hnone : ∀ s', .copy s' dst ∉ cs := fun s' hm => hlater (halone' s' hm ▸ hm)
        have hc : c = .copy src dst := ((List.mem_cons.1 hmem).resolve_right hlater).symm
        rw [changeAll?_contents_of_not_copied hrest hnone, change?_copy_contents (hc ▸ hs),
          Function.update_self]

/-- A file that is copied is there. -/
theorem changeAll?_src {t t' : Tree κ γ} {cs : List (Change κ)} (h : changeAll? t cs = some t')
    {src dst : κ} (hmem : .copy src dst ∈ cs) (hsrc : ∀ s, .copy s src ∉ cs) :
    (contents t src).isSome = true := by
  induction cs generalizing t with
  | nil => exact absurd hmem List.not_mem_nil
  | cons c cs ih =>
      obtain ⟨s, hs, hrest⟩ := Option.bind_eq_some_iff.1 h
      rcases List.mem_cons.1 hmem with hc | hlater
      · exact change?_copy_src (hc ▸ hs)
      · have hkept : contents s src = contents t src :=
          change?_contents_kept hs fun s' hc => absurd (hc ▸ List.mem_cons_self) (hsrc s')
        rw [← hkept]
        exact ih hrest hlater fun s' hm => hsrc s' (List.mem_cons_of_mem _ hm)

end FileTree
