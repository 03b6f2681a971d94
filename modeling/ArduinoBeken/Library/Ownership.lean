import Mathlib.Logic.Function.Basic
import ArduinoBeken.Library.Run

/-!
# Ownership of Resources

Owners acquire resources from a pool that hands out free ones, and release
them again. A `Ledger` records which resources are open and what each owner
holds, at most one resource each. Nothing here is specific to one system.

The discipline is that a resource is released by the owner that holds it and
by no one else, that no two owners hold the same one, and that an open
resource is always held. An owner's operation is the list of what it acquires
and releases, and `Conducts` is its specification: the releases are lawful,
the ledger stays sound, and the owner ends up holding what it says.

## Main definitions

* `Ledger`: What is open, and who holds what.
* `Act`: Acquiring or releasing one resource.
* `Lawful`, `Possible`: The law of an owner, and the law of the pool.
* `Sound`: The discipline as an invariant.
* `Conducts`: An operation within the discipline.

## Theorems

* `lawful_release`: In a sound ledger a holder may release.
* `conducts_nil`, `conducts_acquire`, `conducts_release`: The single acts.
* `Conducts.append`: Operations one after the other.
* `run_holds_of_ne`: Other owners keep what they hold.
-/

namespace Ownership

open EventRun (run Always)

variable {ω ρ : Type*} [DecidableEq ω] [DecidableEq ρ]

/-- What is open, and what each owner holds. -/
structure Ledger (ω ρ : Type*) where
  holds : ω → Option ρ
  isOpen : ρ → Bool

/-- A resource is taken or given back. -/
inductive Act (ρ : Type*) where
  | acquire (r : ρ)
  | release (r : ρ)
deriving DecidableEq, Repr

namespace Ledger

/-- Nothing is open. -/
def empty : Ledger ω ρ := { holds := fun _ => none, isOpen := fun _ => false }

/-- The ledger after an act of the owner. A release closes the resource
whoever holds it; an acquisition makes the owner forget what it held. -/
def act (o : ω) (l : Ledger ω ρ) : Act ρ → Ledger ω ρ
  | .acquire r =>
      { holds := Function.update l.holds o (some r), isOpen := Function.update l.isOpen r true }
  | .release r =>
      { holds := Function.update l.holds o (if l.holds o = some r then none else l.holds o)
        isOpen := Function.update l.isOpen r false }

/-- The owner holds this from now on, without any act. -/
def assign (o : ω) (r : Option ρ) (l : Ledger ω ρ) : Ledger ω ρ :=
  { l with holds := Function.update l.holds o r }

/-- A resource is released by its only holder. -/
def Lawful (o : ω) (l : Ledger ω ρ) : Act ρ → Prop
  | .acquire _ => True
  | .release r => l.holds o = some r ∧ ∀ o', o' ≠ o → l.holds o' ≠ some r

/-- The pool hands out what is free. -/
def Possible (l : Ledger ω ρ) : Act ρ → Prop
  | .acquire r => l.isOpen r = false
  | .release _ => True

/-- Every open resource is held. -/
def Covered (l : Ledger ω ρ) : Prop :=
  ∀ r, l.isOpen r = true → ∃ o, l.holds o = some r

/-- The discipline: what is held is open and held once, and what is open is
held. -/
structure Sound (l : Ledger ω ρ) : Prop where
  held : ∀ o r, l.holds o = some r → l.isOpen r = true
  unique : ∀ o o' r, l.holds o = some r → l.holds o' = some r → o = o'
  covered : l.Covered

/-- An operation of the owner within the discipline, which leaves it holding
`r`. -/
structure Conducts (o : ω) (l : Ledger ω ρ) (acts : List (Act ρ)) (r : Option ρ) : Prop where
  lawful : Always (act o) (Lawful o) l acts
  sound : Sound (run (act o) l acts)
  holds : (run (act o) l acts).holds o = r

omit [DecidableEq ω] [DecidableEq ρ] in
theorem sound_empty : Sound (empty : Ledger ω ρ) where
  held := fun _ _ h => absurd h (by simp [empty])
  unique := fun _ _ _ h => absurd h (by simp [empty])
  covered := fun _ h => absurd h (by simp [empty])

@[simp]
theorem act_holds_of_ne (o o' : ω) (l : Ledger ω ρ) (a : Act ρ) (h : o' ≠ o) :
    (l.act o a).holds o' = l.holds o' := by
  cases a <;> simp [act, h]

/-- Other owners keep what they hold. -/
theorem run_holds_of_ne (o o' : ω) (l : Ledger ω ρ) (acts : List (Act ρ)) (h : o' ≠ o) :
    (run (act o) l acts).holds o' = l.holds o' := by
  induction acts generalizing l with
  | nil => rfl
  | cons a acts ih => rw [EventRun.run_cons, ih, act_holds_of_ne o o' l a h]

omit [DecidableEq ω] [DecidableEq ρ] in
theorem lawful_release (o : ω) (l : Ledger ω ρ) (r : ρ) (hl : l.Sound) (h : l.holds o = some r) :
    Lawful o l (.release r) :=
  ⟨h, fun o' hne hr => hne (hl.unique o' o r hr h)⟩

theorem sound_acquire (o : ω) (l : Ledger ω ρ) (r : ρ) (hl : l.Sound) (h : l.holds o = none)
    (hfree : l.isOpen r = false) : (l.act o (.acquire r)).Sound := by
  -- A free resource has no owner, since what is held is open.
  have hother : ∀ o', l.holds o' ≠ some r := by
    intro o' hr
    exact absurd (hl.held o' r hr) (by simp [hfree])
  -- what the owner acquires is open, its own, and covered by it
  constructor
  · intro o' r' hr
    by_cases hr' : r' = r
    · simp [act, hr']
    · by_cases ho : o' = o
      · subst ho
        simp only [act, Function.update_self, Option.some.injEq] at hr
        exact absurd hr.symm hr'
      · simp only [act, Function.update_of_ne ho] at hr
        simp [act, hr', hl.held o' r' hr]
  · intro o' o'' r' hr hr'
    by_cases ho : o' = o
    · by_cases ho' : o'' = o
      · exact ho.trans ho'.symm
      · subst ho
        simp only [act, Function.update_self, Option.some.injEq] at hr
        simp only [act, Function.update_of_ne ho'] at hr'
        exact absurd (hr ▸ hr') (hother o'')
    · simp only [act, Function.update_of_ne ho] at hr
      by_cases ho' : o'' = o
      · subst ho'
        simp only [act, Function.update_self, Option.some.injEq] at hr'
        exact absurd (hr' ▸ hr) (hother o')
      · simp only [act, Function.update_of_ne ho'] at hr'
        exact hl.unique o' o'' r' hr hr'
  · intro r' hr
    by_cases hr' : r' = r
    · exact ⟨o, by simp [act, hr']⟩
    · simp only [act, Function.update_of_ne hr'] at hr
      rcases hl.covered r' hr with ⟨o', ho'⟩
      have hne : o' ≠ o := fun heq => absurd ((heq ▸ ho').symm.trans h) (by simp)
      exact ⟨o', by rw [act_holds_of_ne o o' l _ hne, ho']⟩

theorem sound_release (o : ω) (l : Ledger ω ρ) (r : ρ) (hl : l.Sound) (h : l.holds o = some r) :
    (l.act o (.release r)).Sound := by
  -- whoever holds something afterwards is another owner with another resource
  have hrest : ∀ o' r', (l.act o (.release r)).holds o' = some r' →
      o' ≠ o ∧ l.holds o' = some r' ∧ r' ≠ r := by
    intro o' r' hr
    have hne : o' ≠ o := by
      rintro rfl
      simp [act, h] at hr
    rw [act_holds_of_ne o o' l _ hne] at hr
    exact ⟨hne, hr, fun heq => hne (hl.unique o' o r (heq ▸ hr) h)⟩
  constructor
  · intro o' r' hr
    rcases hrest o' r' hr with ⟨-, hheld, hne⟩
    simp [act, hne, hl.held o' r' hheld]
  · intro o' o'' r' hr hr'
    exact hl.unique o' o'' r' (hrest o' r' hr).2.1 (hrest o'' r' hr').2.1
  · intro r' hr
    have hne : r' ≠ r := by
      rintro rfl
      simp [act] at hr
    simp only [act, Function.update_of_ne hne] at hr
    rcases hl.covered r' hr with ⟨o', ho'⟩
    have ho : o' ≠ o := by
      rintro rfl
      exact hne (Option.some.inj (ho'.symm.trans h))
    exact ⟨o', by rw [act_holds_of_ne o o' l _ ho, ho']⟩

theorem conducts_nil (o : ω) (l : Ledger ω ρ) (hl : l.Sound) : Conducts o l [] (l.holds o) :=
  ⟨trivial, hl, rfl⟩

theorem conducts_acquire (o : ω) (l : Ledger ω ρ) (r : ρ) (hl : l.Sound) (h : l.holds o = none)
    (hfree : l.isOpen r = false) : Conducts o l [.acquire r] (some r) :=
  ⟨⟨trivial, trivial⟩, sound_acquire o l r hl h hfree, by simp [act]⟩

theorem conducts_release (o : ω) (l : Ledger ω ρ) (r : ρ) (hl : l.Sound)
    (h : l.holds o = some r) : Conducts o l [.release r] none :=
  ⟨⟨lawful_release o l r hl h, trivial⟩, sound_release o l r hl h, by simp [act, h]⟩

/-- Operations one after the other. -/
theorem Conducts.append (o : ω) (l : Ledger ω ρ) (acts acts' : List (Act ρ)) (r r' : Option ρ)
    (h : Conducts o l acts r) (h' : Conducts o (run (act o) l acts) acts' r') :
    Conducts o l (acts ++ acts') r' := by
  refine ⟨(EventRun.always_append _ _ _ _ _).2 ⟨h.lawful, h'.lawful⟩, ?_, ?_⟩
  · rw [EventRun.run_append]
    exact h'.sound
  · rw [EventRun.run_append]
    exact h'.holds

end Ledger

end Ownership
