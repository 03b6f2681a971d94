import Mathlib.Logic.Basic

/-!
# Functions with Early Exits

A long function that checks one thing after another and returns early is a
chain of stages: each stage goes on with a state or leaves with a result and
the state it leaves behind. In `Except (ρ × σ) σ` the chain is the monadic
bind, and `Ends` is its specification, one predicate for the state a chain
goes on with and one for the exits. Nothing here is specific to one system.

## Main definitions

* `Ends`: What a chain goes on with, and what it leaves with.

## Theorems

* `ends_bind`: A chain ends as its second half does from where the first goes
  on, provided the first leaves the way the whole may.
* `ends_mono`: Both predicates may be weakened.
* `ends_and`: Two specifications hold together.
* `bind_eq_ok`: A chain that goes on went on in both halves.
-/

namespace Stages

universe u v

variable {ρ σ : Type u} {τ υ : Type v}

/-- What a chain goes on with, and what it leaves with. -/
def Ends (x : Except (ρ × σ) τ) (Q : τ → Prop) (R : ρ → σ → Prop) : Prop :=
  match x with
  | .ok a => Q a
  | .error (r, a) => R r a

@[simp]
theorem ends_ok (a : τ) (Q : τ → Prop) (R : ρ → σ → Prop) :
    Ends (.ok a : Except (ρ × σ) τ) Q R ↔ Q a :=
  Iff.rfl

@[simp]
theorem ends_error (r : ρ) (a : σ) (Q : τ → Prop) (R : ρ → σ → Prop) :
    Ends (.error (r, a) : Except (ρ × σ) τ) Q R ↔ R r a :=
  Iff.rfl

/-- A guard that may leave, in a chain of two branches. -/
theorem ends_ite (p : Prop) [Decidable p] (x y : Except (ρ × σ) τ) (Q : τ → Prop)
    (R : ρ → σ → Prop) (hx : p → Ends x Q R) (hy : ¬ p → Ends y Q R) :
    Ends (if p then x else y) Q R := by
  by_cases hp : p
  · rw [if_pos hp]
    exact hx hp
  · rw [if_neg hp]
    exact hy hp

theorem ends_mono (x : Except (ρ × σ) τ) (Q Q' : τ → Prop) (R R' : ρ → σ → Prop)
    (h : Ends x Q R) (hQ : ∀ a, Q a → Q' a) (hR : ∀ r a, R r a → R' r a) : Ends x Q' R' := by
  cases x with
  | ok a => exact hQ a h
  | error e => exact hR e.1 e.2 h

/-- Two specifications of one chain hold together. -/
theorem ends_and (x : Except (ρ × σ) τ) (Q Q' : τ → Prop) (R R' : ρ → σ → Prop)
    (h : Ends x Q R) (h' : Ends x Q' R') :
    Ends x (fun a => Q a ∧ Q' a) fun r a => R r a ∧ R' r a := by
  cases x with
  | ok a => exact ⟨h, h'⟩
  | error e => exact ⟨h, h'⟩

/-- Stages compose: the second runs from every state the first goes on with. -/
theorem ends_bind (x : Except (ρ × σ) τ) (f : τ → Except (ρ × σ) υ) (Q : τ → Prop)
    (Q' : υ → Prop) (R : ρ → σ → Prop) (hx : Ends x Q R) (hf : ∀ a, Q a → Ends (f a) Q' R) :
    Ends (x >>= f) Q' R := by
  cases x with
  | ok a => exact hf a hx
  | error e => exact hx

/-- A chain goes on exactly when each of its halves does. -/
theorem bind_eq_ok {ε : Type u} (x : Except ε τ) (f : τ → Except ε υ) (b : υ) :
    (x >>= f) = .ok b ↔ ∃ a, x = .ok a ∧ f a = .ok b := by
  cases x with
  | ok a =>
      refine ⟨fun h => ⟨a, rfl, h⟩, ?_⟩
      rintro ⟨a', ha, h⟩
      cases ha
      exact h
  | error e =>
      refine ⟨fun h => absurd h (by simp [bind, Except.bind]), ?_⟩
      rintro ⟨a, ha, -⟩
      exact absurd ha (by simp)

end Stages
