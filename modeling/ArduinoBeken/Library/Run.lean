import Mathlib.Data.List.Basic
import Mathlib.Logic.Basic

/-!
# Runs of Event-Driven Systems

A system that reacts to events is a step function from a state and an event
to a state, and a run is that function folded over a list of events. Nothing
here is specific to one system.

Two kinds of statement are made about runs. An invariant says something about
the state at the end, and `inv_run` proves it from one step. A law of the
system says something about every event in the state it arrives in, and
`Always` is that: `Always step P s es` holds when each event of `es`, in the
state reached just before it, satisfies `P`.

A law often holds only in the runs that stay clear of some inputs. Both the
law and the inputs to stay clear of are predicates of a state and an event,
so the statement is one `Always` from another, and `always_of_inv` reduces it
to a single step that may assume the invariant. `always_iff_of_inv` is the
exact form, for an invariant that holds whether or not the inputs are good.

Some steps leave a debt: nothing is wrong until a step that needs it paid.
`Unless` and `Followed` say that each debt is paid before such a step, and
`always_iff_followed` that this is exactly when a law holds.

## Main definitions

* `run`: The state a list of events leads to.
* `Always`: A predicate of every event of a run and the state it meets.
* `Unless`: A predicate of every event up to the first that satisfies another.
* `Followed`: What holds of the run behind every event of a kind.

## Theorems

* `run_append`: A run over a concatenation is two runs.
* `always_and`: Two laws together.
* `always_append`: A law over a concatenation is the law over both halves.
* `Always.mono`: A law implies every weaker one.
* `inv_run`: What every step preserves holds at the end of a run.
* `inv_run_of_always`: What every good step preserves holds after a good run.
* `always_of_inv`: A law that one step grants from an invariant holds along
  a run.
* `always_of_inv_step`: The same for an invariant that every step preserves.
* `always_iff_of_inv`: Two laws that agree under an invariant agree on runs.
* `always_iff_of_good`: The same for an invariant that good steps preserve.
* `holds_iff_always`: What stays lost once it is lost.
* `always_iff_followed`: A law that fails exactly where a debt is unpaid.
* `always_of_forall`: What holds in every state holds along every run.
-/

namespace EventRun

variable {σ ε τ : Type*}

/-- The state a list of events leads to. -/
def run (step : σ → ε → σ) : σ → List ε → σ
  | s, [] => s
  | s, e :: es => run step (step s e) es

/-- Every event of the run satisfies the predicate in the state it meets. -/
def Always (step : σ → ε → σ) (P : σ → ε → Prop) : σ → List ε → Prop
  | _, [] => True
  | s, e :: es => P s e ∧ Always step P (step s e) es

/-- Every event of the run satisfies `P`, up to the first one that satisfies
    `Q` if there is one. -/
def Unless (step : σ → ε → σ) (P Q : σ → ε → Prop) : σ → List ε → Prop
  | _, [] => True
  | s, e :: es => Q s e ∨ (P s e ∧ Unless step P Q (step s e) es)

/-- What is left of the run behind an event that satisfies `T` satisfies `L`. -/
def Followed (step : σ → ε → σ) (T : σ → ε → Prop) (L : σ → List ε → Prop) : σ → List ε → Prop
  | _, [] => True
  | s, e :: es => (T s e → L (step s e) es) ∧ Followed step T L (step s e) es

@[simp] theorem run_nil (step : σ → ε → σ) (s : σ) : run step s [] = s := rfl

@[simp] theorem run_cons (step : σ → ε → σ) (s : σ) (e : ε) (es : List ε) :
    run step s (e :: es) = run step (step s e) es := rfl

@[simp] theorem always_nil (step : σ → ε → σ) (P : σ → ε → Prop) (s : σ) :
    Always step P s [] := True.intro

@[simp] theorem always_cons (step : σ → ε → σ) (P : σ → ε → Prop) (s : σ) (e : ε)
    (es : List ε) :
    Always step P s (e :: es) ↔ P s e ∧ Always step P (step s e) es := Iff.rfl

instance decidableAlways (step : σ → ε → σ) (P : σ → ε → Prop) [∀ s e, Decidable (P s e)] :
    ∀ s es, Decidable (Always step P s es)
  | _, [] => isTrue True.intro
  | s, e :: es =>
    have := decidableAlways step P (step s e) es
    inferInstanceAs (Decidable (_ ∧ _))

theorem always_and (step : σ → ε → σ) (P Q : σ → ε → Prop) (s : σ) (es : List ε) :
    Always step (fun s e => P s e ∧ Q s e) s es ↔ Always step P s es ∧ Always step Q s es := by
  induction es generalizing s with
  | nil => exact ⟨fun h => ⟨h, h⟩, fun h => h.1⟩
  | cons e es ih =>
      rw [always_cons, always_cons, always_cons, ih (step s e)]
      exact ⟨fun h => ⟨⟨h.1.1, h.2.1⟩, h.1.2, h.2.2⟩, fun h => ⟨⟨h.1.1, h.2.1⟩, h.1.2, h.2.2⟩⟩

theorem run_append (step : σ → ε → σ) (s : σ) (es fs : List ε) :
    run step s (es ++ fs) = run step (run step s es) fs := by
  induction es generalizing s with
  | nil => rfl
  | cons e es ih => exact ih (step s e)

theorem always_append (step : σ → ε → σ) (P : σ → ε → Prop) (s : σ) (es fs : List ε) :
    Always step P s (es ++ fs) ↔ Always step P s es ∧ Always step P (run step s es) fs := by
  induction es generalizing s with
  | nil => simp only [List.nil_append, always_nil, run_nil, true_and]
  | cons e es ih =>
      simp only [List.cons_append, always_cons, run_cons]
      rw [ih (step s e), and_assoc]

theorem Always.mono {step : σ → ε → σ} {P Q : σ → ε → Prop} {s : σ} {es : List ε}
    (h : Always step P s es) (hPQ : ∀ s e, P s e → Q s e) : Always step Q s es := by
  induction es generalizing s with
  | nil => exact True.intro
  | cons e es ih => exact ⟨hPQ s e h.1, ih h.2⟩

/-- What every step preserves holds at the end of a run. -/
theorem inv_run {step : σ → ε → σ} {I : σ → Prop} (hstep : ∀ s e, I s → I (step s e))
    {s : σ} (hs : I s) (es : List ε) : I (run step s es) := by
  induction es generalizing s with
  | nil => exact hs
  | cons e es ih => exact ih (hstep s e hs)

/-- What every good step preserves holds at the end of a run of good steps. -/
theorem inv_run_of_always {step : σ → ε → σ} {I : σ → Prop} {ok : σ → ε → Prop}
    (hstep : ∀ s e, I s → ok s e → I (step s e))
    {s : σ} (hs : I s) {es : List ε} (h : Always step ok s es) : I (run step s es) := by
  induction es generalizing s with
  | nil => exact hs
  | cons e es ih => exact ih (hstep s e hs h.1) h.2

/-- A law holds along every run of good steps when an invariant grants it at
    one step and survives that step. -/
theorem always_of_inv {step : σ → ε → σ} {I : σ → Prop} {ok good : σ → ε → Prop}
    (hgood : ∀ s e, I s → ok s e → good s e)
    (hstep : ∀ s e, I s → ok s e → I (step s e))
    {s : σ} (hs : I s) {es : List ε} (h : Always step ok s es) : Always step good s es := by
  induction es generalizing s with
  | nil => exact True.intro
  | cons e es ih => exact ⟨hgood s e hs h.1, ih (hstep s e hs h.1) h.2⟩

/-- A law holds along every run when an invariant of all steps grants it. -/
theorem always_of_inv_step {step : σ → ε → σ} {I : σ → Prop} {good : σ → ε → Prop}
    (hgood : ∀ s e, I s → good s e) (hstep : ∀ s e, I s → I (step s e))
    {s : σ} (hs : I s) (es : List ε) : Always step good s es := by
  induction es generalizing s with
  | nil => exact True.intro
  | cons e es ih => exact ⟨hgood s e hs, ih (hstep s e hs)⟩

/-- Two laws that agree wherever an unconditional invariant holds agree on
    every run. -/
theorem always_iff_of_inv {step : σ → ε → σ} {I : σ → Prop} {P Q : σ → ε → Prop}
    (hstep : ∀ s e, I s → I (step s e)) (hiff : ∀ s e, I s → (P s e ↔ Q s e))
    {s : σ} (hs : I s) (es : List ε) : Always step P s es ↔ Always step Q s es := by
  induction es generalizing s with
  | nil => exact Iff.rfl
  | cons e es ih => exact and_congr (hiff s e hs) (ih (hstep s e hs))

/-- Two laws agree on every run when they agree under an invariant that only
    the steps obeying the first preserve. -/
theorem always_iff_of_good {step : σ → ε → σ} {I : σ → Prop} {P Q : σ → ε → Prop}
    (hstep : ∀ s e, I s → P s e → I (step s e)) (hiff : ∀ s e, I s → (P s e ↔ Q s e))
    {s : σ} (hs : I s) (es : List ε) : Always step P s es ↔ Always step Q s es := by
  induction es generalizing s with
  | nil => exact Iff.rfl
  | cons e es ih =>
      refine ⟨?_, ?_⟩
      · rintro ⟨hp, hrest⟩
        exact ⟨(hiff s e hs).1 hp, (ih (hstep s e hs hp)).1 hrest⟩
      · rintro ⟨hq, hrest⟩
        have hp := (hiff s e hs).2 hq
        exact ⟨hp, (ih (hstep s e hs hp)).2 hrest⟩

/-- What stays lost once it is lost holds at the end of exactly the runs whose steps all keep
    it, when an invariant holds as long as they do. -/
theorem holds_iff_always {step : σ → ε → σ} {I P : σ → Prop} {ok : σ → ε → Prop}
    (hholds : ∀ s, I s → P s) (hstep : ∀ s e, I s → ok s e → I (step s e))
    (hbreaks : ∀ s e, I s → ¬ok s e → ¬P (step s e)) (hlost : ∀ s e, P (step s e) → P s)
    {s : σ} (hs : I s) (es : List ε) : P (run step s es) ↔ Always step ok s es := by
  -- what is lost stays lost
  have hend : ∀ t fs, P (run step t fs) → P t := by
    intro t fs
    induction fs generalizing t with
    | nil => exact id
    | cons f fs ih => exact fun h => hlost t f (ih _ h)
  induction es generalizing s with
  | nil => exact ⟨fun _ => True.intro, fun _ => hholds s hs⟩
  | cons e es ih =>
      constructor
      · intro h
        -- a step that is not allowed would have lost it
        have hok : ok s e := by
          by_contra hnot
          exact hbreaks s e hs hnot (hend _ es h)
        exact ⟨hok, (ih (hstep s e hs hok)).1 h⟩
      · rintro ⟨hok, hrest⟩
        exact (ih (hstep s e hs hok)).2 hrest

section Debts

variable {step : σ → ε → σ} {I J : σ → Prop} {ok good T P Q : σ → ε → Prop}

/-- A debt that is paid before it is due does no harm. -/
theorem always_of_followed (hI : ∀ s e, I s → ok s e → I (step s e))
    (hgood : ∀ s e, I s → ok s e → J s → good s e)
    (hidle : ∀ s e, I s → ok s e → P s e → good s e)
    (hpays : ∀ s e, I s → ok s e → Q s e → good s e ∧ J (step s e))
    (hkeep : ∀ s e, I s → ok s e → J s → ¬T s e → J (step s e))
    {s : σ} {es : List ε} (hs : I s) (hok : Always step ok s es)
    (h : J s ∨ Unless step P Q s es) (hf : Followed step T (Unless step P Q) s es) :
    Always step good s es := by
  -- the obligation is either paid, or waits for the step that pays it
  induction es generalizing s with
  | nil => exact True.intro
  | cons e es ih =>
      have hnext := hI s e hs hok.1
      have hrest : J (step s e) ∨ Unless step P Q (step s e) es → Always step good (step s e) es :=
        fun hj => ih hnext hok.2 hj hf.2
      rcases h with hj | hq | ⟨hp, hu⟩
      · refine ⟨hgood s e hs hok.1 hj, hrest ?_⟩
        by_cases ht : T s e
        · exact Or.inr (hf.1 ht)
        · exact Or.inl (hkeep s e hs hok.1 hj ht)
      · have hpaid := hpays s e hs hok.1 hq
        exact ⟨hpaid.1, hrest (Or.inl hpaid.2)⟩
      · exact ⟨hidle s e hs hok.1 hp, hrest (Or.inr hu)⟩

/-- A debt that is not paid stays, and does harm where it is due. -/
theorem unless_of_always (hI : ∀ s e, I s → ok s e → I (step s e))
    (hdue : ∀ s e, I s → ok s e → ¬J s → good s e → P s e)
    (hstays : ∀ s e, I s → ok s e → ¬J s → P s e → ¬Q s e → ¬J (step s e))
    {s : σ} {es : List ε} (hs : I s) (hok : Always step ok s es) (hj : ¬J s)
    (h : Always step good s es) : Unless step P Q s es := by
  induction es generalizing s with
  | nil => exact True.intro
  | cons e es ih =>
      have hp := hdue s e hs hok.1 hj h.1
      by_cases hq : Q s e
      · exact Or.inl hq
      · exact Or.inr ⟨hp, ih (hI s e hs hok.1) hok.2 (hstays s e hs hok.1 hj hp hq) h.2⟩

/-- A law that fails exactly where a debt is unpaid holds along a run just when
    every event that leaves a debt is followed by one that pays it, before it
    is due. -/
theorem always_iff_followed (hI : ∀ s e, I s → ok s e → I (step s e))
    (hgood : ∀ s e, I s → ok s e → J s → good s e)
    (hidle : ∀ s e, I s → ok s e → P s e → good s e)
    (hpays : ∀ s e, I s → ok s e → Q s e → good s e ∧ J (step s e))
    (hkeep : ∀ s e, I s → ok s e → J s → ¬T s e → J (step s e))
    (hdue : ∀ s e, I s → ok s e → ¬J s → good s e → P s e)
    (hstays : ∀ s e, I s → ok s e → ¬J s → P s e → ¬Q s e → ¬J (step s e))
    (howes : ∀ s e, I s → ok s e → T s e → ¬J (step s e))
    {s : σ} {es : List ε} (hs : I s) (hj : J s) (hok : Always step ok s es) :
    Always step good s es ↔ Followed step T (Unless step P Q) s es := by
  refine ⟨?_, always_of_followed hI hgood hidle hpays hkeep hs hok (Or.inl hj)⟩
  intro h
  clear hj
  induction es generalizing s with
  | nil => exact True.intro
  | cons e es ih =>
      have hnext := hI s e hs hok.1
      refine ⟨?_, ih hnext hok.2 h.2⟩
      intro ht
      exact unless_of_always hI hdue hstays hnext hok.2 (howes s e hs hok.1 ht) h.2

end Debts

/-- A law that holds in every state holds along every run. -/
theorem always_of_forall {step : σ → ε → σ} {P : σ → ε → Prop} (h : ∀ s e, P s e)
    (s : σ) (es : List ε) : Always step P s es := by
  induction es generalizing s with
  | nil => exact True.intro
  | cons e es ih => exact ⟨h s e, ih (step s e)⟩

end EventRun
