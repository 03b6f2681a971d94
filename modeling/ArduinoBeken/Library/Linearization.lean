import ArduinoBeken.Library.Run

/-!
# Calls that Are Not Done at Once

An object whose calls take several steps, with events in between that take effect at
once, and what the calls should do as a machine that does each in one step. A run of the
object is explained by the machine if every call can be given a moment, between its
beginning and its return, at which the machine does it, so that every call returns what
the machine answers.

Whether there are such moments is decided by trying them (`explains`). To find them for
all runs a relation between the object and the machine is enough, in which every step of
the object either leaves the machine where it is, or has it do the call under way first
(`explains_of_simulation`).

## Main definitions

* `Stepwise`: The object.
* `AtOnce`: The machine.
* `choices`, `explains`: Whether a run is explained.

## Theorems

* `explains_of_simulation`: A relation that finds the moments.
-/

namespace Linearization

variable {σ ε τ κ β : Type*}

/-- An object with at most one call under way. A call returns in one of the steps. -/
structure Stepwise (σ ε κ β : Type*) where
  step : σ → ε → σ
  call : σ → Option κ
  returned : σ → ε → Option β

/-- What the calls do, and what the other events do to the same state. -/
structure AtOnce (τ ε κ β : Type*) where
  perform : τ → κ → τ
  answer : τ → κ → β
  observe : τ → ε → τ

/-- Before a step the call under way can be done, if it has not been. What it answers is
owed to its caller until it returns. -/
def choices (obj : Stepwise σ ε κ β) (spec : AtOnce τ ε κ β) (s : σ) (t : τ) (owed : Option β) :
    List (τ × Option β) :=
  match owed, obj.call s with
  | none, some c => [(t, none), (spec.perform t c, some (spec.answer t c))]
  | _, _ => [(t, owed)]

/-- A call that returns returns what is owed. -/
def pays [DecidableEq β] (owed returned : Option β) : Bool :=
  returned.all fun b => decide (owed = some b)

/-- What is owed behind a step. -/
def remains (owed returned : Option β) : Option β :=
  if returned.isSome then none else owed

/-- The run is that of a machine that does each call at a moment between its beginning and
its return. -/
def explains [DecidableEq β] (obj : Stepwise σ ε κ β) (spec : AtOnce τ ε κ β) (s : σ) (t : τ)
    (owed : Option β) : List ε → Bool
  | [] => true
  | e :: es => (choices obj spec s t owed).any fun c =>
    pays c.2 (obj.returned s e) &&
      explains obj spec (obj.step s e) (spec.observe c.1 e) (remains c.2 (obj.returned s e)) es

/-- A step that a choice goes along with. -/
def Follows (obj : Stepwise σ ε κ β) (spec : AtOnce τ ε κ β) (R : σ → τ → Option β → Prop)
    (s : σ) (e : ε) (t : τ) (owed : Option β) : Prop :=
  (∀ b ∈ obj.returned s e, owed = some b) ∧
    R (obj.step s e) (spec.observe t e) (remains owed (obj.returned s e))

/-- Where every step keeps a relation, perhaps after the call under way has been done, every
run is explained. -/
theorem explains_of_simulation [DecidableEq β] {obj : Stepwise σ ε κ β} {spec : AtOnce τ ε κ β}
    {R : σ → τ → Option β → Prop} {ok : σ → ε → Prop}
    (hstep : ∀ s t owed e, R s t owed → ok s e →
      ∃ c ∈ choices obj spec s t owed, Follows obj spec R s e c.1 c.2)
    {s : σ} {t : τ} {owed : Option β} (h : R s t owed) {es : List ε}
    (hok : EventRun.Always obj.step ok s es) : explains obj spec s t owed es = true := by
  induction es generalizing s t owed with
  | nil => rfl
  | cons e es ih =>
      rcases hstep s t owed e h hok.1 with ⟨c, hc, hpays, hrest⟩
      refine List.any_eq_true.2 ⟨c, hc, ?_⟩
      rw [Bool.and_eq_true]
      refine ⟨?_, ih hrest hok.2⟩
      unfold pays
      rw [Option.all_eq_true]
      exact fun b hb => decide_eq_true (hpays b hb)

/-- The step is followed as things stand. -/
theorem stays_of_follows {obj : Stepwise σ ε κ β} {spec : AtOnce τ ε κ β}
    {R : σ → τ → Option β → Prop} {s : σ} {e : ε} {t : τ} {owed : Option β}
    (h : Follows obj spec R s e t owed) :
    ∃ c ∈ choices obj spec s t owed, Follows obj spec R s e c.1 c.2 := by
  refine ⟨(t, owed), ?_, h⟩
  unfold choices
  split
  · exact List.mem_cons_self
  · exact List.mem_cons_self

/-- The step is followed once the call has been done. -/
theorem performs_of_follows {obj : Stepwise σ ε κ β} {spec : AtOnce τ ε κ β}
    {R : σ → τ → Option β → Prop} {s : σ} {e : ε} {t : τ} {k : κ} (hcall : obj.call s = some k)
    (h : Follows obj spec R s e (spec.perform t k) (some (spec.answer t k))) :
    ∃ c ∈ choices obj spec s t none, Follows obj spec R s e c.1 c.2 := by
  refine ⟨(spec.perform t k, some (spec.answer t k)), ?_, h⟩
  unfold choices
  rw [hcall]
  exact List.mem_cons_of_mem _ List.mem_cons_self

end Linearization
