import Mathlib.Logic.Basic

/-!
# Loops with a Deadline

A loop that asks another component for an answer, turn after turn, until an
answer settles it or the deadline has passed. The answers of one run of such a
loop are the ones whose turn ended in time, followed by the one after which
the clock was found past the deadline. Nothing here is specific to one system.

The loop may treat the late answer differently from the others, so a loop is
given by two functions: `turn` for an answer in time, whose result is `none`
when the loop goes on, and `late` for the last one.

## Main definitions

* `Timed`: The answers of one run, up to the late one.
* `poll`: The state and the result a run of the loop ends with.

## Theorems

* `poll_settled`: An answer that settles the first turn settles the loop.
* `poll_rule`: What every turn preserves or concludes, the loop concludes.
-/

namespace Polling

variable {σ α β : Type*}

/-- What a loop with a deadline is answered: in time, and once too late. -/
structure Timed (α : Type*) where
  inTime : List α
  last : α

/-- The loop over the answers in time, then the late one. -/
def pollFrom (turn : σ → α → σ × Option β) (late : σ → α → σ × β) (last : α) :
    List α → σ → σ × β
  | [], s => late s last
  | a :: as, s =>
    match turn s a with
    | (s', some r) => (s', r)
    | (s', none) => pollFrom turn late last as s'

/-- The state and the result a run of the loop ends with. -/
def poll (turn : σ → α → σ × Option β) (late : σ → α → σ × β) (answers : Timed α) (s : σ) :
    σ × β :=
  pollFrom turn late answers.last answers.inTime s

@[simp]
theorem poll_none_in_time (turn : σ → α → σ × Option β) (late : σ → α → σ × β) (last : α) (s : σ) :
    poll turn late ⟨[], last⟩ s = late s last :=
  rfl

/-- A first turn that settles the loop is all of it. -/
theorem poll_settled (turn : σ → α → σ × Option β) (late : σ → α → σ × β) (a last : α)
    (as : List α) (s s' : σ) (r : β) (h : turn s a = (s', some r)) :
    poll turn late ⟨a :: as, last⟩ s = (s', r) := by
  simp only [poll, pollFrom, h]

/-- A first turn that settles nothing leaves the rest of the loop. -/
theorem poll_again (turn : σ → α → σ × Option β) (late : σ → α → σ × β) (a last : α)
    (as : List α) (s s' : σ) (h : turn s a = (s', none)) :
    poll turn late ⟨a :: as, last⟩ s = poll turn late ⟨as, last⟩ s' := by
  simp only [poll, pollFrom, h]

/-- The rule of the loop: an invariant of the turns that go on, and a
postcondition that the settling turn and the late one establish. -/
theorem poll_rule (I : σ → Prop) (Q : σ → β → Prop) (turn : σ → α → σ × Option β)
    (late : σ → α → σ × β)
    (hdone : ∀ s a s' r, I s → turn s a = (s', some r) → Q s' r)
    (hagain : ∀ s a s', I s → turn s a = (s', none) → I s')
    (hlate : ∀ s a, I s → Q (late s a).1 (late s a).2) (answers : Timed α) (s : σ) (hs : I s) :
    Q (poll turn late answers s).1 (poll turn late answers s).2 := by
  rcases answers with ⟨as, last⟩
  -- induction on the answers that come in time
  induction as generalizing s with
  | nil => exact hlate s last hs
  | cons a as ih =>
      cases hturn : turn s a with
      | mk s' r =>
          cases r with
          | none =>
              rw [poll_again turn late a last as s s' hturn]
              exact ih s' (hagain s a s' hs hturn)
          | some r =>
              rw [poll_settled turn late a last as s s' r hturn]
              exact hdone s a s' r hs hturn

end Polling
