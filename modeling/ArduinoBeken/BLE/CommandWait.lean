import Mathlib.Data.List.Basic

/-!
# Waiting for a Command of the BLE Stack

The stack answers a command later, through a callback that leaves the command,
its status and a flag in three global variables. `waitForCommand` looks at
them every 20 ms until the flag is up and the command is the one it waits for,
or the time is over.

A callback may come at any moment: between two stores of the reset that
precedes a command, between two reads of the same look at the variables, and
during each pause. A window says what comes when, from the first store of the
reset on.

The stack does not say which of several commands of one kind a callback
belongs to. The number of the command is kept in `CmdCallback` for the
statements only; the code never reads it.

## Main definitions

* `arduinoBleCmdCb`: The callback.
* `CmdWindow`: The callbacks that arrive while a command is issued and awaited.
* `waitForCommand`: The loop.
* `CmdWindow.Finds`: A look at the variables that ends the loop.

## Theorems

* `awaited_ends`: The loop ends at the first look that finds the command, with
  the status it reads there, or at the deadline.
-/

namespace ArduinoBeken

namespace BLE

/-- The kinds of commands that are given the callback. -/
inductive BleCmd where
  | none
  | createAdv
  | setAdvData
  | setRspData
  | startAdv
  | stopAdv
deriving DecidableEq, Repr

/-- `BK_ERR_BLE_SUCCESS`. -/
def bleSuccess : Int := 0
/-- `BK_ERR_BLE_FAIL`. -/
def bleFail : Int := -1

/-- A call of the callback, with the number of the command it completes. A null
parameter is `none`. -/
structure CmdCallback where
  command : Nat
  cmd : BleCmd
  param : Option Int
deriving DecidableEq, Repr

/-- The three global variables. -/
structure CmdRecord where
  done : Bool := false
  status : Int := bleFail
  lastCmd : BleCmd := .none
deriving DecidableEq, Repr

/-- The callback of all commands writes over what the last one wrote. -/
def arduinoBleCmdCb (_r : CmdRecord) (cb : CmdCallback) : CmdRecord where
  lastCmd := cb.cmd
  status := cb.param.getD bleFail
  done := true

/-- The variables after callbacks, in order. -/
def CmdRecord.arrive (r : CmdRecord) (cbs : List CmdCallback) : CmdRecord :=
  cbs.foldl arduinoBleCmdCb r

/-- The callbacks around one turn of the loop: after it has read the flag,
after it has read the command, and during the pause. -/
structure CmdPoll where
  beforeLastCmd : List CmdCallback := []
  beforeStatus : List CmdCallback := []
  pause : List CmdCallback := []
deriving DecidableEq, Repr

/-- The callbacks that come within a turn. -/
def CmdPoll.all (p : CmdPoll) : List CmdCallback :=
  p.beforeLastCmd ++ p.beforeStatus ++ p.pause

/-- The callbacks while a command is issued and awaited: after each of the
three stores of the reset, where the last part lasts until the loop starts,
and around each turn of the loop. -/
structure CmdWindow where
  afterDone : List CmdCallback := []
  afterLastCmd : List CmdCallback := []
  afterStatus : List CmdCallback := []
  polls : Nat → CmdPoll := fun _ => {}

/-- The milliseconds of a pause. -/
def stepMs : Nat := 20

/-- How a wait ended: its result, the variables, and the turn it returned at,
if it did not run out of time. -/
structure Waited where
  succeeded : Bool
  record : CmdRecord
  turn : Option Nat
deriving DecidableEq, Repr

/-- `waitForCommand`, from the time already waited. -/
def waitForCommand (expectedCmd : BleCmd) (timeoutMs : Nat) (polls : Nat → CmdPoll)
    (waited : Nat) (r : CmdRecord) : Waited :=
  if waited < timeoutMs then
    let poll := polls (waited / stepMs)
    let atLastCmd := r.arrive poll.beforeLastCmd
    let atStatus := atLastCmd.arrive poll.beforeStatus
    if r.done && atLastCmd.lastCmd == expectedCmd then
      { succeeded := atStatus.status == bleSuccess
        record := atStatus
        turn := some (waited / stepMs) }
    else
      waitForCommand expectedCmd timeoutMs polls (waited + stepMs) (atStatus.arrive poll.pause)
  else
    { succeeded := false, record := r, turn := none }
termination_by timeoutMs - waited
decreasing_by
  unfold stepMs
  omega

namespace CmdRecord

@[simp]
theorem arrive_nil (r : CmdRecord) : r.arrive [] = r := rfl

theorem arrive_append (r : CmdRecord) (cbs cbs' : List CmdCallback) :
    r.arrive (cbs ++ cbs') = (r.arrive cbs).arrive cbs' :=
  List.foldl_append

/-- The variables hold the latest callback. -/
theorem arrive_concat (r : CmdRecord) (cbs : List CmdCallback) (cb : CmdCallback) :
    r.arrive (cbs ++ [cb]) =
      { done := true, status := cb.param.getD bleFail, lastCmd := cb.cmd } := by
  rw [arrive_append]
  rfl

end CmdRecord

namespace CmdWindow

/-- The variables once the reset is over. -/
def afterReset (w : CmdWindow) (r : CmdRecord) : CmdRecord :=
  let reset := { r with done := false }
  let reset := { reset.arrive w.afterDone with lastCmd := .none }
  { reset.arrive w.afterLastCmd with status := bleFail }

/-- The callbacks since the reset, when turn `i` reads the flag. -/
def before (w : CmdWindow) : Nat → List CmdCallback
  | 0 => w.afterStatus
  | i + 1 => w.before i ++ (w.polls i).all

/-- The callbacks since the reset, when turn `i` reads the status. -/
def atStatus (w : CmdWindow) (i : Nat) : List CmdCallback :=
  w.before i ++ (w.polls i).beforeLastCmd ++ (w.polls i).beforeStatus

/-- The variables when turn `i` reads the flag. -/
def record (w : CmdWindow) (r : CmdRecord) (i : Nat) : CmdRecord :=
  (w.afterReset r).arrive (w.before i)

/-- Turn `i` finds the flag up and the command it waits for. -/
def Finds (w : CmdWindow) (r : CmdRecord) (cmd : BleCmd) (i : Nat) : Prop :=
  (w.record r i).done = true ∧
    ((w.record r i).arrive (w.polls i).beforeLastCmd).lastCmd = cmd

/-- The turns before a deadline. -/
def InTime (timeoutMs i : Nat) : Prop :=
  i * stepMs < timeoutMs

/-- The status that turn `i` reads. -/
def statusAt (w : CmdWindow) (r : CmdRecord) (i : Nat) : Int :=
  ((w.afterReset r).arrive (w.atStatus i)).status

/-- The command is issued and awaited. -/
def await (w : CmdWindow) (r : CmdRecord) (cmd : BleCmd) (timeoutMs : Nat) : Waited :=
  waitForCommand cmd timeoutMs w.polls 0 (w.record r 0)

/-- The callbacks from the first store of the reset until the wait is over. -/
def arrived (w : CmdWindow) (timeoutMs : Nat) (turn : Option Nat) : List CmdCallback :=
  w.afterDone ++ w.afterLastCmd ++
    match turn with
    | some i => w.atStatus i
    | none => w.before ((timeoutMs + (stepMs - 1)) / stepMs)

variable (w : CmdWindow) (r : CmdRecord) (cmd : BleCmd) (timeoutMs : Nat)

theorem record_succ (i : Nat) :
    w.record r (i + 1) = (((w.record r i).arrive (w.polls i).beforeLastCmd).arrive
      (w.polls i).beforeStatus).arrive (w.polls i).pause := by
  simp only [record, before, CmdPoll.all, CmdRecord.arrive_append]

theorem statusAt_eq (i : Nat) :
    w.statusAt r i = (((w.record r i).arrive (w.polls i).beforeLastCmd).arrive
      (w.polls i).beforeStatus).status := by
  simp only [statusAt, atStatus, record, CmdRecord.arrive_append]

/-- How a wait that has reached turn `i` ends. -/
inductive Ends (i : Nat) (out : Waited) : Prop where
  | found (j : Nat) (hij : i ≤ j) (htime : InTime timeoutMs j) (hfinds : w.Finds r cmd j)
      (hfirst : ∀ k, i ≤ k → k < j → ¬ w.Finds r cmd k) (hturn : out.turn = some j)
      (hstatus : out.succeeded = true ↔ w.statusAt r j = bleSuccess)
  | late (hnone : ∀ j, i ≤ j → InTime timeoutMs j → ¬ w.Finds r cmd j) (hturn : out.turn = none)
      (hfailed : out.succeeded = false)

theorem wait_ends (n : Nat) : ∀ i, timeoutMs ≤ (i + n) * stepMs →
    w.Ends r cmd timeoutMs i
      (waitForCommand cmd timeoutMs w.polls (i * stepMs) (w.record r i)) := by
  -- `n` bounds the turns that are left
  induction n with
  | zero =>
      intro i hn
      unfold waitForCommand
      rw [Nat.add_zero] at hn
      -- no turn is left, so the time is up
      rw [if_neg (by omega)]
      refine .late (fun j hij htime => ?_) rfl rfl
      have hle : i * stepMs ≤ j * stepMs := Nat.mul_le_mul_right stepMs hij
      unfold InTime at htime
      omega
  | succ n ih =>
      intro i hn
      unfold waitForCommand
      by_cases htime : i * stepMs < timeoutMs
      · rw [if_pos htime, Nat.mul_div_cancel i (by decide : 0 < stepMs)]
        -- this turn finds the completion, or it is as if the wait began with the next one
        by_cases hfinds : w.Finds r cmd i
        · have hcond : ((w.record r i).done &&
              ((w.record r i).arrive (w.polls i).beforeLastCmd).lastCmd == cmd) = true := by
            simp only [hfinds.1, hfinds.2, Bool.true_and, beq_self_eq_true]
          simp only [hcond, if_true]
          refine .found i (Nat.le_refl i) htime hfinds (fun k hik hki => by omega) rfl ?_
          rw [statusAt_eq]
          exact beq_iff_eq
        · have hcond : ((w.record r i).done &&
              ((w.record r i).arrive (w.polls i).beforeLastCmd).lastCmd == cmd) = false := by
            rw [Bool.and_eq_false_imp]
            intro hdone
            exact beq_false_of_ne (fun hcmd => hfinds ⟨hdone, hcmd⟩)
          simp only [hcond, if_false, Bool.false_eq_true]
          rw [← record_succ, ← Nat.succ_mul]
          have hnext : timeoutMs ≤ (i + 1 + n) * stepMs := by
            rwa [Nat.add_assoc, Nat.add_comm 1 n]
          cases ih (i + 1) hnext with
          | found j hij hjtime hj hfirst hturn hstatus =>
              refine .found j (by omega) hjtime hj (fun k hik hkj => ?_) hturn hstatus
              -- the turns before that one are this one and those the rest has passed
              by_cases hk : k = i
              · exact hk ▸ hfinds
              · exact hfirst k (by omega) hkj
          | late hnone hturn hfailed =>
              refine .late (fun j hij hjtime => ?_) hturn hfailed
              by_cases hj : j = i
              · exact hj ▸ hfinds
              · exact hnone j (by omega) hjtime
      · rw [if_neg htime]
        refine .late (fun j hij hjtime => ?_) rfl rfl
        have hle : i * stepMs ≤ j * stepMs := Nat.mul_le_mul_right stepMs hij
        unfold InTime at hjtime
        omega

/-- A wait ends at the first turn that finds its command, with the status read
there, or at the deadline. -/
theorem awaited_ends : w.Ends r cmd timeoutMs 0 (w.await r cmd timeoutMs) := by
  have h := wait_ends w r cmd timeoutMs timeoutMs 0
    (by rw [Nat.zero_add]; exact Nat.le_mul_of_pos_right timeoutMs (by decide))
  rwa [Nat.zero_mul] at h

/-- The status a turn reads is that of the latest callback. -/
theorem statusAt_of_latest (i : Nat) (cb : CmdCallback)
    (h : (w.atStatus i).getLast? = some cb) : w.statusAt r i = cb.param.getD bleFail := by
  rcases List.getLast?_eq_some_iff.1 h with ⟨cbs, hcbs⟩
  rw [statusAt, hcbs, CmdRecord.arrive_concat]

theorem before_subset (i n : Nat) (h : i ≤ n) : w.before i ⊆ w.before n := by
  induction n with
  | zero => rw [Nat.le_zero.1 h]; exact List.Subset.refl _
  | succ n ih =>
      by_cases hi : i = n + 1
      · rw [hi]; exact List.Subset.refl _
      · exact List.Subset.trans (ih (by omega)) (List.subset_append_left _ _)

/-- What came before a turn in time was over came before the deadline. -/
theorem arrived_subset (i : Nat) (h : InTime timeoutMs i) :
    w.arrived timeoutMs (some i) ⊆ w.arrived timeoutMs none := by
  have hnext : i + 1 ≤ (timeoutMs + (stepMs - 1)) / stepMs := by
    rw [Nat.le_div_iff_mul_le (by decide)]
    simp only [InTime, stepMs] at h ⊢
    omega
  have hstatus : w.atStatus i ⊆ w.before (i + 1) := by
    intro cb hcb
    simp only [atStatus, before, CmdPoll.all, List.mem_append] at hcb ⊢
    tauto
  intro cb hcb
  simp only [arrived, List.mem_append] at hcb ⊢
  rcases hcb with hreset | hcb
  · exact Or.inl hreset
  · exact Or.inr (before_subset w (i + 1) _ hnext (hstatus hcb))

end CmdWindow

theorem CmdCallback.getD_success (param : Option Int) :
    param.getD bleFail = bleSuccess ↔ param = some bleSuccess := by
  cases param with
  | none => exact ⟨fun h => absurd h (by decide), fun h => absurd h (by simp)⟩
  | some status => simp

end BLE

end ArduinoBeken
