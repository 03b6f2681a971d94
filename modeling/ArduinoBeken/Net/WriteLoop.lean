import ArduinoBeken.Net.WiFiClient
import Mathlib.Data.List.TakeDrop

/-!
# Writing to a Plain Client

What `WiFiClient::write` comes to, said by the answers of `lwip_send` alone: how
many bytes they take, and after which of them the call is over. The calls that are
made are the ones up to the first such answer, so the call ends after finitely many
of them whatever the answers are.

The loop keeps its progress as a number of bytes that are left and a number of tries.
Both are read off the answers so far (`Underway`), and every turn keeps that.

## Main definitions

* `asked`: The answers to the first calls.
* `accepted`, `stalls`: The bytes that answers take, and their would-blocks at the end.
* `Settled`: The answers end the call.
* `handed`: The bytes that calls hand to a socket.

## Theorems

* `sendLoop_spec`: The loop from any turn on.
* `write_hands_prefix`: The call.
-/

namespace ArduinoBeken.Net

/-- `connected()`. -/
def WiFiClient.isConnected (c : WiFiClient) : Bool :=
  c.connected && decide (0 ≤ c.fd)

namespace WriteLoop

/-- The answers to the first `k` calls of `lwip_send`. -/
def asked (answers : Nat → SendAnswer) (k : Nat) : List SendAnswer :=
  (List.range k).map answers

/-- The bytes that are taken when an answer comes, of so many in all. -/
def accept (size n : Nat) : SendAnswer → Nat
  | .sent count => n + min (count + 1) (size - n)
  | _ => n

/-- The bytes that the answers take, of so many in all. -/
def accepted (size : Nat) (as : List SendAnswer) : Nat :=
  as.foldl (accept size) 0

/-- How many would-blocks in a row the answers end with. -/
def stalls (as : List SendAnswer) : Nat :=
  (as.reverse.takeWhile (· = .wouldBlock)).length

/-- The answers end the call: everything is taken, one of them is an error or took
nothing, or there are ten would-blocks in a row. -/
def Settled (size : Nat) (as : List SendAnswer) : Prop :=
  accepted size as = size ∨ .nothing ∈ as ∨ .error ∈ as ∨ 10 ≤ stalls as

/-- The bytes that a call hands to the socket. -/
def bytesTo (fd : Int) : SocketCall → List UInt8
  | .sent fd' bytes => if fd' = fd then bytes else []
  | _ => []

/-- The bytes that the calls hand to the socket, in order. -/
def handed (fd : Int) (calls : List SocketCall) : List UInt8 :=
  calls.flatMap (bytesTo fd)

/-! ### The answers -/

@[simp]
theorem asked_length (answers : Nat → SendAnswer) (k : Nat) : (asked answers k).length = k := by
  rw [asked, List.length_map, List.length_range]

theorem asked_succ (answers : Nat → SendAnswer) (k : Nat) :
    asked answers (k + 1) = asked answers k ++ [answers k] := by
  rw [asked, List.range_succ, List.map_append]
  rfl

theorem accepted_concat (size : Nat) (as : List SendAnswer) (a : SendAnswer) :
    accepted size (as ++ [a]) = accept size (accepted size as) a := by
  rw [accepted, List.foldl_append]
  rfl

theorem stalls_wouldBlock (as : List SendAnswer) :
    stalls (as ++ [.wouldBlock]) = stalls as + 1 := by
  rw [stalls, List.reverse_append, List.reverse_singleton, List.singleton_append,
    List.takeWhile_cons_of_pos (by rfl), List.length_cons, stalls]

theorem stalls_other (as : List SendAnswer) (a : SendAnswer) (h : a ≠ .wouldBlock) :
    stalls (as ++ [a]) = 0 := by
  rw [stalls, List.reverse_append, List.reverse_singleton, List.singleton_append,
    List.takeWhile_cons_of_neg (by simpa using h), List.length_nil]

theorem handed_sent (fd : Int) (bytes : List UInt8) (calls : List SocketCall) :
    handed fd (.sent fd bytes :: calls) = bytes ++ handed fd calls := by
  rw [handed, List.flatMap_cons, bytesTo, if_pos rfl, handed]

theorem handed_append (fd : Int) (calls calls' : List SocketCall) :
    handed fd (calls ++ calls') = handed fd calls ++ handed fd calls' :=
  List.flatMap_append

theorem handed_stop (c : WiFiClient) (fd : Int) : handed fd c.stop.calls = [] := by
  unfold WiFiClient.stop
  split
  · rfl
  · rfl

/-! ### The loop -/

/-- The loop is at a turn with so many bytes and tries left, and the answers so far have
not ended it. -/
structure Underway (answers : Nat → SendAnswer) (size turn left retries : Nat) : Prop where
  taken : accepted size (asked answers turn) + left = size
  tries : stalls (asked answers turn) + retries = 10
  nothing : SendAnswer.nothing ∉ asked answers turn
  error : SendAnswer.error ∉ asked answers turn

/-- What the loop has come to when the answers up to `k` have ended it. -/
structure Finished (fd : Int) (answers : Nat → SendAnswer) (buf : List UInt8) (turn k : Nat)
    (out : List SocketCall × Nat × Bool) : Prop where
  settled : Settled buf.length (asked answers k)
  first : ∀ j, turn ≤ j → j < k → ¬Settled buf.length (asked answers j)
  left : accepted buf.length (asked answers k) + out.2.1 = buf.length
  failed : out.2.2 = true ↔ .error ∈ asked answers k
  more : accepted buf.length (asked answers turn) ≤ accepted buf.length (asked answers k)
  handed : handed fd out.1 = (buf.take (accepted buf.length (asked answers k))).drop
    (accepted buf.length (asked answers turn))

theorem not_settled (answers : Nat → SendAnswer) (size turn left retries : Nat)
    (h : Underway answers size turn left retries) (hleft : left ≠ 0) (hretries : retries ≠ 0) :
    ¬Settled size (asked answers turn) := by
  have htaken := h.taken
  have htries := h.tries
  rintro (hall | hzero | herror | hten)
  · omega
  · exact h.nothing hzero
  · exact h.error herror
  · omega

/-- A turn that takes bytes gives all tries back. -/
theorem underway_sent (answers : Nat → SendAnswer) (size turn left retries count : Nat)
    (h : Underway answers size turn left retries) (hanswer : answers turn = .sent count) :
    accepted size (asked answers (turn + 1)) =
        accepted size (asked answers turn) + min (count + 1) left ∧
      Underway answers size (turn + 1) (left - min (count + 1) left) 10 := by
  have htaken := h.taken
  have hleft : size - accepted size (asked answers turn) = left := by omega
  have hnext : accepted size (asked answers (turn + 1)) =
      accepted size (asked answers turn) + min (count + 1) left := by
    rw [asked_succ, accepted_concat, hanswer, accept, hleft]
  refine ⟨hnext, ?_, ?_, ?_, ?_⟩
  · rw [hnext]
    omega
  · rw [asked_succ, hanswer, stalls_other _ _ (by simp)]
  · rw [asked_succ, hanswer]
    simpa using h.nothing
  · rw [asked_succ, hanswer]
    simpa using h.error

/-- A turn that would block costs a try. -/
theorem underway_wouldBlock (answers : Nat → SendAnswer) (size turn left retries : Nat)
    (h : Underway answers size turn left retries) (hretries : retries ≠ 0)
    (hanswer : answers turn = .wouldBlock) :
    accepted size (asked answers (turn + 1)) = accepted size (asked answers turn) ∧
      Underway answers size (turn + 1) left (retries - 1) := by
  have hnext : accepted size (asked answers (turn + 1)) =
      accepted size (asked answers turn) := by
    rw [asked_succ, accepted_concat, hanswer]
    rfl
  refine ⟨hnext, ?_, ?_, ?_, ?_⟩
  · rw [hnext]
    exact h.taken
  · have htries := h.tries
    rw [asked_succ, hanswer, stalls_wouldBlock]
    omega
  · rw [asked_succ, hanswer]
    simpa using h.nothing
  · rw [asked_succ, hanswer]
    simpa using h.error

/-- What the turns from the next one on come to, seen from this one. -/
theorem Finished.before {fd : Int} {answers : Nat → SendAnswer} {buf : List UInt8}
    {turn k : Nat} {out : List SocketCall × Nat × Bool}
    (h : Finished fd answers buf (turn + 1) k out)
    (hnot : ¬Settled buf.length (asked answers turn))
    (calls : List SocketCall)
    (hmore : accepted buf.length (asked answers turn) ≤
      accepted buf.length (asked answers (turn + 1)))
    (hcalls : WriteLoop.handed fd calls =
      (buf.take (accepted buf.length (asked answers (turn + 1)))).drop
        (accepted buf.length (asked answers turn))) :
    Finished fd answers buf turn k (calls ++ out.1, out.2) := by
  refine ⟨h.settled, ?_, h.left, h.failed, Nat.le_trans hmore h.more, ?_⟩
  · intro j hj hjk
    rcases Nat.eq_or_lt_of_le hj with rfl | hlt
    · exact hnot
    · exact h.first j hlt hjk
  · -- The bytes of this turn, and behind them those of the others.
    rw [handed_append, hcalls, h.handed]
    have hsplit := List.take_append_drop
      (accepted buf.length (asked answers (turn + 1)) - accepted buf.length (asked answers turn))
      ((buf.take (accepted buf.length (asked answers k))).drop
        (accepted buf.length (asked answers turn)))
    rw [List.drop_drop, Nat.add_sub_cancel' hmore, List.take_drop, List.take_take,
      Nat.add_sub_cancel' hmore, Nat.min_eq_left h.more] at hsplit
    exact hsplit

/-- The answers that end the call end it at this turn. -/
theorem finished_here (fd : Int) (answers : Nat → SendAnswer) (buf : List UInt8)
    (turn left retries k : Nat) (failed : Bool)
    (h : Underway answers buf.length turn left retries)
    (hnot : ∀ j, turn ≤ j → j < k → ¬Settled buf.length (asked answers j))
    (hsame : accepted buf.length (asked answers k) = accepted buf.length (asked answers turn))
    (hsettled : Settled buf.length (asked answers k))
    (hfailed : failed = true ↔ .error ∈ asked answers k) :
    Finished fd answers buf turn k ([], left, failed) := by
  refine ⟨hsettled, hnot, ?_, hfailed, Nat.le_of_eq hsame.symm, ?_⟩
  · rw [hsame]
    exact h.taken
  · rw [hsame, List.drop_eq_nil_of_le (by rw [List.length_take]; exact Nat.min_le_left _ _)]
    rfl

/-- The loop ends with the first answers that end the call, wherever it is. -/
theorem sendLoop_spec (fd : Int) (answers : Nat → SendAnswer) (buf : List UInt8)
    (turn left retries : Nat) (h : Underway answers buf.length turn left retries) :
    ∃ k, k ≤ turn + 10 * left + retries ∧
      Finished fd answers buf turn k
        (WiFiClient.sendLoop fd answers turn buf left retries) := by
  induction turn, left, retries using WiFiClient.sendLoop.induct fd answers buf with
  | case1 turn left retries hend =>
      -- Nothing is left, or no try is.
      refine ⟨turn, by omega, ?_⟩
      unfold WiFiClient.sendLoop
      rw [if_pos hend]
      refine finished_here fd answers buf turn left retries turn false h
        (fun j hj hjk => absurd hj (by omega)) rfl ?_ ?_
      · have htaken := h.taken
        have htries := h.tries
        rcases hend with hleft | hretries
        · exact Or.inl (by omega)
        · exact Or.inr (Or.inr (Or.inr (by omega)))
      · exact iff_of_false Bool.false_ne_true h.error
  | case2 turn left retries hend count hanswer taken ih =>
      -- Some bytes went out, and the others are still to go.
      rw [not_or] at hend
      have hnot := not_settled answers _ turn left retries h hend.1 hend.2
      rcases underway_sent answers _ turn left retries count h hanswer with ⟨hnext, hunder⟩
      rcases ih hunder with ⟨k, hk, hfin⟩
      refine ⟨k, by omega, ?_⟩
      unfold WiFiClient.sendLoop
      rw [if_neg (not_or.2 hend), hanswer]
      refine hfin.before hnot [_] (by omega) ?_
      have hplace : buf.length - left = accepted buf.length (asked answers turn) := by
        have htaken := h.taken
        omega
      rw [handed_sent, hplace, hnext, ← List.take_drop]
      exact List.append_nil _
  | case3 turn left retries hend hanswer =>
      -- Nothing went out, and nothing more will.
      rw [not_or] at hend
      have hnot := not_settled answers _ turn left retries h hend.1 hend.2
      refine ⟨turn + 1, by omega, ?_⟩
      unfold WiFiClient.sendLoop
      rw [if_neg (not_or.2 hend), hanswer]
      refine finished_here fd answers buf turn left retries (turn + 1) false h ?_ ?_
        ?_ ?_
      · intro j hj hjk
        obtain rfl : j = turn := by omega
        exact hnot
      · rw [asked_succ, accepted_concat, hanswer]
        rfl
      · refine Or.inr (Or.inl ?_)
        rw [asked_succ, hanswer]
        exact List.mem_append_right _ (List.mem_singleton_self _)
      · refine iff_of_false Bool.false_ne_true ?_
        rw [asked_succ, hanswer]
        simpa using h.error
  | case4 turn left retries hend hanswer ih =>
      -- The socket is full for now, which costs a try.
      rw [not_or] at hend
      have hnot := not_settled answers _ turn left retries h hend.1 hend.2
      rcases underway_wouldBlock answers _ turn left retries h hend.2 hanswer with
        ⟨hnext, hunder⟩
      rcases ih hunder with ⟨k, hk, hfin⟩
      refine ⟨k, by omega, ?_⟩
      unfold WiFiClient.sendLoop
      rw [if_neg (not_or.2 hend), hanswer]
      refine hfin.before hnot [] (Nat.le_of_eq hnext.symm) ?_
      rw [hnext, List.drop_eq_nil_of_le (by rw [List.length_take]; exact Nat.min_le_left _ _)]
      rfl
  | case5 turn left retries hend hanswer =>
      -- The connection is lost.
      rw [not_or] at hend
      have hnot := not_settled answers _ turn left retries h hend.1 hend.2
      have hmem : SendAnswer.error ∈ asked answers (turn + 1) := by
        rw [asked_succ, hanswer]
        exact List.mem_append_right _ (List.mem_singleton_self _)
      refine ⟨turn + 1, by omega, ?_⟩
      unfold WiFiClient.sendLoop
      rw [if_neg (not_or.2 hend), hanswer]
      refine finished_here fd answers buf turn left retries (turn + 1) true h ?_ ?_
        (Or.inr (Or.inr (Or.inl hmem))) (iff_of_true rfl hmem)
      · intro j hj hjk
        obtain rfl : j = turn := by omega
        exact hnot
      · rw [asked_succ, accepted_concat, hanswer]
        rfl

/-! ### The call -/

/-- The calls of the loop, and those of a stop behind it. -/
def OnlyUses (fd : Int) (calls : List SocketCall) : Prop :=
  ∀ call ∈ calls, call = .closed fd ∨ ∃ bytes, call = .sent fd bytes

theorem onlyUses_sendLoop (fd : Int) (answers : Nat → SendAnswer) (turn : Nat)
    (buf : List UInt8) (left retries : Nat) :
    OnlyUses fd (WiFiClient.sendLoop fd answers turn buf left retries).1 := by
  -- by the cases of the loop
  induction turn, left, retries using WiFiClient.sendLoop.induct fd answers buf with
  | case1 turn left retries hend =>
      unfold WiFiClient.sendLoop
      rw [if_pos hend]
      exact fun call hcall => absurd hcall List.not_mem_nil
  | case2 turn left retries hend count hanswer taken ih =>
      unfold WiFiClient.sendLoop
      rw [if_neg hend, hanswer]
      intro call hcall
      rcases List.mem_cons.1 hcall with rfl | hcall
      · exact Or.inr ⟨_, rfl⟩
      · exact ih call hcall
  | case3 turn left retries hend hanswer =>
      unfold WiFiClient.sendLoop
      rw [if_neg hend, hanswer]
      exact fun call hcall => absurd hcall List.not_mem_nil
  | case4 turn left retries hend hanswer ih =>
      unfold WiFiClient.sendLoop
      rw [if_neg hend, hanswer]
      exact ih
  | case5 turn left retries hend hanswer =>
      unfold WiFiClient.sendLoop
      rw [if_neg hend, hanswer]
      exact fun call hcall => absurd hcall List.not_mem_nil

/-- What is promised of a `write` that makes `k` calls of `lwip_send`: they are the
calls up to the first answers that end it, the result is the number of bytes they took,
and these are the first bytes of the buffer. -/
structure Contract (c : WiFiClient) (answers : Nat → SendAnswer) (buf : List UInt8) (k : Nat)
    (out : Outcome WiFiClient Nat) : Prop where
  settled : Settled buf.length (asked answers k)
  first : ∀ j < k, ¬Settled buf.length (asked answers j)
  count : out.result = accepted buf.length (asked answers k)
  within : out.result ≤ buf.length
  handed : handed c.fd out.calls = buf.take out.result
  only : OnlyUses c.fd out.calls
  short : out.result < buf.length →
    .nothing ∈ asked answers k ∨ .error ∈ asked answers k ∨ 10 ≤ stalls (asked answers k)
  ended : out.client.isConnected = false ↔
    .error ∈ asked answers k ∨ (buf ≠ [] ∧ out.result = 0)

theorem isConnected_stop (c : WiFiClient) : c.stop.client.isConnected = false := by
  unfold WiFiClient.stop
  split
  · rfl
  · rfl

theorem stop_calls (c : WiFiClient) (h : 0 ≤ c.fd) : c.stop.calls = [.closed c.fd] := by
  rw [WiFiClient.stop, if_pos h]

/-- A `write` of a connected client makes a bounded number of calls and keeps its
contract, whatever `lwip_send` answers. -/
theorem write_hands_prefix (c : WiFiClient) (hconnected : c.isConnected = true)
    (answers : Nat → SendAnswer) (buf : List UInt8) :
    ∃ k, k ≤ 10 * buf.length + 10 ∧ Contract c answers buf k (c.write answers buf) := by
  rw [WiFiClient.isConnected, Bool.and_eq_true, decide_eq_true_eq] at hconnected
  unfold WiFiClient.write
  by_cases hbuf : buf = []
  · -- An empty buffer makes no call and leaves the client alone.
    subst hbuf
    rw [if_pos (Or.inr (Or.inr rfl))]
    refine ⟨0, Nat.zero_le _, Or.inl rfl, fun j hj => absurd hj (Nat.not_lt_zero j), rfl,
      Nat.le_refl _, rfl, fun call hcall => absurd hcall List.not_mem_nil,
      fun hno => absurd hno (Nat.lt_irrefl _), ?_⟩
    refine iff_of_false ?_ ?_
    · rw [WiFiClient.isConnected, hconnected.1, decide_eq_true hconnected.2]
      exact fun hno => nomatch hno
    · rintro (hno | ⟨hno, -⟩)
      · exact absurd hno List.not_mem_nil
      · exact hno rfl
  · have hopen : ¬(c.connected = false ∨ c.fd < 0 ∨ buf = []) := by
      rintro (hno | hno | hno)
      · rw [hconnected.1] at hno
        exact absurd hno (fun hno => nomatch hno)
      · omega
      · exact hbuf hno
    -- from here on the loop runs, with ten retries
    rw [if_neg hopen]
    have hpos := List.length_pos_iff.2 hbuf
    rcases sendLoop_spec c.fd answers buf 0 buf.length 10
        ⟨Nat.zero_add _, rfl, List.not_mem_nil, List.not_mem_nil⟩ with ⟨k, hk, hfin⟩
    have honly := onlyUses_sendLoop c.fd answers 0 buf buf.length 10
    generalize WiFiClient.sendLoop c.fd answers 0 buf buf.length 10 = out at hfin honly
    rcases out with ⟨calls, left, failed⟩
    have hleft := hfin.left
    have hcount : buf.length - left = accepted buf.length (asked answers k) := by
      simp only [] at hleft
      omega
    have hhanded := hfin.handed
    have hzero : accepted buf.length (asked answers 0) = 0 := rfl
    rw [hzero, List.drop_zero] at hhanded
    have hfirst : ∀ j < k, ¬Settled buf.length (asked answers j) :=
      fun j hj => hfin.first j (Nat.zero_le j) hj
    -- what is not accepted in full ended at an answer, or at the tenth stall
    have hshort : accepted buf.length (asked answers k) < buf.length →
        .nothing ∈ asked answers k ∨ .error ∈ asked answers k ∨
          10 ≤ stalls (asked answers k) := by
      intro hlt
      rcases hfin.settled with hall | hother
      · omega
      · exact hother
    refine ⟨k, by omega, ?_⟩
    simp only [hcount]
    split
    · -- The client is stopped behind the loop.
      next hstop =>
      refine ⟨hfin.settled, hfirst, rfl, by simp only []; omega, ?_, ?_, hshort, ?_⟩
      · simp only [handed_append, handed_stop, List.append_nil]
        exact hhanded
      · intro call hcall
        rcases List.mem_append.1 hcall with hcall | hcall
        · exact honly call hcall
        · rw [stop_calls c hconnected.2] at hcall
          exact Or.inl (List.mem_singleton.1 hcall)
      · refine iff_of_true (isConnected_stop c) ?_
        rcases hstop with hfailed | hnone
        · exact Or.inl (hfin.failed.1 hfailed)
        · exact Or.inr ⟨hbuf, hnone⟩
    · next hstop =>
      rw [not_or] at hstop
      refine ⟨hfin.settled, hfirst, rfl, by simp only []; omega, hhanded, honly, hshort, ?_⟩
      refine iff_of_false ?_ ?_
      · rw [WiFiClient.isConnected, hconnected.1, decide_eq_true hconnected.2]
        exact fun hno => nomatch hno
      · rintro (herror | ⟨-, hnone⟩)
        · exact hstop.1 (hfin.failed.2 herror)
        · exact hstop.2 hnone

/-- Two of three bytes are taken, and then the socket would block. -/
theorem write_hands_prefix_stalled :
    (({ fd := 5, connected := true } : WiFiClient).isConnected = true) ∧
      ∃ k, k ≤ 10 * 3 + 10 ∧ Contract { fd := 5, connected := true }
        (fun i => if i = 0 then .sent 1 else .wouldBlock) [1, 2, 3] k
        (WiFiClient.write { fd := 5, connected := true }
          (fun i => if i = 0 then .sent 1 else .wouldBlock) [1, 2, 3]) :=
  ⟨rfl, write_hands_prefix { fd := 5, connected := true } rfl _ [1, 2, 3]⟩

end WriteLoop

end ArduinoBeken.Net
