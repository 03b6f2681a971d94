import Mathlib.Data.List.Basic
import Mathlib.Data.List.Infix

/-!
# Reading a Stream that Arrives in Pieces

A stream as its reader meets it: the items in their order, and between them
the moments at which the reader finds nothing. At a `wait` a poll finds
nothing and a read waits for more; a `silence` outlasts the patience of a
read. What lies before the first of either has arrived already. Nothing here
is specific to one system.

After the last tick the sender has closed the stream, or it keeps it open and
says no more. A close is noticed by a read, and by a poll only where polls can
tell a closed stream from a silent one.

A reader that never meets a silence gets the items in order, however they
arrived (`takeUntil_of_prompt`, `takeExactly_of_prompt`), and a read of a length
loses none (`items_takeExactly`).

## Main definitions

* `Tick`, `Source`: The stream.
* `Source.available`, `Source.connected`: What a poll tells.
* `Source.discard`: The stream without what has arrived.
* `takeUntil`, `takeExactly`: Reads up to a delimiter, and of a length.
* `afterItems`: The stream behind so many items.
* `Prompt`: A stream without silences.
* `IsLine`, `EndsWithItem`: What a read takes of a stream.

## Theorems

* `items_takeExactly`: A read splits the items.
* `takeUntil_isLine`, `takeExactly_split`, `afterItems_split`: A read splits the stream.
* `takeUntil_of_prompt`, `takeExactly_of_prompt`: A read of a prompt stream.
* `items_afterItems`, `afterItems_add`: What is behind the items.
-/

namespace Arrivals

variable {α : Type*}

/-- What a reader meets next. -/
inductive Tick (α : Type*) where
  | item (a : α)
  | wait
  | silence
deriving DecidableEq, Repr

/-- What comes after the last tick: nothing, on an open stream; or the close,
which polls do not notice, or which is known. -/
inductive Ending where
  | stays
  | unseen
  | closed
deriving DecidableEq, Repr

/-- A read at the end of the stream notices the close. -/
def Ending.noticed : Ending → Ending
  | .unseen => .closed
  | e => e

/-- A stream, from the place its reader has come to. -/
structure Source (α : Type*) where
  ticks : List (Tick α)
  ending : Ending
deriving DecidableEq, Repr

/-- The items still to be read. -/
def items : List (Tick α) → List α
  | [] => []
  | .item a :: ticks => a :: items ticks
  | .wait :: ticks => items ticks
  | .silence :: ticks => items ticks

/-- The items that have arrived already. -/
def arrived : List (Tick α) → List α
  | .item a :: ticks => a :: arrived ticks
  | _ => []

/-- The ticks after the items that have arrived. -/
def later : List (Tick α) → List (Tick α)
  | .item _ :: ticks => later ticks
  | ticks => ticks

/-- The items that are there without a wait. -/
def Source.available (s : Source α) : Nat :=
  (arrived s.ticks).length

/-- The reader has not found the stream closed. -/
def Source.connected (s : Source α) : Bool :=
  !s.ticks.isEmpty || decide (s.ending ≠ .closed)

/-- The stream after everything that had arrived was thrown away. -/
def Source.discard (s : Source α) : Source α :=
  { s with ticks := later s.ticks }

/-- The sender sends more. -/
def Source.extend (s : Source α) (ticks : List (Tick α)) : Source α :=
  { s with ticks := s.ticks ++ ticks }

/-- The outcome of a read: the items, whether it was completed, and the stream
behind them. -/
structure Taken (α : Type*) where
  got : List α
  complete : Bool
  rest : Source α
deriving DecidableEq, Repr

/-- A read up to a delimiter, which is taken but not returned. -/
def takeUntil [DecidableEq α] (delim : α) (ending : Ending) : List (Tick α) → Taken α
  | [] => ⟨[], false, ⟨[], ending.noticed⟩⟩
  | .item a :: ticks =>
    if a = delim then ⟨[], true, ⟨ticks, ending⟩⟩
    else
      let r := takeUntil delim ending ticks
      ⟨a :: r.got, r.complete, r.rest⟩
  | .wait :: ticks => takeUntil delim ending ticks
  | .silence :: ticks => ⟨[], false, ⟨ticks, ending⟩⟩

/-- A read of so many items. -/
def takeExactly (ending : Ending) : Nat → List (Tick α) → Taken α
  | 0, ticks => ⟨[], true, ⟨ticks, ending⟩⟩
  | _ + 1, [] => ⟨[], false, ⟨[], ending.noticed⟩⟩
  | n + 1, .item a :: ticks =>
    let r := takeExactly ending n ticks
    ⟨a :: r.got, r.complete, r.rest⟩
  | n + 1, .wait :: ticks => takeExactly ending (n + 1) ticks
  | _ + 1, .silence :: ticks => ⟨[], false, ⟨ticks, ending⟩⟩

/-- What is left when so many items have been taken, and the pauses before
them. -/
def afterItems : Nat → List (Tick α) → List (Tick α)
  | 0, ticks => ticks
  | _ + 1, [] => []
  | n + 1, .item _ :: ticks => afterItems n ticks
  | n + 1, .wait :: ticks => afterItems (n + 1) ticks
  | n + 1, .silence :: ticks => afterItems (n + 1) ticks

/-- No silence is met. -/
def Prompt (ticks : List (Tick α)) : Prop :=
  ∀ t ∈ ticks, t ≠ Tick.silence

/-- Nothing is waited for behind the last item. -/
def EndsWithItem (ticks : List (Tick α)) : Prop :=
  ∃ before a, ticks = before ++ [.item a]

/-- A line as it arrives: what comes without a silence, up to a delimiter, a silence or the
end of the stream. -/
structure IsLine (delim : α) (line stop rest : List (Tick α)) : Prop where
  prompt : Prompt line
  whole : delim ∉ items line
  stops : stop = [.item delim] ∨ stop = [.silence] ∨ stop = [] ∧ rest = []

/-! ### Items and ticks -/

@[simp] theorem items_nil : items ([] : List (Tick α)) = [] := rfl

@[simp] theorem items_item (a : α) (ticks : List (Tick α)) :
    items (.item a :: ticks) = a :: items ticks := rfl

@[simp] theorem items_wait (ticks : List (Tick α)) : items (.wait :: ticks) = items ticks := rfl

@[simp] theorem items_silence (ticks : List (Tick α)) :
    items (.silence :: ticks) = items ticks := rfl

theorem items_append (t u : List (Tick α)) : items (t ++ u) = items t ++ items u := by
  induction t with
  | nil => rfl
  | cons x t ih =>
      cases x with
      | item a => exact congrArg (a :: ·) ih
      | wait => exact ih
      | silence => exact ih

/-- The items sent without a pause. -/
theorem items_map_item (s : List α) : items (s.map Tick.item) = s := by
  induction s with
  | nil => rfl
  | cons a s ih => exact congrArg (a :: ·) ih

theorem prompt_map_item (s : List α) : Prompt (s.map Tick.item) := by
  intro t ht
  rcases List.mem_map.1 ht with ⟨a, -, rfl⟩
  exact fun h => nomatch h

theorem Prompt.of_suffix {t u : List (Tick α)} (h : Prompt u) (hs : t <:+ u) : Prompt t :=
  fun x hx => h x (hs.subset hx)

theorem Prompt.tail {x : Tick α} {ticks : List (Tick α)} (h : Prompt (x :: ticks)) :
    Prompt ticks :=
  fun y hy => h y (List.mem_cons_of_mem x hy)

theorem Prompt.append {t u : List (Tick α)} (ht : Prompt t) (hu : Prompt u) : Prompt (t ++ u) := by
  intro x hx
  rcases List.mem_append.1 hx with hx | hx
  · exact ht x hx
  · exact hu x hx

theorem IsLine.cons {delim : α} {line stop rest : List (Tick α)} (h : IsLine delim line stop rest)
    (x : Tick α) (hx : x ≠ .silence) (hdelim : x ≠ .item delim) :
    IsLine delim (x :: line) stop rest := by
  refine ⟨?_, ?_, h.stops⟩
  · intro y hy
    rcases List.mem_cons.1 hy with rfl | hy
    · exact hx
    · exact h.prompt y hy
  · cases x with
    | item a =>
        rw [items_item, List.mem_cons, not_or]
        exact ⟨fun he => hdelim (congrArg Tick.item he.symm), h.whole⟩
    | wait => exact h.whole
    | silence => exact absurd rfl hx

/-! ### Reads -/

section

variable [DecidableEq α]

/-- A read leaves a later part of the stream, its ending unchanged if the read
was completed. -/
theorem takeUntil_rest (delim : α) (ending : Ending) (ticks : List (Tick α)) :
    (takeUntil delim ending ticks).rest.ticks <:+ ticks ∧
      ((takeUntil delim ending ticks).complete = true →
        (takeUntil delim ending ticks).rest.ending = ending) := by
  -- nothing is skipped: an item is taken, a wait passes, a silence ends the read
  induction ticks with
  | nil => exact ⟨List.suffix_refl [], fun h => absurd h Bool.false_ne_true⟩
  | cons x ticks ih =>
      cases x with
      | item a =>
          by_cases ha : a = delim
          · rw [takeUntil, if_pos ha]
            exact ⟨List.suffix_cons _ ticks, fun _ => rfl⟩
          · rw [takeUntil, if_neg ha]
            exact ⟨ih.1.trans (List.suffix_cons _ ticks), ih.2⟩
      | wait => exact ⟨ih.1.trans (List.suffix_cons _ ticks), ih.2⟩
      | silence => exact ⟨List.suffix_cons _ ticks, fun h => absurd h Bool.false_ne_true⟩

/-- A read takes at least one tick, if there is one. -/
theorem takeUntil_shorter (delim : α) (ending : Ending) (x : Tick α) (ticks : List (Tick α)) :
    (takeUntil delim ending (x :: ticks)).rest.ticks <:+ ticks := by
  cases x with
  | item a =>
      by_cases ha : a = delim
      · rw [takeUntil, if_pos ha]
      · rw [takeUntil, if_neg ha]
        exact (takeUntil_rest delim ending ticks).1
  | wait => exact (takeUntil_rest delim ending ticks).1
  | silence => exact List.suffix_refl ticks

/-- A line that comes without a silence is read whole, however it arrives. -/
theorem takeUntil_of_prompt (delim : α) (ending : Ending) (ticks : List (Tick α))
    (line rest : List α) (hprompt : Prompt ticks) (hline : delim ∉ line)
    (h : items ticks = line ++ delim :: rest) :
    ∃ ticks', takeUntil delim ending ticks = ⟨line, true, ⟨ticks', ending⟩⟩ ∧
      items ticks' = rest ∧ ticks' <:+ ticks := by
  induction ticks generalizing line with
  | nil =>
      exact absurd h.symm
        (List.append_ne_nil_of_right_ne_nil line (List.cons_ne_nil delim rest))
  | cons x ticks ih =>
      -- A pause leaves the bytes that are to come, and a silence is excluded.
      cases x with
      | item a =>
          cases line with
          | nil =>
              rw [items_item, List.nil_append, List.cons.injEq] at h
              rw [takeUntil, if_pos h.1]
              exact ⟨ticks, rfl, h.2, List.suffix_cons _ ticks⟩
          | cons b line =>
              rw [items_item, List.cons_append, List.cons.injEq] at h
              rw [List.mem_cons, not_or] at hline
              rcases ih line hprompt.tail hline.2 h.2 with ⟨ticks', heq, hitems, hsuf⟩
              refine ⟨ticks', ?_, hitems, hsuf.trans (List.suffix_cons _ ticks)⟩
              rw [takeUntil, if_neg (by rw [h.1]; exact fun e => hline.1 e.symm), heq, h.1]
      | wait =>
          rcases ih line hprompt.tail hline h with ⟨ticks', heq, hitems, hsuf⟩
          exact ⟨ticks', heq, hitems, hsuf.trans (List.suffix_cons _ ticks)⟩
      | silence => exact absurd rfl (hprompt Tick.silence List.mem_cons_self)

/-- A read up to a delimiter takes a line. -/
theorem takeUntil_isLine (delim : α) (ending : Ending) (ticks : List (Tick α)) :
    ∃ line stop, ticks = line ++ (stop ++ (takeUntil delim ending ticks).rest.ticks) ∧
      IsLine delim line stop (takeUntil delim ending ticks).rest.ticks ∧
      items line = (takeUntil delim ending ticks).got ∧
      (stop ≠ [] → (takeUntil delim ending ticks).rest.ending = ending) := by
  have hnone : Prompt ([] : List (Tick α)) := fun t ht => absurd ht List.not_mem_nil
  induction ticks with
  | nil => exact ⟨[], [], rfl, ⟨hnone, List.not_mem_nil, Or.inr (Or.inr ⟨rfl, rfl⟩)⟩, rfl,
      fun h => absurd rfl h⟩
  | cons x ticks ih =>
      -- the line grows at its front, and what stopped it stays the same
      rcases ih with ⟨line, stop, hsplit, hline, hgot, hending⟩
      cases x with
      | item a =>
          by_cases ha : a = delim
          · rw [takeUntil, if_pos ha, ha]
            exact ⟨[], [.item delim], rfl, ⟨hnone, List.not_mem_nil, Or.inl rfl⟩, rfl,
              fun _ => rfl⟩
          · rw [takeUntil, if_neg ha]
            refine ⟨.item a :: line, stop, congrArg (Tick.item a :: ·) hsplit,
              hline.cons _ (fun h => by cases h) (fun h => ha (Tick.item.inj h)),
              congrArg (a :: ·) hgot, hending⟩
      | wait =>
          exact ⟨.wait :: line, stop, congrArg (Tick.wait :: ·) hsplit,
            hline.cons _ (fun h => by cases h) (fun h => by cases h), hgot, hending⟩
      | silence =>
          exact ⟨[], [.silence], rfl, ⟨hnone, List.not_mem_nil, Or.inr (Or.inl rfl)⟩, rfl,
            fun _ => rfl⟩

/-- A line is what a read up to a delimiter takes. -/
theorem takeUntil_of_isLine {delim : α} {line stop rest : List (Tick α)}
    (h : IsLine delim line stop rest) (hstop : stop ≠ []) (ending : Ending) :
    (takeUntil delim ending (line ++ (stop ++ rest))).got = items line ∧
      (takeUntil delim ending (line ++ (stop ++ rest))).rest = ⟨rest, ending⟩ := by
  -- induction on the line, which holds neither a silence nor the delimiter
  rcases h with ⟨hprompt, hwhole, hstops⟩
  induction line with
  | nil =>
      rcases hstops with rfl | rfl | hend
      · rw [List.nil_append, List.singleton_append, takeUntil, if_pos rfl]
        exact ⟨rfl, rfl⟩
      · exact ⟨rfl, rfl⟩
      · exact absurd hend.1 hstop
  | cons x line ih =>
      have hprompt' := hprompt.tail
      cases x with
      | item a =>
          rw [items_item, List.mem_cons, not_or] at hwhole
          rcases ih hprompt' hwhole.2 with ⟨hgot, hrest⟩
          rw [List.cons_append, takeUntil, if_neg (Ne.symm hwhole.1)]
          exact ⟨congrArg (a :: ·) hgot, hrest⟩
      | wait => exact ih hprompt' hwhole
      | silence => exact absurd rfl (hprompt _ List.mem_cons_self)

end

/-- A read of so many items loses nothing, and gets that many if completed. -/
theorem items_takeExactly (ending : Ending) (n : Nat) (ticks : List (Tick α)) :
    items ticks = (takeExactly ending n ticks).got ++
        items (takeExactly ending n ticks).rest.ticks ∧
      (takeExactly ending n ticks).got.length ≤ n ∧
      ((takeExactly ending n ticks).complete = true ↔
        (takeExactly ending n ticks).got.length = n) := by
  -- the count goes down with the items only
  induction ticks generalizing n with
  | nil =>
      cases n with
      | zero => exact ⟨rfl, Nat.le_refl 0, ⟨fun _ => rfl, fun _ => rfl⟩⟩
      | succ n =>
          refine ⟨rfl, Nat.zero_le _, ⟨fun h => absurd h Bool.false_ne_true, ?_⟩⟩
          exact fun h => absurd h (Nat.succ_ne_zero n).symm
  | cons x ticks ih =>
      cases n with
      | zero => exact ⟨rfl, Nat.le_refl 0, ⟨fun _ => rfl, fun _ => rfl⟩⟩
      | succ n =>
          cases x with
          | item a =>
              rcases ih n with ⟨hitems, hle, hiff⟩
              refine ⟨congrArg (a :: ·) hitems, Nat.succ_le_succ hle, ?_⟩
              refine hiff.trans ⟨fun h => congrArg (· + 1) h, fun h => Nat.succ.inj h⟩
          | wait => exact ih (n + 1)
          | silence =>
              refine ⟨rfl, Nat.zero_le _, ⟨fun h => absurd h Bool.false_ne_true, ?_⟩⟩
              exact fun h => absurd h (Nat.succ_ne_zero n).symm

theorem takeExactly_rest (ending : Ending) (n : Nat) (ticks : List (Tick α)) :
    (takeExactly ending n ticks).rest.ticks <:+ ticks := by
  induction ticks generalizing n with
  | nil => cases n <;> exact List.suffix_refl []
  | cons x ticks ih =>
      cases n with
      | zero => exact List.suffix_refl _
      | succ n =>
          cases x with
          | item a => exact (ih n).trans (List.suffix_cons _ ticks)
          | wait => exact (ih (n + 1)).trans (List.suffix_cons _ ticks)
          | silence => exact List.suffix_cons _ ticks

/-- Items that come without a silence are read whole, however they arrive. -/
theorem takeExactly_of_prompt (ending : Ending) (ticks : List (Tick α)) (s rest : List α)
    (hprompt : Prompt ticks) (h : items ticks = s ++ rest) :
    ∃ ticks', takeExactly ending s.length ticks = ⟨s, true, ⟨ticks', ending⟩⟩ ∧
      items ticks' = rest ∧ ticks' <:+ ticks := by
  -- prompt ticks bring every item that is still asked for
  induction ticks generalizing s with
  | nil =>
      rcases List.append_eq_nil_iff.1 h.symm with ⟨rfl, rfl⟩
      exact ⟨[], rfl, rfl, List.suffix_refl []⟩
  | cons x ticks ih =>
      cases s with
      | nil => exact ⟨x :: ticks, rfl, h, List.suffix_refl _⟩
      | cons b s =>
          cases x with
          | item a =>
              rw [items_item, List.cons_append, List.cons.injEq] at h
              rcases ih s hprompt.tail h.2 with ⟨ticks', heq, hitems, hsuf⟩
              refine ⟨ticks', ?_, hitems, hsuf.trans (List.suffix_cons _ ticks)⟩
              rw [List.length_cons, takeExactly, heq, h.1]
          | wait =>
              rcases ih (b :: s) hprompt.tail h with ⟨ticks', heq, hitems, hsuf⟩
              exact ⟨ticks', heq, hitems, hsuf.trans (List.suffix_cons _ ticks)⟩
          | silence => exact absurd rfl (hprompt Tick.silence List.mem_cons_self)

/-- A read that is completed takes what arrives without a silence, up to its last item. -/
theorem takeExactly_split (ending : Ending) (n : Nat) (hn : 0 < n) (ticks : List (Tick α))
    (h : (takeExactly ending n ticks).got.length = n) :
    ∃ taken, ticks = taken ++ (takeExactly ending n ticks).rest.ticks ∧ Prompt taken ∧
      EndsWithItem taken ∧ items taken = (takeExactly ending n ticks).got ∧
      (takeExactly ending n ticks).rest.ending = ending := by
  have hcons (x : Tick α) (hx : x ≠ .silence) {taken : List (Tick α)} (hp : Prompt taken) :
      Prompt (x :: taken) := by
    intro y hy
    rcases List.mem_cons.1 hy with rfl | hy
    · exact hx
    · exact hp y hy
  -- the last item asked for is where the read stops, so no later tick is taken
  induction ticks generalizing n with
  | nil =>
      cases n with
      | zero => exact absurd hn (Nat.lt_irrefl 0)
      | succ n => exact absurd h (Nat.succ_ne_zero n).symm
  | cons x ticks ih =>
      cases n with
      | zero => exact absurd hn (Nat.lt_irrefl 0)
      | succ n =>
          cases x with
          | item a =>
              cases n with
              | zero =>
                  rw [takeExactly]
                  refine ⟨[.item a], ?_, hcons _ (fun h => by cases h)
                    (fun t ht => absurd ht List.not_mem_nil), ⟨[], a, rfl⟩, ?_, ?_⟩
                  · cases ticks <;> rfl
                  · cases ticks <;> rfl
                  · cases ticks <;> rfl
              | succ n =>
                  rcases ih (n + 1) (Nat.succ_pos n) (Nat.succ.inj h) with
                    ⟨taken, hsplit, hp, ⟨before, b, hb⟩, hgot, hending⟩
                  exact ⟨.item a :: taken, congrArg (Tick.item a :: ·) hsplit,
                    hcons _ (fun h => by cases h) hp,
                    ⟨.item a :: before, b, congrArg (Tick.item a :: ·) hb⟩,
                    congrArg (a :: ·) hgot, hending⟩
          | wait =>
              rcases ih (n + 1) hn h with ⟨taken, hsplit, hp, ⟨before, b, hb⟩, hgot, hending⟩
              exact ⟨.wait :: taken, congrArg (Tick.wait :: ·) hsplit,
                hcons _ (fun h => by cases h) hp,
                ⟨.wait :: before, b, congrArg (Tick.wait :: ·) hb⟩, hgot, hending⟩
          | silence => exact absurd h (Nat.succ_ne_zero n).symm

/-- What arrives without a silence is what a read of as many items takes. -/
theorem takeExactly_append (ending : Ending) (taken rest : List (Tick α)) (hp : Prompt taken)
    (hends : EndsWithItem taken) :
    (takeExactly ending (items taken).length (taken ++ rest)).got = items taken ∧
      (takeExactly ending (items taken).length (taken ++ rest)).rest = ⟨rest, ending⟩ := by
  rcases hends with ⟨before, b, rfl⟩
  -- induction on what stands in front of the last item
  induction before with
  | nil =>
      cases rest with
      | nil => exact ⟨rfl, rfl⟩
      | cons x rest => cases x <;> exact ⟨rfl, rfl⟩
  | cons x before ih =>
      have hsome : (items (before ++ [.item b])).length = (items before).length + 1 := by
        rw [items_append, List.length_append]
        rfl
      rcases ih hp.tail with ⟨hgot, hrest⟩
      cases x with
      | item a => exact ⟨congrArg (a :: ·) hgot, hrest⟩
      | wait =>
          rw [List.cons_append, List.cons_append, items_wait]
          rw [hsome] at hgot hrest ⊢
          exact ⟨hgot, hrest⟩
      | silence => exact absurd rfl (hp _ List.mem_cons_self)

/-- What has arrived is read at once. -/
theorem takeExactly_of_arrived (ending : Ending) (n : Nat) (ticks : List (Tick α))
    (h : n ≤ (arrived ticks).length) :
    takeExactly ending n ticks = ⟨(arrived ticks).take n, true, ⟨ticks.drop n, ending⟩⟩ := by
  -- where everything has arrived already, the ticks are the items
  induction ticks generalizing n with
  | nil =>
      cases n with
      | zero => rfl
      | succ n => exact absurd h (Nat.not_succ_le_zero n)
  | cons x ticks ih =>
      cases n with
      | zero => rfl
      | succ n =>
          cases x with
          | item a => rw [takeExactly, ih n (Nat.le_of_succ_le_succ h)]; rfl
          | wait => exact absurd h (Nat.not_succ_le_zero n)
          | silence => exact absurd h (Nat.not_succ_le_zero n)

theorem items_drop_of_arrived (n : Nat) (ticks : List (Tick α))
    (h : n ≤ (arrived ticks).length) :
    items ticks = (arrived ticks).take n ++ items (ticks.drop n) := by
  have hread := (items_takeExactly .stays n ticks).1
  rw [takeExactly_of_arrived .stays n ticks h] at hread
  exact hread

/-! ### Behind so many items -/

@[simp] theorem afterItems_zero (ticks : List (Tick α)) : afterItems 0 ticks = ticks := by
  cases ticks <;> rfl

theorem afterItems_suffix (n : Nat) (ticks : List (Tick α)) : afterItems n ticks <:+ ticks := by
  induction ticks generalizing n with
  | nil => cases n <;> exact List.suffix_refl []
  | cons x ticks ih =>
      cases n with
      | zero => exact List.suffix_refl _
      | succ n =>
          cases x with
          | item a => exact (ih n).trans (List.suffix_cons _ ticks)
          | wait => exact (ih (n + 1)).trans (List.suffix_cons _ ticks)
          | silence => exact (ih (n + 1)).trans (List.suffix_cons _ ticks)

theorem items_afterItems (n : Nat) (ticks : List (Tick α)) :
    items (afterItems n ticks) = (items ticks).drop n := by
  induction ticks generalizing n with
  | nil => cases n <;> rfl
  | cons x ticks ih =>
      cases n with
      | zero => rfl
      | succ n =>
          cases x with
          | item a => exact ih n
          | wait => exact ih (n + 1)
          | silence => exact ih (n + 1)

/-- What stands before the place behind so many items. -/
theorem afterItems_split (n : Nat) (hn : 0 < n) (ticks : List (Tick α))
    (h : n ≤ (items ticks).length) :
    ∃ taken, ticks = taken ++ afterItems n ticks ∧ EndsWithItem taken ∧
      items taken = (items ticks).take n := by
  -- the last item counted is where what is taken ends
  induction ticks generalizing n with
  | nil => exact absurd (Nat.lt_of_lt_of_le hn h) (Nat.lt_irrefl 0)
  | cons x ticks ih =>
      cases n with
      | zero => exact absurd hn (Nat.lt_irrefl 0)
      | succ n =>
          cases x with
          | item a =>
              cases n with
              | zero =>
                  refine ⟨[.item a], ?_, ⟨[], a, rfl⟩, ?_⟩
                  · rw [afterItems, afterItems_zero]
                    rfl
                  · rw [items_item, items_item, List.take_succ_cons, List.take_zero]
                    rfl
              | succ n =>
                  rcases ih (n + 1) (Nat.succ_pos n) (Nat.le_of_succ_le_succ h) with
                    ⟨taken, hsplit, ⟨before, b, hb⟩, hitems⟩
                  exact ⟨.item a :: taken, congrArg (Tick.item a :: ·) hsplit,
                    ⟨.item a :: before, b, congrArg (Tick.item a :: ·) hb⟩,
                    congrArg (a :: ·) hitems⟩
          | wait =>
              rcases ih (n + 1) hn h with ⟨taken, hsplit, ⟨before, b, hb⟩, hitems⟩
              exact ⟨.wait :: taken, congrArg (Tick.wait :: ·) hsplit,
                ⟨.wait :: before, b, congrArg (Tick.wait :: ·) hb⟩, hitems⟩
          | silence =>
              rcases ih (n + 1) hn h with ⟨taken, hsplit, ⟨before, b, hb⟩, hitems⟩
              exact ⟨.silence :: taken, congrArg (Tick.silence :: ·) hsplit,
                ⟨.silence :: before, b, congrArg (Tick.silence :: ·) hb⟩, hitems⟩

theorem afterItems_append (taken rest : List (Tick α)) (hends : EndsWithItem taken) :
    afterItems (items taken).length (taken ++ rest) = rest := by
  rcases hends with ⟨before, b, rfl⟩
  -- waits and silences in front of an item are passed with it
  induction before with
  | nil => cases rest <;> rfl
  | cons x before ih =>
      have hsome : (items (before ++ [.item b])).length = (items before).length + 1 := by
        rw [items_append, List.length_append]
        rfl
      cases x with
      | item a => exact ih
      | wait =>
          rw [List.cons_append, List.cons_append, items_wait]
          rw [hsome] at ih ⊢
          exact ih
      | silence =>
          rw [List.cons_append, List.cons_append, items_silence]
          rw [hsome] at ih ⊢
          exact ih

/-- A pause before the items makes no difference. -/
theorem afterItems_pause (n : Nat) (hn : 0 < n) (x : Tick α) (ticks : List (Tick α))
    (hx : ∀ a, x ≠ .item a) : afterItems n (x :: ticks) = afterItems n ticks := by
  cases n with
  | zero => exact absurd hn (Nat.lt_irrefl 0)
  | succ n =>
      cases x with
      | item a => exact absurd rfl (hx a)
      | wait => rfl
      | silence => rfl

/-- Items that have arrived are taken off one tick each. -/
theorem afterItems_add (m n : Nat) (ticks : List (Tick α)) (h : m ≤ (arrived ticks).length) :
    afterItems (m + n) ticks = afterItems n (ticks.drop m) := by
  induction ticks generalizing m with
  | nil =>
      cases m with
      | zero => rw [Nat.zero_add]; rfl
      | succ m => exact absurd h (Nat.not_succ_le_zero m)
  | cons x ticks ih =>
      cases m with
      | zero => rw [Nat.zero_add]; rfl
      | succ m =>
          cases x with
          | item a =>
              rw [Nat.succ_add]
              exact ih m (Nat.le_of_succ_le_succ h)
          | wait => exact absurd h (Nat.not_succ_le_zero m)
          | silence => exact absurd h (Nat.not_succ_le_zero m)

end Arrivals
