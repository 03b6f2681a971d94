import ArduinoBeken.Library.Arrivals

/-!
# Loops of Reads that Time Out

A reader that takes one item after another, each within its own patience, until its body has
an answer or a read gives up. What it can hear of a stream is what comes before the first
silence, however the items are spread over time. Nothing here is specific to one system.

`readLoop` is the loop with the stream's pauses inside it, and `readLoop_eq` gives it back as
one read and the rest of the loop. An invariant of what was heard so far is what a proof about
a loop needs, and `readLoop_rule` is the rule: the loop ends with an answer of its body, right
behind the item that led to it, or it has heard everything.

## Main definitions

* `heard`: The items before the first silence.
* `timedRead`: One read.
* `readLoop`: A loop of reads.
* `peekWhile`: The items a reader takes that looks at each before it takes it.

## Theorems

* `timedReadFrom_of_heard`: A read gets what can be heard.
* `readLoop_eq`: A loop is a read and a loop.
* `readLoop_rule`: What an invariant of the loop says at its end.
* `peekWhile_of_prompt`: What is taken of a stream without silences.
-/

namespace Arrivals

variable {α σ β : Type*}

/-- The items that come before the first silence. -/
def heard : List (Tick α) → List α
  | [] => []
  | .item a :: ticks => a :: heard ticks
  | .wait :: ticks => heard ticks
  | .silence :: _ => []

/-- The next item, or nothing if the patience of the read runs out. -/
def timedReadFrom (ending : Ending) : List (Tick α) → Option α × Source α
  | [] => (none, ⟨[], ending.noticed⟩)
  | .item a :: ticks => (some a, ⟨ticks, ending⟩)
  | .wait :: ticks => timedReadFrom ending ticks
  | .silence :: ticks => (none, ⟨ticks, ending⟩)

/-- The next item, if it comes in time. -/
def timedRead (s : Source α) : Option α × Source α :=
  timedReadFrom s.ending s.ticks

/-- Reads one item after the other, until the body answers or a read gives up. -/
def readLoop (body : σ → α → σ ⊕ β) (timeout : σ → β) (ending : Ending) :
    σ → List (Tick α) → β × Source α
  | s, [] => (timeout s, ⟨[], ending.noticed⟩)
  | s, .item a :: ticks =>
    match body s a with
    | .inl s' => readLoop body timeout ending s' ticks
    | .inr b => (b, ⟨ticks, ending⟩)
  | s, .wait :: ticks => readLoop body timeout ending s ticks
  | s, .silence :: ticks => (timeout s, ⟨ticks, ending⟩)

/-- Takes items as long as they satisfy the predicate; the one that does not is looked at
and stays. -/
def peekWhile (p : α → Bool) (ending : Ending) : List (Tick α) → List α × Source α
  | [] => ([], ⟨[], ending.noticed⟩)
  | .item a :: ticks =>
    if p a then
      let r := peekWhile p ending ticks
      (a :: r.1, r.2)
    else ([], ⟨.item a :: ticks, ending⟩)
  | .wait :: ticks => peekWhile p ending ticks
  | .silence :: ticks => ([], ⟨ticks, ending⟩)

@[simp] theorem heard_nil : heard ([] : List (Tick α)) = [] := rfl

@[simp] theorem heard_item (a : α) (ticks : List (Tick α)) :
    heard (.item a :: ticks) = a :: heard ticks := rfl

@[simp] theorem heard_wait (ticks : List (Tick α)) : heard (.wait :: ticks) = heard ticks := rfl

@[simp] theorem heard_silence (ticks : List (Tick α)) :
    heard (.silence :: ticks) = [] := rfl

theorem heard_of_prompt {ticks : List (Tick α)} (h : Prompt ticks) : heard ticks = items ticks := by
  induction ticks with
  | nil => rfl
  | cons x ticks ih =>
      cases x with
      | item a => exact congrArg (a :: ·) (ih h.tail)
      | wait => exact ih h.tail
      | silence => exact absurd rfl (h _ List.mem_cons_self)

/-- A read gets the next item that can be heard, and leaves the others. -/
theorem timedReadFrom_of_heard (ending : Ending) {ticks : List (Tick α)} {a : α} {rest : List α}
    (h : heard ticks = a :: rest) :
    ∃ ticks', timedReadFrom ending ticks = (some a, ⟨ticks', ending⟩) ∧ ticks' <:+ ticks ∧
      heard ticks' = rest := by
  induction ticks with
  | nil => cases h
  | cons x ticks ih =>
      cases x with
      | item b =>
          rw [heard_item, List.cons.injEq] at h
          exact ⟨ticks, by rw [timedReadFrom, h.1], List.suffix_cons _ ticks, h.2⟩
      | wait =>
          obtain ⟨ticks', hread, hsuffix, hrest⟩ := ih h
          exact ⟨ticks', hread, hsuffix.trans (List.suffix_cons _ ticks), hrest⟩
      | silence => cases h

theorem timedReadFrom_of_heard_nil (ending : Ending) {ticks : List (Tick α)}
    (h : heard ticks = []) : (timedReadFrom ending ticks).1 = none := by
  induction ticks with
  | nil => rfl
  | cons x ticks ih =>
      cases x with
      | item b => cases h
      | wait => exact ih h
      | silence => rfl

/-- A loop is a read, and the loop again if its body has no answer. -/
theorem readLoop_eq (body : σ → α → σ ⊕ β) (timeout : σ → β) (s : σ) (src : Source α) :
    readLoop body timeout src.ending s src.ticks =
      match timedRead src with
      | (none, rest) => (timeout s, rest)
      | (some a, rest) =>
        match body s a with
        | .inl s' => readLoop body timeout rest.ending s' rest.ticks
        | .inr b => (b, rest) := by
  obtain ⟨ticks, ending⟩ := src
  induction ticks with
  | nil => rfl
  | cons x ticks ih =>
      cases x with
      | item a => rfl
      | wait => exact ih
      | silence => rfl

/-- A loop whose steps keep an invariant of what was heard answers right behind the item its
    body answers to, or has heard all there is to hear. -/
theorem readLoop_rule {body : σ → α → σ ⊕ β} {timeout : σ → β} {I : List α → σ → Prop}
    (hstep : ∀ t s a s', I t s → body s a = .inl s' → I (t ++ [a]) s')
    (ending : Ending) (ticks : List (Tick α)) {t : List α} {s : σ} (hs : I t s) :
    (∃ u a s' b, u ++ [a] <+: heard ticks ∧ I (t ++ u) s' ∧ body s' a = .inr b ∧
        (readLoop body timeout ending s ticks).1 = b ∧
        items (readLoop body timeout ending s ticks).2.ticks =
          (items ticks).drop (u.length + 1)) ∨
      (∃ s', I (t ++ heard ticks) s' ∧
        (readLoop body timeout ending s ticks).1 = timeout s') := by
  induction ticks generalizing t s with
  | nil => exact Or.inr ⟨s, by rwa [heard_nil, List.append_nil], rfl⟩
  | cons x ticks ih =>
      cases x with
      | item a =>
          rw [readLoop]
          cases hbody : body s a with
          | inr b =>
              refine Or.inl ⟨[], a, s, b, ?_, ?_, hbody, rfl, rfl⟩
              · exact (List.prefix_cons_inj a).2 List.nil_prefix
              · rwa [List.append_nil]
          | inl s' =>
              -- the loop goes on behind the item, with the item heard
              rcases ih (hstep t s a s' hs hbody) with
                ⟨u, a', s'', b, hu, hI, hb, hres, hrest⟩ | ⟨s'', hI, hres⟩
              · refine Or.inl ⟨a :: u, a', s'', b, ?_, ?_, hb, hres, ?_⟩
                · exact (List.prefix_cons_inj a).2 hu
                · rwa [List.append_assoc, List.singleton_append] at hI
                · rw [hrest]
                  rfl
              · refine Or.inr ⟨s'', ?_, hres⟩
                rwa [List.append_assoc, List.singleton_append] at hI
      | wait => exact ih hs
      | silence => exact Or.inr ⟨s, by rwa [heard_silence, List.append_nil], rfl⟩

/-- What is taken of a stream without silences are the items up to the first that does not
    satisfy the predicate. -/
theorem peekWhile_of_prompt (p : α → Bool) (ending : Ending) {ticks : List (Tick α)}
    (h : Prompt ticks) :
    (peekWhile p ending ticks).1 = (items ticks).takeWhile p ∧
      items (peekWhile p ending ticks).2.ticks = (items ticks).dropWhile p := by
  -- induction on the ticks, of which none is a silence
  induction ticks with
  | nil => exact ⟨rfl, rfl⟩
  | cons x ticks ih =>
      cases x with
      | item a =>
          rw [peekWhile, items_item]
          by_cases ha : p a
          · rw [if_pos ha, List.takeWhile_cons_of_pos ha, List.dropWhile_cons_of_pos ha]
            exact ⟨congrArg (a :: ·) (ih h.tail).1, (ih h.tail).2⟩
          · rw [if_neg ha, List.takeWhile_cons_of_neg ha, List.dropWhile_cons_of_neg ha]
            exact ⟨rfl, rfl⟩
      | wait => exact ih h.tail
      | silence => exact absurd rfl (h _ List.mem_cons_self)

end Arrivals
