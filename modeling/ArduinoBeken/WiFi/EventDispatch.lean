import ArduinoBeken.Library.Run
import Mathlib

/-!
# The Dispatch of WiFi Events

`dispatchEvent` walks over the vector of handlers while the handlers it calls add and
remove handlers. Where the walk ends is settled when it begins: the vector is given
out by position, and the memory it is in is that of the start. A vector that grows
beyond its capacity moves elsewhere, and one from which is erased moves its later
elements down.

What a handler does when it is called is any list of calls, one for each visit. Then
the walk is a run of visits, and it is proper if and only if what the handlers do is
gentle on it (`dispatch_iff`).

## Main definitions

* `Registry`: The vector, with its capacity.
* `Walk`, `Walk.visit`: The loop, and one turn of it.
* `Proper`: The law of one turn.
* `Gentle`: What the handler called in a turn may do.

## Theorems

* `behind_applyAll`: What comes behind a position after some calls.
* `tidy_skip`, `tidy_call`: One turn.
* `proper_of_gentle`, `gentle_of_proper`: The rest of a walk.
* `called_of_proper`: Who has been called behind a proper walk.
* `dispatch_iff`: A whole walk.
-/

namespace ArduinoBeken

namespace WiFi.EventDispatch

/-- `arduino_event_id_t`. -/
inductive ArduinoEvent where
  | wifiReady
  | wifiScanDone
  | wifiStaStart
  | wifiStaStop
  | wifiStaConnected
  | wifiStaDisconnected
  | wifiStaGotIp
  | max
deriving DecidableEq, Repr

/-- `WiFiEventHandlerEntry`. The `serial` tells entries apart, and the identifier is
what of it fits into a `size_t`. -/
structure Entry where
  serial : Nat
  cb : Option Nat
  event : ArduinoEvent
deriving DecidableEq, Repr

/-- The id of a registration, which wraps. -/
def Entry.id (e : Entry) : Nat :=
  e.serial % 2 ^ 32

/-- Whether the entry is called for an event. -/
def Entry.answers (e : Entry) (event : ArduinoEvent) : Bool :=
  e.cb.isSome && (e.event == .max || e.event == event)

/-- `g_wifiEventHandlers` with its capacity, and the serial of the next entry.
`moved` is history: the vector has moved since the dispatch began. -/
structure Registry where
  handlers : List Entry := []
  capacity : Nat := 0
  serial : Nat := 1
  moved : Bool := false
deriving DecidableEq, Repr

/-- The calls that a handler may make. -/
inductive Op where
  | onEvent (cb : Option Nat) (event : ArduinoEvent)
  | removeEvent (cb : Option Nat) (event : ArduinoEvent)
  | removeEventId (id : Nat)
deriving DecidableEq, Repr

section Model

-- The capacity that a full vector of so many elements asks for.
variable (grow : Nat → Nat)

namespace Registry

/-- `push_back`: beyond its capacity the vector is moved to other memory. -/
def pushBack (r : Registry) (e : Entry) : Registry :=
  if r.handlers.length < r.capacity then { r with handlers := r.handlers ++ [e] }
  else
    { r with
      handlers := r.handlers ++ [e]
      capacity := max (grow r.handlers.length) (r.handlers.length + 1)
      moved := true }

/-- `onEvent`, for a callback. -/
def onEvent (r : Registry) (cb : Option Nat) (event : ArduinoEvent) : Registry :=
  if cb.isSome then { r.pushBack grow ⟨r.serial, cb, event⟩ with serial := r.serial + 1 } else r

/-- Each entry that matches is erased. -/
def eraseIf (r : Registry) (p : Entry → Bool) : Registry :=
  { r with handlers := r.handlers.filter fun e => !p e }

/-- `removeEvent` by callback and event. -/
def removeEvent (r : Registry) (cb : Option Nat) (event : ArduinoEvent) : Registry :=
  if cb.isSome then r.eraseIf fun e => e.cb == cb && e.event == event else r

/-- `removeEvent` by id. -/
def removeEventId (r : Registry) (id : Nat) : Registry :=
  r.eraseIf fun e => e.id == id

/-- One call. -/
def apply (r : Registry) : Op → Registry
  | .onEvent cb event => r.onEvent grow cb event
  | .removeEvent cb event => r.removeEvent cb event
  | .removeEventId id => r.removeEventId id

/-- One call after the other. -/
def applyAll (r : Registry) (ops : List Op) : Registry :=
  ops.foldl (apply grow) r

end Registry

/-- The loop of `dispatchEvent`: where it ends and where it is. `initial` and `called`
are history, the handlers there were at the start and those called since. -/
structure Walk where
  registry : Registry
  event : ArduinoEvent
  stop : Nat
  index : Nat
  initial : List Entry
  called : List Entry
deriving DecidableEq, Repr

/-- `dispatchEvent` up to its loop. -/
def dispatchEvent (r : Registry) (event : ArduinoEvent) : Walk where
  registry := { r with moved := false }
  event := event
  stop := r.handlers.length
  index := 0
  initial := r.handlers
  called := []

namespace Walk

/-- The element that the loop looks at, if it is one of the vector. -/
def current (w : Walk) : Option Entry :=
  if w.registry.moved then none else w.registry.handlers[w.index]?

/-- One turn of the loop, with what the handler does if one is called. -/
def visit (w : Walk) (ops : List Op) : Walk :=
  match w.current with
  | some e =>
    if e.answers w.event then
      { w with
        registry := w.registry.applyAll grow ops, index := w.index + 1, called := w.called ++ [e] }
    else { w with index := w.index + 1 }
  | none => { w with index := w.index + 1 }

end Walk

/-! ### The law -/

/-- The turn looks at an element of the vector. It calls a handler that is registered,
none for the second time, and those of the start in their order. And no handler of the
start that is to be called has been passed over, as long as it is registered. -/
structure Proper (w : Walk) (ops : List Op) : Prop where
  inside : w.current ≠ none
  registered : ∀ h ∈ (w.visit grow ops).called, h ∉ w.called → h ∈ w.registry.handlers
  once : (w.visit grow ops).called.Nodup
  order : ((w.visit grow ops).called.filter (· ∈ w.initial)).Sublist w.initial
  complete : ∀ h ∈ (w.visit grow ops).registry.handlers.take (w.visit grow ops).index,
    h ∈ w.initial → h.answers w.event = true → h ∈ (w.visit grow ops).called

/-- Unless the turn is the last one, the handler called does not make the vector move.
It removes so little up to its own position that no handler to be called comes there.
And it leaves as many handlers as there were at the start, or another one to be called
behind it. -/
structure Gentle (w : Walk) (r : Registry) : Prop where
  stays : r.moved = false
  behind : ∀ h ∈ w.registry.handlers.drop (w.index + 1), h ∈ w.initial →
    h.answers w.event = true → h ∉ r.handlers.take (w.index + 1)
  enough : w.stop ≤ r.handlers.length ∨
    ∃ j h, w.index < j ∧ j < w.stop ∧ r.handlers[j]? = some h ∧ h.answers w.event = true

/-- The condition on a turn. Nothing is asked of the last one. -/
def ActsGently (w : Walk) (ops : List Op) : Prop :=
  ∀ e, w.current = some e → e.answers w.event = true → w.index + 1 < w.stop →
    Gentle w (w.registry.applyAll grow ops)

end Model

/-! ### What the calls do to the vector -/

section Calls

variable (grow : Nat → Nat)

/-- What comes behind a position is what came there before, or came later. -/
theorem behind_apply (r : Registry) (o : Op) (k : Nat) :
    ∃ new : List Entry, ((r.apply grow o).handlers.drop k).Sublist (r.handlers.drop k ++ new) ∧
      (∀ h ∈ new, h.serial = r.serial ∧ r.serial < (r.apply grow o).serial) ∧ new.length ≤ 1 ∧
      r.serial ≤ (r.apply grow o).serial := by
  -- a removal leaves the others in their order
  have herase : ∀ p, ((r.eraseIf p).handlers.drop k).Sublist (r.handlers.drop k) := by
    intro p
    exact List.Sublist.drop List.filter_sublist k
  -- by the call: one adds an entry at the end, two only remove
  cases o with
  | onEvent cb event =>
      simp only [Registry.apply, Registry.onEvent]
      split
      -- the entry is appended wherever the vector finds its memory
      · refine ⟨[⟨r.serial, cb, event⟩], ?_, ?_, Nat.le_refl 1, Nat.le_succ _⟩
        · have happend : (r.pushBack grow ⟨r.serial, cb, event⟩).handlers =
              r.handlers ++ [⟨r.serial, cb, event⟩] := by
            unfold Registry.pushBack
            split
            · rfl
            · rfl
          rw [happend, List.drop_append]
          exact List.Sublist.append_left (List.drop_sublist _ _) _
        · intro h hmem
          rw [List.mem_singleton.1 hmem]
          exact ⟨rfl, Nat.lt_succ_self _⟩
      · exact ⟨[], by rw [List.append_nil], fun h hno => absurd hno List.not_mem_nil,
          Nat.zero_le 1, Nat.le_refl _⟩
  | removeEvent cb event =>
      refine ⟨[], ?_, fun h hno => absurd hno List.not_mem_nil, Nat.zero_le 1, ?_⟩
      · rw [List.append_nil]
        simp only [Registry.apply, Registry.removeEvent]
        split
        · exact herase _
        · exact List.Sublist.refl _
      · simp only [Registry.apply, Registry.removeEvent]
        split
        · exact Nat.le_refl _
        · exact Nat.le_refl _
  | removeEventId id =>
      refine ⟨[], ?_, fun h hno => absurd hno List.not_mem_nil, Nat.zero_le 1, Nat.le_refl _⟩
      rw [List.append_nil]
      exact herase _

/-- The same for any number of calls. What came later has serials of its own. -/
theorem behind_applyAll (r : Registry) (ops : List Op) (k : Nat) :
    ∃ new : List Entry, ((r.applyAll grow ops).handlers.drop k).Sublist (r.handlers.drop k ++ new) ∧
      (∀ h ∈ new, r.serial ≤ h.serial ∧ h.serial < (r.applyAll grow ops).serial) ∧ new.Nodup ∧
      r.serial ≤ (r.applyAll grow ops).serial := by
  -- by induction on the calls the handler makes
  induction ops generalizing r with
  | nil =>
      exact ⟨[], by rw [List.append_nil]; exact List.Sublist.refl _,
        fun h hno => absurd hno List.not_mem_nil, List.nodup_nil, Nat.le_refl _⟩
  | cons o ops ih =>
      rcases behind_apply grow r o k with ⟨new, hsub, hnew, hone, hle⟩
      rcases ih (r.apply grow o) with ⟨later, hsub', hlater, hnodup, hle'⟩
      -- what the first call adds stands in front of what the others add
      refine ⟨new ++ later, ?_, ?_, ?_, Nat.le_trans hle hle'⟩
      · refine List.Sublist.trans hsub' ?_
        rw [← List.append_assoc]
        exact hsub.append_right later
      · intro h hmem
        rcases List.mem_append.1 hmem with hfirst | hrest
        · rcases hnew h hfirst with ⟨hserial, hlt⟩
          exact ⟨Nat.le_of_eq hserial.symm, by rw [hserial]; exact Nat.lt_of_lt_of_le hlt hle'⟩
        · exact ⟨Nat.le_trans hle (hlater h hrest).1, (hlater h hrest).2⟩
      · refine List.nodup_append.2 ⟨?_, hnodup, ?_⟩
        · cases new with
          | nil => exact List.nodup_nil
          | cons h rest =>
              have hnil : rest = [] := by
                rw [List.length_cons] at hone
                exact List.length_eq_zero_iff.1 (by omega)
              rw [hnil]
              exact List.nodup_cons.2 ⟨List.not_mem_nil, List.nodup_nil⟩
        · -- the serial numbers grow from call to call
          intro h hfirst h' hrest hsame
          have hserial := hnew h hfirst
          have hlt := (hlater h' hrest).1
          rw [← hsame] at hlt
          omega

end Calls

/-! ### One turn -/

/-- What is left to be visited comes in the order of the start behind what has been
called, and nothing of it has been passed over. New entries have serials of their
own, and come behind where the walk ends. -/
structure Tidy (w : Walk) : Prop where
  serials : ∀ h ∈ w.called ++ w.initial ++ w.registry.handlers, h.serial < w.registry.serial
  distinct : (w.called ++ w.registry.handlers.drop w.index).Nodup
  order : (w.called.filter (· ∈ w.initial) ++
    (w.registry.handlers.drop w.index).filter (· ∈ w.initial)).Sublist w.initial
  tail : ∀ h ∈ w.registry.handlers.drop w.stop, h ∉ w.initial
  passed : ∀ h ∈ w.registry.handlers.take w.index, h ∈ w.initial → h.answers w.event = true →
    h ∈ w.called

theorem current_eq (w : Walk) (e : Entry) (h : w.current = some e) :
    w.registry.moved = false ∧ w.registry.handlers[w.index]? = some e := by
  unfold Walk.current at h
  split at h
  · exact (nomatch h)
  · next hstays => exact ⟨Bool.eq_false_iff.2 hstays, h⟩

theorem drop_of_current (w : Walk) (e : Entry) (h : w.current = some e) :
    w.registry.handlers.drop w.index = e :: w.registry.handlers.drop (w.index + 1) := by
  rcases List.getElem?_eq_some_iff.1 (current_eq w e h).2 with ⟨hlt, hget⟩
  rw [List.drop_eq_getElem_cons hlt, hget]

theorem take_of_current (w : Walk) (e : Entry) (h : w.current = some e) :
    w.registry.handlers.take (w.index + 1) = w.registry.handlers.take w.index ++ [e] := by
  rw [List.take_add_one, (current_eq w e h).2]
  rfl

variable (grow : Nat → Nat)

theorem visit_skip (w : Walk) (ops : List Op) (e : Entry) (h : w.current = some e)
    (hno : e.answers w.event = false) : w.visit grow ops = { w with index := w.index + 1 } := by
  simp [Walk.visit, h, hno]

theorem visit_call (w : Walk) (ops : List Op) (e : Entry) (h : w.current = some e)
    (hyes : e.answers w.event = true) :
    w.visit grow ops =
      { w with
        registry := w.registry.applyAll grow ops, index := w.index + 1,
        called := w.called ++ [e] } := by
  simp [Walk.visit, h, hyes]

/-- An element that is not for the event. -/
theorem tidy_skip (w : Walk) (e : Entry) (h : Tidy w) (hcur : w.current = some e)
    (hno : e.answers w.event = false) : Tidy { w with index := w.index + 1 } := by
  have hdrop := drop_of_current w e hcur
  refine ⟨h.serials, ?_, ?_, h.tail, ?_⟩
  · have hall := h.distinct
    rw [hdrop] at hall
    exact hall.sublist (List.Sublist.append_left (List.sublist_cons_self _ _) _)
  · have hall := h.order
    rw [hdrop] at hall
    refine List.Sublist.trans (List.Sublist.append_left ?_ _) hall
    exact List.Sublist.filter _ (List.sublist_cons_self _ _)
  · intro h' hmem hinitial hanswers
    rw [take_of_current w e hcur] at hmem
    rcases List.mem_append.1 hmem with hbefore | hlast
    · exact h.passed h' hbefore hinitial hanswers
    · rw [List.mem_singleton.1 hlast, hno] at hanswers
      exact absurd hanswers Bool.false_ne_true

/-- A handler that is called, if none is passed over by what it does. -/
theorem tidy_call (w : Walk) (ops : List Op) (e : Entry) (h : Tidy w) (hcur : w.current = some e)
    (hpassed : ∀ h ∈ (w.registry.applyAll grow ops).handlers.take (w.index + 1), h ∈ w.initial →
      h.answers w.event = true → h ∈ w.called ++ [e]) :
    Tidy { w with
      registry := w.registry.applyAll grow ops, index := w.index + 1,
      called := w.called ++ [e] } := by
  have hdrop := drop_of_current w e hcur
  rcases behind_applyAll grow w.registry ops (w.index + 1) with ⟨new, hsub, hnew, hnodup, hle⟩
  -- what the handler has added is newer than all that the walk knows
  have hold : ∀ h' ∈ w.called ++ w.initial ++ w.registry.handlers, ∀ h'' ∈ new, h' ≠ h'' := by
    intro h' hmem h'' hmem' hsame
    have hlt := h.serials h' hmem
    have hge := (hnew h'' hmem').1
    rw [hsame] at hlt
    omega
  have hdrops : ∀ h' ∈ w.registry.handlers.drop w.index, h' ∈ w.registry.handlers :=
    fun h' hmem => List.mem_of_mem_drop hmem
  have he : e ∈ w.registry.handlers := hdrops e (by rw [hdrop]; exact List.mem_cons_self)
  refine ⟨?_, ?_, ?_, ?_, hpassed⟩
  -- the serials
  · intro h' hmem
    have hbound : h' ∈ w.called ++ w.initial ++ w.registry.handlers →
        h'.serial < (w.registry.applyAll grow ops).serial :=
      fun hold => Nat.lt_of_lt_of_le (h.serials h' hold) hle
    rcases List.mem_append.1 hmem with hbefore | hhandlers
    · rcases List.mem_append.1 hbefore with hcalled | hinitial
      · rcases List.mem_append.1 hcalled with hcalled | hlast
        · exact hbound (List.mem_append_left _ (List.mem_append_left _ hcalled))
        · rw [List.mem_singleton.1 hlast] at hbound ⊢
          exact hbound (List.mem_append_right _ he)
      · exact hbound (List.mem_append_left _ (List.mem_append_right _ hinitial))
    · -- What is in the vector now was in it before or has a serial given out since.
      rcases behind_applyAll grow w.registry ops 0 with ⟨new', hsub', hnew', -, -⟩
      rw [List.drop_zero, List.drop_zero] at hsub'
      rcases List.mem_append.1 (hsub'.subset hhandlers) with hthere | hlater
      · exact hbound (List.mem_append_right _ hthere)
      · exact (hnew' h' hlater).2
  -- no entry twice, among those called and those still ahead
  · have hall : (w.called ++ w.registry.handlers.drop w.index ++ new).Nodup := by
      refine List.nodup_append.2 ⟨h.distinct, hnodup, ?_⟩
      intro h' hmem
      refine hold h' ?_
      rcases List.mem_append.1 hmem with hcalled | hrest
      · exact List.mem_append_left _ (List.mem_append_left _ hcalled)
      · exact List.mem_append_right _ (hdrops h' hrest)
    refine hall.sublist ?_
    rw [hdrop, List.append_assoc, List.append_assoc, List.cons_append]
    exact List.Sublist.append_left (List.Sublist.cons_cons e hsub) _
  -- nothing that is new was there at the start, so the order is that of the old ones
  · have hnone : new.filter (· ∈ w.initial) = [] := by
      rw [List.filter_eq_nil_iff]
      intro h' hmem hinitial
      have hthere : h' ∈ w.initial := by simpa using hinitial
      exact hold h' (List.mem_append_left _ (List.mem_append_right _ hthere)) h' hmem rfl
    have hbehind := List.Sublist.filter (· ∈ w.initial) hsub
    rw [List.filter_append, hnone, List.append_nil] at hbehind
    refine List.Sublist.trans ?_ h.order
    rw [hdrop, List.filter_append, List.append_assoc]
    refine List.Sublist.append_left ?_ _
    rw [show e :: w.registry.handlers.drop (w.index + 1) =
      [e] ++ w.registry.handlers.drop (w.index + 1) from rfl, List.filter_append]
    exact List.Sublist.append_left hbehind _
  -- behind the bound there is nothing of the start, as nothing moves backwards
  · rcases behind_applyAll grow w.registry ops w.stop with ⟨new', hsub', hnew', -, -⟩
    intro h' hmem hinitial
    rcases List.mem_append.1 (hsub'.subset hmem) with hthere | hlater
    · exact h.tail h' hthere hinitial
    · have hlt := h.serials h' (List.mem_append_left _ (List.mem_append_right _ hinitial))
      have hge := (hnew' h' hlater).1
      omega

/-- What is tidy behind a turn makes the turn proper. -/
theorem proper_of_tidy (w : Walk) (ops : List Op) (e : Entry) (hcur : w.current = some e)
    (h : Tidy (w.visit grow ops)) (hinitial : (w.visit grow ops).initial = w.initial)
    (hevent : (w.visit grow ops).event = w.event)
    (hcalled : (w.visit grow ops).called = w.called ∨ (w.visit grow ops).called = w.called ++ [e]) :
    Proper grow w ops := by
  -- the four parts of the law, each read off the invariant after the visit
  refine ⟨?_, ?_, (List.nodup_append.1 h.distinct).1, ?_, ?_⟩
  · rw [hcur]
    exact Option.some_ne_none e
  · -- the handler that is called now is the one at the index
    intro h' hmem hnew
    rcases hcalled with hsame | hone
    · rw [hsame] at hmem
      exact absurd hmem hnew
    · rw [hone] at hmem
      rcases List.mem_append.1 hmem with hold | hlast
      · exact absurd hold hnew
      · rw [List.mem_singleton.1 hlast]
        refine List.mem_of_mem_drop (i := w.index) ?_
        rw [drop_of_current w e hcur]
        exact List.mem_cons_self
  · have hall := h.order
    rw [hinitial] at hall
    exact (List.sublist_append_left _ _).trans hall
  · intro h' hmem hthere hanswers
    refine h.passed h' hmem ?_ ?_
    · rw [hinitial]
      exact hthere
    · rw [hevent]
      exact hanswers

/-- A handler that acts gently, or in the last turn, lets none be passed over. -/
theorem passed_of_gentle (w : Walk) (ops : List Op) (e : Entry) (h : Tidy w)
    (hcur : w.current = some e) (hlt : w.index < w.stop) (hyes : e.answers w.event = true)
    (hgentle : ActsGently grow w ops) :
    ∀ h' ∈ (w.registry.applyAll grow ops).handlers.take (w.index + 1), h' ∈ w.initial →
      h'.answers w.event = true → h' ∈ w.called ++ [e] := by
  intro h' hmem hinitial hanswers
  -- an entry of the start is not one of those added since
  have hthere : h' ∈ w.registry.handlers := by
    rcases behind_applyAll grow w.registry ops 0 with ⟨new, hsub, hnew, -, -⟩
    rw [List.drop_zero, List.drop_zero] at hsub
    rcases List.mem_append.1 (hsub.subset (List.mem_of_mem_take hmem)) with hthere | hlater
    · exact hthere
    · have hserial := h.serials h' (List.mem_append_left _ (List.mem_append_right _ hinitial))
      have hge := (hnew h' hlater).1
      omega
  rw [← List.take_append_drop (w.index + 1) w.registry.handlers, take_of_current w e hcur] at hthere
  -- it was visited before, is visited now, or stood behind
  rcases List.mem_append.1 hthere with hupto | hbehind
  · rcases List.mem_append.1 hupto with hbefore | hlast
    · exact List.mem_append_left _ (h.passed h' hbefore hinitial hanswers)
    · exact List.mem_append_right _ hlast
  · by_cases hnext : w.index + 1 < w.stop
    · exact absurd hmem ((hgentle e hcur hyes hnext).behind h' hbehind hinitial hanswers)
    · -- In the last turn nothing of the start is left behind.
      have hstop : w.index + 1 = w.stop := by omega
      rw [hstop] at hbehind
      exact absurd hinitial (h.tail h' hbehind)

theorem tidy_of_proper (w : Walk) (ops : List Op) (h : Tidy w) (hproper : Proper grow w ops) :
    Tidy (w.visit grow ops) := by
  rcases Option.ne_none_iff_exists'.1 hproper.inside with ⟨e, hcur⟩
  cases hanswers : e.answers w.event with
  | false =>
      rw [visit_skip grow w ops e hcur hanswers]
      exact tidy_skip w e h hcur hanswers
  | true =>
      have hcomplete := hproper.complete
      rw [visit_call grow w ops e hcur hanswers] at hcomplete ⊢
      exact tidy_call grow w ops e h hcur hcomplete

theorem visit_index (w : Walk) (ops : List Op) :
    (w.visit grow ops).index = w.index + 1 ∧ (w.visit grow ops).stop = w.stop := by
  unfold Walk.visit
  split
  · split
    · exact ⟨rfl, rfl⟩
    · exact ⟨rfl, rfl⟩
  · exact ⟨rfl, rfl⟩

/-! ### The rest of a walk -/

/-- There is an element to look at: as many are left as there were, or one to be
called is still to come. -/
def Ready (w : Walk) : Prop :=
  w.registry.moved = false ∧
    (w.stop ≤ w.registry.handlers.length ∨
      ∃ j h, w.index ≤ j ∧ j < w.stop ∧ w.registry.handlers[j]? = some h ∧
        h.answers w.event = true)

theorem current_of_ready (w : Walk) (h : Ready w) (hlt : w.index < w.stop) :
    ∃ e, w.current = some e := by
  have hinside : w.index < w.registry.handlers.length := by
    rcases h.2 with henough | ⟨j, h', hle, -, hget, -⟩
    · omega
    · have hj := (List.getElem?_eq_some_iff.1 hget).1
      omega
  refine ⟨w.registry.handlers[w.index], ?_⟩
  rw [Walk.current, if_neg (by rw [h.1]; exact Bool.false_ne_true)]
  exact List.getElem?_eq_getElem hinside

theorem ready_skip (w : Walk) (e : Entry) (h : Ready w) (hcur : w.current = some e)
    (hno : e.answers w.event = false) : Ready { w with index := w.index + 1 } := by
  refine ⟨h.1, ?_⟩
  rcases h.2 with henough | ⟨j, h', hle, hlt, hget, hyes⟩
  · exact Or.inl henough
  · refine Or.inr ⟨j, h', ?_, hlt, hget, hyes⟩
    have hne : j ≠ w.index := by
      intro hsame
      rw [hsame, (current_eq w e hcur).2] at hget
      rw [← Option.some.inj hget, hno] at hyes
      exact Bool.false_ne_true hyes
    change w.index + 1 ≤ j
    omega

/-- Where the handlers act gently, every turn is proper. -/
theorem proper_of_gentle (es : List (List Op)) (w : Walk) (h : Tidy w)
    (hready : w.index < w.stop → Ready w) (hlen : es.length + w.index = w.stop)
    (hgentle : EventRun.Always (Walk.visit grow) (ActsGently grow) w es) :
    EventRun.Always (Walk.visit grow) (Proper grow) w es := by
  induction es generalizing w with
  | nil => exact True.intro
  | cons ops es ih =>
      rw [List.length_cons] at hlen
      have hlt : w.index < w.stop := by omega
      rcases current_of_ready w (hready hlt) hlt with ⟨e, hcur⟩
      have hnext := visit_index grow w ops
      -- the rest of the walk, once the place behind this visit is tidy
      have hrest : Tidy (w.visit grow ops) → (w.index + 1 < w.stop → Ready (w.visit grow ops)) →
          EventRun.Always (Walk.visit grow) (Proper grow) (w.visit grow ops) es := by
        intro htidy hready'
        refine ih _ htidy ?_ ?_ hgentle.2
        · rw [hnext.1, hnext.2]
          exact hready'
        · rw [hnext.1, hnext.2]
          omega
      -- a handler of another event is passed over
      cases hanswers : e.answers w.event with
      | false =>
          have hvisit := visit_skip grow w ops e hcur hanswers
          have htidy : Tidy (w.visit grow ops) := by
            rw [hvisit]
            exact tidy_skip w e h hcur hanswers
          refine ⟨proper_of_tidy grow w ops e hcur htidy ?_ ?_ ?_, hrest htidy ?_⟩
          · rw [hvisit]
          · rw [hvisit]
          · exact Or.inl (by rw [hvisit])
          · intro _
            rw [hvisit]
            exact ready_skip w e (hready hlt) hcur hanswers
      | true =>
          have hvisit := visit_call grow w ops e hcur hanswers
          have hpassed := passed_of_gentle grow w ops e h hcur hlt hanswers hgentle.1
          have htidy : Tidy (w.visit grow ops) := by
            rw [hvisit]
            exact tidy_call grow w ops e h hcur hpassed
          refine ⟨proper_of_tidy grow w ops e hcur htidy ?_ ?_ ?_, hrest htidy ?_⟩
          · rw [hvisit]
          · rw [hvisit]
          · exact Or.inr (by rw [hvisit])
          · intro hmore
            have hacts := hgentle.1 e hcur hanswers hmore
            rw [hvisit]
            exact ⟨hacts.stays, hacts.enough⟩

/-- If no handler is called any more, too few elements stay too few. -/
theorem not_proper_of_few (es : List (List Op)) (w : Walk) (hlen : es.length + w.index = w.stop)
    (hle : w.index ≤ w.registry.handlers.length) (hfew : w.registry.handlers.length < w.stop)
    (hnone : ∀ j h, w.index ≤ j → j < w.stop → w.registry.handlers[j]? = some h →
      h.answers w.event = false) :
    ¬EventRun.Always (Walk.visit grow) (Proper grow) w es := by
  induction es generalizing w with
  | nil =>
      rw [List.length_nil] at hlen
      omega
  | cons ops es ih =>
      rintro ⟨hproper, hrest⟩
      rw [List.length_cons] at hlen
      rcases Option.ne_none_iff_exists'.1 hproper.inside with ⟨e, hcur⟩
      have hget := (current_eq w e hcur).2
      have hno := hnone w.index e (Nat.le_refl _) (by omega) hget
      have hinside := (List.getElem?_eq_some_iff.1 hget).1
      rw [visit_skip grow w ops e hcur hno] at hrest
      refine ih { w with index := w.index + 1 } ?_ hinside hfew ?_ hrest
      · change es.length + (w.index + 1) = w.stop
        omega
      · intro j h hj
        exact hnone j h (Nat.le_of_succ_le hj)

/-- Where every turn is proper, the handlers act gently. -/
theorem gentle_of_proper (es : List (List Op)) (w : Walk) (h : Tidy w)
    (hlen : es.length + w.index = w.stop)
    (hproper : EventRun.Always (Walk.visit grow) (Proper grow) w es) :
    EventRun.Always (Walk.visit grow) (ActsGently grow) w es := by
  -- by induction on the visits that are left
  induction es generalizing w with
  | nil => exact True.intro
  | cons ops es ih =>
      rw [List.length_cons] at hlen
      have hnext := visit_index grow w ops
      have htidy := tidy_of_proper grow w ops h hproper.1
      refine ⟨?_, ih _ htidy (by rw [hnext.1, hnext.2]; omega) hproper.2⟩
      intro e hcur hanswers hmore
      have hvisit := visit_call grow w ops e hcur hanswers
      have hcomplete := hproper.1.complete
      have hrest := hproper.2
      rw [hvisit] at hcomplete hrest
      cases es with
      | nil =>
          rw [List.length_nil] at hlen
          omega
      | cons ops' es =>
          -- There is another turn, and it looks at an element of the vector.
          rcases Option.ne_none_iff_exists'.1 hrest.1.inside with ⟨e', hcur'⟩
          have hthere := current_eq _ e' hcur'
          refine ⟨hthere.1, ?_, ?_⟩
          · intro h' hmem hinitial hyes hpast
            have hcalled := hcomplete h' hpast hinitial hyes
            have hdistinct := h.distinct
            rw [drop_of_current w e hcur, ← List.singleton_append, ← List.append_assoc] at hdistinct
            exact (List.nodup_append.1 hdistinct).2.2 h' hcalled h' hmem rfl
          -- fewer handlers than the bound counts would let the walk leave the vector
          · by_contra hnot
            rw [not_or, Nat.not_le] at hnot
            refine not_proper_of_few grow (ops' :: es) _ ?_ ?_ hnot.1 ?_ hrest
            · change (ops' :: es).length + (w.index + 1) = w.stop
              rw [List.length_cons] at hlen ⊢
              omega
            · exact Nat.le_of_lt (List.getElem?_eq_some_iff.1 hthere.2).1
            · intro j h' hj hlt hget
              cases hyes : h'.answers w.event with
              | false => rfl
              | true => exact absurd ⟨j, h', hj, hlt, hget, hyes⟩ hnot.2

/-! ### A whole walk -/

/-- A walk begins tidy, whatever calls have been made before. -/
theorem tidy_dispatchEvent (ops : List Op) (event : ArduinoEvent) :
    Tidy (dispatchEvent (Registry.applyAll grow {} ops) event) := by
  rcases behind_applyAll grow {} ops 0 with ⟨new, hsub, hnew, hnodup, -⟩
  rw [List.drop_zero, List.drop_zero, List.nil_append] at hsub
  have hserial : ∀ h ∈ (Registry.applyAll grow {} ops).handlers,
      h.serial < (Registry.applyAll grow {} ops).serial :=
    fun h hmem => (hnew h (hsub.subset hmem)).2
  refine ⟨?_, ?_, ?_, ?_, ?_⟩
  · intro h hmem
    rcases List.mem_append.1 hmem with hinitial | hthere
    · exact hserial h hinitial
    · exact hserial h hthere
  · exact hnodup.sublist hsub
  · exact List.filter_sublist
  · intro h hmem
    simp [dispatchEvent] at hmem
  · intro h hmem
    simp [dispatchEvent] at hmem

/-- Turns move the index and leave the bound, the handlers of the start and the event. -/
theorem run_frame (es : List (List Op)) (w : Walk) :
    (EventRun.run (Walk.visit grow) w es).index = w.index + es.length ∧
      (EventRun.run (Walk.visit grow) w es).stop = w.stop ∧
      (EventRun.run (Walk.visit grow) w es).initial = w.initial ∧
      (EventRun.run (Walk.visit grow) w es).event = w.event := by
  induction es generalizing w with
  | nil => exact ⟨rfl, rfl, rfl, rfl⟩
  | cons ops es ih =>
      have hkept : (w.visit grow ops).initial = w.initial ∧
          (w.visit grow ops).event = w.event := by
        unfold Walk.visit
        repeat' split
        all_goals exact ⟨rfl, rfl⟩
      rcases ih (w.visit grow ops) with ⟨hindex, hstop, hsame, hevent⟩
      rw [EventRun.run_cons, hindex, hstop, hsame, hevent, hkept.1, hkept.2,
        (visit_index grow w ops).1, (visit_index grow w ops).2, List.length_cons]
      exact ⟨by omega, rfl, rfl, rfl⟩

/-- Behind a proper dispatch every handler of the start that is still registered and
is for the event has been called. -/
theorem called_of_proper (ops : List Op) (event : ArduinoEvent) (es : List (List Op)) :
    let w := dispatchEvent (Registry.applyAll grow {} ops) event
    es.length = w.stop → EventRun.Always (Walk.visit grow) (Proper grow) w es →
      ∀ h ∈ (EventRun.run (Walk.visit grow) w es).registry.handlers, h ∈ w.initial →
        h.answers event = true → h ∈ (EventRun.run (Walk.visit grow) w es).called := by
  intro w hlen hproper h hmem hinitial hanswers
  rcases run_frame grow es w with ⟨hindex, hstop, hsame, hevent⟩
  have htidy : Tidy (EventRun.run (Walk.visit grow) w es) :=
    EventRun.inv_run_of_always (I := Tidy) (fun v ops => tidy_of_proper grow v ops)
      (tidy_dispatchEvent grow ops event) hproper
  rw [← List.take_append_drop w.stop (EventRun.run _ w es).registry.handlers] at hmem
  rcases List.mem_append.1 hmem with hbefore | hbehind
  · -- In front of the bound the walk has passed it, so it was called.
    refine htidy.passed h ?_ ?_ ?_
    · have hzero : w.index = 0 := rfl
      rw [hindex, hzero, Nat.zero_add, hlen]
      exact hbefore
    · rw [hsame]
      exact hinitial
    · rw [hevent]
      exact hanswers
  · -- Behind the bound stands only what a handler has registered meanwhile.
    rw [← hstop] at hbehind
    have hnot := htidy.tail h hbehind
    rw [hsame] at hnot
    exact absurd hinitial hnot

/-- For every vector of handlers, every event, and everything the handlers do when they
are called, turn by turn, every turn of the dispatch is proper if and only if every
handler that is called acts gently. -/
theorem dispatch_iff (ops : List Op) (event : ArduinoEvent) (behave : Nat → List Op) :
    let w := dispatchEvent (Registry.applyAll grow {} ops) event
    EventRun.Always (Walk.visit grow) (Proper grow) w ((List.range w.stop).map behave) ↔
      EventRun.Always (Walk.visit grow) (ActsGently grow) w
        ((List.range w.stop).map behave) := by
  intro w
  have htidy : Tidy w := tidy_dispatchEvent grow ops event
  have hlen : ((List.range w.stop).map behave).length + w.index = w.stop := by
    rw [List.length_map, List.length_range]
    exact Nat.add_zero _
  have hready : w.index < w.stop → Ready w := fun _ => ⟨rfl, Or.inl (Nat.le_refl _)⟩
  exact ⟨gentle_of_proper grow _ w htidy hlen, proper_of_gentle grow _ w htidy hready hlen⟩

/-- Of three handlers the first one removes itself: the second one moves into its place and is
passed over, and the third one is looked at next. -/
theorem second_handler_skipped :
    ¬ ∀ (ops : List Op) (event : ArduinoEvent) (behave : Nat → List Op),
      let w := dispatchEvent (Registry.applyAll (2 * ·) {} ops) event
      EventRun.Always (Walk.visit (2 * ·)) (Proper (2 * ·)) w ((List.range w.stop).map behave) := by
  intro hall
  have hturn := (hall [.onEvent (some 1) .max, .onEvent (some 2) .max, .onEvent (some 3) .max]
    .wifiStaConnected (fun _ => [.removeEvent (some 1) .max])).1
  have hcalled := hturn.complete ⟨2, some 2, .max⟩ (by decide) (by decide) (by decide)
  exact absurd hcalled (by decide)

/-- The first of two handlers adds one, and the vector moves. -/
example : ((dispatchEvent (Registry.applyAll (2 * ·) {} [.onEvent (some 1) .max,
    .onEvent (some 2) .max]) .wifiStaConnected).visit (2 * ·)
      [.onEvent (some 3) .max]).current = none := by decide

end WiFi.EventDispatch

end ArduinoBeken
