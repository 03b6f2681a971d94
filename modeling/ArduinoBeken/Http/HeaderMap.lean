import ArduinoBeken.Http.HeaderBlock
import ArduinoBeken.Library.KeyedList
import ArduinoBeken.Library.Run

/-!
# The Header Block as a Map

With replacement asked for, `addHeader` is meant to keep one line for each name, the one that
was added last. The block is a text, and the line of a name is looked for as the first place
of the name, a colon and a blank.

That place may lie within another line: behind the front of a longer name, or in a value.
Then no line is taken off. It may also be the front of a line of another name, when a name has
a colon in it. So the block is the map that it is meant to be exactly as long as that place is
the front of the line itself, or no front of a line if the name has none (`one_line_each_iff`).

## Main definitions

* `render`: The text of lines.
* `HeaderCall`: A call of `addHeader` with replacement.
* `OneLineEach`: The law.
* `Undisturbed`: The calls that find the right line.

## Theorems

* `dropLine_own_iff`: When it is the line of the name.
* `one_line_each_iff`: The law along a run.
* `suffix_name_kept`: Calls with which it fails.
-/

namespace ArduinoBeken

namespace Http

open KeyedList (put without lastValue Reflects)

/-- The text of lines, by their names and values. -/
def render (lines : List (Text × Text)) : Text :=
  lines.flatMap fun p => headerLine p.1 p.2

theorem render_append (l m : List (Text × Text)) : render (l ++ m) = render l ++ render m :=
  List.flatMap_append

theorem render_cons (p : Text × Text) (l : List (Text × Text)) :
    render (p :: l) = headerLine p.1 p.2 ++ render l :=
  List.flatMap_cons

theorem whole_render (lines : List (Text × Text)) : Whole (render lines) := by
  induction lines with
  | nil => exact Or.inl rfl
  | cons p lines ih =>
      rw [render_cons]
      exact (whole_headerLine p.1 p.2).append ih

/-! ### The line of a name -/

/-- The line of a name, without its end. -/
theorem headerLine_eq (name value : Text) :
    headerLine name value = (name ++ ": ".toList ++ value ++ ['\r']) ++ ['\n'] := by
  rw [headerLine, List.append_assoc _ ['\r']]
  rfl

theorem headerLine_start (name value : Text) :
    headerLine name value = (name ++ ": ".toList) ++ (value ++ "\r\n".toList) := by
  rw [headerLine, List.append_assoc (name ++ ": ".toList)]

/-- The first place of the name, a colon and a blank in the block is the front of the name's
line, or of one of its text, with nothing but such lines between. -/
def MeetsOwn (headers front name value : Text) : Prop :=
  '\n' ∉ name ∧ ∃ before copies, Whole before ∧
    front = before ++ (List.replicate copies (headerLine name value)).flatten ∧
    Search.find (name ++ ": ".toList) headers = some before.length

/-- Taking a line off takes the line of the name. -/
theorem dropLine_own_iff (front name value back : Text) (hfront : Whole front)
    (hvalue : '\n' ∉ value) :
    HTTPClient.dropLine (front ++ (headerLine name value ++ back)) (name ++ ": ".toList) =
      front ++ back ↔ MeetsOwn (front ++ (headerLine name value ++ back)) front name value := by
  constructor
  · intro hdrop
    by_cases hhit : ∃ before rest, front ++ (headerLine name value ++ back) = before ++ rest ∧
        Search.find (name ++ ": ".toList) (front ++ (headerLine name value ++ back)) =
          some before.length ∧ Whole before
    · rcases hhit with ⟨before, rest, hsplit, hfind, hbefore⟩
      -- what is found is no later than the line of the name
      have hle : before.length ≤ front.length := by
        rcases Search.find_le_of_append (name ++ ": ".toList) front
          ((value ++ "\r\n".toList) ++ back) with ⟨n, hn, hle⟩
        rw [← List.append_assoc (name ++ ": ".toList), ← headerLine_start, hfind] at hn
        rwa [Option.some.inj hn]
      -- So the front of the line that is found lies within the front.
      obtain ⟨y, rfl⟩ : ∃ y, front = before ++ y :=
        (List.prefix_of_prefix_length_le (hsplit ▸ List.prefix_append before rest)
          (List.prefix_append front _) hle).imp fun _ h => h.symm
      have hend : '\n' ∈ y ++ (headerLine name value ++ back) := by
        rw [headerLine_eq]
        simp only [List.mem_append, List.mem_singleton, or_true, true_or]
      rcases List.eq_append_cons_of_mem hend with ⟨line, after, hline, hlf⟩
      rw [List.append_assoc, hline] at hfind hdrop
      rw [HTTPClient.dropLine_hit before line after _ hbefore hlf hfind, List.append_assoc] at hdrop
      have hafter : after = y ++ back := List.append_cancel_left hdrop
      -- what is taken off and the line of the name stand at either end of the lines between
      have hends : (line ++ ['\n']) ++ y = y ++ headerLine name value := by
        refine List.append_cancel_right (?_ : _ ++ back = _ ++ back)
        rw [List.append_assoc y, hline, hafter, List.append_assoc, List.append_assoc,
          List.singleton_append]
      rcases Search.eq_repeat_of_append_comm hlf _ y.length y (Nat.le_refl _)
        hfront.tail_of_append hends with ⟨hsame, copies, hy⟩
      rw [headerLine_eq] at hsame
      -- The two lines are equal, and the one that was found ends at its line feed.
      have hname : '\n' ∉ name := by
        intro hmem
        rw [← List.append_cancel_right hsame] at hlf
        exact hlf (List.mem_append_left _ (List.mem_append_left _ (List.mem_append_left _ hmem)))
      refine ⟨hname, before, copies, hbefore, ?_, ?_⟩
      · rw [headerLine_eq, hsame, ← hy]
      · rw [List.append_assoc, hline]
        exact hfind
    · -- Without a hit nothing is taken off, and the block is too long.
      rw [HTTPClient.dropLine_miss _ _ fun before rest hsplit hfind hbefore =>
        hhit ⟨before, rest, hsplit, hfind, hbefore⟩] at hdrop
      have hlen := congrArg List.length hdrop
      rw [headerLine_eq] at hlen
      simp only [List.length_append, List.length_singleton] at hlen
      omega
  · rintro ⟨hname, before, copies, hbefore, rfl, hfind⟩
    have hline : '\n' ∉ name ++ ": ".toList ++ value ++ ['\r'] := by
      simp only [List.mem_append, not_or]
      exact ⟨⟨⟨hname, by decide⟩, hvalue⟩, by decide⟩
    -- the lines of this text change places
    have hcomm : (List.replicate copies (headerLine name value)).flatten ++
        (headerLine name value ++ back) = (name ++ ": ".toList ++ value ++ ['\r']) ++
          '\n' :: ((List.replicate copies (headerLine name value)).flatten ++ back) := by
      generalize hlines : (List.replicate copies (headerLine name value)).flatten = lines
      have hboth : headerLine name value ++ lines = lines ++ headerLine name value := by
        rw [← hlines, ← List.flatten_cons, ← List.replicate_succ, List.replicate_succ',
          List.flatten_append, List.flatten_singleton]
      rw [← List.append_assoc, ← hboth, headerLine_eq, List.append_assoc, List.append_assoc,
        List.singleton_append]
    rw [List.append_assoc, hcomm] at hfind ⊢
    rw [HTTPClient.dropLine_hit _ _ _ _ hbefore hline hfind, List.append_assoc]

/-! ### Runs of calls -/

/-- A call of `addHeader` with replacement, for a name that is not reserved and a value
without a line break. -/
structure HeaderCall (c : HTTPClient) where
  name : Text
  value : Text
  first : Bool := false
  unreserved : c.handledByCode name = false
  unbroken : '\n' ∉ value

/-- A client, the lines that its block is meant to have, and all that was added. -/
structure HeaderState where
  http : HTTPClient
  lines : List (Text × Text) := []
  added : List (Text × Text) := []

/-- A client whose block is empty. -/
def HeaderState.start (c : HTTPClient) : HeaderState :=
  { http := { c with headers := [] } }

namespace HeaderCall

variable {c : HTTPClient}

/-- A call, with the lines that the block is to have. -/
def step (s : HeaderState) (call : HeaderCall c) : HeaderState where
  http := s.http.addHeader call.name call.value call.first true
  lines := put call.first call.name call.value s.lines
  added := s.added ++ [(call.name, call.value)]

/-- The block is the text of the lines: one for each name, with the value that was added last.
The lines of other names are the ones from before. -/
def OneLineEach (s : HeaderState) (call : HeaderCall c) : Prop :=
  (step s call).http.headers = render (step s call).lines ∧
  Reflects (step s call).added (step s call).lines ∧
  ∀ p : Text × Text, p.1 ≠ call.name → (p ∈ (step s call).lines ↔ p ∈ s.lines)

/-- The first place of the name, a colon and a blank in the block is that of the name's line;
for a name without a line it is not at the front of one. -/
def Undisturbed (s : HeaderState) (call : HeaderCall c) : Prop :=
  (∀ front value back, s.lines = front ++ (call.name, value) :: back →
    MeetsOwn s.http.headers (render front) call.name value) ∧
  (call.name ∉ s.lines.map Prod.fst → ∀ before rest, s.http.headers = before ++ rest →
    Search.find (call.name ++ ": ".toList) s.http.headers = some before.length →
    ¬ Whole before)

/-- The block is that of the lines, which hold what was added last. -/
structure Inv (c : HTTPClient) (s : HeaderState) : Prop where
  http_eq : s.http = { c with headers := render s.lines }
  reflects : Reflects s.added s.lines
  unbroken : ∀ p ∈ s.lines, '\n' ∉ p.2

theorem inv_start (c : HTTPClient) : Inv c (.start c) :=
  ⟨rfl, KeyedList.reflects_nil, fun _ hp => absurd hp List.not_mem_nil⟩

theorem step_http (s : HeaderState) (call : HeaderCall c) (h : Inv c s) :
    (step s call).http = { c with
      headers := HTTPClient.withLine (render s.lines) call.name call.value call.first true } := by
  have hunreserved : s.http.handledByCode call.name = false := by
    rw [h.http_eq]
    exact call.unreserved
  change s.http.addHeader call.name call.value call.first true = _
  rw [addHeader_of_unhandled s.http _ _ _ _ hunreserved, h.http_eq]

/-- The block is that of the lines again just if the right line is taken off. -/
theorem headers_eq_iff (s : HeaderState) (call : HeaderCall c) (h : Inv c s) :
    (step s call).http.headers = render (step s call).lines ↔
      HTTPClient.dropLine (render s.lines) (call.name ++ ": ".toList) =
        render (without call.name s.lines) := by
  rw [step_http s call h]
  change HTTPClient.withLine _ _ _ _ _ = render (put call.first call.name call.value s.lines) ↔ _
  rw [withLine_eq, put]
  -- The new line is at the same end on both sides, so it can be left out.
  cases call.first with
  | false =>
      rw [if_neg Bool.false_ne_true, if_neg Bool.false_ne_true, render_append, render_cons]
      change _ = _ ++ (_ ++ []) ↔ _
      rw [List.append_nil]
      exact List.append_left_inj _
  | true =>
      rw [if_pos rfl, if_pos rfl, render_cons]
      exact List.append_right_inj _

theorem oneLineEach_iff (s : HeaderState) (call : HeaderCall c) (h : Inv c s) :
    OneLineEach s call ↔ Undisturbed s call := by
  -- The lines in the abstract keep the law by themselves; the block is what is in question.
  have hothers : ∀ p : Text × Text, p.1 ≠ call.name →
      (p ∈ (step s call).lines ↔ p ∈ s.lines) := by
    intro p hp
    refine (KeyedList.mem_put_iff _ _ _ _ p).trans ⟨?_, fun hmem => Or.inr ⟨hmem, hp⟩⟩
    rintro (rfl | ⟨hmem, -⟩)
    · exact absurd rfl hp
    · exact hmem
  have hlaw : OneLineEach s call ↔
      HTTPClient.dropLine (render s.lines) (call.name ++ ": ".toList) =
        render (without call.name s.lines) := by
    rw [← headers_eq_iff s call h]
    exact ⟨fun hl => hl.1, fun hl => ⟨hl, h.reflects.put call.first _ _, hothers⟩⟩
  rw [hlaw, Undisturbed, h.http_eq]
  -- A name with a line has exactly one, and a name without one has none to take off.
  by_cases hmem : call.name ∈ s.lines.map Prod.fst
  · rcases KeyedList.exists_middle call.name s.lines hmem with ⟨front, value, back, hlines⟩
    have hvalue : '\n' ∉ value :=
      h.unbroken (call.name, value) (hlines ▸ List.mem_append_right _ List.mem_cons_self)
    have hown := dropLine_own_iff (render front) call.name value (render back)
      (whole_render front) hvalue
    have hnodup := h.reflects.nodup
    rw [hlines] at hnodup
    have hwithout := KeyedList.without_middle call.name value front back hnodup
    rw [hlines, render_append, render_cons, hwithout, render_append, hown]
    constructor
    · intro hmeets
      refine ⟨fun front' value' back' hlines' => ?_, fun hnot => ?_⟩
      · obtain ⟨rfl, rfl, -⟩ :=
          KeyedList.middle_unique call.name value value' front front' back back' hlines' hnodup
        exact hmeets
      · exact absurd (hlines ▸ hmem) hnot
    · intro hund
      exact hund.1 front value back rfl
  · rw [KeyedList.without_of_not_mem _ _ hmem]
    constructor
    · intro hdrop
      refine ⟨fun front value back hlines => ?_, fun _ before rest hsplit hfind hbefore => ?_⟩
      · refine absurd ?_ hmem
        rw [hlines, List.map_append, List.map_cons]
        exact List.mem_append_right _ List.mem_cons_self
      · -- a line would be taken off
        have hwhole := whole_render s.lines
        change render s.lines = _ at hsplit
        change Search.find _ (render s.lines) = _ at hfind
        rw [hsplit] at hwhole hdrop hfind
        rcases HTTPClient.dropLine_whole before rest _ hwhole (start_ne_nil call.name) hfind hbefore
          with ⟨line, after, rfl, -, -, -, hless⟩
        have hlen := congrArg List.length (hless.symm.trans hdrop)
        simp only [List.length_append, List.length_cons] at hlen
        omega
    · intro hund
      exact HTTPClient.dropLine_miss _ _ fun before rest hsplit hfind =>
        hund.2 hmem before rest hsplit hfind

theorem inv_step (s : HeaderState) (call : HeaderCall c) (h : Inv c s)
    (hlaw : OneLineEach s call) : Inv c (step s call) := by
  refine ⟨?_, hlaw.2.1, ?_⟩
  · -- The call changes the block only, and the block is that of the lines.
    have hheaders := hlaw.1
    rw [step_http s call h] at hheaders ⊢
    rw [← hheaders]
  · intro p hp
    rcases (KeyedList.mem_put_iff _ _ _ _ p).1 hp with rfl | ⟨hmem, -⟩
    · exact call.unbroken
    · exact h.unbroken p hmem

end HeaderCall

/-- The block holds one line for each name, the one added last, along exactly the runs of
undisturbed calls. -/
theorem one_line_each_iff (c : HTTPClient) (calls : List (HeaderCall c)) :
    EventRun.Always HeaderCall.step HeaderCall.OneLineEach (.start c) calls ↔
      EventRun.Always HeaderCall.step HeaderCall.Undisturbed (.start c) calls :=
  EventRun.always_iff_of_good (I := HeaderCall.Inv c) HeaderCall.inv_step
    HeaderCall.oneLineEach_iff (HeaderCall.inv_start c) calls

/-- A header whose name ends another one's, added twice. -/
def suffixName : List (HeaderCall {}) :=
  [{ name := "X-Type".toList, value := ['1'], unreserved := by decide, unbroken := by decide },
   { name := "Type".toList, value := ['2'], unreserved := by decide, unbroken := by decide },
   { name := "Type".toList, value := ['3'], unreserved := by decide, unbroken := by decide }]

/-- Its first line is not taken off. -/
theorem suffix_name_kept :
    ¬ EventRun.Always HeaderCall.step HeaderCall.OneLineEach (.start {}) suffixName := by
  -- The third call finds the name at the end of another one, and takes nothing off.
  rintro ⟨-, -, ⟨hheaders, -⟩, -⟩
  exact absurd hheaders (by decide)

end Http

end ArduinoBeken
