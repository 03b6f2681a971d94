import ArduinoBeken.Http.Leftovers

/-!
# Where a Request is Written

A `begin` may leave a connection to another port, or one that a kind of `begin` without
URL did not look at, or an object that is not of the kind that was asked for, or the
certificates of another target for the object that it is given. The next request goes
out over it.

Where each such step leaves nothing that is not of its own target, each request is
written to a connection to its target (`onTarget_of_careful`).

## Main definitions

* `OnTarget`: What is promised of a request.
* `Careful`: The condition on a step.
* `Aimed`: The invariant.

## Theorems

* `aimed_perform`, `aimed_connect`, `aimed_step`: The invariant along a step.
* `onTarget_of_aimed`: What is connected is connected to the target.
* `onTarget_of_careful`: The promise along a run.
-/

namespace ArduinoBeken

namespace Http

open Arrivals

/-- The request goes out over an object and a connection of the target. -/
def OnTarget (g : Goal) (w : World) : Prop :=
  ∃ o t, w.http.client = some o ∧ w.opened o = some t ∧ g.Reached t ∧
    g.Suits o (w.objects o).settings w.http.tcpDeprecated ∧
    (g.given = none → g.asked.https = true → t.config.isSome = true)

/-- The request that a step sends, if any, is on target, and what the step does is
defined. -/
def SendsOnTarget (lib : TimeLibrary) (s : Watched) (e : Event) : Prop :=
  (step lib s.world e).undefined = false ∧
    ∀ r, sentBy s.world e = some r →
      OnTarget ⟨r.1.http.host, r.1.http.port, r.1.asked, s.given⟩ r.1

/-- `verify` of the traits leaves an object as it is. -/
def TransportTraits.Leaves (settings : Settings) : TransportTraits → Prop
  | .plain => True
  | .tls config => settings = ⟨true, some config⟩

/-- `verify` would leave the client in use as it is. -/
def World.VerifiesNothing (w : World) : Prop :=
  ∀ o ∈ w.http.client, ∀ _ ∈ w.http.tcpDeprecated, ∀ traits ∈ w.http.transportTraits,
    traits.Leaves (w.objects o).settings

/-- The effect of a step is defined, and whatever it leaves of an earlier target is of the
new one. A client object that was given is not configured again, and no request is sent
without a `begin` behind its `end`. -/
def Careful (s : Watched) (e : Event) : Prop :=
  Safe s.world e ∧
    match e with
    | .call c => s.world.pending = none → ∀ l ∈ c.left s, l.Fits s.world
    | .send _ =>
      s.given ≠ none → s.world.VerifiesNothing ∧
        (s.world.http.client = none → s.world.http.transportTraits = none)
    | _ => True

instance (g : Goal) (t : Opened) : Decidable (g.Reached t) :=
  inferInstanceAs (Decidable (_ ∧ _ ∧ (_ → _)))

instance (g : Goal) (o : Nat) (settings : Settings) (own : Option Nat) :
    Decidable (g.Suits o settings own) :=
  match g with
  | ⟨_, _, _, some _⟩ => inferInstanceAs (Decidable (_ ∧ (_ → _ ∧ _)))
  | ⟨_, _, _, none⟩ => inferInstanceAs (Decidable (_ ∧ _))

instance (l : Left) (w : World) : Decidable (l.Fits w) :=
  inferInstanceAs (Decidable (_ ∧ _))

instance (settings : Settings) (traits : TransportTraits) : Decidable (traits.Leaves settings) :=
  match traits with
  | .plain => isTrue True.intro
  | .tls _ => inferInstanceAs (Decidable (_ = _))

instance (w : World) : Decidable w.VerifiesNothing :=
  inferInstanceAs (Decidable (∀ o ∈ _, ∀ _ ∈ _, ∀ traits ∈ _, _))

instance (s : Watched) (e : Event) : Decidable (Careful s e) :=
  match e with
  | .call c => inferInstanceAs (Decidable (Safe s.world (.call c) ∧ (_ → ∀ l ∈ _, _)))
  | .send r => inferInstanceAs (Decidable (Safe s.world (.send r) ∧ (_ → _ ∧ (_ → _))))
  | .follow => inferInstanceAs (Decidable (Safe s.world .follow ∧ True))
  | .request type payload =>
    inferInstanceAs (Decidable (Safe s.world (.request type payload) ∧ True))
  | .network o ticks ending =>
    inferInstanceAs (Decidable (Safe s.world (.network o ticks ending) ∧ True))

/-- The object in use and its connection are of the target, and so are the traits. -/
structure Aimed (s : Watched) : Prop where
  reached : ∀ o ∈ s.world.http.client, ∀ t ∈ s.world.opened o, s.goal.Reached t
  suits : ∀ o ∈ s.world.http.client,
    s.goal.Suits o (s.world.objects o).settings s.world.http.tcpDeprecated
  traits : s.given = none →
    (s.world.http.client = none ∧ s.world.http.transportTraits = none) ∨
      ∃ t, s.world.http.transportTraits = some t ∧ s.world.asked.Makes t


/-! ### The invariant -/

/-- Objects of the client's own making are not mixed with others. -/
theorem Aimed.unmixed {s : Watched} (h : Aimed s) (hown : s.given = none) :
    s.world.mixes = false := by
  unfold World.mixes
  cases hclient : s.world.http.client with
  | none => rfl
  | some o =>
      have hsuits := h.suits o hclient
      simp only [Goal.Suits, Watched.goal, hown] at hsuits
      rw [hsuits.1]
      rfl

theorem aimed_of_leaves {s : Watched} {w' : World} {l : Left} (h : Aimed s)
    (hleaves : Leaves s w' l) (hfits : l.Fits s.world) : Aimed ⟨w', l.goal.given⟩ := by
  have hgoal : Watched.goal ⟨w', l.goal.given⟩ = l.goal := by
    rw [Watched.goal, hleaves.host, hleaves.port, hleaves.asked]
  refine ⟨?_, ?_, ?_⟩
  -- what is open: the call leaves open only what suits the new goal
  · intro o ho t ht
    rw [hgoal]
    rw [hleaves.client] at ho
    exact hfits.2 t (hleaves.opened o ho t ht)
  -- the object: a handed-in one is used as it is set up, one of its own as it was asked for
  · intro o ho
    rw [hgoal]
    rw [hleaves.client] at ho
    have hsuits := hfits.1 o ho
    unfold Goal.Suits at hsuits ⊢
    cases hgiven : l.goal.given with
    | some client =>
        simp only [hgiven, hleaves.settings] at hsuits ⊢
        exact hsuits
    | none =>
        simp only [hgiven, hleaves.settings] at hsuits ⊢
        rw [hleaves.own hgiven (Option.isSome_iff_exists.2 ⟨o, ho⟩)]
        exact hsuits
  · intro hgiven
    rcases hleaves.traits hgiven with ⟨t, ht, hmakes⟩ | ⟨hown, hasked, hsame⟩
    · right
      refine ⟨t, ht, ?_⟩
      rw [hleaves.asked]
      exact hmakes
    · -- The call has failed, or it has kept to the old kind.
      rcases hsame (h.unmixed hown) with ⟨hclient, htraits⟩
      rw [hleaves.asked, hasked, hclient, htraits]
      exact h.traits hown

theorem aimed_of_same {w w' : World} {given : Option Nat} (h : Aimed ⟨w, given⟩)
    (hsame : World.SameTarget w w') : Aimed ⟨w', given⟩ := by
  have hgoal : Watched.goal ⟨w', given⟩ = Watched.goal ⟨w, given⟩ := by
    rw [Watched.goal, hsame.host, hsame.port, hsame.asked]
    rfl
  refine ⟨?_, ?_, ?_⟩
  · intro o ho t ht
    rw [hgoal]
    rw [hsame.client] at ho
    have ht' : w'.opened o = some t := ht
    rcases hsame.opened o with hopened | hnone
    · exact h.reached o ho t (hopened ▸ ht')
    · exact absurd (hnone.symm.trans ht') (fun hno => by cases hno)
  · intro o ho
    rw [hgoal, hsame.settings, hsame.tcpDeprecated]
    exact h.suits o (hsame.client ▸ ho)
  · intro hown
    rw [hsame.client, hsame.transportTraits, hsame.asked]
    exact h.traits hown

/-- With the object its traits are dropped, if it was of the client's own making. -/
theorem aimed_finish {s : Watched} (h : Aimed s) : Aimed ⟨s.world.finish, s.given⟩ := by
  unfold World.finish
  rw [World.disconnect_ending]
  by_cases hcloses : s.world.connected = true ∧
      (s.world.http.reuse && s.world.http.canReuse) = false
  · rw [if_pos hcloses]
    refine ⟨fun o ho => (nomatch ho), fun o ho => (nomatch ho), fun hown => Or.inl ⟨rfl, ?_⟩⟩
    rcases World.opened_of_connected s.world hcloses.1 with ⟨o, t, ho, -⟩
    have hsuits := h.suits o ho
    have hown' : s.given = none := hown
    simp only [Goal.Suits, Watched.goal, hown'] at hsuits
    exact if_pos (by rw [hsuits.1]; rfl)
  · rw [if_neg hcloses]
    exact aimed_of_same h (World.sameTarget_fields _ _ _ _ rfl rfl rfl rfl rfl)

/-- A path is of the target, and another URL is not taken. -/
theorem aimed_setURL {s : Watched} (h : Aimed s) (url : Text)
    (hsafe : s.world.readsFreed url = false) : Aimed ⟨(s.world.setURL url).1, s.given⟩ := by
  rcases s.world.setURL_cases url with ⟨-, hset⟩ | ⟨-, -, hset⟩ | ⟨hfreed, -⟩
  · rw [hset]
    exact aimed_of_same h (World.sameTarget_fields _ _ _ _ rfl rfl rfl rfl rfl)
  · rw [hset]
    exact h
  · exact absurd (hsafe.symm.trans hfreed) Bool.false_ne_true

/-- Each call keeps to the target. -/
theorem aimed_perform {s : Watched} (h : Aimed s) (c : Call) (hidle : s.world.pending = none)
    (hcareful : Careful s (.call c)) : Aimed ⟨s.world.perform c, c.given s⟩ := by
  -- A call that begins leaves the client aimed, if what is left over fits.
  have hbegins : ∀ (w' : World) (given : Option Nat),
      (∃ l, c.left s = some l ∧ Leaves s w' l ∧ given = l.goal.given) → Aimed ⟨w', given⟩ := by
    rintro w' given ⟨l, hl, hleaves, rfl⟩
    exact aimed_of_leaves h hleaves (hcareful.2 hidle l hl)
  -- Reading the body changes the size and may close the connection.
  have hsize : ∀ (v : World) (size : Int), v.http = s.world.http → World.SameTarget s.world v →
      Aimed ⟨{ v with http := { s.world.http with size := size } }, s.given⟩ := by
    intro v size hv hsame
    rw [← hv]
    exact aimed_of_same h (hsame.trans (World.sameTarget_fields _ _ _ _ rfl rfl rfl rfl rfl))
  cases c with
  | beginClientUrl client url =>
      rcases leaves_beginClientUrl s client url with ⟨l, hl, hleaves, hgiven⟩
      exact hbegins _ _ ⟨l, hl, hleaves, hgiven.symm⟩
  | beginClientHost client host port uri https =>
      exact hbegins _ _
        ⟨_, rfl, leaves_beginClientHost s client host port uri https, rfl⟩
  | beginUrl url =>
      exact hbegins _ _ (leaves_beginUrl s url)
  | beginUrlCert url CAcert =>
      have hcert := leaves_beginUrlCert s s.world (World.ownStart_beginOwn s.world) url CAcert
      refine hbegins _ _ ⟨_, rfl, hcert.1, ?_⟩
      simp only [Call.given, hcert.2, Watched.leavesOwn, Watched.leaves, Goal.toUrl]
      cases (urlTarget ["https".toList] url).isSome <;> rfl
  | beginHost host port uri =>
      refine hbegins _ _ ⟨_, rfl, ?_, rfl⟩
      exact leaves_beginAt s ⟨host, port, ⟨false, none⟩, none⟩ uri _ _
        (fun _ => Or.inl ⟨.plain, rfl, rfl⟩)
  | beginHostCerts host port uri CAcert cli_cert cli_key =>
      exact hbegins _ _
        (leaves_beginHostCerts s host port uri CAcert cli_cert cli_key)
  | setURL url => exact aimed_setURL h url (hcareful.1 hidle)
  | finish => exact aimed_finish h
  | addHeader name value first replace =>
      have hframe := s.world.http.addHeader_frame name value first replace
      refine aimed_of_same h (World.sameTarget_fields s.world _ _ _ ?_ ?_ ?_ ?_ ?_) <;> rw [hframe]
  | writeToStream k =>
      rcases writeToStream_keeps s.world.http s.world.link k with ⟨size, hhttp, hlink⟩
      simp only [World.perform, hhttp]
      exact hsize _ size (World.sameCalls_withLink s.world _).http
        (World.sameTarget_withLink s.world _ hlink)
  | getString =>
      rcases getString_keeps s.world.http s.world.link with ⟨size, hhttp, hlink⟩
      simp only [World.perform, hhttp]
      exact hsize _ size (World.sameCalls_withLink s.world _).http
        (World.sameTarget_withLink s.world _ hlink)
  | _ => exact aimed_of_same h (World.sameTarget_fields _ _ _ _ rfl rfl rfl rfl rfl)

/-! ### Connecting -/

/-- An object that is made is of the kind that was asked for. -/
theorem aimed_create {s : Watched} (h : Aimed s)
    (hbegun : s.given ≠ none → s.world.http.client = none → s.world.http.transportTraits = none) :
    Aimed ⟨s.world.create, s.given⟩ := by
  unfold World.create
  split
  -- An object is made only where there is none and it has traits.
  next traits htraits hclient =>
    have hown : s.given = none := by
      by_contra hgiven
      exact absurd ((hbegun hgiven hclient).symm.trans htraits) (fun hno => by cases hno)
    rcases h.traits hown with hnone | ⟨t, ht, hmakes⟩
    · exact absurd (hnone.2.symm.trans htraits) (fun hno => by cases hno)
    · have hkind : decide (traits ≠ .plain) = s.world.asked.https := by
        rw [← Option.some.inj (ht.symm.trans htraits)]
        -- The object is a TLS client exactly for https.
        cases t with
        | plain =>
            have hplain : s.world.asked.https = false := hmakes
            rw [hplain]
            rfl
        | tls config =>
            rw [hmakes.1]
            exact decide_eq_true (fun hno => by cases hno)
      refine ⟨?_, ?_, fun _ => Or.inr ⟨t, ht, hmakes⟩⟩
      · -- The object has not been opened yet.
        intro o ho u hu
        rw [← Option.some.inj ho] at hu
        simp only [World.opened, Function.update_self] at hu
        exact absurd hu (fun hno => by cases hno)
      · intro o ho
        have ho' : s.world.fresh = o := Option.some.inj ho
        simp only [Goal.Suits, Watched.goal, hown, ← ho', Function.update_self]
        exact ⟨trivial, hkind⟩
  next => exact h

/-- An object that is not to be configured again stays as it is. -/
theorem settings_verify (w : World) (h : w.VerifiesNothing) (o : Nat) :
    (w.verify.objects o).settings = (w.objects o).settings := by
  unfold World.verify
  split
  next own config client hown htraits hclient =>
    have hsame := h client hclient own hown (.tls config) htraits
    split
    · by_cases ho : o = client
      · subst ho
        simp only [Function.update_self]
        have hconfig : (w.objects o).config = some config := congrArg Settings.config hsame
        rw [NetObject.settings, NetObject.settings, hconfig]
      · simp only [Function.update_of_ne ho]
    · rfl
  next => rfl

/-- What `verify` configures is an object of the client's own making. -/
theorem aimed_verify {s : Watched} (h : Aimed s)
    (hgiven : s.given ≠ none → s.world.VerifiesNothing) : Aimed ⟨s.world.verify, s.given⟩ := by
  have hframe := s.world.verify_frame
  have hgoal : Watched.goal ⟨s.world.verify, s.given⟩ = s.goal := by
    rw [Watched.goal, hframe.1, hframe.2.2]
    rfl
  refine ⟨?_, ?_, ?_⟩
  · intro o ho t ht
    -- `verify` opens and closes nothing
    rw [hframe.1] at ho
    rw [(s.world.verify_objects o).2] at ht
    rw [hgoal]
    exact h.reached o ho t ht
  · intro o ho
    rw [hframe.1] at ho
    have hsuits := h.suits o ho
    rw [hgoal, hframe.1]
    -- a handed-in object is left alone, as the condition asks, and an own one takes the
    -- certificates
    cases hg : s.given with
    | some client =>
        rw [settings_verify s.world (hgiven (by rw [hg]; exact fun hno => by cases hno)) o]
        exact hsuits
    | none =>
        simp only [Goal.Suits, Watched.goal, hg] at hsuits ⊢
        exact ⟨hsuits.1, (s.world.verify_objects o).1.trans hsuits.2⟩
  · intro hown
    rw [hframe.1, hframe.2.2]
    exact h.traits hown

/-- The object in use is configured as was asked for before it connects. -/
theorem config_verify {s : Watched} (h : Aimed s) (o : Nat) (ho : s.world.http.client = some o)
    (hgiven : s.given ≠ none → s.world.VerifiesNothing) (hhttps : s.world.asked.https = true) :
    (s.world.verify.objects o).config = s.world.asked.config := by
  have hsuits := h.suits o ho
  cases hg : s.given with
  | some client =>
      have hsettings := settings_verify s.world
        (hgiven (by rw [hg]; exact fun hno => by cases hno)) o
      simp only [Goal.Suits, Watched.goal, hg] at hsuits
      exact (congrArg Settings.config hsettings).trans (hsuits.2 hhttps).2
  | none =>
      simp only [Goal.Suits, Watched.goal, hg] at hsuits
      rcases h.traits hg with hnone | ⟨t, ht, hmakes⟩
      · exact absurd (hnone.1.symm.trans ho) (fun hno => by cases hno)
      · cases t with
        | plain => exact absurd (Eq.trans (Eq.symm hmakes) hhttps) Bool.false_ne_true
        | tls config =>
            -- The object is a secure one, so it is configured.
            have hsecure : (s.world.objects o).secure = true := hsuits.2.trans hhttps
            unfold World.verify
            simp only [hsuits.1, ht, ho, hsecure, if_true, Function.update_self]
            exact hmakes.2.symm

/-- The client in use is connected to the target, if it is connected. -/
theorem aimed_connect {s : Watched} (h : Aimed s) (r : Reply)
    (hbegun : s.given ≠ none → s.world.VerifiesNothing ∧
      (s.world.http.client = none → s.world.http.transportTraits = none)) :
    Aimed ⟨(s.world.connect r).1, s.given⟩ := by
  unfold World.connect
  by_cases hconn : s.world.connected = true
  · -- A connection that is open is used as it is.
    rw [if_pos hconn]
    exact aimed_of_same h (World.sameTarget_withLink s.world _ (fun _ => hconn))
  · rw [if_neg hconn]
    have hcreated := aimed_create h (fun hgiven => (hbegun hgiven).2)
    -- No object is made where one was given.
    have hnothing : s.given ≠ none → s.world.create.VerifiesNothing := by
      intro hgiven
      unfold World.create
      split
      next traits htraits hclient =>
        exact absurd (((hbegun hgiven).2 hclient).symm.trans htraits) (fun hno => by cases hno)
      next => exact (hbegun hgiven).1
    have hverified := aimed_verify hcreated hnothing
    have hframe := s.world.create.verify_frame
    simp only []
    split
    -- no object, a cast that is undefined, a refusal: nothing is opened
    next => exact hcreated
    next o ho =>
      split
      · exact hverified
      · split
        · refine ⟨?_, ?_, hverified.traits⟩
          · -- The connection that is opened is to the host and port in use.
            intro o' ho' t ht
            have hclient : s.world.create.verify.http.client = some o' := ho'
            rw [hframe.1] at hclient
            have heq : o = o' := Option.some.inj (ho.symm.trans hclient)
            rw [← heq] at ht
            simp only [World.opened, World.openConnection, Function.update_self] at ht
            have ht' : (⟨s.world.create.verify.http.host, s.world.create.verify.http.port,
              (s.world.create.verify.objects o).config⟩ : Opened) = t := Option.some.inj ht
            rw [← ht']
            refine ⟨rfl, rfl, fun hhttps => ?_⟩
            have hhttps' : s.world.create.asked.https = true := hframe.2.2 ▸ hhttps
            exact (config_verify hcreated o ho hnothing hhttps').trans
              (congrArg Asked.config hframe.2.2.symm)
          · -- The objects themselves are what they were.
            intro o' ho'
            have hclient : s.world.create.verify.http.client = some o' := ho'
            have hsuits := hverified.suits o' hclient
            rw [hframe.1] at hclient
            have heq : o = o' := Option.some.inj (ho.symm.trans hclient)
            rw [← heq] at hsuits ⊢
            simp only [World.openConnection, Function.update_self]
            exact hsuits
        · exact hverified

/-- What is connected is connected to the target. -/
theorem onTarget_of_aimed {s : Watched} (h : Aimed s) (hconn : s.world.connected = true) :
    OnTarget s.goal s.world := by
  rcases World.opened_of_connected s.world hconn with ⟨o, t, ho, ht⟩
  have hreached := h.reached o ho t ht
  refine ⟨o, t, ho, ht, hreached, h.suits o ho, fun hown hhttps => ?_⟩
  rw [hreached.2.2 hhttps]
  rcases h.traits hown with hnone | ⟨traits, htraits, hmakes⟩
  · exact absurd (hnone.1.symm.trans ho) (fun hno => nomatch hno)
  · cases traits with
    | plain => exact absurd (Eq.trans (Eq.symm hmakes) hhttps) Bool.false_ne_true
    | tls config =>
        have hconfig : s.goal.asked.config = some config := hmakes.2
        rw [hconfig]
        rfl

theorem aimed_prepare {s : Watched} (h : Aimed s) (p : Pending) (r : Reply) :
    Aimed ⟨s.world.prepare p r, s.given⟩ := by
  rw [World.prepare_http]
  exact aimed_of_same h (World.sameTarget_fields _ _ _ _ rfl rfl rfl rfl rfl)

theorem aimed_wiped {s : Watched} (h : Aimed s) :
    Aimed ⟨{ s.world with http := s.world.http.wipeHeaders }, s.given⟩ :=
  aimed_of_same h (World.sameTarget_fields s.world _ _ _ rfl rfl rfl rfl rfl)

/-- A request is on target if what its connection is made from is. -/
theorem sendsOnTarget (lib : TimeLibrary) {s : Watched} (h : Aimed s)
    (hdefined : s.world.undefined = false) (e : Event) (hcareful : Careful s e) :
    SendsOnTarget lib s e := by
  refine ⟨defined_of_safe lib s.world e hdefined hcareful.1, ?_⟩
  intro q hq
  rcases sentBy_cases s.world e q hq with ⟨p, r, w', rfl, -, hp, -, hready, rfl⟩
  have hwiped := aimed_wiped h
  have hconnected := aimed_connect hwiped r hcareful.2
  unfold World.ready at hready
  simp only [] at hready
  split at hready
  · split at hready
    next hconn =>
      rw [← Option.some.inj hready]
      exact onTarget_of_aimed (aimed_prepare hconnected p r) hconn
    next => exact absurd hready (fun hno => nomatch hno)
  · exact absurd hready (fun hno => nomatch hno)

/-! ### Runs -/

/-- A response sets fields of an answer, and is read from the open connection. -/
theorem sameTarget_receive (lib : TimeLibrary) (w : World) (r : Reply)
    (hconn : w.connected = true) : World.SameTarget w (w.receive lib r).1 := by
  rcases World.receive_frame lib w r with hreceive | ⟨link, a, hreceive⟩
  · rw [hreceive]
    exact World.SameTarget.refl w
  · have hlink := (World.sameCalls_withLink w link).http
    rw [hreceive]
    refine (World.sameTarget_withLink w link (fun _ => hconn)).trans ?_
    refine World.sameTarget_fields _ _ _ _ ?_ ?_ ?_ ?_ ?_ <;> rw [hlink] <;> rfl

theorem aimed_send {s : Watched} (h : Aimed s) (lib : TimeLibrary) (p : Pending) (r : Reply)
    (hbegun : s.given ≠ none → s.world.VerifiesNothing ∧
      (s.world.http.client = none → s.world.http.transportTraits = none)) :
    Aimed ⟨s.world.send lib p r, s.given⟩ := by
  -- a request wipes, connects, prepares and writes, and the target stays through all of it
  have hwiped := aimed_wiped h
  have hconnected := aimed_connect hwiped r hbegun
  have hprepared := aimed_prepare hconnected p r
  have hreturn : ∀ (w' : World) (code : Int), Aimed ⟨w', s.given⟩ →
      Aimed ⟨w'.returnCode code, s.given⟩ := fun w' code hw' =>
    aimed_of_same hw' (World.sameTarget_returnCode w' code)
  rcases World.send_cases lib s.world p r with ⟨-, code, hsend | hsend⟩ |
    ⟨v, -, hopen, hv, hanswer⟩
  · rw [hsend]
    exact hreturn _ _ hconnected
  · rw [hsend]
    exact hreturn _ _ hprepared
  · have hwritten : Aimed ⟨v.written, s.given⟩ := by
      subst hv
      exact aimed_of_same hprepared (World.sameTarget_fields _ _ _ _ rfl rfl rfl rfl rfl)
    rcases hanswer with ⟨code, hsend⟩ | ⟨code, hsend⟩
    · rw [hsend]
      exact hreturn _ _ hwritten
    · -- the answer is read from the connection that the head was written to
      have hreceived := aimed_of_same hwritten (sameTarget_receive lib v.written r hopen)
      rw [hsend]
      exact aimed_of_same hreceived (World.sameTarget_fields _ _ _ _ rfl rfl rfl rfl rfl)

theorem aimed_follow {s : Watched} (h : Aimed s) (p : Pending) (code : Int)
    (hsafe : (s.world.redirect p code).isSome = true →
      s.world.readsFreed s.world.http.location = false) :
    Aimed ⟨s.world.follow p code, s.given⟩ := by
  unfold World.follow
  cases hredirect : s.world.redirect p code with
  | none => exact aimed_of_same h (World.sameTarget_returnCode s.world code)
  | some p' =>
      have haimed := aimed_setURL h s.world.http.location (hsafe (by rw [hredirect]; rfl))
      simp only []
      split
      · exact aimed_of_same haimed (World.sameTarget_fields _ _ _ _ rfl rfl rfl rfl rfl)
      · exact aimed_of_same haimed (World.sameTarget_returnCode _ code)

/-- A close of the server closes no connection but that, and nothing is opened. -/
theorem sameTarget_network (w : World) (o : Nat) (ticks : List (Tick Char)) (ending : Ending) :
    World.SameTarget w
      { w with
        objects := Function.update w.objects o ((w.objects o).withLink
          ((w.objects o).link.map (arrive · ticks ending))) } := by
  -- What arrives opens no connection.
  have hopen : connected ((w.objects o).link.map (arrive · ticks ending)) = true →
      connected (w.objects o).link = true := by
    intro hconn
    cases hlink : (w.objects o).link with
    | none =>
        rw [hlink] at hconn
        exact hconn
    | some source =>
        rw [hlink] at hconn
        simp only [Option.map_some, connected, arrive] at hconn ⊢
        by_cases hstays : source.ending = .stays
        · rw [Source.connected, hstays]
          exact Bool.or_true _
        · rwa [if_neg hstays] at hconn
  refine ⟨rfl, rfl, rfl, rfl, rfl, rfl, fun o' => ?_, fun o' => ?_⟩
  · -- Only the connection of one object is touched.
    by_cases ho : o' = o
    · subst ho
      simp only [Function.update_self]
      rfl
    · simp only [Function.update_of_ne ho]
  · by_cases ho : o' = o
    · subst ho
      simp only [World.opened, Function.update_self]
      exact NetObject.opened_withLink _ _ hopen
    · left
      simp only [World.opened, Function.update_of_ne ho]

theorem aimed_step (lib : TimeLibrary) (s : Watched) (e : Event) (h : Aimed s)
    (hdefined : s.world.undefined = false) (hcareful : Careful s e) : Aimed (watch lib s e) := by
  -- a request that is taken down or given up leaves the target alone
  have hpending : ∀ pending, Aimed ⟨{ s.world with pending }, s.given⟩ := fun pending =>
    aimed_of_same h (World.sameTarget_fields _ _ _ _ rfl rfl rfl rfl rfl)
  unfold watch
  rw [step_defined lib s.world e hdefined]
  -- only a call, a request and a redirect can change the goal
  cases e with
  | call c =>
      cases hp : s.world.pending with
      | none =>
          simp only [World.react, hp, if_true]
          exact aimed_perform h c hp hcareful
      | some p =>
          simp only [World.react, hp]
          exact h
  | request type payload =>
      simp only [World.react]
      split
      · exact hpending _
      · exact h
  | send r =>
      simp only [World.react]
      split
      next p hp =>
        split
        · exact aimed_send h lib p r hcareful.2
        · exact h
      next => exact h
  | follow =>
      simp only [World.react]
      split
      next p hp =>
        split
        next code hcode => exact aimed_follow h p code (hcareful.1 p hp code hcode)
        next => exact h
      next => exact h
  | network o ticks ending => exact aimed_of_same h (sameTarget_network s.world o ticks ending)

/-- Along a run in which each step that sets a target finds nothing of another one,
every request is written to a connection to its target. -/
theorem onTarget_of_careful (lib : TimeLibrary) (objects : Nat → NetObject) (fresh : Nat)
    (es : List Event)
    (hcareful : EventRun.Always (watch lib) Careful ⟨{ objects, fresh }, none⟩ es) :
    EventRun.Always (watch lib) (SendsOnTarget lib) ⟨{ objects, fresh }, none⟩ es := by
  have hstart : Aimed ⟨{ objects, fresh }, none⟩ :=
    ⟨fun o ho => (nomatch ho), fun o ho => (nomatch ho), fun _ => Or.inl ⟨rfl, rfl⟩⟩
  refine EventRun.always_of_inv (I := fun s => Aimed s ∧ s.world.undefined = false)
    (fun s e hs hok => sendsOnTarget lib hs.1 hs.2 e hok) ?_ ⟨hstart, rfl⟩ hcareful
  exact fun s e hs hok =>
    ⟨aimed_step lib s e hs.1 hs.2 hok, defined_of_safe lib s.world e hs.2 hok.1⟩

/-- A connection that is kept, a path that is followed over it, other targets without one,
and an object of the sketch's. -/
def severalTargets : List Event :=
  [.call (.beginUrl "http://a/".toList), .call (.setFollowRedirects .strict),
    .request "GET".toList [],
    .send (.prompt "HTTP/1.1 302 Found\r\nLocation: /next\r\n\r\n"), .follow,
    .send (.prompt "HTTP/1.1 204 No Content\r\n\r\n"), .follow, .call .finish,
    .call (.beginUrl "http://a/".toList), .request "GET".toList [],
    .send (.prompt "HTTP/1.1 204 No Content\r\nConnection: close\r\n\r\n"), .follow,
    .call .finish, .call (.beginUrl "https://b/".toList), .request "GET".toList [],
    .send (.prompt "HTTP/1.1 204 No Content\r\nConnection: close\r\n\r\n"), .follow,
    .call .finish, .call (.beginClientUrl 7 "https://c/".toList), .request "GET".toList [],
    .send (.prompt "HTTP/1.1 204 No Content\r\n\r\n"), .follow]

/-- The object that is given is a secure one. -/
theorem onTarget_of_careful_several :
    EventRun.Always (watch plainTime) (SendsOnTarget plainTime)
      ⟨{ objects := fun _ => ⟨true, some ⟨some "CA".toList, none, none⟩, none⟩ }, none⟩
      severalTargets :=
  onTarget_of_careful plainTime _ 0 severalTargets (by decide)

/-- A connection that is kept, and then a `begin` with another host. -/
def keptConnection : List Event :=
  [.call (.beginUrl "http://a/".toList), .request "GET".toList [],
    .send (.prompt "HTTP/1.1 204 No Content\r\n\r\n"), .follow, .call .finish,
    .call (.beginHost "b".toList 80 "/".toList), .request "GET".toList []]

theorem host_of_onTarget (g : Goal) (w : World) (h : OnTarget g w) :
    (w.http.client.bind w.opened).map Opened.host = some g.host := by
  rcases h with ⟨o, t, ho, ht, hreached, -⟩
  rw [ho, Option.bind_some, ht, Option.map_some, hreached.1]

/-- The request for `b` is written to the connection to `a`. -/
theorem kept_connection_misused :
    ¬ ∀ es, EventRun.Always (watch plainTime) (SendsOnTarget plainTime) ⟨{}, none⟩ es := by
  intro hall
  have hlaw := ((EventRun.always_append _ _ _ _ _).1
    (hall (keptConnection ++ [.send (.prompt "")]))).2.1
  exact absurd (host_of_onTarget _ _ (hlaw.2 _ (Option.some_get (by decide)).symm)) (by decide)

end Http

end ArduinoBeken
