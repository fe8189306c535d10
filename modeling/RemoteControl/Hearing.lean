import RemoteControl.Silence

/-!
# Hearing: the plugin's sink while the plugin is initialised

The other side of the sink's story. While the plugin is out, nobody new takes its sink up;
while it is initialised, every event of its implementation does, once, and no event of an
implementation it has had before.

* `AllAttached.step` — the registrations agree in every run, whatever is still in flight.
* `Settled.registrations` — between two calls, the sink is registered with the current
  implementation and with no other.
* `Heard.goes`, `Heard.before` — a dispatch works through its snapshot here, too, whatever
  the plugin does meanwhile.
* `heard` — so the sink is called once for an event, or never.
-/

namespace RemoteControl

open Interaction Runs

variable {ν : Type} [DecidableEq ν]

/-- **A step**, as far as the registrations are concerned: the plugin registers the sink
where it is not, and unregisters it where it is. -/
theorem AllAttached.step {sink : ν} {s t : ListeningConf ν} {a : ListeningAct ν}
    (h : AllAttached sink s.core s.rest) (hcore : PluginCore (listening sink) s)
    (hstep : (listening sink).Step s a t) : AllAttached sink t.core t.rest := by
  cases hstep with
  | enter _ => exact h
  | @own c e k t o f x _ _ =>
    obtain ⟨houtline, -⟩ : c.Outline e k o ∧ e.Settled := hcore.1
    cases c with
    | initializeFor service =>
      have hlaunch : Launching service e k o := houtline
      refine h.own (fun ho => hlaunch.notification ?_) fun ho => absurd ho hlaunch.registers
      rcases ho with ⟨_, _, rfl⟩ | rfl <;> simp
    | deinitializeFor service =>
      have hretire : Retiring e k o := houtline
      refine h.own (fun ho => ?_) hretire.notification
      rcases ho with ⟨waitTime, className, rfl⟩ | rfl
      · exact absurd rfl (hretire.quiet.1 waitTime className)
      · exact absurd rfl hretire.quiet.2.2.2
  | leave => exact h
  | @other ctrl k t t' a henv =>
    obtain ⟨i, a⟩ := a
    obtain ⟨⟨-, hspares, -⟩, henv⟩ := Option.ite_none_right_eq_some.mp henv
    obtain ⟨o', hstep, rfl⟩ := Option.map_eq_some_iff.mp henv
    exact .update ((h i).step hspares hstep) fun j _ => h j

/-- Between two calls, the sink is registered with the implementation the plugin has. -/
theorem PluginState.Settled.registrations {k : PluginState} (h : k.Settled) (i : ImplId) :
    k.ledger.taken (.notification i) = k.ledger.given (.notification i) +
      if k.members.implementation = some i then 1 else 0 := by
  rcases h.status with hreset | ⟨service, j, hinit⟩
  · rw [hreset.members, show k.ledger.taken = k.ledger.given from hreset.ledger]
    rfl
  · rw [hinit.ledger.taken_eq]
    congr 1
    rw [hinit.members]
    by_cases hij : j = i
    · subst hij
      simp [PluginMembers.held]
    · simp [PluginMembers.held, hij]

/-! ## The dispatches along a run -/

/-- The callback of dispatch `d` that an action enters. -/
def Observers.Action.entered (d : ℕ) : Observers.Action ν → List (Option ν)
  | .enterCallback e n => if e = d then [n] else []
  | _ => []

/-- The callbacks that dispatch `d` of implementation `i` entered in a run, in order. -/
def callsAt (i : ImplId) (d : ℕ) (tr : List (ListeningConf ν × ListeningAct ν)) :
    List (Option ν) :=
  tr.flatMap fun p =>
    match p.2 with
    | .other (.at j a) => if j = i then a.entered d else []
    | _ => []

omit [DecidableEq ν] in
theorem callsAt_append (i : ImplId) (d : ℕ) (tr tr' : List (ListeningConf ν × ListeningAct ν)) :
    callsAt i d (tr ++ tr') = callsAt i d tr ++ callsAt i d tr' :=
  List.flatMap_append

omit [DecidableEq ν] in
theorem callsAt_other (i : ImplId) (d : ℕ) (s : ListeningConf ν) (j : ImplId)
    (a : Observers.Action ν) :
    callsAt i d [(s, .other (.at j a))] = if j = i then a.entered d else [] :=
  List.append_nil _

/-- A dispatch goes on from `D` to `D'`, and calls `called`. -/
structure Dispatch.Goes (D D' : Dispatch ν) (called : List (Option ν)) : Prop where
  kind : D'.kind = D.kind
  observers : D'.observers = D.observers
  called : D'.observers.take D'.called = D.observers.take D.called ++ called

omit [DecidableEq ν] in
theorem Dispatch.Goes.refl (D : Dispatch ν) : D.Goes D [] :=
  ⟨rfl, rfl, (List.append_nil _).symm⟩

omit [DecidableEq ν] in
theorem Dispatch.Goes.trans {D D' D'' : Dispatch ν} {l l' : List (Option ν)} (h : D.Goes D' l)
    (h' : D'.Goes D'' l') : D.Goes D'' (l ++ l') :=
  ⟨h'.kind.trans h.kind, h'.observers.trans h.observers, by
    rw [h'.called, h.called, List.append_assoc]⟩

/-- From `ds` to `ds'`, dispatch `d` has gone on and called `called`, if there was one;
otherwise nobody was called, and one that has started has called nobody. -/
structure GoOn (d : ℕ) (ds ds' : List (Dispatch ν)) (called : List (Option ν)) : Prop where
  old : ∀ D, ds[d]? = some D → ∃ D', ds'[d]? = some D' ∧ D.Goes D' called
  new : ds[d]? = none → called = [] ∧ ∀ D, ds'[d]? = some D → D.called = 0

omit [DecidableEq ν] in
theorem GoOn.of_eq {d : ℕ} {ds ds' : List (Dispatch ν)} (h : ds'[d]? = ds[d]?) :
    GoOn d ds ds' [] where
  old D hD := ⟨D, h.trans hD, .refl D⟩
  new hnone := ⟨rfl, fun D hD => absurd (hD.symm.trans (h.trans hnone)) (by simp)⟩

/-- A step of an implementation, from the view of its dispatch `d`. -/
theorem Observers.Effect.goOn {o o' : Observers ν} {a : Observers.Action ν} (h : o.Effect a o')
    (d : ℕ) : GoOn d o.dispatches o'.dispatches (a.entered d) := by
  cases h with
  | taken _ =>
    refine ⟨fun D hD => ⟨D, ?_, .refl D⟩, fun hnone => ⟨rfl, fun D hD => ?_⟩⟩
    · rw [List.getElem?_append_left (List.getElem?_eq_some_iff.mp hD).1, hD]
    · rw [List.getElem?_append_right (List.getElem?_eq_none_iff.mp hnone)] at hD
      obtain rfl := List.mem_singleton.mp (List.mem_of_getElem? hD)
      rfl
  | @moved a e E E' back hE hmove =>
    by_cases he : e = d
    · subst he
      refine ⟨fun D hD => ⟨E', List.getElem?_set_self (List.getElem?_eq_some_iff.mp hE).1, ?_⟩,
        fun hnone => absurd (hnone.symm.trans hE) (by simp)⟩
      obtain rfl := Option.some.inj (hE.symm.trans hD)
      cases hmove with
      | enterCallback _ hn =>
        refine ⟨rfl, rfl, ?_⟩
        rw [List.take_add_one, hn]
        simp [Observers.Action.entered]
      | leaveCallback _ => exact ⟨rfl, rfl, (List.append_nil _).symm⟩
      | release _ _ _ => exact ⟨rfl, rfl, (List.append_nil _).symm⟩
    · have ha : a.entered d = [] := by
        cases hmove with
        | enterCallback _ _ => exact if_neg he
        | leaveCallback _ => rfl
        | release _ _ _ => rfl
      rw [ha]
      exact .of_eq (List.getElem?_set_ne he)
  | known _ => exact .of_eq rfl
  | joined _ _ => exact .of_eq rfl
  | stranger _ => exact .of_eq rfl
  | left _ => exact .of_eq rfl
  | dismissed _ => exact .of_eq rfl

/-- Nothing is ever taken back from what was taken. -/
theorem PluginState.taken_le_next (k : PluginState) (o : PluginOp) (x : o.Answer) (r : Resource) :
    k.ledger.taken r ≤ (k.next o x).ledger.taken r := by
  have hthrough : ∀ {α : Type} (p : Option α) (f : α → PluginState),
      (∀ a, k.ledger.taken r ≤ (f a).ledger.taken r) →
      k.ledger.taken r ≤ (k.through p f).ledger.taken r := by
    intro α p f hf
    rcases p with _ | a
    · exact le_refl _
    · exact hf a
  have htake : ∀ r', k.ledger.taken r ≤ (k.take r').ledger.taken r :=
    fun r' => Nat.le_add_right _ _
  cases o with
  | act a =>
    cases a with
    | serviceAddRef => exact hthrough _ _ fun _ => htake _
    | serviceRelease => exact hthrough _ _ fun _ => le_refl _
    | registerConnectionNotification => exact hthrough _ _ fun _ => htake _
    | unregisterConnectionNotification => exact hthrough _ _ fun _ => le_refl _
    | implementationRelease => exact hthrough _ _ fun _ => le_refl _
    | unregisterNotification => exact hthrough _ _ fun _ => le_refl _
    | configureRelease => exact hthrough _ _ fun _ => le_refl _
    | registerJsonRpc => exact htake _
    | _ => exact le_refl _
  | load => exact le_refl _
  | root waitTime className =>
    obtain ⟨i?, c⟩ := x
    refine hthrough _ _ fun _ => ?_
    rcases i? with _ | i
    · exact le_refl _
    · exact htake (.implementation i)
  | queryConfiguration =>
    refine hthrough _ _ fun i => ?_
    cases x with
    | false => exact le_refl _
    | true => exact htake (.configure i)
  | configure =>
    refine hthrough _ _ fun i => hthrough _ _ fun service => ?_
    rw [configuredFor]
    split <;> exact le_refl _
  | registerNotification =>
    refine hthrough _ _ fun i => ?_
    rw [registeredWith]
    split
    · exact htake (.notification i)
    · exact le_refl _
  | remoteConnection service =>
    cases x with
    | false => exact le_refl _
    | true => exact htake (.connection k.members.connectionId)

/-- An implementation that was never made has dispatched nothing. -/
def Unmade (k : PluginState) (t : Sinks ν) : Prop :=
  ∀ i, k.ledger.taken (.implementation i) = 0 → (t i).dispatches = []

/-- The plugin's own operations leave every dispatch as it is. -/
theorem Sinks.dispatches_react {sink : ν} {k : PluginState} {t : Sinks ν} {o : PluginOp}
    {x : o.Answer} (hmay : pluginMachine.may k o x) (hnew : Unmade k t) (i : ImplId) :
    (t.react sink k o x i).dispatches = (t i).dispatches := by
  have hupdate : ∀ (j : ImplId) (o' : Observers ν), o'.dispatches = (t j).dispatches →
      (Function.update t j o' i).dispatches = (t i).dispatches := by
    intro j o' hsame
    by_cases hij : i = j
    · subst hij
      rw [Function.update_self, hsame]
    · rw [Function.update_of_ne hij]
  cases o with
  | act a =>
    cases a with
    | unregisterNotification =>
      rcases hj : k.members.implementation with _ | j <;> simp only [Sinks.react, hj]
      refine hupdate j _ ?_
      rcases (t j).unregister_cases (some sink) with ⟨-, heq⟩ | ⟨m, -, -, heq⟩ <;> rw [heq]
      rfl
    | _ => rfl
  | root waitTime className =>
    obtain ⟨j?, c⟩ := x
    rcases j? with _ | j
    · rfl
    -- the new implementation has not been there before
    · exact hupdate j _ (hnew j (hmay.1 j rfl)).symm
  | registerNotification =>
    rcases hj : k.members.implementation with _ | j <;> simp only [Sinks.react, hj]
    split
    · refine hupdate j _ ?_
      rcases (t j).register_cases (some sink) with ⟨-, heq⟩ | ⟨m, -, -, heq⟩ <;> rw [heq]
      rfl
    · rfl
  | _ => rfl

/-- The same of a step of the whole. -/
theorem goOn_step {sink : ν} {s t : ListeningConf ν} {a : ListeningAct ν}
    (h : AllAttached sink s.core s.rest) (hnew : Unmade s.core s.rest)
    (hstep : (listening sink).Step s a t) (i : ImplId) (d : ℕ) :
    GoOn d (s.rest i).dispatches (t.rest i).dispatches (callsAt i d [(s, a)]) := by
  cases hstep with
  | enter _ => exact .of_eq rfl
  | own hmay _ =>
    refine .of_eq ?_
    exact congrArg (·[d]?) (Sinks.dispatches_react hmay hnew i)
  | leave => exact .of_eq rfl
  | @other ctrl k r r' b henv =>
    obtain ⟨j, b⟩ := b
    obtain ⟨-, henv⟩ := Option.ite_none_right_eq_some.mp henv
    obtain ⟨o', hb, rfl⟩ := Option.map_eq_some_iff.mp henv
    dsimp only
    by_cases hij : j = i
    · subst hij
      have hgoOn := (Observers.effect_of_step (h j).nonnull (h j).snapshots hb).goOn d
      rwa [callsAt_other, if_pos rfl, Function.update_self]
    · rw [callsAt_other, if_neg hij, Function.update_of_ne (Ne.symm hij)]
      exact .of_eq rfl

/-- An implementation that was never made does nothing. -/
theorem Unmade.step {sink : ν} {s t : ListeningConf ν} {a : ListeningAct ν}
    (h : Unmade s.core s.rest) (hstep : (listening sink).Step s a t) :
    Unmade t.core t.rest := by
  cases hstep with
  | enter _ => exact h
  | @own c e k t o f x hmay _ =>
    intro i hi
    have htaken : k.ledger.taken (.implementation i) = 0 :=
      Nat.eq_zero_of_le_zero (hi ▸ k.taken_le_next o x _)
    exact (Sinks.dispatches_react hmay h i).trans (h i htaken)
  | leave => exact h
  | @other ctrl k r r' b henv =>
    obtain ⟨j, b⟩ := b
    obtain ⟨⟨hj, -, -⟩, henv⟩ := Option.ite_none_right_eq_some.mp henv
    obtain ⟨o', hb, rfl⟩ := Option.map_eq_some_iff.mp henv
    intro i hi
    have hij : i ≠ j := fun hij => hj (hij ▸ hi)
    dsimp only
    rw [Function.update_of_ne hij]
    exact h i hi

/-- What holds at every moment of a run. -/
structure Heard (sink : ν) (s : ListeningConf ν) : Prop where
  core : PluginCore (listening sink) s
  attached : AllAttached sink s.core s.rest
  unmade : Unmade s.core s.rest

theorem heard_fresh (sink : ν) :
    Heard sink (⟨.idle, .fresh, fun _ => .fresh⟩ : ListeningConf ν) where
  core := PluginState.settled_fresh
  attached _ := ⟨by simp [Observers.fresh], by simp [Observers.fresh], fun _ => rfl⟩
  unmade := fun _ _ => rfl

theorem Heard.step {sink : ν} {s t : ListeningConf ν} {a : ListeningAct ν} (h : Heard sink s)
    (hstep : (listening sink).Step s a t) : Heard sink t where
  core := Setting.core_step (fun c _ _ hk hready => wlp_track c hk hready) h.core hstep
  attached := h.attached.step h.core hstep
  unmade := h.unmade.step hstep

/-- **Along a run** a dispatch works through its snapshot, from where it is. -/
theorem Heard.goes {sink : ν} {s t : ListeningConf ν}
    {tr : List (ListeningConf ν × ListeningAct ν)} {i : ImplId} {d : ℕ} {D : Dispatch ν}
    (hs : Heard sink s) (hD : (s.rest i).dispatches[d]? = some D)
    (h : (listening sink).RunOf s tr t) :
    Heard sink t ∧ ∃ D', (t.rest i).dispatches[d]? = some D' ∧ D.Goes D' (callsAt i d tr) := by
  induction h with
  | nil => exact ⟨hs, D, hD, .refl D⟩
  | snoc _ hstep ih =>
    obtain ⟨ht, D', hD', hgoes⟩ := ih
    obtain ⟨D'', hD'', hgoes'⟩ := (goOn_step ht.attached ht.unmade hstep i d).old D' hD'
    refine ⟨ht.step hstep, D'', hD'', ?_⟩
    rw [callsAt_append]
    exact hgoes.trans hgoes'

/-- Before a dispatch exists, it makes no callbacks. -/
theorem Heard.before {sink : ν} {s t : ListeningConf ν}
    {tr : List (ListeningConf ν × ListeningAct ν)} (hs : Heard sink s)
    (h : (listening sink).RunOf s tr t) (i : ImplId) (d : ℕ) :
    Heard sink t ∧ ((t.rest i).dispatches[d]? = none → callsAt i d tr = []) := by
  induction h with
  | nil => exact ⟨hs, fun _ => rfl⟩
  | @snoc t u tr a _ hstep ih =>
    obtain ⟨ht, hnone⟩ := ih
    refine ⟨ht.step hstep, fun hu => ?_⟩
    have hgoOn := goOn_step ht.attached ht.unmade hstep i d
    have ht' : (t.rest i).dispatches[d]? = none := by
      rcases hget : (t.rest i).dispatches[d]? with _ | D
      · rfl
      · obtain ⟨D', hD', -⟩ := hgoOn.old D hget
        exact absurd (hu.symm.trans hD') (by simp)
    rw [callsAt_append, hnone ht', (hgoOn.new ht').1, List.append_nil]

/-! ## The theorem -/

/-- **Hearing.** In every run of the plugin among its implementations, an event is delivered
to those who are registered when its snapshot is taken, in order. If the plugin is between
two calls then, its sink is called for it once if the event is of the implementation it
has, and never if it is of another one. -/
theorem heard {sink : ν} {conf s : ListeningConf ν}
    {pre post : List (ListeningConf ν × ListeningAct ν)} {i : ImplId} {kind : EventKind}
    (h : (listening sink).RunOf ⟨.idle, .fresh, fun _ => .fresh⟩
      (pre ++ (s, .other (.at i (.snapshot kind))) :: post) conf) :
    ∃ D calls, (conf.rest i).dispatches[(s.rest i).dispatches.length]? = some D ∧
      D.kind = kind ∧ D.observers = (s.rest i).notifications ∧
      calls = callsAt i (s.rest i).dispatches.length
        (pre ++ (s, .other (.at i (.snapshot kind))) :: post) ∧
      calls = D.observers.take D.called ∧
      (s.ctrl = .idle →
        (s.core.members.implementation = some i → calls.count (some sink) ≤ 1 ∧
          (D.called = D.observers.length → calls.count (some sink) = 1)) ∧
        (s.core.members.implementation ≠ some i → calls.count (some sink) = 0)) := by
  obtain ⟨t, hpre, hstep, hpost⟩ := h.at_entry
  obtain ⟨hs, hbefore⟩ := (heard_fresh sink).before hpre i (s.rest i).dispatches.length
  have ht := hs.step hstep
  -- the snapshot is the vector as it is now
  obtain ⟨D₀, hD₀, hkind, hobs, hcalled, halive⟩ : ∃ D₀,
      (t.rest i).dispatches[(s.rest i).dispatches.length]? = some D₀ ∧ D₀.kind = kind ∧
        D₀.observers = (s.rest i).notifications ∧ D₀.called = 0 ∧
        (s.rest i).destroyed = false := by
    cases hstep with
    | @other ctrl k r r' b henv =>
      obtain ⟨-, henv⟩ := Option.ite_none_right_eq_some.mp henv
      obtain ⟨o', hb, rfl⟩ := Option.map_eq_some_iff.mp henv
      dsimp only
      rw [Function.update_self]
      have heff := Observers.effect_of_step (hs.attached i).nonnull (hs.attached i).snapshots hb
      cases heff with
      | taken hd => exact ⟨_, List.getElem?_concat_length .., rfl, rfl, rfl, hd⟩
      | moved _ hmove => cases hmove
  obtain ⟨-, D, hD, hgoes⟩ := ht.goes hD₀ hpost
  have hobs' : D.observers = (s.rest i).notifications := hgoes.observers.trans hobs
  have hcalls : callsAt i (s.rest i).dispatches.length
      (pre ++ (s, .other (.at i (.snapshot kind))) :: post) = D.observers.take D.called := by
    rw [List.append_cons, callsAt_append, callsAt_append, hbefore (by simp), callsAt_other,
      if_pos rfl, hgoes.called, hcalled]
    rfl
  refine ⟨D, _, hD, hgoes.kind.trans hkind, hobs', rfl, hcalls, fun hidle => ?_⟩
  have hsettled : s.core.Settled := by
    have hcore := hs.core
    rw [PluginCore, Setting.CoreOk, hidle] at hcore
    exact hcore
  -- how often the sink is in the vector
  have hcount := (hs.attached i).registered halive
  rw [hsettled.registrations i, Nat.add_left_cancel_iff, ← hobs'] at hcount
  have hle : (D.observers.take D.called).count (some sink) ≤ D.observers.count (some sink) :=
    (List.take_sublist ..).count_le _
  rw [hcalls]
  refine ⟨fun himpl => ?_, fun himpl => ?_⟩
  · rw [if_pos himpl] at hcount
    refine ⟨hcount ▸ hle, fun hall => ?_⟩
    rw [hall, List.take_length, hcount]
  · rw [if_neg himpl] at hcount
    exact Nat.eq_zero_of_le_zero (hcount ▸ hle)

/-- A status event while the plugin is initialised, and its callback. -/
def deliveredMeanwhile : List (Move PluginCall PluginOp PluginOp.Answer PluginState (SinkStep ℕ)) :=
  [.other (.at 1 (.snapshot .status)), .other (.at 1 (.enterCallback 0 (some 4)))]

/-- It reaches the sink. -/
theorem heard_deliveredMeanwhile :
    ∃ (pre post : List (ListeningConf ℕ × ListeningAct ℕ)) (s conf : ListeningConf ℕ),
      (listening 4).RunOf ⟨.idle, .fresh, fun _ => .fresh⟩
        (pre ++ (s, .other (.at 1 (.snapshot .status))) :: post) conf ∧
      (callsAt 1 0 (pre ++ (s, .other (.at 1 (.snapshot .status))) :: post)).count
        (some 4) = 1 := by
  obtain ⟨⟨pre, s⟩, hpre⟩ : ∃ p, follow (listening 4).advance
      ⟨.idle, .fresh, fun _ => .fresh⟩ initialisation = some p := ⟨_, rfl⟩
  have hrun := (listening 4).run_of_follow hpre
  obtain ⟨⟨tr, conf⟩, hpost⟩ : ∃ p, follow (listening 4).advance s deliveredMeanwhile = some p := by
    obtain ⟨-, rfl⟩ := Prod.mk.inj (Option.some.inj hpre)
    exact ⟨_, rfl⟩
  have hmore := (listening 4).run_of_follow hpost
  obtain ⟨post, rfl⟩ : ∃ post, tr = (s, .other (.at 1 (.snapshot .status))) :: post := by
    obtain ⟨-, rfl⟩ := Prod.mk.inj (Option.some.inj hpre)
    obtain ⟨rfl, -⟩ := Prod.mk.inj (Option.some.inj hpost)
    exact ⟨_, rfl⟩
  refine ⟨pre, post, s, conf, hrun.append hmore, ?_⟩
  obtain ⟨D, calls, hD, -, -, rfl, -, hidle⟩ := heard (hrun.append hmore)
  obtain ⟨-, rfl⟩ := Prod.mk.inj (Option.some.inj hpre)
  obtain ⟨-, rfl⟩ := Prod.mk.inj (Option.some.inj hpost)
  obtain rfl := Option.some.inj hD
  exact ((hidle rfl).1 rfl).2 rfl

end RemoteControl
