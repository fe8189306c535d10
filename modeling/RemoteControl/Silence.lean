import RemoteControl.Activation
import RemoteControl.References

/-!
# Silence: the plugin's sink after `Deinitialize`

The plugin listens to its implementation with `_notification`, a member of the plugin
object. `Deinitialize` unregisters it before anything else is torn down, but a dispatch
works on the snapshot it took **before**, and `Unregister` does not wait for it.

* `listening` — the calls of the plugin, among the dispatches, registrations and
  destructors of all the implementations it has made.
* `Out` — the plugin is not initialised, and not about to be.
* `Quiet` — no dispatch has the sink in front of it.
* `Attached.step` — the sink is in a vector exactly as long as the plugin has it
  registered there; `Quiet.step` — so nobody new takes it up.
* `silent_when_drained` — all that is left are the dispatches in flight when
  `Deinitialize` returns, and `callback_after_deinitialize` is one.
-/

namespace RemoteControl

open Interaction Runs

variable {ν : Type} [DecidableEq ν]

/-! ## The setting -/

/-- The observers of each implementation. -/
abbrev Sinks (ν : Type) : Type := ImplId → Observers ν

/-- A step of implementation `i`, or of a client of it. -/
inductive SinkStep (ν : Type) where
  /-- action `a` -/
  | at (i : ImplId) (a : Observers.Action ν)
  deriving DecidableEq

/-- The plugin's operations on the observers: `Root` makes a new implementation, `Register`
and `Unregister` pass the sink. -/
def Sinks.react (sink : ν) (k : PluginState) (t : Sinks ν) : (o : PluginOp) → o.Answer → Sinks ν
  | .root _ _, (some i, _) => Function.update t i .fresh
  | .registerNotification, result =>
    match k.members.implementation with
    | some i =>
      if result = .errorNone then Function.update t i ((t i).register (some sink)).2 else t
    | none => t
  | .act .unregisterNotification, _ =>
    match k.members.implementation with
    | some i => Function.update t i ((t i).unregister (some sink)).2
    | none => t
  | _, _ => t

/-- The action is not a registration of `sink`. -/
def Observers.Action.spares (sink : ν) : Observers.Action ν → Bool
  | .register _ n => n ≠ some sink
  | .unregister _ n => n ≠ some sink
  | _ => true

/-- What implementation `i` or its clients do. Only the plugin has the sink, and no
object is destroyed while the plugin holds a reference on it. -/
def Sinks.step (sink : ν) (k : PluginState) (t : Sinks ν) : SinkStep ν → Option (Sinks ν)
  | .at i a =>
    if k.ledger.taken (.implementation i) ≠ 0 ∧ a.spares sink ∧
        (a = .destructor →
          k.ledger.taken (.implementation i) = k.ledger.given (.implementation i)) then
      ((t i).step a).map (Function.update t i)
    else none

/-- The calls of the plugin among the dispatches of its implementations. -/
abbrev listening (sink : ν) :
    Setting PluginCall PluginOp PluginOp.Answer (Option String) PluginState (Sinks ν)
      (SinkStep ν) where
  machine := pluginMachine
  body := PluginCall.body
  ready := fun k _ c => c.ready k
  allow := fun _ _ _ _ => True
  react := Sinks.react sink
  env := Sinks.step sink

/-- The configurations of `listening`. -/
abbrev ListeningConf (ν : Type) : Type :=
  Conf PluginCall PluginOp PluginOp.Answer (Option String) PluginState (Sinks ν)

/-- The actions of `listening`. -/
abbrev ListeningAct (ν : Type) : Type :=
  Act PluginCall PluginOp PluginOp.Answer (Option String) (SinkStep ν)

/-! ## What is said of the sink -/

/-- The entries a dispatch has still to call or is calling. -/
def Dispatch.awaiting (D : Dispatch ν) : List (Option ν) :=
  D.observers.drop (if D.inCallback then D.called - 1 else D.called)

/-- Dispatch `D` is in a callback on `sink`. -/
def Dispatch.Calling (D : Dispatch ν) (sink : ν) : Prop :=
  D.inCallback = true ∧ D.observers[D.called - 1]? = some (some sink)

/-- No dispatch has the sink in front of it. -/
def Quiet (sink : ν) (t : Sinks ν) : Prop :=
  ∀ i, ∀ D ∈ (t i).dispatches, some sink ∉ D.awaiting

/-- The sink is registered nowhere. -/
def PluginState.Unlisted (k : PluginState) : Prop :=
  ∀ i, k.ledger.taken (.notification i) = k.ledger.given (.notification i)

/-- The plugin is not initialised: between two calls, in an `Initialize` that has not
registered the sink, or in a `Deinitialize` that has nothing to do. -/
def Out (s : ListeningConf ν) : Prop :=
  match s.ctrl with
  | .idle => s.core.members.service = none
  | .busy (.initializeFor _) _ _ => s.core.Unlisted
  | .busy (.deinitializeFor _) e _ => e.members.service = none

/-- When a `Deinitialize` that has torn the plugin down returns, no dispatch has the sink
in front of it. -/
def Drained (sink : ν) (s : ListeningConf ν) : ListeningAct ν → Prop
  | .leave (.deinitializeFor _) _ => s.core.members.service = none → Quiet sink s.rest
  | _ => True

/-! ## The registrations -/

/-- Implementation `i` has the sink in its vector as often as the plugin has it registered
there, unless it is destroyed. -/
structure Attached (sink : ν) (k : PluginState) (i : ImplId) (o : Observers ν) : Prop where
  /-- no null pointer is registered -/
  nonnull : none ∉ o.notifications
  /-- nor in a snapshot -/
  snapshots : ∀ D ∈ o.dispatches, none ∉ D.observers
  /-- the sink -/
  registered : o.destroyed = false → k.ledger.taken (.notification i) =
    k.ledger.given (.notification i) + o.notifications.count (some sink)

/-- This holds of every implementation. -/
def AllAttached (sink : ν) (k : PluginState) (t : Sinks ν) : Prop :=
  ∀ i, Attached sink k i (t i)

/-- Only `Register` and `Unregister` move what is registered. -/
theorem PluginState.notification_next (k : PluginState) {o : PluginOp} (x : o.Answer)
    (hregister : o ≠ .registerNotification) (hunregister : o ≠ .act .unregisterNotification)
    (i : ImplId) :
    (k.next o x).ledger.taken (.notification i) = k.ledger.taken (.notification i) ∧
      (k.next o x).ledger.given (.notification i) = k.ledger.given (.notification i) := by
  have hthrough : ∀ {α : Type} (p : Option α) (f : α → PluginState),
      (∀ a, (f a).ledger.taken (.notification i) = k.ledger.taken (.notification i) ∧
        (f a).ledger.given (.notification i) = k.ledger.given (.notification i)) →
      (k.through p f).ledger.taken (.notification i) = k.ledger.taken (.notification i) ∧
        (k.through p f).ledger.given (.notification i) = k.ledger.given (.notification i) := by
    intro α p f hf
    rcases p with _ | a
    · exact ⟨rfl, rfl⟩
    · exact hf a
  cases o with
  | act a =>
    cases a with
    | unregisterNotification => exact absurd rfl hunregister
    | registerJsonRpc => simp [next, did, take]
    | unregisterJsonRpc => simp [next, did, give]
    | connectionRelease c => simp [next, did, give]
    | setService p => exact ⟨rfl, rfl⟩
    | setImplementation p => exact ⟨rfl, rfl⟩
    | setConfigure p => exact ⟨rfl, rfl⟩
    | connectionTerminate c => exact ⟨rfl, rfl⟩
    | setConnectionId c => exact ⟨rfl, rfl⟩
    | _ => exact hthrough _ _ fun _ => by simp [take, give]
  | load => exact ⟨rfl, rfl⟩
  | root waitTime className =>
    obtain ⟨i?, c⟩ := x
    refine hthrough _ _ fun _ => ?_
    rcases i? with _ | j <;> simp [rooted]
  | queryConfiguration =>
    refine hthrough _ _ fun j => ?_
    rcases x with _ | _ <;> simp [take]
  | configure =>
    refine hthrough _ _ fun j => hthrough _ _ fun s => ?_
    by_cases hx : x = .errorNone <;> simp [configuredFor, hx]
  | registerNotification => exact absurd rfl hregister
  | remoteConnection s => rcases x with _ | _ <;> simp [next, connectedTo, take]

theorem Attached.congr {sink : ν} {k k' : PluginState} {i : ImplId} {o : Observers ν}
    (h : Attached sink k i o)
    (hsame : k'.ledger.taken (.notification i) = k.ledger.taken (.notification i) ∧
      k'.ledger.given (.notification i) = k.ledger.given (.notification i)) :
    Attached sink k' i o :=
  ⟨h.nonnull, h.snapshots, by rw [hsame.1, hsame.2]; exact h.registered⟩

/-- **A step of an implementation or its clients.** -/
theorem Attached.step {sink : ν} {k : PluginState} {i : ImplId} {o o' : Observers ν}
    {a : Observers.Action ν} (h : Attached sink k i o) (hspares : a.spares sink = true)
    (hstep : o.step a = some o') : Attached sink k i o' := by
  have heffect := Observers.effect_of_step h.nonnull h.snapshots hstep
  have hset : ∀ (d : ℕ) (D D' : Dispatch ν), o.dispatches[d]? = some D →
      D'.observers = D.observers → ∀ E ∈ o.dispatches.set d D', none ∉ E.observers := by
    intro d D D' hD hsnap E hE
    rcases List.mem_or_eq_of_mem_set hE with hE | rfl
    · exact h.snapshots E hE
    · rw [hsnap]
      exact h.snapshots D (List.mem_of_getElem? hD)
  cases heffect with
  | known _ => exact h
  | @joined c m hd hm =>
    have hne : m ≠ sink := by simpa [Observers.Action.spares] using hspares
    refine ⟨?_, h.snapshots, fun hdestroyed => ?_⟩
    · simpa using h.nonnull
    · rw [h.registered hdestroyed]
      simp [hne]
  | stranger _ => exact h
  | @left c m hm =>
    have hne : m ≠ sink := by simpa [Observers.Action.spares] using hspares
    refine ⟨fun hnone => h.nonnull (List.mem_of_mem_erase hnone), h.snapshots, fun hdestroyed => ?_⟩
    rw [h.registered hdestroyed, List.count_erase_of_ne]
    simpa using hne.symm
  | @taken kind hd =>
    refine ⟨h.nonnull, fun D hD => ?_, h.registered⟩
    rcases List.mem_append.mp hD with hD | hD
    · exact h.snapshots D hD
    · obtain rfl := List.mem_singleton.mp hD
      exact h.nonnull
  | @moved _ d D D' back hD hmoves =>
    refine ⟨h.nonnull, hset d D D' hD ?_, h.registered⟩
    cases hmoves <;> rfl
  | dismissed hd => exact ⟨by simp, h.snapshots, nofun⟩

/-- `Register` of the sink where it is not registered. -/
theorem Attached.register {sink : ν} {k : PluginState} {i : ImplId} {o : Observers ν}
    (h : Attached sink k i o)
    (hunlisted : k.ledger.taken (.notification i) = k.ledger.given (.notification i)) :
    Attached sink (k.take (.notification i)) i (o.register (some sink)).2 := by
  rcases o.register_cases (some sink) with ⟨hknown, heq⟩ | ⟨m, hm, hnew, heq⟩ <;> rw [heq]
  · refine ⟨h.nonnull, h.snapshots, fun hdestroyed => ?_⟩
    -- it would be registered already
    have hcount : o.notifications.count (some sink) = 0 := by
      have := h.registered hdestroyed
      omega
    exact absurd (hknown.resolve_left nofun) (List.count_eq_zero.mp hcount)
  · obtain rfl := Option.some.inj hm
    refine ⟨by simpa using h.nonnull, h.snapshots, fun hdestroyed => ?_⟩
    have hcount : o.notifications.count (some sink) = 0 := List.count_eq_zero.mpr hnew
    simp [PluginState.take, hcount, hunlisted]

/-- `Unregister` of the sink where it is registered. -/
theorem Attached.unregister {sink : ν} {k : PluginState} {i : ImplId} {o : Observers ν}
    (h : Attached sink k i o)
    (hlisted : k.ledger.taken (.notification i) = k.ledger.given (.notification i) + 1) :
    Attached sink (k.give (.notification i)) i (o.unregister (some sink)).2 := by
  rcases o.unregister_cases (some sink) with ⟨hstranger, heq⟩ | ⟨m, hm, hmem, heq⟩ <;> rw [heq]
  · refine ⟨h.nonnull, h.snapshots, fun hdestroyed => ?_⟩
    have hcount : o.notifications.count (some sink) = 0 :=
      List.count_eq_zero.mpr (hstranger.resolve_left nofun)
    have := h.registered hdestroyed
    omega
  · obtain rfl := Option.some.inj hm
    refine ⟨fun hnone => h.nonnull (List.mem_of_mem_erase hnone), h.snapshots, fun hdestroyed => ?_⟩
    have := h.registered hdestroyed
    simp [PluginState.give, List.count_erase_self]
    omega

/-- The registrations after the observers of one implementation have changed. -/
theorem AllAttached.update {sink : ν} {k : PluginState} {t : Sinks ν} {i : ImplId}
    {o : Observers ν} (hi : Attached sink k i o)
    (hothers : ∀ j, j ≠ i → Attached sink k j (t j)) :
    AllAttached sink k (Function.update t i o) :=
  (Function.forall_update_iff t fun j o => Attached sink k j o).mpr ⟨hi, hothers⟩

/-- **An operation of the plugin.** -/
theorem AllAttached.own {sink : ν} {k : PluginState} {t : Sinks ν} {o : PluginOp} {x : o.Answer}
    (h : AllAttached sink k t)
    (hunlisted : (∃ waitTime className, o = .root waitTime className) ∨ o = .registerNotification →
      k.Unlisted)
    (hlisted : o = .act .unregisterNotification → ∃ i, k.members.implementation = some i ∧
      ∀ j, k.ledger.taken (.notification j) =
        k.ledger.given (.notification j) + if j = i then 1 else 0) :
    AllAttached sink (k.next o x) (t.react sink k o x) := by
  have hother : o ≠ .registerNotification → o ≠ .act .unregisterNotification →
      AllAttached sink (k.next o x) t :=
    fun hregister hunregister i => (h i).congr (k.notification_next x hregister hunregister i)
  cases o with
  | act a =>
    cases a with
    | unregisterNotification =>
      obtain ⟨i, hi, hcounts⟩ := hlisted rfl
      simp only [PluginState.next, PluginState.did, Sinks.react, hi, PluginState.through_some]
      apply AllAttached.update
      · exact (h i).unregister (by simpa using hcounts i)
      · exact fun j hj => (h j).congr (by simp [PluginState.give, hj])
    | _ => exact hother (by simp) (by simp)
  | root waitTime className =>
    obtain ⟨i?, c⟩ := x
    rcases i? with _ | i
    · exact hother (by simp) (by simp)
    · apply AllAttached.update
      · refine ⟨by simp [Observers.fresh], by simp [Observers.fresh], fun _ => ?_⟩
        obtain ⟨htaken, hgiven⟩ := k.notification_next (o := .root waitTime className) (some i, c)
          (by simp) (by simp) i
        rw [htaken, hgiven]
        exact hunlisted (.inl ⟨_, _, rfl⟩) i
      · exact fun j _ => hother (by simp) (by simp) j
  | registerNotification =>
    rcases hi : k.members.implementation with _ | i
    · simp only [PluginState.next, Sinks.react, hi]
      exact fun j => (h j).congr ⟨rfl, rfl⟩
    · simp only [PluginState.next, Sinks.react, hi, PluginState.through_some]
      by_cases hx : x = .errorNone
      · simp only [PluginState.registeredWith, if_pos hx]
        apply AllAttached.update
        · exact (h i).register (hunlisted (.inr rfl) i)
        · exact fun j hj => (h j).congr (by simp [PluginState.take, hj])
      · simpa only [PluginState.registeredWith, if_neg hx] using h
  | _ => exact hother (by simp) (by simp)

/-! ## Nobody new takes the sink up -/

omit [DecidableEq ν] in
/-- Rest after the observers of one implementation have changed. -/
theorem Quiet.update {sink : ν} {t : Sinks ν} (h : Quiet sink t) {i : ImplId} {o : Observers ν}
    (hi : ∀ D ∈ o.dispatches, some sink ∉ D.awaiting) : Quiet sink (Function.update t i o) :=
  (Function.forall_update_iff t fun _ o => ∀ D ∈ o.dispatches, some sink ∉ D.awaiting).mpr
    ⟨hi, fun j _ => h j⟩

/-- Where the sink is not registered, a step takes it into no dispatch. -/
theorem Quiet.step {sink : ν} {k : PluginState} {t : Sinks ν} {i : ImplId} {o' : Observers ν}
    {a : Observers.Action ν} (h : Quiet sink t) (hattached : Attached sink k i (t i))
    (hunlisted : k.Unlisted) (hstep : (t i).step a = some o') :
    Quiet sink (Function.update t i o') := by
  apply h.update
  intro D hD
  have heffect := Observers.effect_of_step hattached.nonnull hattached.snapshots hstep
  cases heffect with
  | @taken kind hd =>
    rcases List.mem_append.mp hD with hD | hD
    · exact h i D hD
    -- the new snapshot is of a vector without the sink
    · obtain rfl := List.mem_singleton.mp hD
      have hcount : (t i).notifications.count (some sink) = 0 := by
        have := hattached.registered hd
        have := hunlisted i
        omega
      exact List.count_eq_zero.mp hcount
  | @moved _ d E E' back hE hmoves =>
    rcases List.mem_or_eq_of_mem_set hD with hD | rfl
    · exact h i D hD
    · have hquiet := h i E (List.mem_of_getElem? hE)
      cases hmoves with
      | enterCallback hidle _ => simpa [Dispatch.awaiting, hidle] using hquiet
      | leaveCallback hin =>
        intro hmem
        apply hquiet
        simp only [Dispatch.awaiting, hin, if_true, Bool.false_eq_true, if_false] at hmem ⊢
        exact (List.drop_sublist_drop_left _ (Nat.sub_le _ _)).subset hmem
      | release hidle _ _ => simpa [Dispatch.awaiting, hidle] using hquiet
  | known _ => exact h i D hD
  | joined _ _ => exact h i D hD
  | stranger _ => exact h i D hD
  | left _ => exact h i D hD
  | dismissed _ => exact h i D hD

/-- The plugin's own operations take it into no dispatch either. -/
theorem Quiet.react {sink : ν} {k : PluginState} {t : Sinks ν} (h : Quiet sink t) (o : PluginOp)
    (x : o.Answer) : Quiet sink (t.react sink k o x) := by
  have hupdate : ∀ (i : ImplId) (o' : Observers ν), (∀ D ∈ o'.dispatches, D ∈ (t i).dispatches) →
      Quiet sink (Function.update t i o') :=
    fun i o' hsub => h.update fun D hD => h i D (hsub D hD)
  cases o with
  | act a =>
    cases a with
    | unregisterNotification =>
      rcases hi : k.members.implementation with _ | i <;> simp only [Sinks.react, hi]
      · exact h
      · refine hupdate i _ fun D hD => ?_
        rcases (t i).unregister_cases (some sink) with ⟨-, heq⟩ | ⟨m, -, -, heq⟩ <;>
          rwa [heq] at hD
    | _ => exact h
  | root waitTime className =>
    obtain ⟨i?, c⟩ := x
    rcases i? with _ | i
    · exact h
    · exact hupdate i _ nofun
  | registerNotification =>
    rcases hi : k.members.implementation with _ | i <;> simp only [Sinks.react, hi]
    · exact h
    · split
      · refine hupdate i _ fun D hD => ?_
        rcases (t i).register_cases (some sink) with ⟨-, heq⟩ | ⟨m, -, -, heq⟩ <;>
          rwa [heq] at hD
      · exact h
  | _ => exact h

omit [DecidableEq ν] in
/-- A quiet sink is not being called. -/
theorem Quiet.not_calling {sink : ν} {t : Sinks ν} (h : Quiet sink t) {i : ImplId}
    {D : Dispatch ν} (hD : D ∈ (t i).dispatches) : ¬ D.Calling sink := by
  rintro ⟨hin, hget⟩
  apply h i D hD
  rw [Dispatch.awaiting, if_pos hin]
  exact List.mem_of_getElem? (i := 0) (by rw [List.getElem?_drop, Nat.add_zero, hget])

/-! ## The theorem -/

omit [DecidableEq ν] in
theorem PluginState.Settled.unlisted {k : PluginState} (h : k.Settled)
    (hservice : k.members.service = none) : k.Unlisted := by
  rcases h.status with hreset | ⟨service, hinit⟩
  · exact fun i => congrFun hreset.ledger _
  · exact absurd (hinit.service_eq.symm.trans hservice) nofun

/-- Where the plugin is out, the sink is registered nowhere. -/
theorem Out.unlisted {sink : ν} {s : ListeningConf ν} (hout : Out s)
    (hcore : PluginCore (listening sink) s) : s.core.Unlisted := by
  obtain ⟨ctrl, k, t⟩ := s
  rcases ctrl with _ | ⟨c, e, r | ⟨o, f⟩⟩
  · exact PluginState.Settled.unlisted hcore hout
  · cases c with
    | initializeFor service => exact hout
    | deinitializeFor service =>
      have hservice : e.members.service = none := hout
      obtain ⟨⟨-, hother⟩, hk⟩ :
        PluginCall.Done e (.deinitializeFor service) r k ∧ k.Settled := hcore
      obtain rfl : k = e := hother (by rw [hservice]; nofun)
      exact hk.unlisted hservice
  · cases c with
    | initializeFor service => exact hout
    | deinitializeFor service =>
      have hservice : e.members.service = none := hout
      obtain ⟨houtline, he⟩ : Retiring e k o ∧ e.Settled := hcore.1
      obtain rfl : k = e := houtline.unmatched hservice
      exact he.unlisted hservice

/-- The registrations agree, and while the plugin is out its sink has rest. -/
structure Silent (sink : ν) (s : ListeningConf ν) : Prop where
  /-- the registrations -/
  attached : AllAttached sink s.core s.rest
  /-- the rest -/
  quiet : Out s → Quiet sink s.rest

theorem Silent.step {sink : ν} {s t : ListeningConf ν} {a : ListeningAct ν} (h : Silent sink s)
    (hcore : PluginCore (listening sink) s) (ha : Drained sink s a)
    (hstep : (listening sink).Step s a t) : Silent sink t := by
  cases hstep with
  | @enter c k t hready =>
    refine ⟨h.attached, fun hout => h.quiet ?_⟩
    cases c with
    | initializeFor service => exact hready.1
    | deinitializeFor service => exact hout
  | @own c e k t o f x _ _ =>
    obtain ⟨houtline, -⟩ : c.Outline e k o ∧ e.Settled := hcore.1
    cases c with
    | initializeFor service =>
      have hlaunch : Launching service e k o := houtline
      refine ⟨h.attached.own (fun ho => hlaunch.notification ?_)
        (fun ho => absurd ho hlaunch.registers), fun hout => (h.quiet ?_).react o x⟩
      · rcases ho with ⟨waitTime, className, rfl⟩ | rfl <;> exact nofun
      · by_cases ho : o = .act .registerJsonRpc
        · subst ho
          intro i
          obtain ⟨htaken, hgiven⟩ :=
            k.notification_next (o := .act .registerJsonRpc) x nofun nofun i
          have hout := hout i
          rwa [← htaken, ← hgiven]
        · exact hlaunch.notification ho
    | deinitializeFor service =>
      have hretire : Retiring e k o := houtline
      refine ⟨h.attached.own (fun ho => ?_) hretire.notification,
        fun hout => (h.quiet hout).react o x⟩
      rcases ho with ⟨waitTime, className, rfl⟩ | rfl
      · exact absurd rfl (hretire.quiet.1 waitTime className)
      · exact absurd rfl hretire.quiet.2.2.2
  | @leave c e k t r =>
    refine ⟨h.attached, fun hout => ?_⟩
    cases c with
    | initializeFor service =>
      obtain ⟨-, hk⟩ : PluginCall.Done e (.initializeFor service) r k ∧ k.Settled := hcore
      exact h.quiet (hk.unlisted hout)
    | deinitializeFor service => exact ha hout
  | @other ctrl k t t' a henv =>
    obtain ⟨i, a⟩ := a
    obtain ⟨⟨-, hspares, -⟩, henv⟩ := Option.ite_none_right_eq_some.mp henv
    obtain ⟨o', hstep, rfl⟩ := Option.map_eq_some_iff.mp henv
    refine ⟨?_, fun hout => ?_⟩
    · apply AllAttached.update
      · exact (h.attached i).step hspares hstep
      · exact fun j _ => h.attached j
    · exact (h.quiet hout).step (h.attached i) (Out.unlisted hout hcore) hstep

/-- **Silence.** In every run in which no dispatch has the sink in front of it whenever a
`Deinitialize` that has torn the plugin down returns, no callback runs on the sink while
the plugin is not initialised. -/
theorem silent_when_drained {sink : ν} {conf : ListeningConf ν}
    {tr : List (ListeningConf ν × ListeningAct ν)}
    (h : (listening sink).RunOf ⟨.idle, .fresh, fun _ => .fresh⟩ tr conf)
    (hdrained : ∀ p ∈ tr, Drained sink p.1 p.2) :
    ∀ s ∈ conf :: tr.map Prod.fst, Out s →
      ∀ i, ∀ D ∈ (s.rest i).dispatches, ¬ D.Calling sink := by
  have hstart : Silent sink (⟨.idle, .fresh, fun _ => .fresh⟩ : ListeningConf ν) :=
    ⟨fun _ => ⟨nofun, nofun, fun _ => rfl⟩, fun _ _ => nofun⟩
  obtain ⟨hend, hall⟩ := Run.guarded (C := Drained sink)
    (I := fun s => PluginCore (listening sink) s ∧ Silent sink s)
    (fun s a t hs ha hstep =>
      ⟨Setting.core_step (fun c k _ hk hready => wlp_track c hk hready) hs.1 hstep,
        hs.2.step hs.1 ha hstep⟩)
    h ⟨PluginState.settled_fresh, hstart⟩ hdrained
  intro s hs hout i D hD
  have hsilent : Silent sink s := by
    rcases List.mem_cons.mp hs with rfl | hs
    · exact hend.2
    · obtain ⟨p, hp, rfl⟩ := List.mem_map.mp hs
      exact (hall p hp).2
  exact (hsilent.quiet hout).not_calling hD

/-- The moves of an `Initialize` that succeeds with implementation `1`. -/
def initialisation : List (Move PluginCall PluginOp PluginOp.Answer PluginState (SinkStep ℕ)) :=
  .enter (.initializeFor 7) :: List.replicate 12 (.answer (hosted 1 5 .errorNone .errorNone)) ++
    [.leave]

/-- The moves of the `Deinitialize` after it. -/
def deinitialisation : List (Move PluginCall PluginOp PluginOp.Answer PluginState (SinkStep ℕ)) :=
  .enter (.deinitializeFor 7) :: List.replicate 17 (.answer (hosted 1 5 .errorNone .errorNone)) ++
    [.leave]

/-- A status event is delivered before `Deinitialize`, and another one comes after it. -/
def deliveredInTime : List (Move PluginCall PluginOp PluginOp.Answer PluginState (SinkStep ℕ)) :=
  initialisation ++ [.other (.at 1 (.snapshot .status)), .other (.at 1 (.enterCallback 0 (some 4))),
    .other (.at 1 (.leaveCallback 0)), .other (.at 1 (.release 0))] ++ deinitialisation ++
    [.other (.at 1 (.snapshot .status))]

/-- A `Deinitialize` returns. -/
def endsDeinitialize : ListeningAct ℕ → Bool
  | .leave (.deinitializeFor _) _ => true
  | _ => false

theorem drained_of_not_ends {sink : ℕ} (s : ListeningConf ℕ) {a : ListeningAct ℕ}
    (ha : ¬ endsDeinitialize a = true) : Drained sink s a := by
  cases a with
  | leave c r =>
    cases c with
    | initializeFor service => trivial
    | deinitializeFor service => exact absurd rfl ha
  | _ => trivial

theorem drained_of_quiet {sink : ℕ} {s : ListeningConf ℕ} (h : Quiet sink s.rest)
    (a : ListeningAct ℕ) : Drained sink s a := by
  cases a with
  | leave c r =>
    cases c with
    | initializeFor service => trivial
    | deinitializeFor service => exact fun _ => h
  | _ => trivial

/-- The second one does not reach the sink. -/
theorem silent_when_drained_deliveredInTime :
    ∃ tr conf, follow (listening 4).advance ⟨.idle, .fresh, fun _ => .fresh⟩ deliveredInTime =
        some (tr, conf) ∧ (conf.rest 1).dispatches.length = 2 ∧
      ∀ D ∈ (conf.rest 1).dispatches, ¬ D.Calling 4 := by
  obtain ⟨⟨tr, conf⟩, hfollow⟩ : ∃ p, follow (listening 4).advance
      ⟨.idle, .fresh, fun _ => .fresh⟩ deliveredInTime = some p := ⟨_, rfl⟩
  have hends : ∀ n < tr.length, (tr[n]?).any (fun p => endsDeinitialize p.2) = true → n = 36 := by
    obtain ⟨rfl, -⟩ := Prod.mk.inj (Option.some.inj hfollow)
    decide
  have hquiet : ∀ p, tr[36]? = some p → Quiet 4 p.1.rest := by
    obtain ⟨rfl, -⟩ := Prod.mk.inj (Option.some.inj hfollow)
    rintro p hp
    obtain rfl := Option.some.inj hp
    intro i
    by_cases hi : i = 1
    · subst hi
      decide
    · change ∀ D ∈ (Function.update (Function.update (Function.update (Function.update
        (Function.update (Function.update (Function.update (fun _ => Observers.fresh) 1 _) 1 _) 1 _)
          1 _) 1 _) 1 _) 1 _ i).dispatches, _
      simp only [Function.update_of_ne hi]
      exact nofun
  have hdrained : ∀ p ∈ tr, Drained 4 p.1 p.2 := by
    rintro ⟨s, a⟩ hp
    obtain ⟨n, hn⟩ := List.mem_iff_getElem?.mp hp
    by_cases ha : endsDeinitialize a = true
    · obtain rfl := hends n (List.getElem?_eq_some_iff.mp hn).1 (by rw [hn]; exact ha)
      exact drained_of_quiet (hquiet _ hn) a
    · exact drained_of_not_ends s ha
  have hout : Out conf ∧ (conf.rest 1).dispatches.length = 2 := by
    obtain ⟨-, rfl⟩ := Prod.mk.inj (Option.some.inj hfollow)
    exact ⟨rfl, rfl⟩
  exact ⟨tr, conf, hfollow, hout.2, silent_when_drained ((listening 4).run_of_follow hfollow)
    hdrained conf (List.mem_cons_self ..) hout.1 1⟩

/-- A status event is on its way when `Deinitialize` begins, and its snapshot holds the
sink. -/
def deliveredTooLate : List (Move PluginCall PluginOp PluginOp.Answer PluginState (SinkStep ℕ)) :=
  initialisation ++ [.other (.at 1 (.snapshot .status))] ++ deinitialisation ++
    [.other (.at 1 (.enterCallback 0 (some 4)))]

/-- Then it enters `OnStatus` on the sink of a plugin that has returned from
`Deinitialize`. -/
theorem callback_after_deinitialize :
    ∃ tr conf, (listening 4).RunOf ⟨.idle, .fresh, fun _ => .fresh⟩ tr conf ∧ Out conf ∧
      (∃ s, (s, .leave (.deinitializeFor 7) none) ∈ tr) ∧
      ∃ D ∈ (conf.rest 1).dispatches, D.kind = .status ∧ D.Calling 4 := by
  obtain ⟨⟨tr, conf⟩, hfollow⟩ : ∃ p, follow (listening 4).advance
      ⟨.idle, .fresh, fun _ => .fresh⟩ deliveredTooLate = some p := ⟨_, rfl⟩
  have hrun := (listening 4).run_of_follow hfollow
  obtain ⟨rfl, rfl⟩ := Prod.mk.inj (Option.some.inj hfollow)
  exact ⟨_, _, hrun, rfl, ⟨_, List.mem_of_getElem? (i := 33) rfl⟩, _, List.mem_singleton_self _,
    rfl, rfl, rfl⟩

end RemoteControl
