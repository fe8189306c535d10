import RemoteControl.Restoration

/-!
# Shutdown: callbacks that outlive the instance

`remoteEventHandler` copies `_instance` under `_instanceLock` and calls
`iarmEventHandler` on the copy **after** it has unlocked. The destructor begins by
clearing `_instance`, but it does not wait for a callback that has read the pointer
before, and neither does `IARM_Bus_RemoveEventHandler`.

* `shutdown` — the destructor, operation by operation, among any number of
  callbacks, each step by step.
* `Untouched.step` — once the object is gone, nobody gets hold of it any more.
* `no_step_after_end` — so all that matters is who has got hold of it by then.
* `step_after_end` — and somebody may have.
-/

namespace RemoteControl

open Interaction Runs

variable {ν : Type} [DecidableEq ν]

/-! ## The callbacks -/

/-- The kind of notification `iarmEventHandler` makes of an event. -/
def RcuEvent.kind : RcuEvent → EventKind
  | .rcuStatus => .status
  | .configurationComplete => .status
  | .rf4cePairingWindowTimeout => .status
  | .validationStatus => .validation
  | .firmwareUpdateProgress => .firmwareUpdateProgress

/-- Where a run of `remoteEventHandler` is. -/
inductive Phase where
  /-- before it has locked `_instanceLock` -/
  | entered
  /-- it has copied `_instance` and unlocked -/
  | loaded (instance? : Option ImplId)
  /-- in `iarmEventHandler` of an instance -/
  | handling (i : ImplId)
  /-- in a `Notify` function of an instance, before the snapshot -/
  | notifying (i : ImplId)
  /-- after the snapshot: working through dispatch `d` -/
  | dispatching (i : ImplId) (d : ℕ)
  /-- back in the bus library -/
  | returned
  deriving DecidableEq

/-- The instance a run of `remoteEventHandler` has got hold of. -/
def Phase.holds : Phase → Option ImplId
  | .entered => none
  | .loaded p => p
  | .handling i => some i
  | .notifying i => some i
  | .dispatching i _ => some i
  | .returned => none

/-- A callback of the bus library. -/
structure Callback where
  /-- the event -/
  event : RcuEvent
  /-- `owner` is `CTRLM_MAIN_IARM_BUS_NAME` -/
  fromCtrlm : Bool
  /-- `data` is not null and `len` not zero -/
  hasData : Bool
  /-- where it is -/
  phase : Phase
  deriving DecidableEq

/-- The callbacks of the process, and the observers of the instance. -/
structure Callbacks (ν : Type) where
  /-- the callbacks so far, oldest first -/
  callbacks : List Callback
  /-- the observers of the instance -/
  observers : Observers ν

/-- A step of a callback, named by its position in `callbacks`. -/
inductive CallbackStep (ν : Type) where
  /-- the bus library calls `remoteEventHandler` -/
  | arrive (event : RcuEvent) (fromCtrlm hasData : Bool)
  /-- the locked read of `_instance` -/
  | read (j : ℕ)
  /-- the test for null, and the call of `iarmEventHandler` -/
  | call (j : ℕ)
  /-- the checks of `iarmEventHandler`, and the switch -/
  | check (j : ℕ)
  /-- the payload is decoded and `ObserverSnapshot` taken -/
  | snapshot (j : ℕ)
  /-- a callback is entered or left, or an entry of the snapshot released -/
  | observe (j : ℕ) (a : Observers.Action ν)
  /-- the `Notify` function and everything around it return -/
  | finish (j : ℕ)
  deriving DecidableEq

namespace Callbacks

/-- Callback `j` moves on. -/
def move (t : Callbacks ν) (j : ℕ) (cb : Callback) (p : Phase) : Callbacks ν :=
  { t with callbacks := t.callbacks.set j { cb with phase := p } }

/-- An action is a part of dispatch `d`. -/
def ofDispatch (d : ℕ) : Observers.Action ν → Bool
  | .enterCallback e _ => e = d
  | .leaveCallback e => e = d
  | .release e => e = d
  | _ => false

/-- One step of callback `j`, which is `cb`; `none` if it is not at that point. -/
def advance (k : ImplState) (t : Callbacks ν) (j : ℕ) (cb : Callback) :
    CallbackStep ν → Option (Callbacks ν)
  | .arrive _ _ _ => none
  | .read _ => if cb.phase = .entered then some (t.move j cb (.loaded k.theInstance)) else none
  | .call _ =>
    match cb.phase with
    | .loaded (some i) => some (t.move j cb (.handling i))
    | .loaded none => some (t.move j cb .returned)
    | _ => none
  | .check _ =>
    match cb.phase with
    | .handling i =>
      if cb.fromCtrlm && cb.hasData then some (t.move j cb (.notifying i))
      else some (t.move j cb .returned)
    | _ => none
  | .snapshot _ =>
    match cb.phase with
    | .notifying i =>
      let (observers, o) := t.observers.observerSnapshot
      some { t.move j cb (.dispatching i o.dispatches.length) with
        observers := { o with
          dispatches := o.dispatches ++ [{ kind := cb.event.kind, observers }] } }
    | _ => none
  | .observe _ a =>
    match cb.phase with
    | .dispatching _ d =>
      if ofDispatch d a then (t.observers.step a).map fun o => { t with observers := o } else none
    | _ => none
  | .finish _ =>
    match cb.phase with
    | .dispatching _ d =>
      match t.observers.dispatches[d]? with
      | some D => if D.finished then some (t.move j cb .returned) else none
      | none => none
    | _ => none

/-- The callback a step belongs to. -/
def index : CallbackStep ν → Option ℕ
  | .arrive _ _ _ => none
  | .read j => some j
  | .call j => some j
  | .check j => some j
  | .snapshot j => some j
  | .observe j _ => some j
  | .finish j => some j

/-- One step. A callback starts only for an event `remoteEventHandler` is registered
for. -/
def step (k : ImplState) (t : Callbacks ν) (a : CallbackStep ν) : Option (Callbacks ν) :=
  match a with
  | .arrive event fromCtrlm hasData =>
    if event ∈ k.bus.handlers then
      some { t with callbacks := t.callbacks ++ [⟨event, fromCtrlm, hasData, .entered⟩] }
    else none
  | a =>
    match index a with
    | some j =>
      match t.callbacks[j]? with
      | some cb => advance k t j cb a
      | none => none
    | none => none

/-- The instance a step of `iarmEventHandler` or a `Notify` function is executed on. -/
def runsOn (t : Callbacks ν) (a : CallbackStep ν) : Option ImplId :=
  match a with
  | .read _ => none
  | a => (index a).bind fun j => (t.callbacks[j]?).bind fun cb => cb.phase.holds

end Callbacks

/-- The destructor among the callbacks. -/
abbrev shutdown (ν : Type) [DecidableEq ν] :
    Setting Unit ImplOp ImplOp.Answer Unit ImplState (Callbacks ν) (CallbackStep ν) where
  machine := implMachine fun _ => True
  body := fun _ => destructor
  ready := fun k _ _ => k.ended = false
  allow := fun _ _ _ _ => True
  react := fun _ t o _ =>
    if o = .releaseObservers then { t with observers := t.observers.releaseObservers } else t
  env := Callbacks.step

/-! ## Nobody gets hold of the object any more -/

/-- No callback has got hold of an instance. -/
def Callbacks.Untouched (t : Callbacks ν) : Prop :=
  ∀ cb ∈ t.callbacks, cb.phase.holds = none

omit [DecidableEq ν] in
theorem Callbacks.Untouched.move {t : Callbacks ν} (h : t.Untouched) (j : ℕ) (cb : Callback)
    {p : Phase} (hp : p.holds = none) : (t.move j cb p).Untouched := by
  intro cb' hmem
  rcases List.mem_or_eq_of_mem_set hmem with hmem | rfl
  · exact h cb' hmem
  · exact hp

omit [DecidableEq ν] in
/-- Then no step is executed on one. -/
theorem Callbacks.Untouched.runsOn {t : Callbacks ν} (h : t.Untouched) (a : CallbackStep ν) :
    t.runsOn a = none := by
  have hany : ∀ j : ℕ, (t.callbacks[j]?).bind (fun cb => cb.phase.holds) = none := by
    intro j
    rcases hcb : t.callbacks[j]? with _ | cb
    · rfl
    · exact h cb (List.mem_of_getElem? hcb)
  cases a with
  | arrive event fromCtrlm hasData => rfl
  | read j => rfl
  | _ => exact hany _

/-- Only the locked read gets hold of anything. -/
theorem Callbacks.Untouched.advance {k : ImplState} {t t' : Callbacks ν} {a : CallbackStep ν}
    {j : ℕ} {cb : Callback} (h : t.Untouched) (hcb : cb.phase.holds = none)
    (hnull : k.theInstance = none) (hstep : Callbacks.advance k t j cb a = some t') :
    t'.Untouched := by
  cases a with
  | arrive event fromCtrlm hasData => cases hstep
  | read _ =>
    obtain ⟨-, rfl⟩ : cb.phase = .entered ∧ t.move j cb (.loaded k.theInstance) = t' := by
      simpa [Callbacks.advance] using hstep
    exact h.move j cb hnull
  | call _ =>
    rcases hphase : cb.phase with _ | i? | _ | _ | _ | _ <;>
      rw [Callbacks.advance, hphase] at hstep
    · cases hstep
    · obtain rfl : i? = none := by rwa [hphase] at hcb
      cases hstep
      exact h.move j cb rfl
    all_goals cases hstep
  | _ =>
    -- the others are steps of a callback that has hold of an instance
    rcases hphase : cb.phase with _ | _ | _ | _ | _ | _ <;>
      rw [hphase] at hcb <;> rw [Callbacks.advance, hphase] at hstep <;>
      cases hcb <;> cases hstep

/-- And while `_instance` is null, that stays so. -/
theorem Callbacks.Untouched.step {k : ImplState} {t t' : Callbacks ν} {a : CallbackStep ν}
    (h : t.Untouched) (hnull : k.theInstance = none) (hstep : t.step k a = some t') :
    t'.Untouched := by
  have hown : ∀ j : ℕ, (match t.callbacks[j]? with
      | some cb => Callbacks.advance k t j cb a
      | none => none) = some t' → t'.Untouched := by
    intro j hj
    rcases hcb : t.callbacks[j]? with _ | cb <;> rw [hcb] at hj
    · cases hj
    · exact h.advance (h cb (List.mem_of_getElem? hcb)) hnull hj
  cases a with
  | arrive event fromCtrlm hasData =>
    obtain ⟨-, rfl⟩ : event ∈ k.bus.handlers ∧
        { t with callbacks := t.callbacks ++ [⟨event, fromCtrlm, hasData, .entered⟩] } = t' := by
      simpa [Callbacks.step] using hstep
    intro cb hcb
    rcases List.mem_append.mp hcb with hcb | hcb
    · exact h cb hcb
    · obtain rfl := List.mem_singleton.mp hcb
      rfl
  | _ => exact hown _ hstep

/-! ## The theorem -/

/-- The object ends with `_instance` null. -/
def NullAtEnd (k : ImplState) : ImplOp → Prop
  | .setInstance p => p = none
  | .endOfLifetime => k.theInstance = none
  | _ => True

/-- The destructor clears `_instance` first, and nothing sets it again. -/
theorem wlp_nullAtEnd {answers : BusEvent → Prop} {k : ImplState}
    (hk : k.members.handlersRegistered ≤ 5) :
    (implMachine answers).wlp NullAtEnd destructor
      (fun _ k' => k'.members.handlersRegistered ≤ 5) k := by
  have hquiet : ∀ (k : ImplState) (o : ImplOp), o.Quiet k → NullAtEnd k o := by
    intro k o ho
    cases o with
    | setInstance p => exact ho.elim
    | endOfLifetime => exact ho.elim
    | _ => trivial
  have htearing : Tearing NullAtEnd { k with theInstance := none } :=
    ⟨hk, fun _ _ _ _ _ _ => trivial, fun _ _ _ => trivial, fun _ _ _ _ => trivial⟩
  apply Machine.wlp_post (wlp_destructor hquiet rfl htearing fun _ _ => rfl)
  rintro - k' ⟨l, -, -, rfl⟩
  exact Nat.zero_le 5

/-- An operation ends the object or leaves it as it was, and moves `_instance` only to
where it is set. -/
theorem ImplState.next_instance (k : ImplState) {o : ImplOp} (x : o.Answer)
    (hset : ∀ p, o ≠ .setInstance p) (hend : o ≠ .endOfLifetime) :
    (k.next o x).theInstance = k.theInstance ∧ (k.next o x).ended = k.ended := by
  cases o with
  | setInstance p => exact absurd rfl (hset p)
  | endOfLifetime => exact absurd rfl hend
  | serviceAddRef => rcases h : k.members.service <;> simp [ImplState.next, h]
  | serviceRelease => rcases h : k.members.service <;> simp [ImplState.next, h]
  | _ => exact ⟨rfl, rfl⟩

/-- The configurations of `shutdown`. -/
abbrev ShutdownConf (ν : Type) : Type := Conf Unit ImplOp ImplOp.Answer Unit ImplState (Callbacks ν)

/-- The actions of `shutdown`. -/
abbrev ShutdownAct (ν : Type) : Type := Act Unit ImplOp ImplOp.Answer Unit (CallbackStep ν)

/-- The step is not the end of the object while a callback has hold of it. -/
def LetGo (s : ShutdownConf ν) : ShutdownAct ν → Prop
  | .own .endOfLifetime _ => s.rest.Untouched
  | _ => True

/-- Once the object has ended, nobody has hold of it or can get hold of it. -/
def Forgotten (s : ShutdownConf ν) : Prop :=
  s.core.ended = true → s.core.theInstance = none ∧ s.rest.Untouched

theorem Forgotten.step {s t : ShutdownConf ν} {a : ShutdownAct ν} (h : Forgotten s)
    (hcore : (shutdown ν).CoreOk (fun _ _ => NullAtEnd) (fun _ _ _ _ => True)
      (fun k => k.members.handlersRegistered ≤ 5) s)
    (ha : LetGo s a) (hstep : (shutdown ν).Step s a t) : Forgotten t := by
  cases hstep with
  | enter _ => exact h
  | @own c e k t o f x _ _ =>
    have hG : NullAtEnd k o := hcore.1
    have hrest : t.Untouched → ((shutdown ν).react k t o x).Untouched := by
      intro hu
      by_cases ho : o = .releaseObservers
      · simp only [if_pos ho]
        exact hu
      · simp only [if_neg ho]
        exact hu
    cases o with
    | setInstance p => exact fun hended => ⟨hG, hrest (h hended).2⟩
    | endOfLifetime => exact fun _ => ⟨hG, hrest ha⟩
    | _ =>
      obtain ⟨hinstance, hended⟩ := k.next_instance x nofun nofun
      intro hended'
      obtain ⟨hnull, hu⟩ := h (hended.symm.trans hended')
      exact ⟨hinstance.trans hnull, hrest hu⟩
  | leave => exact h
  | other henv =>
    intro hended
    obtain ⟨hnull, hu⟩ := h hended
    exact ⟨hnull, hu.step hnull henv⟩

/-- **Shutdown.** In every run in which no callback has hold of the instance when its
destructor completes, no step of `iarmEventHandler` or a `Notify` function is executed
on it afterwards. -/
theorem no_step_after_end {k : ImplState} {t : Callbacks ν} {conf : ShutdownConf ν}
    {tr : List (ShutdownConf ν × ShutdownAct ν)} (hk : k.members.handlersRegistered ≤ 5)
    (halive : k.ended = false) (h : (shutdown ν).RunOf ⟨.idle, k, t⟩ tr conf)
    (hletGo : ∀ p ∈ tr, LetGo p.1 p.2) :
    ∀ s a i, (s, .other a) ∈ tr → s.rest.runsOn a = some i → s.core.ended = false := by
  have hforgotten : Forgotten (⟨.idle, k, t⟩ : ShutdownConf ν) :=
    fun hended => absurd (halive.symm.trans hended) nofun
  obtain ⟨-, hall⟩ := Run.guarded (C := LetGo)
    (I := fun s => (shutdown ν).CoreOk (fun _ _ => NullAtEnd) (fun _ _ _ _ => True)
      (fun k => k.members.handlersRegistered ≤ 5) s ∧ Forgotten s)
    (fun s a t hs ha hstep =>
      ⟨Setting.core_step (fun _ k _ hk _ => Machine.wlp_post (wlp_nullAtEnd hk)
          fun _ _ hk' => ⟨trivial, hk'⟩) hs.1 hstep,
        hs.2.step hs.1 ha hstep⟩)
    h ⟨hk, hforgotten⟩ hletGo
  intro s a i hmem hon
  by_contra hended
  obtain ⟨-, hu⟩ := (hall _ hmem).2 (Bool.not_eq_false _ ▸ hended)
  rw [hu.runsOn a] at hon
  cases hon

instance (t : Callbacks ν) : Decidable t.Untouched :=
  inferInstanceAs (Decidable (∀ cb ∈ t.callbacks, cb.phase.holds = none))

instance (s : ShutdownConf ν) : (a : ShutdownAct ν) → Decidable (LetGo s a)
  | .own .endOfLifetime _ => inferInstanceAs (Decidable s.rest.Untouched)
  | .own (.bus _) _ | .own .load _ | .own (.store _) _ | .own .serviceAddRef _
  | .own .serviceRelease _ | .own (.setInstance _) _ | .own .releaseObservers _
  | .own (.usleep _) _ | .enter _ | .leave _ _ | .other _ => .isTrue trivial

/-- Instance `0`, configured for shell `7`. -/
def configuredInstance : ImplState where
  members := ⟨some 7, true, 5⟩
  theInstance := some 0
  bus := ⟨true, true, registrationOrder, []⟩
  shells := Ledger.blank.take 7
  crashed := false
  ended := false

/-- No callback yet, and the observer `4` is registered. -/
def oneObserver : Callbacks ℕ := ⟨[], (Observers.fresh.register (some 4)).2⟩

/-- The moves of the destructor. -/
def destruction : List (Move Unit ImplOp ImplOp.Answer ImplState (CallbackStep ℕ)) :=
  .enter () :: List.replicate 20 (.answer (replying obliging)) ++ [.leave]

/-- A callback is through before the destructor begins; another one comes before, but
reads `_instance` only after the end. -/
def inTime : List (Move Unit ImplOp ImplOp.Answer ImplState (CallbackStep ℕ)) :=
  [.other (.arrive .rcuStatus true true), .other (.read 0), .other (.call 0),
    .other (.check 0), .other (.snapshot 0), .other (.observe 0 (.enterCallback 0 (some 4))),
    .other (.observe 0 (.leaveCallback 0)), .other (.observe 0 (.release 0)),
    .other (.finish 0), .other (.arrive .validationStatus true true)] ++ destruction ++
    [.other (.read 1), .other (.call 1)]

/-- The first one takes its snapshot of an instance that is alive. -/
theorem no_step_after_end_inTime :
    ∃ tr conf, follow (shutdown ℕ).advance ⟨.idle, configuredInstance, oneObserver⟩ inTime =
        some (tr, conf) ∧
      conf.core.ended = true ∧ ∃ s, (s, .other (.snapshot 0)) ∈ tr ∧ s.core.ended = false := by
  obtain ⟨⟨tr, conf⟩, hfollow⟩ : ∃ p, follow (shutdown ℕ).advance
      ⟨.idle, configuredInstance, oneObserver⟩ inTime = some p := ⟨_, rfl⟩
  have hletGo : ∀ p ∈ tr, LetGo p.1 p.2 := by
    obtain ⟨rfl, -⟩ := Prod.mk.inj (Option.some.inj hfollow)
    decide
  have hsnapshot : ∃ s, (s, .other (.snapshot 0)) ∈ tr ∧
      s.rest.runsOn (.snapshot 0) = some 0 := by
    obtain ⟨rfl, -⟩ := Prod.mk.inj (Option.some.inj hfollow)
    exact ⟨_, List.mem_of_getElem? (i := 4) rfl, rfl⟩
  have hended : conf.core.ended = true := by
    obtain ⟨-, rfl⟩ := Prod.mk.inj (Option.some.inj hfollow)
    rfl
  obtain ⟨s, hmem, hon⟩ := hsnapshot
  exact ⟨tr, conf, hfollow, hended, s, hmem,
    no_step_after_end (by decide) rfl ((shutdown ℕ).run_of_follow hfollow) hletGo s _ 0 hmem hon⟩

/-- A callback reads `_instance` before the destructor begins, and goes on when it is
through. -/
def tooLate : List (Move Unit ImplOp ImplOp.Answer ImplState (CallbackStep ℕ)) :=
  [.other (.arrive .rcuStatus true true), .other (.read 0)] ++ destruction ++
    [.other (.call 0), .other (.check 0), .other (.snapshot 0)]

/-- Then `NotifyStatus` takes its snapshot of an instance whose destructor has completed. -/
theorem step_after_end :
    ∃ tr conf s, (shutdown ℕ).RunOf ⟨.idle, configuredInstance, oneObserver⟩ tr conf ∧
      (s, .other (.snapshot 0)) ∈ tr ∧ s.rest.runsOn (.snapshot 0) = some 0 ∧
      s.core.ended = true := by
  obtain ⟨⟨tr, conf⟩, hfollow⟩ : ∃ p, follow (shutdown ℕ).advance
      ⟨.idle, configuredInstance, oneObserver⟩ tooLate = some p := ⟨_, rfl⟩
  have hrun := (shutdown ℕ).run_of_follow hfollow
  obtain ⟨rfl, -⟩ := Prod.mk.inj (Option.some.inj hfollow)
  exact ⟨_, _, _, hrun, List.mem_of_getElem? (i := 26) rfl, rfl, rfl⟩

end RemoteControl
