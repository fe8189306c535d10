import RemoteControl.Lifecycle

/-!
# Registration: the counter and the handlers it stands for

`DeinitializeIARM` decides what to remove from a counter alone. That is sound
because of one invariant, `Prefix`: the counter `k` says that exactly the first `k`
events of the registration order are registered.

* `admits_inOrder` — the invariant holds whenever anything is asked of the bus, and
  every removal meets a registered handler.
* `ConfigureRun.outcome`, `DeinitRun.handlers` — where the dialogues leave the
  handlers.
* `registrations_follow_counter` — the whole life of one instance: any number of
  `Configure` attempts, each meeting any answers, and the destructor.
-/

namespace RemoteControl

open Interaction Runs

/-! ## The prefix invariant -/

/-- The counter tells what is registered. -/
structure ImplState.Prefix (s : ImplState) : Prop where
  /-- the counter is in range -/
  bounded : s.members.handlersRegistered ≤ 5
  /-- the registered events are the first ones, in registration order -/
  handlers : s.bus.handlers = registrationOrder.take s.members.handlersRegistered

/-- Removing a list backwards, as long as nothing occurs twice. -/
theorem foldl_erase_reverse {α : Type} [DecidableEq α] (A : List α) : ∀ es : List α,
    (A ++ es.reverse).Nodup → es.foldl List.erase (A ++ es.reverse) = A := by
  intro es
  induction es with
  | nil => exact fun _ => List.append_nil A
  | cons e es ih =>
    intro h
    rw [List.reverse_cons, ← List.append_assoc] at h ⊢
    obtain ⟨hrest, -, hdisj⟩ := List.nodup_append.mp h
    have hnot : e ∉ A ++ es.reverse := fun hmem =>
      hdisj e hmem e (List.mem_singleton_self e) rfl
    rw [List.foldl_cons, List.erase_append_right _ hnot, List.erase_cons_head, List.append_nil]
    exact ih hrest

theorem RemoveRun.handlers {es : List RcuEvent} {l : List BusEvent} (h : RemoveRun es l) :
    ∀ b : Bus, (b.after l).handlers = es.foldl List.erase b.handlers := by
  induction h with
  | nil => exact fun _ => rfl
  | cons _ ih => exact fun b => ih _

/-- What is left of the handlers when the removals have come to `e`. -/
theorem RemoveRun.handlers_left {b : Bus} {n : ℕ} {pre rest : List RcuEvent}
    {l : List BusEvent} (h : RemoveRun pre l) (hb : b.handlers = registrationOrder.take n)
    (hsplit : (registrationOrder.take n).reverse = pre ++ rest) :
    (b.after l).handlers = rest.reverse := by
  have hnodup : (registrationOrder.take n).Nodup :=
    (List.take_sublist n registrationOrder).nodup (by decide)
  rw [List.reverse_eq_iff, List.reverse_append] at hsplit
  rw [h.handlers, hb, hsplit]
  exact foldl_erase_reverse _ _ (hsplit ▸ hnodup)

/-- **`DeinitializeIARM` removes everything.** -/
theorem DeinitRun.handlers {b : Bus} {m : Members} {l : List BusEvent} (h : DeinitRun m l)
    (hb : b.handlers = registrationOrder.take m.handlersRegistered) :
    (b.after l).handlers = [] := by
  have hnil : ∀ l, RemoveRun m.removals l → (b.after l).handlers = [] := fun l hl =>
    hl.handlers_left hb (List.append_nil _).symm
  cases h with
  | shared _ hl => exact hnil l hl
  | @own l res res' _ hl =>
    rw [Bus.after_append]
    cases res <;> cases res' <;> exact hnil l hl

/-- An accepted registration of the next event appends it. -/
theorem handlers_accepted {b : Bus} {n : ℕ} {e : RcuEvent}
    (hb : b.handlers = registrationOrder.take n) (he : registrationOrder[n]? = some e) :
    (b.next (.registerEventHandler e .success)).handlers = registrationOrder.take (n + 1) := by
  have htake : registrationOrder.take (n + 1) = registrationOrder.take n ++ [e] := by
    rw [List.take_add_one, he, Option.toList_some]
  have hnodup : (registrationOrder.take (n + 1)).Nodup :=
    (List.take_sublist (n + 1) registrationOrder).nodup (by decide)
  have hnot : e ∉ b.handlers := by
    rw [hb]
    rw [htake] at hnodup
    exact fun hmem => (List.nodup_append.mp hnodup).2.2 e hmem e (List.mem_singleton_self e) rfl
  simp only [Bus.next, Bus.effect, if_neg hnot]
  rw [hb, htake]

/-- A refused registration registers nothing. -/
theorem handlers_refused {b : Bus} {e : RcuEvent} {res : IarmResult} (h : res ≠ .success) :
    (b.next (.registerEventHandler e res)).handlers = b.handlers := by
  cases res with
  | success => exact absurd rfl h
  | _ => rfl

/-- **Registration registers everything, or leaves nothing registered.** -/
theorem RegisterRun.handlers {m m' : Members} {es : List RcuEvent} {r : Bool}
    {l : List BusEvent} (h : RegisterRun m es r m' l) : ∀ {b : Bus},
    es = registrationOrder.drop m.handlersRegistered → m.handlersRegistered ≤ 5 →
    b.handlers = registrationOrder.take m.handlersRegistered →
    (b.after l).handlers = (if r then registrationOrder else []) ∧
      m'.handlersRegistered = if r then 5 else 0 := by
  induction h with
  | @done m =>
    intro b hes hle hb
    have hlen : 5 ≤ m.handlersRegistered := List.drop_eq_nil_iff.mp hes.symm
    obtain hfive : m.handlersRegistered = 5 := by omega
    exact ⟨by rw [Bus.after_nil, hb, hfive]; rfl, hfive⟩
  | @accepted m m' event es r l _ ih =>
    intro b hes hle hb
    have hnext : registrationOrder[m.handlersRegistered]? = some event := by
      rw [← List.head?_drop, ← hes, List.head?_cons]
    have hlt : m.handlersRegistered < 5 := (List.getElem?_eq_some_iff.mp hnext).1
    refine ih ?_ hlt (handlers_accepted hb hnext)
    rw [Members.handlersRegistered_counted, ← List.tail_drop, ← hes, List.tail_cons]
  | refused hres hl =>
    intro b _ _ hb
    exact ⟨hl.handlers ((handlers_refused hres).trans hb), rfl⟩

theorem InitializeRun.handlers {m m' : Members} {r : Bool} {l : List BusEvent} {b : Bus}
    (h : InitializeRun m r m' l) (hzero : m.handlersRegistered = 0) (hb : b.handlers = []) :
    (b.after l).handlers = (if r then registrationOrder else []) ∧
      m'.handlersRegistered = if r then 5 else 0 := by
  have hconn : ∀ v l, (∀ r, InitRun r l → (b.after (.isConnected v :: l)).handlers = []) :=
    fun v l r hl => (Bus.handlers_after_of_connects
      (List.forall_mem_cons.mpr ⟨rfl, hl.connects⟩) b).trans hb
  cases h with
  | failed hl => exact ⟨hconn _ _ _ hl, hzero⟩
  | registered hl hrun =>
    rw [Bus.after_append]
    refine hrun.handlers ?_ ?_ ?_
    · simp [hzero]
    · simp [hzero]
    · rw [Members.handlersRegistered_owning, hzero, List.take_zero, hconn _ _ _ hl]

/-- A rollback ends with the flag reset. -/
theorem RegisterRun.hasOwnProcess {m m' : Members} {es : List RcuEvent} {r : Bool}
    {l : List BusEvent} (h : RegisterRun m es r m' l) :
    m'.hasOwnProcess = (r && m.hasOwnProcess) := by
  induction h with
  | done => rfl
  | accepted _ ih => exact ih
  | refused _ _ => rfl

theorem InitializeRun.cleared {m m' : Members} {l : List BusEvent} {b : Bus}
    (h : InitializeRun m false m' l) (hzero : m.handlersRegistered = 0) (hb : b.handlers = []) :
    m'.serving none = .constructed := by
  have hcount : m'.handlersRegistered = 0 := (h.handlers hzero hb).2
  have hown : m'.hasOwnProcess = false := by
    cases h with
    | failed _ => rfl
    | registered _ hrun => exact hrun.hasOwnProcess
  rw [Members.serving, Members.constructed, hcount, hown]

/-- **Where `Configure` leaves the handlers and the members.** -/
theorem ConfigureRun.outcome {m m' : Members} {r : HResult} {l : List BusEvent} {b : Bus}
    (h : ConfigureRun m r m' l) (hzero : m.handlersRegistered = 0) (hb : b.handlers = []) :
    (r = .errorNone ∧ m'.service = m.service ∧ m'.handlersRegistered = 5 ∧
      (b.after l).handlers = registrationOrder) ∨
    (r = .errorGeneral ∧ m' = .constructed ∧ (b.after l).handlers = []) := by
  cases h with
  | @notInitialised m' l hrun =>
    exact .inr ⟨rfl, hrun.cleared hzero hb, (hrun.handlers hzero hb).1⟩
  | @notConnected m' l l' v hrun hv hl =>
    obtain ⟨hhandlers, hcount⟩ := hrun.handlers hzero hb
    refine .inr ⟨rfl, rfl, ?_⟩
    rw [List.append_cons, Bus.after_append]
    apply hl.handlers
    rw [Bus.after_append, Bus.after_cons, Bus.after_nil, Bus.handlers_next_of_connects rfl,
      hhandlers, hcount]
    rfl
  | @configured m' l hrun =>
    obtain ⟨hhandlers, hcount⟩ := hrun.handlers hzero hb
    refine .inl ⟨rfl, hrun.service, hcount, ?_⟩
    rw [Bus.after_append, Bus.after_cons, Bus.after_nil, Bus.handlers_next_of_connects rfl]
    exact hhandlers

/-! ## The side condition -/

/-- What every operation finds: a removal its handler, any other bus call the prefix
invariant. -/
def InOrder (s : ImplState) : ImplOp → Prop
  | .bus (.removeEventHandler event) => event ∈ s.bus.handlers
  | .bus _ => s.Prefix
  | _ => True

theorem tearing_inOrder {s : ImplState} (h : s.Prefix) : Tearing InOrder s := by
  -- after the removals the counter is `0` and nothing is registered
  have hgone : ∀ l, RemoveRun s.members.removals l →
      (s.became s.members.uncounted l).Prefix := fun l hl =>
    ⟨Nat.zero_le 5, hl.handlers_left h.handlers (List.append_nil _).symm⟩
  refine ⟨h.bounded, ?_, fun _ l hl => hgone l hl, ?_⟩
  · intro pre e post l hsplit hl
    have := hl.handlers_left h.handlers hsplit
    simp [InOrder, ImplState.after, this]
  · intro _ l res hl
    rw [← ImplState.became_after]
    refine ⟨(hgone l hl).bounded, ?_⟩
    have := (hgone l hl).handlers
    cases res <;> exact this

theorem admits_inOrder : Admits InOrder ImplState.Prefix where
  quiet := by
    intro s o ho
    cases o with
    | bus c => exact ho.elim
    | _ => trivial
  asks := fun s hs => ⟨hs, hs, hs⟩
  connects := fun s e hs he => ⟨hs.bounded, (Bus.handlers_next_of_connects he).trans hs.handlers⟩
  accepted := fun s e hs he =>
    ⟨hs, (List.getElem?_eq_some_iff.mp he).1, handlers_accepted hs.handlers he⟩
  refused := fun s e res hs hres => ⟨hs.bounded, (handlers_refused hres).trans hs.handlers⟩
  tearing := fun s hs => tearing_inOrder hs

/-! ## The life of one instance -/

/-- The entry points of one instance. -/
inductive LifeCall where
  /-- `Configure(service)` -/
  | configure (service : Shell)
  /-- the destructor -/
  | destroy
  deriving DecidableEq

/-- The program behind an entry point; the destructor has no result. -/
def LifeCall.body : LifeCall → ImplM (Option HResult)
  | .configure service => do
    let result ← RemoteControl.configure service
    return some result
  | .destroy => do
    destructor
    return none

/-- `Configure` is called only while `_service` is null, and nothing after the
destructor. -/
def LifeCall.ready (s : ImplState) : LifeCall → Prop
  | .configure _ => s.members.service = none ∧ s.ended = false
  | .destroy => s.ended = false

instance (s : ImplState) : (c : LifeCall) → Decidable (c.ready s)
  | .configure _ => inferInstanceAs (Decidable (_ ∧ _))
  | .destroy => inferInstanceAs (Decidable (_ = _))

/-- One instance alone in its process, on a bus that may answer anything. -/
abbrev session : Setting LifeCall ImplOp ImplOp.Answer (Option HResult) ImplState Unit Empty where
  machine := implMachine fun _ => True
  body := LifeCall.body
  ready := fun s _ c => c.ready s
  allow := fun _ _ _ _ => True
  react := fun _ _ _ _ => ()
  env := fun _ _ e => nomatch e

/-- Not configured: nothing is registered and nothing is held. -/
structure ImplState.Unconfigured (s : ImplState) : Prop where
  /-- `_service` is null, `_hasOwnProcess` false, `_handlersRegistered` 0 -/
  members : s.members = .constructed
  /-- no event is registered -/
  handlers : s.bus.handlers = []
  /-- every reference on a shell has been given back, and only once -/
  shells : s.shells.Balanced

/-- Configured for `service`. -/
structure ImplState.Configured (s : ImplState) (service : Shell) : Prop where
  /-- `_service` -/
  serving : s.members.service = some service
  /-- `_handlersRegistered` -/
  counter : s.members.handlersRegistered = 5
  /-- all five events are registered -/
  handlers : s.bus.handlers = registrationOrder
  /-- exactly one reference is held, on `service` -/
  shells : s.shells.Holds [service]

/-- Between two calls. -/
def ImplState.Settled (s : ImplState) : Prop :=
  s.crashed = false ∧ (s.Unconfigured ∨ ∃ service, s.Configured service)

/-- What a call leaves, compared with the state it was entered from. -/
def LifeCall.Leaves (entry : ImplState) (r : Option HResult) (s : ImplState) : LifeCall → Prop
  | .configure service =>
    r = some .errorNone ∧ s.Configured service ∧ s.shells = entry.shells.take service ∨
    r = some .errorGeneral ∧ s.Unconfigured ∧
      s.shells = (entry.shells.take service).give service
  | .destroy => s.Unconfigured ∧ s.ended = true

/-- **Every call is in order**, from any state between two calls. -/
theorem wlp_lifeCall (c : LifeCall) {s : ImplState} (hs : s.Settled) (hready : c.ready s) :
    (implMachine fun _ => True).wlp InOrder c.body
      (fun r s' => c.Leaves s r s' ∧ s'.Settled) s := by
  obtain ⟨halive, hs⟩ := hs
  cases c with
  | configure service =>
    have hun : s.Unconfigured := by
      rcases hs with hun | ⟨other, hcon⟩
      · exact hun
      · exact absurd (hready.1.symm.trans hcon.serving) nofun
    have hzero : s.members.handlersRegistered = 0 := by rw [hun.members]; rfl
    have hcounter : ∀ s' : ImplState, s'.members.handlersRegistered = 0 → s'.bus.handlers = [] →
        s'.Prefix := fun s' h h' => ⟨h ▸ Nat.zero_le 5, by rw [h, h']; rfl⟩
    simp only [LifeCall.body, Machine.wlp_bind, Machine.wlp_pure]
    refine Machine.wlp_post (wlp_configure admits_inOrder (hcounter _ hzero hun.handlers) hzero
      fun v l hl => ⟨trivial, hcounter _ hzero ?_⟩) ?_
    · exact (Bus.handlers_after_of_connects
        (List.forall_mem_cons.mpr ⟨rfl, hl.connects⟩) s.bus).trans hun.handlers
    · rintro r s' ⟨m, l, hrun, -, rfl, -⟩
      rcases hrun.outcome hzero hun.handlers with
        ⟨rfl, hservice, hcount, hhandlers⟩ | ⟨rfl, rfl, hhandlers⟩
      · have hcon : ImplState.Configured { s.became m l with
            shells := shellsAfter s.shells service .errorNone } service :=
          ⟨hservice, hcount, hhandlers, hun.shells.take service⟩
        exact ⟨.inl ⟨rfl, hcon, rfl⟩, halive, .inr ⟨service, hcon⟩⟩
      · have hun' : ImplState.Unconfigured { s.became .constructed l with
            shells := shellsAfter s.shells service .errorGeneral } :=
          ⟨rfl, hhandlers, (hun.shells.take service).give⟩
        exact ⟨.inr ⟨rfl, hun', rfl⟩, halive, .inl hun'⟩
  | destroy =>
    have hcounter : s.Prefix := by
      rcases hs with hun | ⟨service, hcon⟩
      · exact ⟨by rw [hun.members]; decide, by rw [hun.members, hun.handlers]; rfl⟩
      · exact ⟨hcon.counter.le, by rw [hcon.counter, hcon.handlers]; rfl⟩
    simp only [LifeCall.body, Machine.wlp_bind, Machine.wlp_pure]
    refine Machine.wlp_post (wlp_destructor admits_inOrder.quiet trivial
      (tearing_inOrder ⟨hcounter.bounded, hcounter.handlers⟩) fun _ _ => trivial) ?_
    rintro - s' ⟨l, hl, -, rfl⟩
    have hun' : ImplState.Unconfigured { s.released l with ended := true } := by
      refine ⟨rfl, hl.handlers hcounter.handlers, ?_⟩
      rcases hs with hun | ⟨service, hcon⟩
      · simp only [ImplState.released, hun.members]
        exact hun.shells
      · simp only [ImplState.released, hcon.serving]
        exact hcon.shells.give
    exact ⟨⟨hun', rfl⟩, halive, .inl hun'⟩

/-- **The counter and the handlers, over a whole life.** In every run of one
instance, on whatever answers of the bus:

1. whenever the bus is called, except for removals, the counter is `k` exactly when
   the registered events are the first `k` in registration order;
2. every removal is for an event that is registered at that moment;
3. `Configure` leaves the instance configured, with one reference taken on the shell,
   or unconfigured, with that reference given back once;
4. the destructor leaves it unconfigured;

and no null pointer is gone through. -/
theorem registrations_follow_counter {self : ImplId} {b : Bus} (hb : b.handlers = [])
    {conf : Conf LifeCall ImplOp ImplOp.Answer (Option HResult) ImplState Unit}
    {tr : List (Conf LifeCall ImplOp ImplOp.Answer (Option HResult) ImplState Unit ×
      Act LifeCall ImplOp ImplOp.Answer (Option HResult) Empty)}
    (h : session.RunOf ⟨.idle, .new self b, ()⟩ tr conf) :
    (∀ s call x, (s, .own (.bus call) x) ∈ tr → (∀ event, call ≠ .removeEventHandler event) →
      ∀ k ≤ 5, s.core.members.handlersRegistered = k ↔
        s.core.bus.handlers = registrationOrder.take k) ∧
    (∀ s event x, (s, .own (.bus (.removeEventHandler event)) x) ∈ tr →
      event ∈ s.core.bus.handlers) ∧
    (∀ s service r, (s, .leave (.configure service) r) ∈ tr →
      ∃ entry, s.ctrl = .busy (.configure service) entry (.ret r) ∧
        (r = some .errorNone ∧ s.core.Configured service ∧
            s.core.shells = entry.shells.take service ∨
          r = some .errorGeneral ∧ s.core.Unconfigured ∧
            s.core.shells = (entry.shells.take service).give service)) ∧
    (∀ s r, (s, .leave .destroy r) ∈ tr → s.core.Unconfigured) ∧
    (∀ p ∈ tr, p.1.ctrl = .idle → p.1.core.crashed = false) := by
  have hstart : session.CoreOk (fun _ _ => InOrder) (fun c e r s => c.Leaves e r s)
      ImplState.Settled ⟨.idle, .new self b, ()⟩ :=
    ⟨rfl, .inl ⟨rfl, hb, Ledger.blank_balanced⟩⟩
  obtain ⟨-, hall⟩ := Setting.core_run (fun c s _ hs hready => wlp_lifeCall c hs hready) h hstart
  refine ⟨fun s call x hmem hcall k hk => ?_, fun s event x hmem => ?_, fun s service r hmem => ?_,
    fun s r hmem => ?_, fun p hp hidle => ?_⟩
  · obtain ⟨_, _, _, -, hG⟩ := Setting.own_ok h hall hmem
    have hcounter : s.core.Prefix := by
      cases call with
      | removeEventHandler event => exact absurd rfl (hcall event)
      | _ => exact hG
    rw [hcounter.handlers]
    constructor
    · rintro rfl
      rfl
    · intro heq
      have hlen := congrArg List.length heq
      have hle := hcounter.bounded
      simp only [List.length_take, registrationOrder, List.length_cons, List.length_nil] at hlen
      omega
  · obtain ⟨_, _, _, -, hG⟩ := Setting.own_ok h hall hmem
    exact hG
  · obtain ⟨entry, hctrl, hpost, -⟩ := Setting.leave_ok h hall hmem
    exact ⟨entry, hctrl, hpost⟩
  · obtain ⟨_, -, hpost, -⟩ := Setting.leave_ok h hall hmem
    exact hpost.1
  · have hok := hall p hp
    rw [Setting.CoreOk, hidle] at hok
    exact hok.1

/-- A connected bus that refuses the third registration the first time round. -/
def refusesOnce (b : Bus) : (c : BusCall) → c.Answer
  | .init => .success
  | .connect => .success
  | .isConnected => (1 : ℤ)
  | .disconnect => .success
  | .term => .success
  | .registerEventHandler _ =>
    if b.handlers.length = 2 ∧ b.log.length < 6 then .oom else .success
  | .removeEventHandler _ => .success

/-- A failed attempt, a second one that succeeds, and the destructor. -/
def retriedLife : List (Move LifeCall ImplOp ImplOp.Answer ImplState Empty) :=
  [.enter (.configure 7)] ++ List.replicate 23 (.answer (replying refusesOnce)) ++
    [.leave, .enter (.configure 7)] ++ List.replicate 23 (.answer (replying refusesOnce)) ++
    [.leave, .enter .destroy] ++ List.replicate 16 (.answer (replying refusesOnce)) ++ [.leave]

/-- In that life the first attempt leaves nothing, and the destructor neither. -/
theorem registrations_follow_counter_retried :
    ∃ tr conf, follow session.advance ⟨.idle, .new 0 ⟨false, false, [], []⟩, ()⟩ retriedLife =
        some (tr, conf) ∧
      (∃ s, (s, .leave (.configure 7) (some .errorGeneral)) ∈ tr ∧ s.core.Unconfigured) ∧
      (∃ s, (s, .leave .destroy none) ∈ tr ∧ s.core.Unconfigured) := by
  obtain ⟨⟨tr, conf⟩, hfollow⟩ : ∃ p, follow session.advance
      ⟨.idle, .new 0 ⟨false, false, [], []⟩, ()⟩ retriedLife = some p := ⟨_, rfl⟩
  obtain ⟨-, -, hconfigure, hdestroy, -⟩ :=
    registrations_follow_counter rfl (session.run_of_follow hfollow)
  have hleave : ∃ s, (s, .leave (.configure 7) (some .errorGeneral)) ∈ tr := by
    obtain ⟨rfl, -⟩ := Prod.mk.inj (Option.some.inj hfollow)
    exact ⟨_, List.mem_of_getElem? (i := 24) rfl⟩
  have hend : ∃ s, (s, .leave .destroy none) ∈ tr := by
    obtain ⟨rfl, -⟩ := Prod.mk.inj (Option.some.inj hfollow)
    exact ⟨_, List.mem_of_getElem? (i := 67) rfl⟩
  obtain ⟨s, hs⟩ := hleave
  obtain ⟨t, ht⟩ := hend
  refine ⟨tr, conf, hfollow, ⟨s, hs, ?_⟩, t, ht, hdestroy t none ht⟩
  obtain ⟨_, -, h | h⟩ := hconfigure s 7 _ hs
  · exact absurd h.1 nofun
  · exact h.2.1

end RemoteControl
