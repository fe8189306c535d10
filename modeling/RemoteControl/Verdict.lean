import Mathlib.Algebra.Group.Prod
import RemoteControl.Costs
import RemoteControl.Lifecycle

/-!
# Verdicts: what `Configure` says about the bus, and how long it takes

`Configure` talks to a bus that may answer anything. What it returns can be read off the
last answer; when it fails, one of three things has gone wrong; and whatever is answered,
there is a bound for the calls it makes and for the time it sleeps.

* `price` — a call of the bus costs one call, an `usleep` its microseconds. The bounds
  follow the programs, by the rules of `Prog.Always`.
* `ConfigureRun.verdict`, `ConfigureRun.reason` — read off the dialogues.
* `configure_verdict` — all of it, for every execution.
-/

namespace RemoteControl

open Interaction

/-! ## The price -/

/-- What an operation costs: calls of the bus, and microseconds asleep. -/
def price : ImplOp → ℕ × ℕ
  | .bus _ => (1, 0)
  | .usleep usec => (0, usec)
  | _ => (0, 0)

/-- How often the bus is called. -/
def busCalls (ops : List ImplOp) : ℕ := ((ops.map price).sum).1

/-- How long the operations sleep, in microseconds. -/
def slept (ops : List ImplOp) : ℕ := ((ops.map price).sum).2

theorem price_isConnected :
    Prog.Always price IARM.isConnected fun _ m => m.1 = 1 ∧ m.2 = 0 := by
  simp [IARM.isConnected, iarmBusIsConnected, perform, Prog.always_bind, Prog.always_perform,
    price]

theorem price_connectOnce :
    Prog.Always price IARM.connectOnce fun _ m => m.1 ≤ 3 ∧ m.2 = 0 := by
  refine Prog.Always.step fun res => ?_
  refine Prog.always_ite (fun _ => ?_) fun _ => by simp [price]
  refine Prog.Always.step fun res => ?_
  refine Prog.always_ite (fun _ => ?_) fun _ => by simp [price]
  refine price_isConnected.mono ?_
  rintro r m ⟨hcalls, hslept⟩
  simp [price, hcalls, hslept]

/-- An attempt that fails is followed by a pause. -/
theorem price_attempt : Prog.Always price IARM.attempt fun result m =>
    m.1 ≤ 3 ∧ m.2 = if result then 0 else 100000 := by
  refine Prog.Always.bind price_connectOnce ?_
  rintro result m ⟨hcalls, hslept⟩
  cases result with
  | false =>
    refine Prog.Always.step fun _ => ?_
    simp [price, hcalls, hslept]
  | true => simp [hcalls, hslept]

/-- There is a pause for each retry, and one more if the last attempt fails too. -/
theorem price_attempts (retriesLeft : ℕ) :
    Prog.Always price (IARM.attempts retriesLeft) fun result m => m.1 ≤ 3 * (retriesLeft + 1) ∧
      m.2 ≤ 100000 * retriesLeft + if result then 0 else 100000 := by
  induction retriesLeft with
  | zero =>
    refine price_attempt.mono ?_
    rintro result m ⟨hcalls, hslept⟩
    omega
  | succ retriesLeft ih =>
    refine Prog.Always.bind price_attempt ?_
    rintro result m ⟨hcalls, hslept⟩
    refine Prog.always_ite (fun htrue => ?_) fun hfalse => ?_
    · rw [if_pos htrue] at hslept
      simp
      omega
    · rw [if_neg hfalse] at hslept
      refine ih.mono ?_
      rintro result' m' ⟨hcalls', hslept'⟩
      simp only [Prod.fst_add, Prod.snd_add]
      omega

theorem price_init : Prog.Always price IARM.init fun result m =>
    m.1 ≤ 64 ∧ m.2 ≤ 2000000 + if result then 0 else 100000 := by
  refine Prog.Always.bind price_isConnected ?_
  rintro connected m ⟨hcalls, hslept⟩
  refine Prog.always_ite (fun _ => ?_) fun _ => ?_
  · simp [hcalls, hslept]
  · refine (price_attempts 20).mono ?_
    rintro result m' ⟨hcalls', hslept'⟩
    simp only [Prod.fst_add, Prod.snd_add]
    omega

/-- One conditional removal, and the rest of them. -/
theorem price_removal (c : Prop) [Decidable c] (event : RcuEvent) {n : ℕ} {rest : ImplM Unit}
    (h : Prog.Always price rest fun _ m => m.1 ≤ n ∧ m.2 = 0) :
    Prog.Always price (if c then iarmBusRemoveEventHandler event >>= fun _ => rest else rest)
      fun _ m => m.1 ≤ n + 1 ∧ m.2 = 0 := by
  refine Prog.always_ite (fun _ => ?_) fun _ => ?_
  · refine Prog.Always.step fun _ => ?_
    refine h.mono ?_
    rintro _ m ⟨hcalls, hslept⟩
    simp only [price, Prod.fst_add, Prod.snd_add]
    omega
  · exact h.mono fun _ m hm => ⟨Nat.le_succ_of_le hm.1, hm.2⟩

theorem price_removeHandlers (handlersRegistered : ℕ) :
    Prog.Always price (removeHandlers handlersRegistered) fun _ m => m.1 ≤ 5 ∧ m.2 = 0 :=
  price_removal _ _ (price_removal _ _ (price_removal _ _ (price_removal _ _
    (price_removal (n := 0) _ _ ⟨Nat.le_refl 0, rfl⟩))))

theorem price_deinitializeIARM :
    Prog.Always price deinitializeIARM fun _ m => m.1 ≤ 7 ∧ m.2 = 0 := by
  have hremove : Prog.Always price removeRegistered fun _ m => m.1 ≤ 5 ∧ m.2 = 0 := by
    refine Prog.Always.step fun m => ?_
    refine Prog.always_ite (fun _ => ?_) fun _ => by simp [price]
    refine Prog.Always.bind (price_removeHandlers _) ?_
    rintro _ m' ⟨hcalls, hslept⟩
    simp [load, store, perform, Prog.always_bind, Prog.always_perform, price, hcalls, hslept]
  refine hremove.bind ?_
  rintro _ m ⟨hcalls, hslept⟩
  refine Prog.Always.step fun m' => ?_
  refine Prog.always_ite (fun _ => ?_) fun _ => ?_
  · simp [iarmBusDisconnect, iarmBusTerm, load, store, perform, Prog.always_bind,
      Prog.always_perform, price, hslept]
    omega
  · simp [price, hslept]
    omega

/-- A rollback is what a registration can cost besides its calls. -/
theorem price_registerHandlers (events : List RcuEvent) :
    Prog.Always price (registerHandlers events) fun result m =>
      m.1 ≤ events.length + (if result then 0 else 7) ∧ m.2 = 0 := by
  induction events with
  | nil => simp [registerHandlers]
  | cons event rest ih =>
    refine Prog.Always.step fun res => ?_
    refine Prog.always_ite (fun _ => ?_) fun _ => ?_
    · refine Prog.Always.step fun m => ?_
      refine Prog.Always.step fun _ => ?_
      refine ih.mono ?_
      rintro result m' ⟨hcalls, hslept⟩
      simp only [price, Prod.fst_add, Prod.snd_add, List.length_cons]
      omega
    · refine price_deinitializeIARM.bind ?_
      rintro _ m ⟨hcalls, hslept⟩
      simp [price, hslept]
      omega

theorem price_initializeIARM : Prog.Always price initializeIARM fun result m =>
    m.1 ≤ 70 + (if result then 0 else 7) ∧
      m.2 ≤ 2000000 + if result then 0 else 100000 := by
  refine price_isConnected.bind ?_
  rintro _ m ⟨hcalls, hslept⟩
  refine price_init.bind ?_
  rintro result m' ⟨hcalls', hslept'⟩
  refine Prog.always_ite (fun htrue => ?_) fun hfalse => ?_
  · rw [if_pos htrue] at hslept'
    refine Prog.Always.step fun _ => ?_
    refine Prog.Always.step fun _ => ?_
    refine (price_registerHandlers registrationOrder).mono ?_
    rintro r m₁ ⟨hcalls₁, hslept₁⟩
    simp only [price, Prod.fst_add, Prod.snd_add]
    simp only [registrationOrder, List.length_cons, List.length_nil] at hcalls₁
    omega
  · rw [if_neg hfalse] at hslept'
    simp [load, store, perform, Prog.always_bind, Prog.always_perform, price]
    omega

theorem price_configure (service : Shell) : Prog.Always price (configure service) fun r m =>
    m.1 ≤ 71 + (if r = .errorNone then 0 else 7) ∧
      m.2 ≤ 2000000 + if r = .errorNone then 0 else 100000 := by
  have hdrop : Prog.Always price (dropService >>= fun _ => pure HResult.errorGeneral)
      fun r m => r = .errorGeneral ∧ m.1 = 0 ∧ m.2 = 0 := by
    simp [dropService, serviceRelease, load, store, perform, Prog.always_bind,
      Prog.always_perform, price]
  refine Prog.Always.step fun m₀ => ?_
  refine Prog.Always.step fun _ => ?_
  refine Prog.Always.step fun _ => ?_
  refine price_initializeIARM.bind ?_
  rintro result m ⟨hcalls, hslept⟩
  refine Prog.always_ite (fun hfalse => ?_) fun htrue => ?_
  · obtain rfl := hfalse
    rw [if_neg Bool.false_ne_true] at hcalls hslept
    refine hdrop.mono ?_
    rintro r m' ⟨hr, hcalls', hslept'⟩
    simp [price, hr, hcalls', hslept']
    omega
  · rw [Bool.not_eq_false] at htrue
    rw [if_pos htrue] at hcalls hslept
    refine price_isConnected.bind ?_
    rintro connected m' ⟨hcalls', hslept'⟩
    refine Prog.always_ite (fun _ => ?_) fun _ => ?_
    · refine price_deinitializeIARM.bind ?_
      rintro _ m₁ ⟨hcalls₁, hslept₁⟩
      refine hdrop.mono ?_
      rintro r m₂ ⟨hr, hcalls₂, hslept₂⟩
      simp [price, hr, hcalls', hslept', hslept₁, hcalls₂, hslept₂]
      omega
    · simp [price, hcalls', hslept']
      omega

/-! ## The verdict -/

/-- The dialogue of five accepted registrations. -/
def allAccepted : List BusEvent :=
  registrationOrder.map fun event => .registerEventHandler event .success

/-- All that was done was to connect, and no check but perhaps the first one found a
connection. -/
def NeverConnected (l : List BusEvent) : Prop :=
  (∀ e ∈ l, e.connects = true) ∧ 1 ∉ checks l.tail

/-- A registration was refused. -/
def Refused (l : List BusEvent) : Prop :=
  ∃ event res, BusEvent.registerEventHandler event res ∈ l ∧ res ≠ .success

/-- All registrations were accepted, and then the connection was gone. -/
def ConnectionLost (l : List BusEvent) : Prop :=
  ∃ pre v post, l = pre ++ allAccepted ++ .isConnected v :: post ∧ v ≠ 1

/-- The registrations are the accepted ones, or one of them was refused. -/
theorem RegisterRun.shape {m m' : Members} {events : List RcuEvent} {r : Bool}
    {l : List BusEvent} (h : RegisterRun m events r m' l) :
    (r = true ∧ l = events.map fun event => .registerEventHandler event .success) ∨
      (r = false ∧ Refused l) := by
  induction h with
  | done => exact .inl ⟨rfl, rfl⟩
  | accepted _ ih =>
    rcases ih with ⟨hr, rfl⟩ | ⟨hr, event, res, hmem, hres⟩
    · exact .inl ⟨hr, rfl⟩
    · exact .inr ⟨hr, event, res, List.mem_cons_of_mem _ hmem, hres⟩
  | refused hres _ => exact .inr ⟨rfl, _, _, List.mem_cons_self .., hres⟩

theorem RemoveRun.checks_eq {events : List RcuEvent} {l : List BusEvent}
    (h : RemoveRun events l) : checks l = [] := by
  induction h with
  | nil => rfl
  | cons _ ih => exact ih

/-- Neither tearing down nor registering asks about the connection. -/
theorem DeinitRun.checks_eq {m : Members} {l : List BusEvent} (h : DeinitRun m l) :
    checks l = [] := by
  cases h with
  | shared _ h => exact h.checks_eq
  | own _ h => rw [checks_append, h.checks_eq]; rfl

theorem RegisterRun.checks_eq {m m' : Members} {events : List RcuEvent} {r : Bool}
    {l : List BusEvent} (h : RegisterRun m events r m' l) : checks l = [] := by
  induction h with
  | done => rfl
  | accepted _ ih => exact ih
  | refused _ h => exact h.checks_eq

/-- A check that comes last comes before all that asks nothing. -/
theorem eq_nil_of_getLast? {l l' : List BusEvent} {v : ℤ} (hl' : checks l' = [])
    (h : (l ++ l').getLast? = some (.isConnected v)) : l' = [] := by
  rcases List.eq_nil_or_concat l' with rfl | ⟨l', e, rfl⟩
  · rfl
  · rw [List.concat_eq_append, ← List.append_assoc, List.getLast?_concat] at h
    obtain rfl := Option.some.inj h
    simp [checks] at hl'

/-- When `InitializeIARM` fails, it never got connected, or a registration was refused. -/
theorem InitializeRun.reason {m m' : Members} {l : List BusEvent}
    (h : InitializeRun m false m' l) : NeverConnected l ∨ Refused l := by
  cases h with
  | @failed v l h =>
    refine .inl ⟨List.forall_mem_cons.mpr ⟨rfl, h.connects⟩, fun hmem => ?_⟩
    exact absurd (h.verdict.mpr hmem) Bool.false_ne_true
  | registered _ h =>
    rcases h.shape with ⟨hr, -⟩ | ⟨-, event, res, hmem, hres⟩
    · exact absurd hr Bool.false_ne_true
    · exact .inr ⟨event, res, List.mem_append_right _ hmem, hres⟩

/-- And the last answer was not that there is a connection. -/
theorem InitializeRun.getLast?_ne {m m' : Members} {l : List BusEvent}
    (h : InitializeRun m false m' l) : l.getLast? ≠ some (.isConnected 1) := by
  intro hlast
  cases h with
  | @failed v l h =>
    rcases List.eq_nil_or_concat l with rfl | ⟨l, e, rfl⟩
    · cases h
    · rw [List.concat_eq_append, ← List.cons_append, List.getLast?_concat] at hlast
      obtain rfl := Option.some.inj hlast
      exact absurd (h.verdict.mpr (by simp [checks])) Bool.false_ne_true
  | registered _ h =>
    obtain rfl := eq_nil_of_getLast? h.checks_eq hlast
    rcases h.shape with ⟨hr, -⟩ | ⟨-, event, res, hmem, -⟩
    · exact absurd hr Bool.false_ne_true
    · exact absurd hmem List.not_mem_nil

/-- When it succeeds, the registrations are what it did last. -/
theorem InitializeRun.ends {m m' : Members} {l : List BusEvent}
    (h : InitializeRun m true m' l) : ∃ pre, l = pre ++ allAccepted := by
  cases h with
  | registered _ h =>
    rcases h.shape with ⟨-, rfl⟩ | ⟨hr, -⟩
    · exact ⟨_, rfl⟩
    · exact absurd hr.symm Bool.false_ne_true

/-- The verdict is about the last answer. -/
theorem ConfigureRun.verdict {m m' : Members} {r : HResult} {l : List BusEvent}
    (h : ConfigureRun m r m' l) :
    r = .errorNone ↔ l.getLast? = some (.isConnected 1) := by
  cases h with
  | notInitialised h => exact ⟨by simp, fun hlast => absurd hlast h.getLast?_ne⟩
  | @notConnected m' l l' v h hv h' =>
    refine ⟨by simp, fun hlast => absurd hlast fun hlast => ?_⟩
    rw [List.append_cons] at hlast
    obtain rfl := eq_nil_of_getLast? h'.checks_eq hlast
    rw [List.append_nil, List.getLast?_concat] at hlast
    exact hv (by simpa using hlast)
  | configured h => simp

/-- A success has all registrations accepted; a failure has one of three reasons. -/
theorem ConfigureRun.reason {m m' : Members} {r : HResult} {l : List BusEvent}
    (h : ConfigureRun m r m' l) :
    (r = .errorNone ∧ ∃ pre, l = pre ++ allAccepted ++ [.isConnected 1]) ∨
      (r = .errorGeneral ∧ (NeverConnected l ∨ Refused l ∨ ConnectionLost l)) := by
  cases h with
  | notInitialised h =>
    rcases h.reason with hnever | hrefused
    · exact .inr ⟨rfl, .inl hnever⟩
    · exact .inr ⟨rfl, .inr (.inl hrefused)⟩
  | @notConnected m' l l' v h hv h' =>
    obtain ⟨pre, rfl⟩ := h.ends
    exact .inr ⟨rfl, .inr (.inr ⟨pre, v, l', rfl, hv⟩)⟩
  | configured h =>
    obtain ⟨pre, rfl⟩ := h.ends
    exact .inl ⟨rfl, pre, rfl⟩

/-- The calls of an execution are what is new in the log. -/
theorem length_log {α : Type} {answers : BusEvent → Prop} {p : ImplM α} {s s' : ImplState}
    {ops : List ImplOp} {a : α} (h : (implMachine answers).Performs p s ops a s') :
    s'.bus.log.length = s.bus.log.length + busCalls ops := by
  induction h with
  | ret => rfl
  | @op o f s s' x ops a _ _ ih =>
    have hcalls : busCalls (o :: ops) = (price o).1 + busCalls ops := by
      simp only [busCalls, List.map_cons, List.sum_cons, Prod.fst_add]
    have hnext : (s.next o x).bus.log.length = s.bus.log.length + (price o).1 := by
      by_cases hbus : ∃ c, o = .bus c
      · obtain ⟨c, rfl⟩ := hbus
        simp [ImplState.next, price]
      · cases o with
        | bus c => exact absurd ⟨c, rfl⟩ hbus
        | store m => rfl
        | _ => rw [(s.next_frame x (by simp) (by simp)).2]; rfl
    rw [ih, hcalls, ← Nat.add_assoc]
    exact congrArg (· + busCalls ops) hnext

/-- **The verdict of `Configure`**, on an instance that is not configured and a bus that may
answer anything. It succeeds exactly if the last answer is that there is a connection; then
all handlers have just been registered. If it fails, it never got connected, or a
registration was refused, or the connection was lost meanwhile. It calls the bus at most 78
times and sleeps for at most 2.1 seconds, 71 times and 2 seconds if it succeeds. -/
theorem configure_verdict {s s' : ImplState} {service : Shell} {ops : List ImplOp} {r : HResult}
    (hnew : s.members.handlersRegistered = 0)
    (h : (implMachine fun _ => True).Performs (configure service) s ops r s') :
    ∃ l, s'.bus.log = s.bus.log ++ l ∧ l.length = busCalls ops ∧
      (r = .errorNone ↔ l.getLast? = some (.isConnected 1)) ∧
      ((r = .errorNone ∧ (∃ pre, l = pre ++ allAccepted ++ [.isConnected 1]) ∧
          busCalls ops ≤ 71 ∧ slept ops ≤ 2000000) ∨
        (r = .errorGeneral ∧ (NeverConnected l ∨ Refused l ∨ ConnectionLost l) ∧
          busCalls ops ≤ 78 ∧ slept ops ≤ 2100000)) := by
  have hzero : (s.serving service).members.handlersRegistered ≤ 5 := by
    simp [ImplState.serving, hnew]
  obtain ⟨m, l, hrun, -, hs', -⟩ := h.exec.sound (wlp_configure admits_true hzero hnew
    fun _ _ _ => ⟨trivial, hzero⟩)
  have hlog : s'.bus.log = s.bus.log ++ l := by
    rw [hs']
    exact s.bus.log_after l
  obtain ⟨hcalls, hslept⟩ := h.cost (price_configure service)
  refine ⟨l, hlog, ?_, hrun.verdict, ?_⟩
  · have hlen := length_log h
    rw [hlog, List.length_append] at hlen
    omega
  · rcases hrun.reason with ⟨rfl, hpre⟩ | ⟨rfl, hreason⟩
    · exact .inl ⟨rfl, hpre, hcalls, hslept⟩
    · exact .inr ⟨rfl, hreason, hcalls, hslept⟩

/-- A bus that is up at the last moment, and down again when the handlers are there. -/
def flakyBus (b : Bus) : (c : BusCall) → c.Answer
  | .init => .success
  | .connect => .success
  | .isConnected =>
    if b.log.count (.connect .success) = 21 ∧ b.handlers = [] then (1 : ℤ) else (0 : ℤ)
  | .disconnect => .success
  | .term => .success
  | .registerEventHandler _ => .success
  | .removeEventHandler _ => .success

/-- On that bus the connection is found in the last attempt and lost after the last
registration: no call and no pause is spared. -/
theorem configure_verdict_flakyBus :
    ∃ (s s' : ImplState) (ops : List ImplOp),
      (implMachine fun _ => True).Performs (configure 7) s ops .errorGeneral s' ∧
      busCalls ops = 78 ∧ slept ops = 2000000 ∧
      ∃ l, s'.bus.log = l ∧ l.getLast? ≠ some (.isConnected 1) ∧
        (NeverConnected l ∨ Refused l ∨ ConnectionLost l) := by
  have hmay : ∀ s o, (implMachine fun _ => True).may s o (replying flakyBus s o) :=
    may_replying fun _ _ => trivial
  have hperforms : (implMachine fun _ => True).Performs (configure 7) (.new 0 .blank) _
      .errorGeneral _ := Machine.performs_play hmay (configure 7) (.new 0 .blank)
  obtain ⟨l, hlog, -, hverdict, hcases⟩ := configure_verdict rfl hperforms
  refine ⟨_, _, _, hperforms, by decide +kernel, by decide +kernel, l, hlog, ?_, ?_⟩
  · exact fun hlast => absurd (hverdict.mpr hlast) (by simp)
  · rcases hcases with ⟨hr, -⟩ | ⟨-, hreason, -⟩
    · cases hr
    · exact hreason

end RemoteControl
