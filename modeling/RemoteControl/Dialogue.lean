import RemoteControl.Implementation

/-!
# Dialogues: what `Utils::IARM` and the teardown say to the bus

Spec lemmas for the programs every statement about the bus goes through, with the
side condition `G` left open.

* `InitRun r l` describes exactly the sequences `l` of answered calls after which
  `Utils::IARM::init` returns `r`, and `DeinitRun m l` those of `DeinitializeIARM`
  from members `m`.
* `wlp_init` and `wlp_deinitializeIARM` say that nothing else happens. Callers
  cite these and never unfold the loops again.
* `AttemptsRun.split`, `InitRun.ends` and `InitRun.verdict` say what a dialogue of `init` looks
  like as a whole: its attempts, its end, and which of its checks found a connection.
* `Connecting G s` and `Tearing G s` collect what the side condition has to admit.
-/

namespace RemoteControl

open Interaction

/-! ## Answered calls -/

/-- The calls that only connect: `Init`, `Connect` and `IsConnected`. -/
def BusEvent.connects : BusEvent → Bool
  | .init _ => true
  | .connect _ => true
  | .isConnected _ => true
  | _ => false

/-- The bus after a sequence of answered calls. -/
def Bus.after (b : Bus) (l : List BusEvent) : Bus :=
  l.foldl Bus.next b

@[simp] theorem Bus.after_nil (b : Bus) : b.after [] = b := rfl

@[simp] theorem Bus.after_cons (b : Bus) (e : BusEvent) (l : List BusEvent) :
    b.after (e :: l) = (b.next e).after l := rfl

theorem Bus.after_append (b : Bus) (l l' : List BusEvent) :
    b.after (l ++ l') = (b.after l).after l' :=
  List.foldl_append

@[simp] theorem Bus.log_next (b : Bus) (e : BusEvent) : (b.next e).log = b.log ++ [e] := rfl

theorem Bus.log_after (b : Bus) (l : List BusEvent) : (b.after l).log = b.log ++ l := by
  induction l generalizing b with
  | nil => simp
  | cons e l ih => rw [Bus.after_cons, ih, Bus.log_next, List.append_assoc, List.singleton_append]

/-- Connecting leaves the registrations alone. -/
theorem Bus.handlers_next_of_connects {b : Bus} {e : BusEvent} (h : e.connects = true) :
    (b.next e).handlers = b.handlers := by
  cases e with
  | init res => cases res <;> rfl
  | connect res => cases res <;> rfl
  | isConnected v => rfl
  | _ => cases h

theorem Bus.handlers_after_of_connects {l : List BusEvent} (h : ∀ e ∈ l, e.connects = true) :
    ∀ b : Bus, (b.after l).handlers = b.handlers := by
  induction l with
  | nil => exact fun _ => rfl
  | cons e l ih =>
    intro b
    rw [Bus.after_cons, ih fun e he => h e (List.mem_cons_of_mem _ he),
      Bus.handlers_next_of_connects (h e (List.mem_cons_self ..))]

/-- The state after a sequence of answered calls, nothing else having changed. -/
def ImplState.after (s : ImplState) (l : List BusEvent) : ImplState :=
  { s with bus := s.bus.after l }

@[simp] theorem ImplState.after_nil (s : ImplState) : s.after [] = s := rfl

theorem ImplState.after_append (s : ImplState) (l l' : List BusEvent) :
    (s.after l).after l' = s.after (l ++ l') := by
  simp only [ImplState.after, Bus.after_append]

/-- The state after a sequence of answered calls, with new members. -/
def ImplState.became (s : ImplState) (m : Members) (l : List BusEvent) : ImplState :=
  { s with members := m, bus := s.bus.after l }

@[simp] theorem ImplState.members_after (s : ImplState) (l : List BusEvent) :
    (s.after l).members = s.members := rfl

@[simp] theorem ImplState.bus_after (s : ImplState) (l : List BusEvent) :
    (s.after l).bus = s.bus.after l := rfl

@[simp] theorem ImplState.members_became (s : ImplState) (m : Members) (l : List BusEvent) :
    (s.became m l).members = m := rfl

@[simp] theorem ImplState.bus_became (s : ImplState) (m : Members) (l : List BusEvent) :
    (s.became m l).bus = s.bus.after l := rfl

theorem ImplState.became_after (s : ImplState) (m : Members) (l l' : List BusEvent) :
    (s.became m l).after l' = s.became m (l ++ l') := by
  simp only [ImplState.after, ImplState.became, Bus.after_append]

theorem ImplState.after_became (s : ImplState) (m : Members) (l l' : List BusEvent) :
    (s.after l).became m l' = s.became m (l ++ l') := by
  simp only [ImplState.after, ImplState.became, Bus.after_append]

theorem ImplState.became_became (s : ImplState) (m m' : Members) (l l' : List BusEvent) :
    (s.became m l).became m' l' = s.became m' (l ++ l') := by
  simp only [ImplState.became, Bus.after_append]

/-! ## The dialogue of `Utils::IARM::init` -/

/-- One attempt: what was asked and answered, and the `result` it leaves. -/
inductive AttemptRun : Bool → List BusEvent → Prop where
  /-- `Init` failed -/
  | initFailed {res : IarmResult} : IARM.proceeds res = false → AttemptRun false [.init res]
  /-- `Connect` failed -/
  | connectFailed {res res' : IarmResult} : IARM.proceeds res = true →
      IARM.proceeds res' = false → AttemptRun false [.init res, .connect res']
  /-- both went through, and the connection was checked -/
  | checked {res res' : IarmResult} {v : ℤ} : IARM.proceeds res = true →
      IARM.proceeds res' = true →
      AttemptRun (decide (v = 1)) [.init res, .connect res', .isConnected v]

/-- The loop with a number of retries left. -/
inductive AttemptsRun : ℕ → Bool → List BusEvent → Prop where
  /-- the last attempt decides -/
  | last {r : Bool} {l : List BusEvent} : AttemptRun r l → AttemptsRun 0 r l
  /-- an attempt succeeds -/
  | done {n : ℕ} {l : List BusEvent} : AttemptRun true l → AttemptsRun (n + 1) true l
  /-- an attempt fails and another one follows -/
  | retry {n : ℕ} {r : Bool} {l l' : List BusEvent} : AttemptRun false l →
      AttemptsRun n r l' → AttemptsRun (n + 1) r (l ++ l')

/-- The whole of `init`. -/
inductive InitRun : Bool → List BusEvent → Prop where
  /-- the first check reports a connection -/
  | already : InitRun true [.isConnected 1]
  /-- it does not, and the loop is entered -/
  | looped {v : ℤ} {r : Bool} {l : List BusEvent} : v ≠ 1 → AttemptsRun 20 r l →
      InitRun r (.isConnected v :: l)

theorem AttemptRun.connects {r : Bool} {l : List BusEvent} (h : AttemptRun r l) :
    ∀ e ∈ l, e.connects = true := by
  cases h <;> simp [BusEvent.connects]

theorem AttemptsRun.connects {n : ℕ} {r : Bool} {l : List BusEvent} (h : AttemptsRun n r l) :
    ∀ e ∈ l, e.connects = true := by
  induction h with
  | last h => exact h.connects
  | done h => exact h.connects
  | retry h _ ih => exact fun e he => (List.mem_append.mp he).elim (h.connects e) (ih e)

theorem InitRun.connects {r : Bool} {l : List BusEvent} (h : InitRun r l) :
    ∀ e ∈ l, e.connects = true := by
  cases h with
  | already => simp [BusEvent.connects]
  | looped _ h => simpa [BusEvent.connects] using h.connects

/-- The loop as a list of attempts: some that failed, as many as there are retries at
most, and a last one, whose flag is the one returned. -/
theorem AttemptsRun.split {n : ℕ} {r : Bool} {l : List BusEvent} (h : AttemptsRun n r l) :
    ∃ (failed : List (List BusEvent)) (last : List BusEvent),
      l = failed.flatten ++ last ∧ (∀ t ∈ failed, AttemptRun false t) ∧
      AttemptRun r last ∧ failed.length ≤ n ∧ (r = false → failed.length = n) := by
  induction h with
  | last h => exact ⟨[], _, rfl, by simp, h, Nat.le_refl 0, fun _ => rfl⟩
  | done h => exact ⟨[], _, rfl, by simp, h, Nat.zero_le _, nofun⟩
  | @retry n r l l' hfalse _ ih =>
    obtain ⟨failed, last, rfl, hfailed, hlast, hle, hall⟩ := ih
    refine ⟨l :: failed, last, ?_, ?_, hlast, ?_, ?_⟩
    · rw [List.flatten_cons, List.append_assoc]
    · exact List.forall_mem_cons.mpr ⟨hfalse, hfailed⟩
    · exact Nat.succ_le_succ hle
    · exact fun hr => congrArg (· + 1) (hall hr)

/-- A successful attempt ends with a check that finds a connection. -/
theorem AttemptRun.ends {r : Bool} {l : List BusEvent} (h : AttemptRun r l) (hr : r = true) :
    ∃ l', l = l' ++ [.isConnected 1] := by
  cases h with
  | initFailed _ => cases hr
  | connectFailed _ _ => cases hr
  | @checked res res' v _ _ =>
    obtain rfl : v = 1 := of_decide_eq_true hr
    exact ⟨[.init res, .connect res'], rfl⟩

/-- A successful `init` ends with a check that finds a connection. -/
theorem InitRun.ends {l : List BusEvent} (h : InitRun true l) :
    ∃ l', l = l' ++ [.isConnected 1] := by
  cases h with
  | already => exact ⟨[], rfl⟩
  | @looped v _ _ _ h =>
    obtain ⟨failed, last, rfl, -, hlast, -, -⟩ := h.split
    obtain ⟨l', rfl⟩ := hlast.ends rfl
    exact ⟨.isConnected v :: (failed.flatten ++ l'), by simp⟩

/-- The answers of the connection checks in a dialogue. -/
def checks (l : List BusEvent) : List ℤ :=
  l.filterMap fun e =>
    match e with
    | .isConnected v => some v
    | _ => none

theorem checks_append (l l' : List BusEvent) : checks (l ++ l') = checks l ++ checks l' :=
  List.filterMap_append

theorem AttemptRun.verdict {r : Bool} {l : List BusEvent} (h : AttemptRun r l) :
    r = true ↔ 1 ∈ checks l := by
  cases h with
  | initFailed _ => simp [checks]
  | connectFailed _ _ => simp [checks]
  | checked _ _ => simp [checks, eq_comm]

theorem AttemptsRun.verdict {n : ℕ} {r : Bool} {l : List BusEvent} (h : AttemptsRun n r l) :
    r = true ↔ 1 ∈ checks l := by
  induction h with
  | last h => exact h.verdict
  | done h => exact h.verdict
  | retry h _ ih =>
    have hno : 1 ∉ checks _ := fun hmem => absurd (h.verdict.mpr hmem) nofun
    rw [checks_append, List.mem_append, or_iff_right hno]
    exact ih

/-- `Utils::IARM::init` succeeds exactly when one of its checks finds a connection. -/
theorem InitRun.verdict {r : Bool} {l : List BusEvent} (h : InitRun r l) :
    r = true ↔ 1 ∈ checks l := by
  cases h with
  | already => simp [checks]
  | @looped v r l hv h =>
    rw [h.verdict, show checks (.isConnected v :: l) = v :: checks l from rfl, List.mem_cons,
      or_iff_right (Ne.symm hv)]

section Rules

variable {answers : BusEvent → Prop} {G : ImplState → ImplOp → Prop}

/-- The operations of `init` meet the side condition wherever connecting can lead
from `s`. -/
structure Connecting (G : ImplState → ImplOp → Prop) (s : ImplState) : Prop where
  init : ∀ l : List BusEvent, (∀ e ∈ l, e.connects = true) → G (s.after l) (.bus .init)
  connect : ∀ l : List BusEvent, (∀ e ∈ l, e.connects = true) → G (s.after l) (.bus .connect)
  isConnected : ∀ l : List BusEvent, (∀ e ∈ l, e.connects = true) →
    G (s.after l) (.bus .isConnected)
  usleep : ∀ l : List BusEvent, (∀ e ∈ l, e.connects = true) → G (s.after l) (.usleep 100000)

theorem Connecting.after {s : ImplState} (h : Connecting G s) {l : List BusEvent}
    (hl : ∀ e ∈ l, e.connects = true) : Connecting G (s.after l) where
  init := fun l' hl' => s.after_append l l' ▸ h.init _ fun e he =>
    (List.mem_append.mp he).elim (hl e) (hl' e)
  connect := fun l' hl' => s.after_append l l' ▸ h.connect _ fun e he =>
    (List.mem_append.mp he).elim (hl e) (hl' e)
  isConnected := fun l' hl' => s.after_append l l' ▸ h.isConnected _ fun e he =>
    (List.mem_append.mp he).elim (hl e) (hl' e)
  usleep := fun l' hl' => s.after_append l l' ▸ h.usleep _ fun e he =>
    (List.mem_append.mp he).elim (hl e) (hl' e)

theorem wlp_isConnected {s : ImplState} {Q : Bool → ImplState → Prop} :
    (implMachine answers).wlp G IARM.isConnected Q s ↔
      G s (.bus .isConnected) ∧ ∀ v : ℤ, answers (.isConnected v) →
        Q (decide (v = 1)) (s.after [.isConnected v]) := by
  simp only [IARM.isConnected, Machine.wlp_bind, wlp_iarmBusIsConnected, Machine.wlp_pure]
  exact Iff.rfl

/-- One try asks for `Init`, and for what follows it only as far as the answers let
it go. -/
theorem wlp_connectOnce {s : ImplState} (hG : Connecting G s) :
    (implMachine answers).wlp G IARM.connectOnce
      (fun r s' => ∃ l, AttemptRun r l ∧ (∀ e ∈ l, answers e) ∧ s' = s.after l) s := by
  simp only [IARM.connectOnce, Machine.wlp_bind, wlp_iarmBusInit]
  refine ⟨hG.init [] (by simp), fun res hres => ?_⟩
  by_cases hp : IARM.proceeds res = true
  · rw [if_pos hp]
    simp only [Machine.wlp_bind, wlp_iarmBusConnect]
    refine ⟨hG.connect [.init res] (by simp [BusEvent.connects]), fun res' hres' => ?_⟩
    by_cases hp' : IARM.proceeds res' = true
    · rw [if_pos hp', wlp_isConnected]
      refine ⟨hG.isConnected [.init res, .connect res'] (by simp [BusEvent.connects]),
        fun v hv => ⟨_, .checked hp hp' (v := v), ?_, rfl⟩⟩
      intro e he
      simp only [List.mem_cons, List.not_mem_nil, or_false] at he
      rcases he with rfl | rfl | rfl
      · exact hres
      · exact hres'
      · exact hv
    · rw [if_neg hp', Machine.wlp_pure]
      refine ⟨_, .connectFailed hp (by simpa using hp'), ?_, rfl⟩
      intro e he
      simp only [List.mem_cons, List.not_mem_nil, or_false] at he
      rcases he with rfl | rfl
      · exact hres
      · exact hres'
  · rw [if_neg hp, Machine.wlp_pure]
    refine ⟨_, .initFailed (by simpa using hp), ?_, rfl⟩
    intro e he
    obtain rfl := List.mem_singleton.mp he
    exact hres

theorem wlp_attempt {s : ImplState} (hG : Connecting G s) :
    (implMachine answers).wlp G IARM.attempt
      (fun r s' => ∃ l, AttemptRun r l ∧ (∀ e ∈ l, answers e) ∧ s' = s.after l) s := by
  simp only [IARM.attempt, Machine.wlp_bind]
  apply Machine.wlp_post (wlp_connectOnce hG)
  rintro r s' ⟨l, hrun, hans, rfl⟩
  cases r with
  | false =>
    -- a try that failed is followed by the `usleep`
    simp only [if_true, Machine.wlp_bind, wlp_usleep, Machine.wlp_pure]
    exact ⟨hG.usleep l hrun.connects, l, hrun, hans, rfl⟩
  | true => exact ⟨l, hrun, hans, rfl⟩

theorem wlp_attempts (n : ℕ) : ∀ {s : ImplState}, Connecting G s →
    (implMachine answers).wlp G (IARM.attempts n)
      (fun r s' => ∃ l, AttemptsRun n r l ∧ (∀ e ∈ l, answers e) ∧ s' = s.after l) s := by
  induction n with
  | zero =>
    intro s hG
    apply Machine.wlp_post (wlp_attempt hG)
    rintro r s' ⟨l, hrun, hans, rfl⟩
    exact ⟨l, .last hrun, hans, rfl⟩
  | succ n ih =>
    intro s hG
    simp only [IARM.attempts, Machine.wlp_bind]
    apply Machine.wlp_post (wlp_attempt hG)
    rintro r s' ⟨l, hrun, hans, rfl⟩
    cases r with
    | false =>
      simp only [Bool.false_eq_true, if_false]
      apply Machine.wlp_post (ih (hG.after hrun.connects))
      rintro r s' ⟨l', hrun', hans', rfl⟩
      exact ⟨l ++ l', .retry hrun hrun',
        fun e he => (List.mem_append.mp he).elim (hans e) (hans' e), s.after_append l l'⟩
    | true =>
      simp only [if_true, Machine.wlp_pure]
      exact ⟨l, .done hrun, hans, rfl⟩

/-- **`Utils::IARM::init`**: it leaves everything but the bus alone, and what it
says to the bus is an `InitRun`. -/
theorem wlp_init {s : ImplState} (hG : Connecting G s) :
    (implMachine answers).wlp G IARM.init
      (fun r s' => ∃ l, InitRun r l ∧ (∀ e ∈ l, answers e) ∧ s' = s.after l) s := by
  simp only [IARM.init, Machine.wlp_bind, wlp_isConnected]
  refine ⟨hG.isConnected [] (by simp), fun v hv => ?_⟩
  by_cases h : v = 1
  · subst h
    simp only [decide_true, if_true, Machine.wlp_pure]
    exact ⟨_, .already, by simpa using hv, rfl⟩
  · simp only [h, decide_false, Bool.false_eq_true, if_false]
    refine Machine.wlp_post (wlp_attempts 20 (hG.after (l := [.isConnected v])
      (by simp [BusEvent.connects]))) ?_
    rintro r s' ⟨l, hrun, hans, rfl⟩
    refine ⟨_, .looped h hrun, ?_, s.after_append [.isConnected v] l⟩
    intro e he
    rcases List.mem_cons.mp he with rfl | he
    · exact hv
    · exact hans e he

/-! ## The handler removals -/

/-- The answered removals of a list of events. -/
inductive RemoveRun : List RcuEvent → List BusEvent → Prop where
  /-- nothing to remove -/
  | nil : RemoveRun [] []
  /-- one removal, whatever it answers -/
  | cons {event : RcuEvent} {res : IarmResult} {es : List RcuEvent} {l : List BusEvent} :
      RemoveRun es l → RemoveRun (event :: es) (.removeEventHandler event res :: l)

/-- Remove the handlers of a list of events, one after the other. -/
def removeAll : List RcuEvent → ImplM Unit
  | [] => return ()
  | event :: es => do
    let _ ← iarmBusRemoveEventHandler event
    removeAll es

/-- The five conditionals remove the registered handlers in reverse order. -/
theorem removeHandlers_eq {n : ℕ} (hn : n ≤ 5) :
    removeHandlers n = removeAll (registrationOrder.take n).reverse := by
  obtain rfl | rfl | rfl | rfl | rfl | rfl :
      n = 0 ∨ n = 1 ∨ n = 2 ∨ n = 3 ∨ n = 4 ∨ n = 5 := by omega
  all_goals rfl

/-- The members after `DeinitializeIARM`. -/
def Members.cleared (m : Members) : Members := m.uncounted.owning false

/-- The events `DeinitializeIARM` removes, in its order. -/
def Members.removals (m : Members) : List RcuEvent :=
  (registrationOrder.take m.handlersRegistered).reverse

/-- What `DeinitializeIARM` says to the bus from members `m`. -/
inductive DeinitRun (m : Members) : List BusEvent → Prop where
  /-- the process was already connected: only the handlers are removed -/
  | shared {l : List BusEvent} : m.hasOwnProcess = false → RemoveRun m.removals l → DeinitRun m l
  /-- the instance had connected the process -/
  | own {l : List BusEvent} {res res' : IarmResult} : m.hasOwnProcess = true →
      RemoveRun m.removals l → DeinitRun m (l ++ [.disconnect res, .term res'])

/-- The operations no side condition is about: all but the calls of the bus, the
writes of `_instance`, the end of the object, and a write that raises
`_hasOwnProcess`. -/
def ImplOp.Quiet (s : ImplState) : ImplOp → Prop
  | .bus _ => False
  | .store m => m.hasOwnProcess = true → s.members.hasOwnProcess = true
  | .setInstance _ => False
  | .endOfLifetime => False
  | _ => True

/-- The operations of `DeinitializeIARM` meet the side condition from `s` on. -/
structure Tearing (G : ImplState → ImplOp → Prop) (s : ImplState) : Prop where
  /-- the counter is in range -/
  bounded : s.members.handlersRegistered ≤ 5
  /-- each removal, after those before it -/
  remove : ∀ pre e post l, s.members.removals = pre ++ e :: post → RemoveRun pre l →
    G (s.after l) (.bus (.removeEventHandler e))
  /-- the disconnect -/
  disconnect : s.members.hasOwnProcess = true → ∀ l, RemoveRun s.members.removals l →
    G (s.became s.members.uncounted l) (.bus .disconnect)
  /-- the termination -/
  term : s.members.hasOwnProcess = true → ∀ l res, RemoveRun s.members.removals l →
    G (s.became s.members.uncounted (l ++ [.disconnect res])) (.bus .term)

theorem wlp_removeAll : ∀ (es : List RcuEvent) (s : ImplState),
    (∀ pre e post l, es = pre ++ e :: post → RemoveRun pre l →
      G (s.after l) (.bus (.removeEventHandler e))) →
    (implMachine answers).wlp G (removeAll es)
      (fun _ s' => ∃ l, RemoveRun es l ∧ (∀ e ∈ l, answers e) ∧ s' = s.after l) s := by
  intro es
  induction es with
  | nil => exact fun s _ => ⟨[], .nil, by simp, rfl⟩
  | cons event es ih =>
    intro s hG
    -- the rest is removed from where this removal leads
    simp only [removeAll, Machine.wlp_bind, wlp_iarmBusRemoveEventHandler]
    refine ⟨hG [] event es [] rfl .nil, fun res hres => ?_⟩
    refine Machine.wlp_post (ih (s.after [.removeEventHandler event res]) ?_) ?_
    · intro pre e post l hes hl
      rw [ImplState.after_append]
      exact hG (event :: pre) e post _ (by rw [hes]; rfl) (.cons hl)
    · rintro - s' ⟨l, hl, hans, rfl⟩
      refine ⟨.removeEventHandler event res :: l, .cons hl, ?_, ImplState.after_append s [_] l⟩
      exact List.forall_mem_cons.mpr ⟨hres, hans⟩

theorem wlp_removeRegistered {s : ImplState} (hq : ∀ s o, o.Quiet s → G s o) (h : Tearing G s) :
    (implMachine answers).wlp G removeRegistered
      (fun _ s' => ∃ l, RemoveRun s.members.removals l ∧ (∀ e ∈ l, answers e) ∧
        s' = s.became s.members.uncounted l) s := by
  simp only [removeRegistered, Machine.wlp_bind, wlp_load]
  refine ⟨hq s _ trivial, ?_⟩
  by_cases hpos : 0 < s.members.handlersRegistered
  · simp only [if_pos hpos, Machine.wlp_bind, wlp_load, wlp_store]
    rw [removeHandlers_eq h.bounded]
    apply Machine.wlp_post (wlp_removeAll _ s h.remove)
    rintro - s' ⟨l, hl, hans, rfl⟩
    exact ⟨hq _ _ trivial, hq _ _ id, l, hl, hans, rfl⟩
  -- otherwise nothing is registered, and the counter is `0` already
  · have hzero : s.members.handlersRegistered = 0 := by omega
    have hnil : s.members.removals = [] := by rw [Members.removals, hzero]; rfl
    rw [if_neg hpos, Machine.wlp_pure]
    exact ⟨[], hnil ▸ .nil, by simp, by rw [Members.uncounted_of_zero hzero]; rfl⟩

/-- **`DeinitializeIARM`**: it says a `DeinitRun` to the bus and clears the counter
and the flag. -/
theorem wlp_deinitializeIARM {s : ImplState} (hq : ∀ s o, o.Quiet s → G s o) (h : Tearing G s) :
    (implMachine answers).wlp G deinitializeIARM
      (fun _ s' => ∃ l, DeinitRun s.members l ∧ (∀ e ∈ l, answers e) ∧
        s' = s.became s.members.cleared l) s := by
  simp only [deinitializeIARM, Machine.wlp_bind]
  apply Machine.wlp_post (wlp_removeRegistered hq h)
  rintro - s' ⟨l, hl, hans, rfl⟩
  by_cases hown : s.members.hasOwnProcess = true
  · simp only [leaveOwnProcess, Machine.wlp_bind, wlp_load, ImplState.members_became,
      Members.hasOwnProcess_uncounted, hown, if_true, wlp_iarmBusDisconnect, wlp_iarmBusTerm,
      wlp_store]
    refine ⟨hq _ _ trivial, h.disconnect hown l hl, fun res hres => ⟨?_, fun res' hres' =>
      ⟨hq _ _ trivial, hq _ _ (by simp [ImplOp.Quiet, Members.owning]),
        l ++ [.disconnect res, .term res'], .own hown hl, ?_, ?_⟩⟩⟩
    · have := h.term hown l res hl
      rwa [← ImplState.became_after] at this
    · intro e he
      rcases List.mem_append.mp he with he | he
      · exact hans e he
      · rcases List.mem_pair.mp he with rfl | rfl
        · exact hres
        · exact hres'
    · exact ImplState.became_became s _ s.members.cleared l [.disconnect res, .term res']
  · have hshared : s.members.hasOwnProcess = false := by simpa using hown
    simp only [leaveOwnProcess, Machine.wlp_bind, wlp_load, ImplState.members_became,
      Members.hasOwnProcess_uncounted, hshared, Bool.false_eq_true, if_false, Machine.wlp_pure]
    exact ⟨hq _ _ trivial, l, .shared hshared hl, hans,
      by rw [Members.cleared, Members.owning_of_eq (m := s.members.uncounted) hshared]⟩

end Rules

end RemoteControl
