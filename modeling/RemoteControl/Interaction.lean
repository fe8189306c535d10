import RemoteControl.Runs

/-!
# Interaction: programs over operations, and what surrounds them

Imperative code that talks to a world it does not control, as data. Three
layers, none of which names a particular program:

* `Prog O A α` — **programs**: trees of operations `o : O`, each of which waits
  for an answer of type `A o` before it goes on. A program is a finite tree, so
  every run of it ends.
* `Machine` — what an operation does to the state and which answers the world
  may give. `Exec` runs a program from start to end, `wlp` is its weakest
  precondition with a side condition `G` checked at every operation.
* `Setting` — a machine placed among **others**: callers enter one program after
  another, and between any two operations the surroundings may take steps of
  their own. The machine's own state (the *core*) is only moved by its own
  operations, so facts about it are proved by `wlp` alone (`Setting.core_run`)
  and hold under every interleaving.
-/

namespace Interaction

open Runs

/-! ## Programs -/

/-- A program: either it returns, or it performs an operation and goes on with
the answer. -/
inductive Prog (O : Type) (A : O → Type) (α : Type) : Type where
  /-- return a value -/
  | ret : α → Prog O A α
  /-- perform an operation and continue with its answer -/
  | op : (o : O) → (A o → Prog O A α) → Prog O A α

namespace Prog

variable {O : Type} {A : O → Type} {α β : Type}

/-- Sequencing: graft a continuation onto every leaf. -/
protected def bind : Prog O A α → (α → Prog O A β) → Prog O A β
  | ret a, f => f a
  | op o k, f => op o fun x => (k x).bind f

instance : Monad (Prog O A) where
  pure := ret
  bind := Prog.bind

instance : LawfulMonad (Prog O A) :=
  LawfulMonad.mk' _
    (fun p => by
      induction p with
      | ret a => rfl
      | op o k ih => exact congrArg (op o) (funext ih))
    (fun _ _ => rfl)
    (fun p f g => by
      induction p with
      | ret a => rfl
      | op o k ih => exact congrArg (op o) (funext ih))

/-- Perform one operation and return its answer. -/
def perform (o : O) : Prog O A (A o) := op o ret

@[simp] theorem pure_eq (a : α) : (pure a : Prog O A α) = ret a := rfl

@[simp] theorem ret_bind (a : α) (f : α → Prog O A β) : (ret a >>= f) = f a := rfl

@[simp] theorem op_bind (o : O) (k : A o → Prog O A α) (f : α → Prog O A β) :
    (op o k >>= f) = op o fun x => k x >>= f := rfl

/-- Run a program against fixed answers, without a state. -/
def eval (ans : (o : O) → A o) : Prog O A α → α
  | ret a => a
  | op o k => eval ans (k (ans o))

@[simp] theorem eval_ret (ans : (o : O) → A o) (a : α) : eval ans (ret a) = a := rfl

@[simp] theorem eval_bind (ans : (o : O) → A o) (p : Prog O A α) (f : α → Prog O A β) :
    eval ans (p >>= f) = eval ans (f (eval ans p)) := by
  induction p with
  | ret a => rfl
  | op o k ih => exact ih (ans o)

@[simp] theorem eval_perform (ans : (o : O) → A o) (o : O) :
    eval ans (perform o : Prog O A (A o)) = ans o := rfl

/-- The operations a program performs against fixed answers, in order. -/
def ops (ans : (o : O) → A o) : Prog O A α → List O
  | ret _ => []
  | op o k => o :: ops ans (k (ans o))

@[simp] theorem ops_ret (ans : (o : O) → A o) (a : α) :
    ops ans (ret a : Prog O A α) = [] := rfl

@[simp] theorem ops_op (ans : (o : O) → A o) (o : O) (k : A o → Prog O A α) :
    ops ans (op o k) = o :: ops ans (k (ans o)) := rfl

@[simp] theorem ops_bind (ans : (o : O) → A o) (p : Prog O A α) (f : α → Prog O A β) :
    ops ans (p >>= f) = ops ans p ++ ops ans (f (eval ans p)) := by
  induction p with
  | ret a => rfl
  | op o k ih => exact congrArg (o :: ·) (ih (ans o))

end Prog

/-! ## Machines -/

/-- What the operations mean: the answers the world may give in a state, and the
state after an operation that got a given answer. -/
structure Machine (O : Type) (A : O → Type) (K : Type) where
  /-- the answers that are possible -/
  may : K → (o : O) → A o → Prop
  /-- the state after the operation -/
  next : K → (o : O) → A o → K

namespace Machine

variable {O : Type} {A : O → Type} {K : Type} {α β : Type} (M : Machine O A K)

/-- `Exec p k a k'`: the program `p`, run from `k`, can return `a` in `k'`. -/
inductive Exec : Prog O A α → K → α → K → Prop where
  /-- a returned program is done -/
  | ret (a : α) (k : K) : Exec (.ret a) k a k
  /-- perform the next operation, whatever the answer, and go on -/
  | op {o : O} {f : A o → Prog O A α} {k k' : K} {x : A o} {a : α} :
      M.may k o x → Exec (f x) (M.next k o x) a k' → Exec (.op o f) k a k'

/-- Run a program against an oracle that may look at the state. -/
def play (ans : K → (o : O) → A o) : Prog O A α → K → α × K
  | .ret a, k => (a, k)
  | .op o f, k => play ans (f (ans k o)) (M.next k o (ans k o))

/-- An oracle that only gives possible answers produces an execution. -/
theorem exec_play {ans : K → (o : O) → A o} (hans : ∀ k o, M.may k o (ans k o)) :
    ∀ (p : Prog O A α) (k : K), M.Exec p k (M.play ans p k).1 (M.play ans p k).2 := by
  intro p
  induction p with
  | ret a => exact fun k => Exec.ret a k
  | op o f ih => exact fun k => Exec.op (hans k o) (ih _ _)

/-- Weakest precondition: every operation the program performs meets the side
condition `G`, and whatever it returns satisfies `Q`. -/
def wlp (G : K → O → Prop) : Prog O A α → (α → K → Prop) → K → Prop
  | .ret a, Q, k => Q a k
  | .op o f, Q, k => G k o ∧ ∀ x, M.may k o x → wlp G (f x) Q (M.next k o x)

variable {M} {G : K → O → Prop}

@[simp] theorem wlp_ret (a : α) (Q : α → K → Prop) (k : K) :
    M.wlp G (.ret a) Q k ↔ Q a k := Iff.rfl

@[simp] theorem wlp_pure (a : α) (Q : α → K → Prop) (k : K) :
    M.wlp G (pure a) Q k ↔ Q a k := Iff.rfl

@[simp] theorem wlp_perform (o : O) (Q : A o → K → Prop) (k : K) :
    M.wlp G (Prog.perform o) Q k ↔ G k o ∧ ∀ x, M.may k o x → Q x (M.next k o x) := Iff.rfl

/-- **Sequencing rule.** -/
@[simp] theorem wlp_bind (p : Prog O A α) (f : α → Prog O A β) (Q : β → K → Prop) (k : K) :
    M.wlp G (p >>= f) Q k ↔ M.wlp G p (fun a k => M.wlp G (f a) Q k) k := by
  induction p generalizing k with
  | ret a => exact Iff.rfl
  | op o g ih =>
    constructor
    · exact fun ⟨hG, h⟩ => ⟨hG, fun x hx => (ih x _).mp (h x hx)⟩
    · exact fun ⟨hG, h⟩ => ⟨hG, fun x hx => (ih x _).mpr (h x hx)⟩

/-- **Consequence rule**: weaker side conditions and postconditions. -/
theorem wlp_mono {G' : K → O → Prop} {Q Q' : α → K → Prop} (hG : ∀ k o, G k o → G' k o)
    (hQ : ∀ a k, Q a k → Q' a k) (p : Prog O A α) :
    ∀ k, M.wlp G p Q k → M.wlp G' p Q' k := by
  induction p with
  | ret a => exact fun k h => hQ a k h
  | op o f ih => exact fun k ⟨hg, h⟩ => ⟨hG k o hg, fun x hx => ih x _ (h x hx)⟩

/-- Weakening the postcondition alone. -/
theorem wlp_post {Q Q' : α → K → Prop} {p : Prog O A α} {k : K} (h : M.wlp G p Q k)
    (hQ : ∀ a k, Q a k → Q' a k) : M.wlp G p Q' k :=
  wlp_mono (fun _ _ hg => hg) hQ p k h

/-- **Conjunction rule**: what one outline says of the end is known at the end of the other. -/
theorem wlp_with {G' : K → O → Prop} {Q Q' Q'' : α → K → Prop} {p : Prog O A α} :
    ∀ {k}, M.wlp G p Q k → M.wlp G' p Q' k → (∀ a k, Q a k → Q' a k → Q'' a k) →
      M.wlp G' p Q'' k := by
  induction p with
  | ret a => exact fun h h' hQ => hQ _ _ h h'
  | op o f ih => exact fun h h' hQ => ⟨h'.1, fun x hx => ih x (h.2 x hx) (h'.2 x hx) hQ⟩

/-- **Soundness**: an execution from a state that satisfies the weakest
precondition ends in the postcondition. -/
theorem Exec.sound {Q : α → K → Prop} {p : Prog O A α} {k k' : K} {a : α}
    (h : M.Exec p k a k') (hwlp : M.wlp G p Q k) : Q a k' := by
  induction h with
  | ret => exact hwlp
  | op hx _ ih => exact ih (hwlp.2 _ hx)

end Machine

/-! ## Settings -/

/-- A machine among others. Callers enter the programs `body c`, one at a time,
when `ready`; between any two operations the surroundings may take the steps
`env`, which move only their own state. `allow` narrows the answers by what the
surroundings know, `react` is what an operation does to them. -/
structure Setting (C O : Type) (A : O → Type) (R K T E : Type) where
  /-- what the operations mean for the core -/
  machine : Machine O A K
  /-- the program behind each entry point -/
  body : C → Prog O A R
  /-- when an entry point may be called -/
  ready : K → T → C → Prop
  /-- which answers the surroundings permit -/
  allow : K → T → (o : O) → A o → Prop
  /-- the effect of an operation on the surroundings -/
  react : K → T → (o : O) → A o → T
  /-- the steps of everybody else -/
  env : K → T → E → Option T

/-- Where the caller is: in no program, or at a point of one entered from a
recorded core state. -/
inductive Ctrl (C O : Type) (A : O → Type) (R K : Type) : Type where
  /-- between two calls -/
  | idle : Ctrl C O A R K
  /-- inside the call `c`, entered from `entry`, with `p` still to run -/
  | busy (c : C) (entry : K) (p : Prog O A R) : Ctrl C O A R K

/-- The core state the current call was entered from. -/
def Ctrl.entry? {C O : Type} {A : O → Type} {R K : Type} : Ctrl C O A R K → Option K
  | .idle => none
  | .busy _ entry _ => some entry

/-- A configuration of a setting. -/
structure Conf (C O : Type) (A : O → Type) (R K T : Type) : Type where
  /-- where the caller is -/
  ctrl : Ctrl C O A R K
  /-- the state only the machine's own operations move -/
  core : K
  /-- the state of the surroundings -/
  rest : T

/-- A move of a schedule: who goes next. -/
inductive Move (C O : Type) (A : O → Type) (K E : Type) : Type where
  /-- enter a call -/
  | enter (c : C) : Move C O A K E
  /-- let the current call perform its next operation, with this answer -/
  | answer (ans : K → (o : O) → A o) : Move C O A K E
  /-- let the current call return -/
  | leave : Move C O A K E
  /-- let somebody else move -/
  | other (e : E) : Move C O A K E

/-- What happened in a step. -/
inductive Act (C O : Type) (A : O → Type) (R E : Type) : Type where
  /-- a call was entered -/
  | enter (c : C) : Act C O A R E
  /-- the call performed an operation -/
  | own (o : O) (x : A o) : Act C O A R E
  /-- the call returned -/
  | leave (c : C) (r : R) : Act C O A R E
  /-- somebody else moved -/
  | other (e : E) : Act C O A R E

namespace Setting

variable {C O : Type} {A : O → Type} {R K T E : Type} (W : Setting C O A R K T E)

/-- One step of a setting. -/
inductive Step : Conf C O A R K T → Act C O A R E → Conf C O A R K T → Prop where
  /-- enter a program that is ready -/
  | enter {c : C} {k : K} {t : T} : W.ready k t c →
      Step ⟨.idle, k, t⟩ (.enter c) ⟨.busy c k (W.body c), k, t⟩
  /-- perform the next operation of the current call -/
  | own {c : C} {e k : K} {t : T} {o : O} {f : A o → Prog O A R} {x : A o} :
      W.machine.may k o x → W.allow k t o x →
      Step ⟨.busy c e (.op o f), k, t⟩ (.own o x)
        ⟨.busy c e (f x), W.machine.next k o x, W.react k t o x⟩
  /-- return from the current call -/
  | leave {c : C} {e k : K} {t : T} {r : R} :
      Step ⟨.busy c e (.ret r), k, t⟩ (.leave c r) ⟨.idle, k, t⟩
  /-- a step of the surroundings -/
  | other {ctrl : Ctrl C O A R K} {k : K} {t t' : T} {a : E} : W.env k t a = some t' →
      Step ⟨ctrl, k, t⟩ (.other a) ⟨ctrl, k, t'⟩

/-- The runs of a setting. -/
abbrev RunOf : Conf C O A R K T → List (Conf C O A R K T × Act C O A R E) →
    Conf C O A R K T → Prop :=
  Run W.Step

/-- What the core satisfies at every moment: `Idle` between two calls, and
inside a call the weakest precondition of what is left of it. -/
def CoreOk (G : C → K → K → O → Prop) (Post : C → K → R → K → Prop) (Idle : K → Prop)
    (conf : Conf C O A R K T) : Prop :=
  match conf.ctrl with
  | .idle => Idle conf.core
  | .busy c e p =>
    W.machine.wlp (G c e) p (fun r k => Post c e r k ∧ Idle k) conf.core

variable {W} {G : C → K → K → O → Prop} {Post : C → K → R → K → Prop} {Idle : K → Prop}

/-- **Core rule, one step.** If every entry point, from a core that satisfies `Idle`,
meets its side conditions and returns to `Idle`, then every step keeps the core in
order, whoever takes it. -/
theorem core_step
    (hbody : ∀ c k t, Idle k → W.ready k t c →
      W.machine.wlp (G c k) (W.body c) (fun r k' => Post c k r k' ∧ Idle k') k)
    {conf conf' : Conf C O A R K T} {a : Act C O A R E} (hconf : W.CoreOk G Post Idle conf)
    (h : W.Step conf a conf') : W.CoreOk G Post Idle conf' := by
  cases h with
  | enter hready => exact hbody _ _ _ hconf hready
  | own hmay _ => exact hconf.2 _ hmay
  | leave => exact hconf.2
  | other _ => exact hconf

/-- **Core rule.** Then the core is in order at the end of every run and at every
state passed through, whatever the surroundings did in between. -/
theorem core_run
    (hbody : ∀ c k t, Idle k → W.ready k t c →
      W.machine.wlp (G c k) (W.body c) (fun r k' => Post c k r k' ∧ Idle k') k)
    {conf conf' : Conf C O A R K T} {tr : List (Conf C O A R K T × Act C O A R E)}
    (h : W.RunOf conf tr conf') (h₀ : W.CoreOk G Post Idle conf) :
    W.CoreOk G Post Idle conf' ∧ ∀ p ∈ tr, W.CoreOk G Post Idle p.1 :=
  Run.always (fun _ _ _ hs hl => core_step hbody hs hl) h h₀

/-- At every operation of a run the side condition holds. -/
theorem own_ok {conf conf' : Conf C O A R K T} {tr : List (Conf C O A R K T × Act C O A R E)}
    (h : W.RunOf conf tr conf') (hall : ∀ p ∈ tr, W.CoreOk G Post Idle p.1)
    {s : Conf C O A R K T} {o : O} {x : A o} (hmem : (s, .own o x) ∈ tr) :
    ∃ c e f, s.ctrl = .busy c e (.op o f) ∧ G c e s.core o := by
  have hok := hall _ hmem
  obtain ⟨t, hstep⟩ := h.step_of_mem hmem
  cases hstep with
  | own _ _ => exact ⟨_, _, _, rfl, hok.1⟩

/-- At every return of a run the postcondition holds. -/
theorem leave_ok {conf conf' : Conf C O A R K T} {tr : List (Conf C O A R K T × Act C O A R E)}
    (h : W.RunOf conf tr conf') (hall : ∀ p ∈ tr, W.CoreOk G Post Idle p.1)
    {s : Conf C O A R K T} {c : C} {r : R} (hmem : (s, .leave c r) ∈ tr) :
    ∃ e, s.ctrl = .busy c e (.ret r) ∧ Post c e r s.core ∧ Idle s.core := by
  have hok := hall _ hmem
  obtain ⟨t, hstep⟩ := h.step_of_mem hmem
  cases hstep with
  | leave => exact ⟨_, rfl, hok⟩

/-! ### Schedules

What a move asks for has to be decidable. A setting that is an `abbrev` has the instances
of its parts. -/

section Schedules

variable (W) [∀ k t c, Decidable (W.ready k t c)] [∀ k o x, Decidable (W.machine.may k o x)]
  [∀ k t o x, Decidable (W.allow k t o x)]

/-- Carry out one move, if it is possible. -/
def advance : Conf C O A R K T → Move C O A K E → Option (Act C O A R E × Conf C O A R K T)
  | ⟨.idle, k, t⟩, .enter c =>
    if W.ready k t c then some (.enter c, ⟨.busy c k (W.body c), k, t⟩) else none
  | ⟨.busy c e (.op o f), k, t⟩, .answer ans =>
    let x := ans k o
    if W.machine.may k o x ∧ W.allow k t o x then
      some (.own o x, ⟨.busy c e (f x), W.machine.next k o x, W.react k t o x⟩)
    else none
  | ⟨.busy c _ (.ret r), k, t⟩, .leave => some (.leave c r, ⟨.idle, k, t⟩)
  | ⟨ctrl, k, t⟩, .other a => (W.env k t a).map fun t' => (.other a, ⟨ctrl, k, t'⟩)
  | _, _ => none

theorem step_of_advance {conf conf' : Conf C O A R K T} {m : Move C O A K E}
    {a : Act C O A R E} (h : W.advance conf m = some (a, conf')) : W.Step conf a conf' := by
  obtain ⟨ctrl, k, t⟩ := conf
  cases m with
  | enter c =>
    rcases ctrl with _ | ⟨c', e, p⟩
    · simp only [advance, Option.ite_none_right_eq_some, Option.some.injEq, Prod.mk.injEq] at h
      obtain ⟨hready, rfl, rfl⟩ := h
      exact .enter hready
    · rcases p with r | ⟨o, f⟩ <;> simp [advance] at h
  | answer ans =>
    rcases ctrl with _ | ⟨c, e, r | ⟨o, f⟩⟩
    · simp [advance] at h
    · simp [advance] at h
    · simp only [advance, Option.ite_none_right_eq_some, Option.some.injEq, Prod.mk.injEq] at h
      obtain ⟨⟨hmay, hallow⟩, rfl, rfl⟩ := h
      exact .own hmay hallow
  | leave =>
    rcases ctrl with _ | ⟨c, e, r | ⟨o, f⟩⟩
    · simp [advance] at h
    · simp only [advance, Option.some.injEq, Prod.mk.injEq] at h
      obtain ⟨rfl, rfl⟩ := h
      exact .leave
    · simp [advance] at h
  | other e =>
    have h : (W.env k t e).map (fun t' => (Act.other e, ⟨ctrl, k, t'⟩)) = some (a, conf') := by
      rcases ctrl with _ | ⟨c, e', r | ⟨o, f⟩⟩ <;> simpa [advance] using h
    obtain ⟨t', henv, heq⟩ := Option.map_eq_some_iff.mp h
    obtain ⟨rfl, rfl⟩ := Prod.mk.inj heq
    exact .other henv

/-- What a schedule leads to is a run. -/
theorem run_of_follow {ms : List (Move C O A K E)} {conf conf' : Conf C O A R K T}
    {tr : List (Conf C O A R K T × Act C O A R E)}
    (h : follow W.advance conf ms = some (tr, conf')) : W.RunOf conf tr conf' := by
  refine Run.of_follow (fun _ _ _ _ hm => ?_) h
  exact W.step_of_advance hm

end Schedules

end Setting

end Interaction
