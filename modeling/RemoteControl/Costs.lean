import Mathlib.Algebra.BigOperators.Group.List.Basic
import RemoteControl.Interaction

/-!
# Costs: what the runs of a program add up to

An execution performs a list of operations, and a list of operations has a cost
in any additive monoid: a number of calls, a time, a pair of both.

* `Machine.Performs` — an execution with the operations it performs.
* `Prog.Always cost p Q` — whatever the program is answered, its result and the cost
  of its operations satisfy `Q`. The rules follow the program, so a bound for a
  program comes from the bounds for its parts, which may depend on what these
  return.
* `Machine.Performs.cost` — what is always so is so of every execution.
-/

namespace Interaction

variable {O : Type} {A : O → Type} {K α β : Type}

/-! ## Executions with their operations -/

namespace Machine

variable (W : Machine O A K)

/-- `Performs p k ops a k'`: the program `p`, run from `k`, can return `a` in `k'` after
the operations `ops`. -/
inductive Performs : Prog O A α → K → List O → α → K → Prop where
  /-- a returned program performs nothing -/
  | ret (a : α) (k : K) : Performs (.ret a) k [] a k
  /-- the next operation, and what follows it -/
  | op {o : O} {f : A o → Prog O A α} {k k' : K} {x : A o} {ops : List O} {a : α} :
      W.may k o x → Performs (f x) (W.next k o x) ops a k' → Performs (.op o f) k (o :: ops) a k'

/-- The operations performed against an oracle that may look at the state. -/
def performed (ans : K → (o : O) → A o) : Prog O A α → K → List O
  | .ret _, _ => []
  | .op o f, k => o :: performed ans (f (ans k o)) (W.next k o (ans k o))

variable {W}

/-- An oracle that only gives possible answers produces an execution. -/
theorem performs_play {ans : K → (o : O) → A o} (hans : ∀ k o, W.may k o (ans k o))
    (p : Prog O A α) (k : K) :
    W.Performs p k (W.performed ans p k) (W.play ans p k).1 (W.play ans p k).2 := by
  induction p generalizing k with
  | ret a => exact .ret a k
  | op o f ih => exact .op (hans k o) (ih _ _)

theorem Performs.exec {p : Prog O A α} {k k' : K} {ops : List O} {a : α}
    (h : W.Performs p k ops a k') : W.Exec p k a k' := by
  induction h with
  | ret a k => exact .ret a k
  | op hx _ ih => exact .op hx ih

end Machine

/-! ## Costs -/

namespace Prog

variable {M : Type} [AddMonoid M] (cost : O → M)

/-- Whatever is answered, the result and the cost of what was performed satisfy `Q`. -/
def Always : Prog O A α → (α → M → Prop) → Prop
  | .ret a, Q => Q a 0
  | .op o f, Q => ∀ x, Always (f x) fun a m => Q a (cost o + m)

variable {cost}

@[simp] theorem always_ret (a : α) (Q : α → M → Prop) :
    Always (A := A) cost (.ret a) Q ↔ Q a 0 := Iff.rfl

@[simp] theorem always_pure (a : α) (Q : α → M → Prop) :
    Always (O := O) (A := A) cost (pure a) Q ↔ Q a 0 := Iff.rfl

theorem always_perform (o : O) (Q : A o → M → Prop) :
    Always cost (perform (A := A) o) Q ↔ ∀ x, Q x (cost o) := by
  simp only [perform, Always, add_zero]

/-- **Consequence rule.** -/
theorem Always.mono {p : Prog O A α} {Q Q' : α → M → Prop} (h : Always cost p Q)
    (hQ : ∀ a m, Q a m → Q' a m) : Always cost p Q' := by
  induction p generalizing Q Q' with
  | ret a => exact hQ a 0 h
  | op o f ih => exact fun x => ih x (h x) fun a m => hQ a (cost o + m)

/-- **Sequencing rule**: costs add up. -/
theorem always_bind (p : Prog O A α) (f : α → Prog O A β) (Q : β → M → Prop) :
    Always cost (p >>= f) Q ↔
      Always cost p fun a m => Always cost (f a) fun b n => Q b (m + n) := by
  induction p generalizing Q with
  | ret a =>
    change Always cost (f a) Q ↔ Always cost (f a) fun b n => Q b (0 + n)
    simp only [zero_add]
  | op o g ih =>
    have hgo : ∀ x, Always cost (g x >>= f) (fun b n => Q b (cost o + n)) ↔
        Always cost (g x) fun a m => Always cost (f a) fun b n => Q b (cost o + m + n) := by
      intro x
      rw [ih x]
      simp only [add_assoc]
    exact forall_congr' hgo

/-- One operation, and then the rest. -/
theorem Always.step {o : O} {f : A o → Prog O A β} {Q : β → M → Prop}
    (h : ∀ x, Always cost (f x) fun b n => Q b (cost o + n)) :
    Always cost (perform o >>= f) Q := h

/-- A bound for the first part, and then the rest. -/
theorem Always.bind {p : Prog O A α} {f : α → Prog O A β} {P : α → M → Prop} {Q : β → M → Prop}
    (hp : Always cost p P) (hf : ∀ a m, P a m → Always cost (f a) fun b n => Q b (m + n)) :
    Always cost (p >>= f) Q :=
  (always_bind p f Q).mpr (hp.mono hf)

/-- The two branches may have different bounds. -/
theorem always_ite {c : Prop} [Decidable c] {p q : Prog O A α} {Q : α → M → Prop}
    (hp : c → Always cost p Q) (hq : ¬ c → Always cost q Q) :
    Always cost (if c then p else q) Q := by
  by_cases hc : c
  · rw [if_pos hc]
    exact hp hc
  · rw [if_neg hc]
    exact hq hc

end Prog

/-- **Soundness**: what is always so is so of every execution. -/
theorem Machine.Performs.cost {M : Type} [AddMonoid M] {cost : O → M} {W : Machine O A K}
    {p : Prog O A α} {k k' : K} {ops : List O} {a : α} {Q : α → M → Prop}
    (h : W.Performs p k ops a k') (hQ : Prog.Always cost p Q) : Q a (ops.map cost).sum := by
  induction h generalizing Q with
  | ret a k => exact hQ
  | op hx _ ih =>
    rw [List.map_cons, List.sum_cons]
    exact ih (hQ _)

end Interaction
