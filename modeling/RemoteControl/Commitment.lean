import Mathlib.Logic.Function.Basic
import RemoteControl.Interaction

/-!
# Commitment: concurrent calls that touch what they share once

Any number of clients, each making one call after another, and every call a program that
may be stopped between any two operations. Some of the operations touch what the clients
share, the others only concern the caller. Nothing here names a particular program.

* `Clients.Step` — the interleaving, one operation at a time.
* `Object.Step` — the same clients of an **atomic object**: somewhere between its entry
  and its return, a call takes place as a whole.
* `Clients.Serves` — a program that touches what is shared at most once, and whose result
  is settled with that; its touch is where the call takes place.
* `Clients.atomic` — then every run of the clients is a run of the atomic object, in which
  the same calls are entered and return, with the same results and in the same order.
-/

namespace Commitment

open Interaction Runs

/-- What can be seen of the clients from outside. -/
inductive Event (I C : Type) (R : C → Type) (E : Type) : Type where
  /-- a client enters a call -/
  | enter (i : I) (c : C) : Event I C R E
  /-- its call returns -/
  | leave (i : I) (c : C) (r : R c) : Event I C R E
  /-- what is shared moves by itself -/
  | own (e : E) : Event I C R E

/-- What was seen in a run; the other steps have no event. -/
def history {S L : Type} (tr : List (S × Option L)) : List L := tr.filterMap Prod.snd

@[simp] theorem history_append {S L : Type} (tr tr' : List (S × Option L)) :
    history (tr ++ tr') = history tr ++ history tr' :=
  List.filterMap_append

theorem history_singleton {S L : Type} (s : S) (e : Option L) : history [(s, e)] = e.toList := by
  cases e with
  | _ => rfl

/-! ## Atomic objects -/

/-- Where a client of an object is. -/
inductive Phase (C : Type) (R : C → Type) : Type where
  /-- between two calls -/
  | idle : Phase C R
  /-- in a call that has not taken place yet -/
  | called (c : C) : Phase C R
  /-- in a call that has, with its result -/
  | served (c : C) (r : R c) : Phase C R

/-- The clients of an object, and its state. -/
structure Object (I C : Type) (R : C → Type) (K : Type) : Type where
  /-- where the clients are -/
  phases : I → Phase C R
  /-- the state -/
  shared : K

namespace Object

variable {I C : Type} {R : C → Type} {K E : Type} [DecidableEq I]

/-- A client moves. -/
def move (s : Object I C R K) (i : I) (ph : Phase C R) : Object I C R K :=
  { s with phases := Function.update s.phases i ph }

theorem phases_move_self (s : Object I C R K) (i : I) (ph : Phase C R) :
    (s.move i ph).phases i = ph :=
  Function.update_self ..

theorem phases_move_of_ne (s : Object I C R K) {i j : I} (h : j ≠ i) (ph : Phase C R) :
    (s.move i ph).phases j = s.phases j :=
  Function.update_of_ne h ..

/-- One step: `one k c r k'` says that the call `c`, in the state `k`, may return `r` and leave
`k'` behind, `own` what the object does by itself. -/
inductive Step (one : K → (c : C) → R c → K → Prop) (own : K → E → K → Prop) :
    Object I C R K → Option (Event I C R E) → Object I C R K → Prop where
  /-- enter a call -/
  | enter {s : Object I C R K} {i : I} {c : C} : s.phases i = .idle →
      Step one own s (some (.enter i c)) (s.move i (.called c))
  /-- the call takes place -/
  | commit {s : Object I C R K} {i : I} {c : C} {r : R c} {k : K} : s.phases i = .called c →
      one s.shared c r k → Step one own s none { s.move i (.served c r) with shared := k }
  /-- return from the call -/
  | leave {s : Object I C R K} {i : I} {c : C} {r : R c} : s.phases i = .served c r →
      Step one own s (some (.leave i c r)) (s.move i .idle)
  /-- the object moves by itself -/
  | own {s : Object I C R K} {e : E} {k : K} : own s.shared e k →
      Step one own s (some (.own e)) { s with shared := k }

/-- Before the first call. -/
def start (k : K) : Object I C R K := ⟨fun _ => .idle, k⟩

end Object

/-! ## Programs -/

/-- A call that is on its way, and what is left of it. -/
structure Ongoing (C O : Type) (A : O → Type) (R : C → Type) : Type where
  /-- the call -/
  call : C
  /-- what is still to run -/
  rest : Prog O A (R call)

/-- The calls of clients as programs, and what their operations do. -/
structure Clients (C O : Type) (A : O → Type) (R : C → Type) (K E : Type) where
  /-- the program of a call -/
  body : (c : C) → Prog O A (R c)
  /-- which operations touch what is shared; the others get any answer -/
  touches : O → Bool
  /-- what they are answered, and what becomes of the state -/
  effect : K → (o : O) → A o → K → Prop
  /-- what the state does by itself -/
  own : K → E → K → Prop

/-- Where everybody is. -/
structure Conf (I C O : Type) (A : O → Type) (R : C → Type) (K : Type) : Type where
  /-- the call each client is in -/
  calls : I → Option (Ongoing C O A R)
  /-- what they share -/
  shared : K

namespace Conf

variable {I C O : Type} {A : O → Type} {R : C → Type} {K : Type} [DecidableEq I]

/-- A client moves. -/
def move (s : Conf I C O A R K) (i : I) (call : Option (Ongoing C O A R)) : Conf I C O A R K :=
  { s with calls := Function.update s.calls i call }

theorem calls_move_self (s : Conf I C O A R K) (i : I) (call : Option (Ongoing C O A R)) :
    (s.move i call).calls i = call :=
  Function.update_self ..

theorem calls_move_of_ne (s : Conf I C O A R K) {i j : I} (h : j ≠ i)
    (call : Option (Ongoing C O A R)) : (s.move i call).calls j = s.calls j :=
  Function.update_of_ne h ..

end Conf

namespace Clients

variable {C O : Type} {A : O → Type} {R : C → Type} {K E : Type} (W : Clients C O A R K E)

/-- One step of the clients. -/
inductive Step {I : Type} [DecidableEq I] :
    Conf I C O A R K → Option (Event I C R E) → Conf I C O A R K → Prop where
  /-- enter a call -/
  | enter {s : Conf I C O A R K} {i : I} {c : C} : s.calls i = none →
      Step s (some (.enter i c)) (s.move i (some ⟨c, W.body c⟩))
  /-- perform an operation that touches nothing, with any answer -/
  | aside {s : Conf I C O A R K} {i : I} {c : C} {o : O} {f : A o → Prog O A (R c)} {x : A o} :
      s.calls i = some ⟨c, .op o f⟩ → W.touches o = false →
      Step s none (s.move i (some ⟨c, f x⟩))
  /-- perform one that touches what is shared -/
  | touch {s : Conf I C O A R K} {i : I} {c : C} {o : O} {f : A o → Prog O A (R c)} {x : A o}
      {k : K} : s.calls i = some ⟨c, .op o f⟩ → W.touches o = true → W.effect s.shared o x k →
      Step s none { s.move i (some ⟨c, f x⟩) with shared := k }
  /-- return from the call -/
  | leave {s : Conf I C O A R K} {i : I} {c : C} {r : R c} : s.calls i = some ⟨c, .ret r⟩ →
      Step s (some (.leave i c r)) (s.move i none)
  /-- what is shared moves by itself -/
  | own {s : Conf I C O A R K} {e : E} {k : K} : W.own s.shared e k →
      Step s (some (.own e)) { s with shared := k }

/-! ## Commitment -/

section Serves

variable {α : Type} (one : K → α → K → Prop)

/-- Whatever it is answered, the program returns `a`, and it touches nothing. -/
def Settled (a : α) : Prog O A α → Prop
  | .ret b => b = a
  | .op o f => W.touches o = false ∧ ∀ x, Settled a (f x)

/-- The program touches what is shared at most once, and with that its result is settled. What
it returns and leaves behind is `one`. -/
def Serves : Prog O A α → Prop
  | .ret a => ∀ k, one k a k
  | .op o f =>
    (W.touches o = true → ∀ k x k', W.effect k o x k' → ∃ a, W.Settled a (f x) ∧ one k a k') ∧
      (W.touches o = false → ∀ x, Serves (f x))

variable {W one}

/-- Before the touch, anything may happen that touches nothing. -/
theorem Serves.aside {o : O} {f : A o → Prog O A α} (h : W.touches o = false)
    (hf : ∀ x, W.Serves one (f x)) : W.Serves one (Prog.perform o >>= f) :=
  ⟨fun htouches => absurd (h.symm.trans htouches) Bool.false_ne_true, fun _ => hf⟩

/-- The touch. -/
theorem Serves.touch {o : O} {f : A o → Prog O A α} (h : W.touches o = true)
    (hf : ∀ k x k', W.effect k o x k' → ∃ a, W.Settled a (f x) ∧ one k a k') :
    W.Serves one (Prog.perform o >>= f) :=
  ⟨fun _ => hf, fun htouches => absurd (htouches.symm.trans h) Bool.false_ne_true⟩

/-- A program that touches nothing takes place anywhere. -/
theorem Settled.serves {a : α} {p : Prog O A α} (h : W.Settled a p) (ha : ∀ k, one k a k) :
    W.Serves one p := by
  induction p with
  | ret b =>
    obtain rfl : b = a := h
    exact ha
  | op o f ih => exact .aside h.1 fun x => ih x (h.2 x)

/-- A settled program returns what it has settled for. -/
theorem Settled.eval {a : α} {p : Prog O A α} (h : W.Settled a p) (ans : (o : O) → A o) :
    p.eval ans = a := by
  induction p with
  | ret b => exact h
  | op o f ih => exact ih (ans o) (h.2 (ans o))

end Serves

variable {W} {one : K → (c : C) → R c → K → Prop}

variable (W one) in
/-- Where a client of the programs is, when it is somewhere as a client of the object. -/
inductive Stands : Option (Ongoing C O A R) → Phase C R → Prop where
  /-- between two calls -/
  | idle : Stands none .idle
  /-- before the touch -/
  | called {c : C} {p : Prog O A (R c)} :
      W.Serves (fun k r k' => one k c r k') p → Stands (some ⟨c, p⟩) (.called c)
  /-- behind it -/
  | served {c : C} {p : Prog O A (R c)} {r : R c} :
      W.Settled r p → Stands (some ⟨c, p⟩) (.served c r)

variable {I : Type} [DecidableEq I]

variable (W one) in
/-- The clients of the programs and of the object are at the same places. -/
structure Matches (s : Conf I C O A R K) (t : Object I C R K) : Prop where
  shared : t.shared = s.shared
  stands : ∀ i, Stands W one (s.calls i) (t.phases i)

theorem Matches.move {s : Conf I C O A R K} {t : Object I C R K} (h : Matches W one s t) {i : I}
    {call : Option (Ongoing C O A R)} {ph : Phase C R} (hi : Stands W one call ph) :
    Matches W one (s.move i call) (t.move i ph) where
  shared := h.shared
  stands := fun j => by
    by_cases hj : j = i
    · subst hj
      rw [s.calls_move_self, t.phases_move_self]
      exact hi
    · rw [s.calls_move_of_ne hj, t.phases_move_of_ne hj]
      exact h.stands j

/-- The client alone moves. -/
theorem Matches.stay {s : Conf I C O A R K} {t : Object I C R K} (h : Matches W one s t) {i : I}
    {call : Option (Ongoing C O A R)} (hi : Stands W one call (t.phases i)) :
    Matches W one (s.move i call) t := by
  have hmove := h.move (i := i) hi
  rwa [Object.move, Function.update_eq_self] at hmove

omit [DecidableEq I] in
/-- What is shared moves. -/
theorem Matches.share {s : Conf I C O A R K} {t : Object I C R K} (h : Matches W one s t)
    (k : K) : Matches W one { s with shared := k } { t with shared := k } :=
  ⟨rfl, h.stands⟩

/-- **One step** of the clients is none, one or two of the object. -/
theorem Matches.step {s s' : Conf I C O A R K} {t : Object I C R K} {e : Option (Event I C R E)}
    (h : Matches W one s t) (hstep : W.Step s e s')
    (hserves : ∀ i c, e = some (.enter i c) → W.Serves (fun k r k' => one k c r k') (W.body c)) :
    ∃ tr t', Run (Object.Step one W.own) t tr t' ∧ history tr = e.toList ∧
      Matches W one s' t' := by
  cases hstep with
  | @enter i c hcalls =>
    have hidle : t.phases i = .idle := by
      have hi := h.stands i
      rw [hcalls] at hi
      generalize t.phases i = ph at hi
      cases hi with
      | idle => rfl
    exact ⟨_, _, .single (.enter hidle), rfl, h.move (.called (hserves i c rfl))⟩
  | @aside i c o f x hcalls htouches =>
    refine ⟨[], t, .nil t, rfl, h.stay ?_⟩
    have hi := h.stands i
    rw [hcalls] at hi
    generalize t.phases i = ph at hi ⊢
    cases hi with
    | called hp => exact .called (hp.2 htouches x)
    | served hp => exact .served (hp.2 x)
  | @touch i c o f x k hcalls htouches heffect =>
    have hi := h.stands i
    rw [hcalls] at hi
    generalize hph : t.phases i = ph at hi
    cases hi with
    | called hp =>
      obtain ⟨r, hr, hone⟩ := hp.1 htouches _ _ _ heffect
      rw [← h.shared] at hone
      exact ⟨_, _, .single (.commit hph hone), rfl, (h.move (.served hr)).share k⟩
    | served hp => exact absurd (hp.1.symm.trans htouches) Bool.false_ne_true
  | @leave i c r hcalls =>
    have hi := h.stands i
    rw [hcalls] at hi
    generalize hph : t.phases i = ph at hi
    cases hi with
    | called hp =>
      -- a call that has touched nothing takes place when it returns
      have hcommit : Object.Step one W.own t none (t.move i (.served c r)) :=
        .commit hph (hp t.shared)
      have hserved := t.phases_move_self i (.served c r)
      have hidle : (t.move i (.served c r)).move i .idle = t.move i .idle := by
        rw [Object.move, Object.move, Function.update_idem]
        rfl
      refine ⟨_, _, (Run.single hcommit).snoc (.leave hserved), rfl, ?_⟩
      rw [hidle]
      exact h.move .idle
    | served hp =>
      obtain rfl : r = _ := hp
      exact ⟨_, _, .single (.leave hph), rfl, h.move .idle⟩
  | @own e k hown =>
    rw [← h.shared] at hown
    exact ⟨_, _, .single (.own hown), rfl, h.share k⟩

/-- Before the first call. -/
def start (k : K) : Conf I C O A R K := ⟨fun _ => none, k⟩

end Clients

/-- **Rule of the single touch.** If the programs of the calls that are entered touch what is
shared at most once, every run of the clients is a run of the object: the same calls are
entered and return, with the same results and in the same order, and each takes place once,
as a whole, in between. -/
theorem Clients.atomic {I C O : Type} {A : O → Type} {R : C → Type} {K E : Type} [DecidableEq I]
    {W : Clients C O A R K E} {one : K → (c : C) → R c → K → Prop} {k : K}
    {s : Conf I C O A R K} {tr : List (Conf I C O A R K × Option (Event I C R E))}
    (h : Run W.Step (start k) tr s)
    (hserves : ∀ i c, Event.enter i c ∈ history tr →
      W.Serves (fun k r k' => one k c r k') (W.body c)) :
    ∃ otr t, Run (Object.Step one W.own) (Object.start k) otr t ∧ history otr = history tr ∧
      Matches W one s t := by
  induction h with
  | nil => exact ⟨[], _, .nil _, rfl, rfl, fun _ => .idle⟩
  | @snoc _ s' tr e hrun hstep ih =>
    rw [history_append] at hserves
    obtain ⟨otr, t, hobject, hhistory, hmatches⟩ :=
      ih fun i c hmem => hserves i c (List.mem_append_left _ hmem)
    obtain ⟨more, t', hmore, hnew, hmatches'⟩ := hmatches.step hstep fun i c he =>
      hserves i c (List.mem_append_right _ (by simp [history, he]))
    refine ⟨otr ++ more, t', hobject.append hmore, ?_, hmatches'⟩
    rw [history_append, history_append, hhistory, hnew, history_singleton]

end Commitment
