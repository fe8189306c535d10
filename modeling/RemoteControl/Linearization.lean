import RemoteControl.Critical
import RemoteControl.Delivery

/-!
# Linearization: threads do what `Observers` says

The threads of `Sections` may be stopped between any two statements; the steps of
`Observers` are whole sections. Every run of the first is a run of the second, up
to a section that is open, so the law of registration and dispatch holds of the
code statement by statement.

* `Numbering`, `Numbering.read` — the steps of `Observers`, read off the blocks of
  a run. A section counts when it unlocks.
* `Stage`, `Mirrors` — where a thread is, and where its dispatch is.
* `Mirrors.single`, `Mirrors.critical` — one operation outside the sections, and one
  section, is one step of `Observers`.
-/

namespace RemoteControl

open Interaction Locks Runs

/-- A call that gets as far as the lock. -/
def ClientCall.real {ν : Type} : ClientCall ν → Prop
  | .register n => n ≠ none
  | .unregister n => n ≠ none

namespace Threaded

variable {ν : Type} [DecidableEq ν]

/-! ## Reading the steps -/

/-- What a thread of the system runs. -/
abbrev Thread (ν : Type) : Type := Code ν (Option HResult)

/-- A block of a run. -/
abbrev BlockOf (ν : Type) : Type := Block (Entry ν) (Op ν) Op.Answer

/-- The dispatches so far, and which thread is which. -/
structure Numbering where
  /-- how many there are -/
  count : ℕ
  /-- the one thread `i` is -/
  of : ℕ → Option ℕ

/-- Who calls from thread `i`: a client, or an observer inside a callback. -/
def Numbering.caller (N : Numbering) (i : ℕ) : Observers.Caller :=
  match N.of i with
  | some d => .callback d
  | none => .client

/-- Thread `i` is the next dispatch. -/
def Numbering.assign (N : Numbering) (i : ℕ) : Numbering :=
  ⟨N.count + 1, Function.update N.of i (some N.count)⟩

@[simp] theorem Numbering.assign_self (N : Numbering) (i : ℕ) :
    (N.assign i).of i = some N.count :=
  Function.update_self ..

theorem Numbering.assign_of_ne (N : Numbering) {i j : ℕ} (h : j ≠ i) :
    (N.assign i).of j = N.of j :=
  Function.update_of_ne h ..

/-- A thread that is a dispatch stays that dispatch. -/
def Numbering.Extends (N N' : Numbering) : Prop :=
  ∀ i d, N.of i = some d → N'.of i = some d

theorem Numbering.extends_assign {N : Numbering} {i : ℕ} (h : N.of i = none) :
    N.Extends (N.assign i) := by
  intro j d hj
  have hji : j ≠ i := fun hji => by simp [hji, h] at hj
  rw [N.assign_of_ne hji, hj]

/-- The step of `Observers` that a section is. -/
def Numbering.readPart (N : Numbering) (i : ℕ) :
    LockedPart ν → Numbering × List (Observers.Action ν)
  | .register n => (N, [.register (N.caller i) n])
  | .unregister n => (N, [.unregister (N.caller i) n])
  | .snapshot kind => (N.assign i, [.snapshot kind])

/-- The step of `Observers` that a block is. -/
def Numbering.read (N : Numbering) : BlockOf ν → Numbering × List (Observers.Action ν)
  | .spawn _ => (N, [])
  | .critical i l =>
    match l.getLast? with
    | some ⟨.unlock part, _⟩ => N.readPart i part
    | _ => (N, [])
  | .single i o _ =>
    match N.of i, o with
    | some d, .enterCallback _ n => (N, [.enterCallback d n])
    | some d, .leaveCallback => (N, [.leaveCallback d])
    | some d, .release _ => (N, [.release d])
    | _, _ => (N, [])

/-- Read one more block. -/
def transcribe (t : Numbering × List (Observers.Action ν)) (b : BlockOf ν) :
    Numbering × List (Observers.Action ν) :=
  ((t.1.read b).1, t.2 ++ (t.1.read b).2)

/-- The steps of `Observers` a list of blocks amounts to. -/
def transcript (l : List (BlockOf ν)) : Numbering × List (Observers.Action ν) :=
  l.foldl transcribe (⟨0, fun _ => none⟩, [])

/-! ## Where a thread is -/

/-- What is left when everybody has been called. -/
def afterCalls (observers : List (Option ν)) : Code ν (Option HResult) := do
  releaseObserverSnapshot observers
  pure none

/-- What is left of dispatch `D` between two callbacks. -/
def betweenCalls (D : Dispatch ν) : Code ν (Option HResult) := do
  callObservers D.kind (D.observers.drop D.called)
  afterCalls D.observers

/-- What is left of dispatch `D` inside a callback that has still `calls` to make. -/
def withinCallback (D : Dispatch ν) (calls : List (ClientCall ν)) : Code ν (Option HResult) := do
  callBack calls
  let _ ← perform .leaveCallback
  betweenCalls D

/-- What a thread has to run at each point of its dispatch. -/
inductive Stage : Thread ν → Dispatch ν → Prop where
  /-- in the first loop, between two callbacks -/
  | calling {D : Dispatch ν} : D.inCallback = false → D.released = 0 → Stage (betweenCalls D) D
  /-- in a callback -/
  | inside {D : Dispatch ν} (calls : List (ClientCall ν)) : D.inCallback = true →
      D.released = 0 → Stage (withinCallback D calls) D
  /-- in the second loop -/
  | releasing {D : Dispatch ν} : D.inCallback = false → D.called = D.observers.length →
      Stage (afterCalls (D.observers.drop D.released)) D

/-- A thread that has not been through a section yet, or is a client and done. -/
def Waiting (p : Thread ν) : Prop := (∃ e, p = body e) ∨ ∃ r, p = .ret r

/-- What a thread does next, and where that leaves it. -/
inductive Next : Thread ν → Dispatch ν → Prop where
  /-- nothing: both loops are through -/
  | ended {D : Dispatch ν} : D.finished → Next (.ret none) D
  /-- call the next observer -/
  | enter {D : Dispatch ν} {n : Option ν} {f : List (ClientCall ν) → Thread ν} :
      D.inCallback = false → D.observers[D.called]? = some n →
      (∀ calls, Stage (f calls) { D with called := D.called + 1, inCallback := true }) →
      Next (.op (.enterCallback D.kind n) f) D
  /-- return from the callback -/
  | leave {D : Dispatch ν} {f : Unit → Thread ν} : D.inCallback = true →
      Stage (f ()) { D with inCallback := false } → Next (.op .leaveCallback f) D
  /-- go through a section on behalf of the observer -/
  | call {D : Dispatch ν} {c : ClientCall ν} {rest : List (ClientCall ν)} :
      D.inCallback = true → c.real → Stage (withinCallback D rest) D →
      Next (call c >>= fun _ => withinCallback D rest : Code ν _) D
  /-- release the next observer -/
  | release {D : Dispatch ν} {n : Option ν} {f : Unit → Thread ν} : D.inCallback = false →
      D.called = D.observers.length → D.observers[D.released]? = some n →
      Stage (f ()) { D with released := D.released + 1 } → Next (.op (.release n) f) D

/-- A null call comes and goes unseen. -/
theorem callBack_null {c : ClientCall ν} (hc : ¬ c.real) (rest : List (ClientCall ν)) :
    callBack (c :: rest) = callBack rest := by
  rcases c with (_ | m) | (_ | m)
  · rfl
  · exact absurd (by simp [ClientCall.real]) hc
  · rfl
  · exact absurd (by simp [ClientCall.real]) hc

/-- The second loop, from any entry on. -/
theorem next_releasing {D : Dispatch ν} (hidle : D.inCallback = false)
    (hcalled : D.called = D.observers.length) (hle : D.released ≤ D.observers.length) :
    Next (afterCalls (D.observers.drop D.released)) D := by
  rcases hn : D.observers[D.released]? with _ | n
  · have hlen : D.released = D.observers.length :=
      Nat.le_antisymm hle (List.getElem?_eq_none_iff.mp hn)
    rw [List.drop_of_length_le hlen.ge]
    exact .ended ⟨hcalled, hidle, hlen⟩
  · obtain ⟨hlt, rfl⟩ := List.getElem?_eq_some_iff.mp hn
    rw [List.drop_eq_getElem_cons hlt]
    exact .release hidle hcalled hn (.releasing (D := { D with released := D.released + 1 })
      hidle hcalled)

/-- The callbacks of the first loop, from any entry on. -/
theorem next_inside {D : Dispatch ν} (hin : D.inCallback = true) (hzero : D.released = 0) :
    ∀ calls, Next (withinCallback D calls) D
  | [] => .leave hin (.calling (D := { D with inCallback := false }) rfl hzero)
  | c :: rest => by
    by_cases hc : c.real
    · have h : withinCallback D (c :: rest) = call c >>= fun _ => withinCallback D rest :=
        bind_assoc ..
      rw [h]
      exact .call hin hc (.inside rest hin hzero)
    · rw [withinCallback, callBack_null hc]
      exact next_inside hin hzero rest

/-- **Inversion**: every stage has one of the next steps. -/
theorem Stage.next {p : Thread ν} {D : Dispatch ν} (h : Stage p D) (hD : D.Ok) : Next p D := by
  cases h with
  | calling hidle hzero =>
    rcases hn : D.observers[D.called]? with _ | n
    · have hlen : D.called = D.observers.length :=
        Nat.le_antisymm hD.called (List.getElem?_eq_none_iff.mp hn)
      have hnext := next_releasing hidle hlen hD.released
      rw [hzero, List.drop_zero] at hnext
      rw [betweenCalls, List.drop_of_length_le hlen.ge]
      exact hnext
    · obtain ⟨hlt, rfl⟩ := List.getElem?_eq_some_iff.mp hn
      rw [betweenCalls, List.drop_eq_getElem_cons hlt]
      refine .enter hidle hn fun calls => ?_
      have hassoc : withinCallback { D with called := D.called + 1, inCallback := true } calls =
          (callBack calls >>= fun _ => perform .leaveCallback >>= fun _ =>
            callObservers D.kind (D.observers.drop (D.called + 1))) >>= fun _ =>
              afterCalls D.observers := by
        rw [bind_assoc]
        rfl
      have hstage := Stage.inside (D := { D with called := D.called + 1, inCallback := true })
        calls rfl hzero
      rw [hassoc] at hstage
      exact hstage
  | inside calls hin hzero => exact next_inside hin hzero calls
  | releasing hidle hcalled => exact next_releasing hidle hcalled hD.released

/-! ## Calls of clients and of observers -/

/-- The section a call goes through. -/
def part : ClientCall ν → LockedPart ν
  | .register n => .register n
  | .unregister n => .unregister n

/-- The step of `Observers` it is. -/
def action (caller : Observers.Caller) : ClientCall ν → Observers.Action ν
  | .register n => .register caller n
  | .unregister n => .unregister caller n

/-- What it does there. -/
def apply (s : Observers ν) : ClientCall ν → Observers ν
  | .register n => (s.register n).2
  | .unregister n => (s.unregister n).2

omit [DecidableEq ν] in
theorem readPart_part (N : Numbering) (i : ℕ) (c : ClientCall ν) :
    N.readPart i (part c) = (N, [action (N.caller i) c]) := by
  cases c <;> rfl

theorem step_action {s : Observers ν} {caller : Observers.Caller} (halive : s.destroyed = false)
    (hmay : s.mayCall caller = true) (c : ClientCall ν) :
    s.step (action caller c) = some (apply s c) := by
  cases c <;> simp [action, apply, Observers.step, halive, hmay]

/-- A call moves no dispatch and destroys nothing. -/
theorem apply_frame (s : Observers ν) (c : ClientCall ν) :
    (apply s c).dispatches = s.dispatches ∧ (apply s c).destroyed = s.destroyed := by
  rcases c with n | n
  · rcases s.register_cases n with ⟨-, h⟩ | ⟨m, -, -, h⟩ <;> simp [apply, h, Observers.charge]
  · rcases s.unregister_cases n with ⟨-, h⟩ | ⟨m, -, -, h⟩ <;> simp [apply, h, Observers.discharge]

theorem section_call {s : Observers ν} (hs : s.Inv) {c : ClientCall ν} (hc : c.real) {β : Type}
    (g : HResult → Code ν β) :
    Section s.shared (part c) (fun rest k => rest = g .errorNone ∧ k = (apply s c).shared)
      (call c >>= g) s.shared := by
  rcases c with n | n
  · obtain ⟨m, rfl⟩ := Option.ne_none_iff_exists'.mp hc
    exact section_answered hs (wlp_insert hs m) g
  · obtain ⟨m, rfl⟩ := Option.ne_none_iff_exists'.mp hc
    exact section_answered hs (wlp_remove hs m) g

/-! ## The simulation -/

/-- Where thread `i` is: in no dispatch, or at a stage of its own. -/
def Place (N : Numbering) (s : Observers ν) (i : ℕ) (p : Thread ν) : Prop :=
  match N.of i with
  | none => Waiting p
  | some d => ∃ D, s.dispatches[d]? = some D ∧ Stage p D

/-- Threads and dispatches of the same state: every dispatch has one thread, which is
where the dispatch is, and the other threads have none. -/
structure Mirrors (N : Numbering) (P : Pool (Op ν) Op.Answer (Option HResult) (Shared ν))
    (s : Observers ν) : Prop where
  shared : P.shared = s.shared
  alive : s.destroyed = false
  count : N.count = s.dispatches.length
  owned : ∀ d < N.count, ∃ i, N.of i = some d
  inj : ∀ i j d, N.of i = some d → N.of j = some d → i = j
  range : ∀ i d, N.of i = some d → i < P.threads.length ∧ d < N.count
  place : ∀ i p, P.threads[i]? = some p → Place N s i p

theorem mirrors_start : Mirrors (ν := ν) ⟨0, fun _ => none⟩ ⟨[], .fresh⟩ .fresh where
  shared := rfl
  alive := rfl
  count := rfl
  owned := fun _ h => absurd h (Nat.not_lt_zero _)
  inj := fun _ _ _ h => by simp at h
  range := fun _ _ h => by simp at h
  place := fun _ _ h => by simp at h

/-- A thread moves, and its dispatch with it. -/
theorem Mirrors.moved {N : Numbering} {P : Pool (Op ν) Op.Answer (Option HResult) (Shared ν)}
    {s s' : Observers ν} (h : Mirrors N P s) {i d : ℕ} {D D' : Dispatch ν} {q : Thread ν}
    {k : Shared ν} (hN : N.of i = some d) (hget : s.dispatches[d]? = some D) (hq : Stage q D')
    (hset : s'.dispatches = s.dispatches.set d D') (halive : s'.destroyed = false)
    (hk : k = s'.shared) : Mirrors N ⟨P.threads.set i q, k⟩ s' where
  shared := hk
  alive := halive
  count := by rw [hset, List.length_set, h.count]
  owned := h.owned
  inj := h.inj
  range := fun j e hj => by
    rw [List.length_set]
    exact h.range j e hj
  place := fun j p hp => by
    have hlt := (List.getElem?_eq_some_iff.mp hget).1
    by_cases hij : j = i
    · subst hij
      rw [List.getElem?_set_self (h.range _ _ hN).1] at hp
      obtain rfl := Option.some.inj hp
      simp only [Place, hN, hset]
      exact ⟨D', List.getElem?_set_self hlt, hq⟩
    · rw [List.getElem?_set_ne (Ne.symm hij)] at hp
      have hplace := h.place j p hp
      rcases hj : N.of j with _ | e
      · simpa only [Place, hj] using hplace
      · have hne : d ≠ e := fun hde => hij (h.inj j i d (hde ▸ hj) hN)
        simpa only [Place, hj, hset, List.getElem?_set_ne hne] using hplace

/-- A client comes back from its section. -/
theorem Mirrors.served {N : Numbering} {P : Pool (Op ν) Op.Answer (Option HResult) (Shared ν)}
    {s s' : Observers ν} (h : Mirrors N P s) {i : ℕ} {r : Option HResult} {k : Shared ν}
    (hN : N.of i = none) (hsame : s'.dispatches = s.dispatches) (halive : s'.destroyed = false)
    (hk : k = s'.shared) : Mirrors N ⟨P.threads.set i (.ret r), k⟩ s' where
  shared := hk
  alive := halive
  count := by rw [hsame, h.count]
  owned := h.owned
  inj := h.inj
  range := fun j e hj => by
    rw [List.length_set]
    exact h.range j e hj
  place := fun j p hp => by
    by_cases hij : j = i
    · subst hij
      rw [List.getElem?_set_self (by simpa using (List.getElem?_eq_some_iff.mp hp).1)] at hp
      obtain rfl := Option.some.inj hp
      simp only [Place, hN]
      exact Or.inr ⟨r, rfl⟩
    · rw [List.getElem?_set_ne (Ne.symm hij)] at hp
      simpa only [Place, hsame] using h.place j p hp

/-- A `Notify*` function comes back from `ObserverSnapshot`. -/
theorem Mirrors.taken {N : Numbering} {P : Pool (Op ν) Op.Answer (Option HResult) (Shared ν)}
    {s s' : Observers ν} (h : Mirrors N P s) {i : ℕ} {p q : Thread ν} {D : Dispatch ν}
    {k : Shared ν} (hget : P.threads[i]? = some p) (hN : N.of i = none) (hq : Stage q D)
    (hnew : s'.dispatches = s.dispatches ++ [D]) (halive : s'.destroyed = false)
    (hk : k = s'.shared) :
    Mirrors (N.assign i) ⟨P.threads.set i q, k⟩ s' := by
  have hlt := (List.getElem?_eq_some_iff.mp hget).1
  refine ⟨hk, halive, ?_, fun d hd => ?_, fun j j' d hj hj' => ?_, fun j d hj => ?_,
    fun j p' hp => ?_⟩
  · rw [hnew, List.length_append, List.length_singleton, Numbering.assign, h.count]
  · rcases Nat.lt_succ_iff_lt_or_eq.mp hd with hd | rfl
    · obtain ⟨j, hj⟩ := h.owned d hd
      have hji : j ≠ i := fun hji => by simp [hji, hN] at hj
      exact ⟨j, (N.assign_of_ne hji).trans hj⟩
    · exact ⟨i, N.assign_self i⟩
  · -- the new number is nobody else's
    have hfresh : ∀ j, j ≠ i → (N.assign i).of j ≠ some N.count := fun j hj he =>
      Nat.lt_irrefl _ (h.range j _ ((N.assign_of_ne hj).symm.trans he)).2
    by_cases hji : j = i <;> by_cases hji' : j' = i
    · rw [hji, hji']
    · rw [hji, N.assign_self] at hj
      exact absurd (hj'.trans hj.symm) (hfresh j' hji')
    · rw [hji', N.assign_self] at hj'
      exact absurd (hj.trans hj'.symm) (hfresh j hji)
    · rw [N.assign_of_ne hji] at hj
      rw [N.assign_of_ne hji'] at hj'
      exact h.inj j j' d hj hj'
  · rw [List.length_set]
    by_cases hji : j = i
    · rw [hji, N.assign_self] at hj
      obtain rfl := Option.some.inj hj
      exact ⟨hji ▸ hlt, Nat.lt_succ_self _⟩
    · rw [N.assign_of_ne hji] at hj
      have hold := h.range j d hj
      exact ⟨hold.1, Nat.lt_succ_of_lt hold.2⟩
  · by_cases hji : j = i
    · subst hji
      rw [List.getElem?_set_self hlt] at hp
      obtain rfl := Option.some.inj hp
      simp only [Place, N.assign_self]
      exact ⟨D, by rw [hnew, h.count, List.getElem?_concat_length], hq⟩
    · rw [List.getElem?_set_ne (Ne.symm hji)] at hp
      have hplace := h.place j p' hp
      rcases hj : N.of j with _ | d
      · simpa only [Place, N.assign_of_ne hji, hj] using hplace
      · have hd : d < s.dispatches.length := h.count ▸ (h.range j d hj).2
        simpa only [Place, N.assign_of_ne hji, hj, hnew, List.getElem?_append_left hd] using hplace

/-! ## One block -/

/-- A call that gets as far as the lock begins with it. -/
theorem call_head {c : ClientCall ν} (hc : c.real) {β : Type} (g : HResult → Code ν β) :
    ∃ f, call c >>= g = .op .lock f := by
  rcases c with n | n
  · obtain ⟨m, rfl⟩ := Option.ne_none_iff_exists'.mp hc
    exact ⟨_, rfl⟩
  · obtain ⟨m, rfl⟩ := Option.ne_none_iff_exists'.mp hc
    exact ⟨_, rfl⟩

/-- A thread outside any dispatch is done, or in front of its section. -/
theorem Waiting.cases {p : Thread ν} (h : Waiting p) :
    (∃ r, p = .ret r) ∨
    (∃ c : ClientCall ν, c.real ∧ p = (call c >>= fun r => pure (some r) : Code ν _)) ∨
    ∃ kind, p = (observerSnapshot kind >>= fun l => betweenCalls ⟨kind, l, 0, false, 0⟩ :
      Code ν _) := by
  rcases h with ⟨c | kind, rfl⟩ | ⟨r, rfl⟩
  · by_cases hc : c.real
    · exact Or.inr (Or.inl ⟨c, hc, rfl⟩)
    · refine Or.inl ⟨some .errorBadRequest, ?_⟩
      rcases c with (_ | m) | (_ | m)
      · rfl
      · exact absurd (by simp [ClientCall.real]) hc
      · rfl
      · exact absurd (by simp [ClientCall.real]) hc
  · refine Or.inr (Or.inr ⟨kind, ?_⟩)
    simp only [body, notify, betweenCalls, afterCalls, bind_assoc, List.drop_zero]
  · exact Or.inl ⟨r, rfl⟩

/-- A thread outside any dispatch does nothing but take the lock. -/
theorem Waiting.head {o : Op ν} {f : o.Answer → Thread ν} (h : Waiting (.op o f)) :
    o = .lock := by
  rcases h.cases with ⟨r, hr⟩ | ⟨c, hc, hp⟩ | ⟨kind, hp⟩
  · cases hr
  · obtain ⟨f', hf'⟩ := call_head hc fun r => (pure (some r) : Code ν _)
    cases hp.trans hf'
    rfl
  · cases hp
    rfl

/-- **One operation** outside any section is one step of the dispatch of its thread. -/
theorem Mirrors.single {N : Numbering} {ts : List (Thread ν)} {k : Shared ν}
    {s : Observers ν} {i : ℕ} {o : Op ν} {f : o.Answer → Thread ν} (hs : s.Inv)
    (h : Mirrors N ⟨ts, k⟩ s) (hget : ts[i]? = some (.op o f)) (hne : o ≠ .lock) (x : o.Answer) :
    ∃ a s', Observers.Steps s a s' ∧ (N.read (.single i o x)) = (N, [a]) ∧
      Mirrors N ⟨ts.set i (f x), next k o x⟩ s' := by
  have hplace := h.place i _ hget
  obtain rfl : k = s.shared := h.shared
  rcases hN : N.of i with _ | d
  · simp only [Place, hN] at hplace
    exact absurd hplace.head hne
  · simp only [Place, hN] at hplace
    obtain ⟨D, hD, hstage⟩ := hplace
    have hnext := hstage.next (hs.dispatches D (List.mem_of_getElem? hD))
    generalize hp : Prog.op o f = p at hnext
    cases hnext with
    | ended _ => cases hp
    | @enter _ n _ hidle hn hq =>
      cases hp
      refine ⟨.enterCallback d n, (s.goThrough n).setDispatch d
        { D with called := D.called + 1, inCallback := true }, ?_, by simp [Numbering.read, hN],
        h.moved hN hD (hq x) ?_ ?_ ?_⟩
      · simp [Observers.Steps, Observers.step, hD, hidle, hn]
      · rcases n with _ | n <;> rfl
      · rcases n with _ | n <;> exact h.alive
      · rcases n with _ | n <;> rfl
    | leave hin hq =>
      cases hp
      refine ⟨.leaveCallback d, s.setDispatch d { D with inCallback := false }, ?_,
        by simp [Numbering.read, hN], h.moved hN hD hq rfl h.alive rfl⟩
      simp [Observers.Steps, Observers.step, hD, hin]
    | @call _ c rest hin hc _ =>
      obtain ⟨f', hf'⟩ := call_head hc fun _ => withinCallback D rest
      cases hp.trans hf'
      exact absurd rfl hne
    | @release _ n _ hidle hcalled hn hq =>
      cases hp
      refine ⟨.release d, (s.releaseRef n).setDispatch d { D with released := D.released + 1 }, ?_,
        by simp [Numbering.read, hN], h.moved hN hD hq ?_ ?_ ?_⟩
      · simp [Observers.Steps, Observers.step, hD, hidle, hcalled, hn]
      · rcases n with _ | n <;> rfl
      · rcases n with _ | n <;> exact h.alive
      · rcases n with _ | n <;> rfl

omit [DecidableEq ν] in
/-- A whole section is read by where it unlocks. -/
theorem read_critical (N : Numbering) (i : ℕ) (l : List (Answered (Op ν) Op.Answer))
    (part : LockedPart ν) (x : (Op.unlock part).Answer) :
    N.read (.critical i (l ++ [⟨.unlock part, x⟩])) = N.readPart i part := by
  rw [Numbering.read, List.getLast?_concat]

/-- Which sections thread `i` can be about to enter. -/
inductive Enters (N : Numbering) (s : Observers ν) (i : ℕ) : Thread ν → Prop where
  /-- a client's -/
  | client {c : ClientCall ν} : N.of i = none → c.real →
      Enters N s i (call c >>= fun r => pure (some r) : Code ν _)
  /-- that of a `Notify*` function -/
  | event {kind : EventKind} : N.of i = none →
      Enters N s i (observerSnapshot kind >>= fun l => betweenCalls ⟨kind, l, 0, false, 0⟩ :
        Code ν _)
  /-- an observer's, from inside its callback -/
  | observer {c : ClientCall ν} {d : ℕ} {D : Dispatch ν} {rest : List (ClientCall ν)} :
      N.of i = some d → s.dispatches[d]? = some D → D.inCallback = true → c.real →
      Stage (withinCallback D rest) D →
      Enters N s i (call c >>= fun _ => withinCallback D rest : Code ν _)

theorem Mirrors.enters {N : Numbering} {P : Pool (Op ν) Op.Answer (Option HResult) (Shared ν)}
    {s : Observers ν} {i : ℕ} {p q : Thread ν} {k' : Shared ν}
    {l : List (Answered (Op ν) Op.Answer)} (hs : s.Inv) (h : Mirrors N P s)
    (hget : P.threads[i]? = some p) (hl : Underway access l)
    (hpart : Partway machine p P.shared l q k') : Enters N s i p := by
  have hplace := h.place i p hget
  obtain ⟨o, f, hp, hacc⟩ := hl.head hpart
  rcases hN : N.of i with _ | d
  · simp only [Place, hN] at hplace
    rcases hplace.cases with ⟨r, rfl⟩ | ⟨c, hc, rfl⟩ | ⟨kind, rfl⟩
    · cases hp
    · exact .client hN hc
    · exact .event hN
  · simp only [Place, hN] at hplace
    obtain ⟨D, hD, hstage⟩ := hplace
    have hnext := hstage.next (hs.dispatches D (List.mem_of_getElem? hD))
    cases hnext with
    | ended _ => cases hp
    | enter _ _ _ =>
      cases hp
      cases hacc
    | leave _ _ =>
      cases hp
      cases hacc
    | release _ _ _ _ =>
      cases hp
      cases hacc
    | call hin hc hq => exact .observer hN hD hin hc hq

/-- **One section** is one step of `Observers`. -/
theorem Mirrors.critical {N : Numbering} {ts : List (Thread ν)} {k k' : Shared ν}
    {s : Observers ν} {i : ℕ} {p : Thread ν} {l : List (Answered (Op ν) Op.Answer)} {o : Op ν}
    {f : o.Answer → Thread ν} (hs : s.Inv) (h : Mirrors N ⟨ts, k⟩ s) (hget : ts[i]? = some p)
    (hl : Underway access l) (hpart : Partway machine p k l (.op o f) k')
    (hrel : access o = .release) (x : o.Answer) :
    ∃ N' a s', Observers.Steps s a s' ∧ N.read (.critical i (l ++ [⟨o, x⟩])) = (N', [a]) ∧
      N.Extends N' ∧ Mirrors N' ⟨ts.set i (f x), next k' o x⟩ s' := by
  have henters := h.enters hs hget hl hpart
  obtain rfl : k = s.shared := h.shared
  cases henters with
  | @client c hN hc =>
    have hcaller : N.caller i = .client := by simp only [Numbering.caller, hN]
    have hframe := apply_frame s c
    obtain ⟨rfl, hrest, hk⟩ := (section_call hs hc _).ends hl hpart hrel x
    rw [read_critical, readPart_part, hcaller, hrest]
    exact ⟨_, _, _, step_action h.alive rfl c, rfl, fun _ _ hj => hj,
      h.served hN hframe.1 (hframe.2.trans h.alive) hk⟩
  | @event kind hN =>
    obtain ⟨rfl, hrest, hk⟩ := (section_snapshot hs kind _).ends hl hpart hrel x
    rw [read_critical, Numbering.readPart, hrest]
    refine ⟨_, _, { s.charge s.notifications with
      dispatches := s.dispatches ++ [{ kind, observers := s.notifications }] }, ?_, rfl,
      Numbering.extends_assign hN, h.taken hget hN (.calling rfl rfl) rfl h.alive hk⟩
    simp [Observers.Steps, Observers.step, h.alive, Observers.observerSnapshot_eq hs.nonnull,
      Observers.charge]
  | @observer c d D rest hN hD hin hc hq =>
    have hcaller : N.caller i = .callback d := by simp only [Numbering.caller, hN]
    have hframe := apply_frame s c
    obtain ⟨rfl, hrest, hk⟩ := (section_call hs hc _).ends hl hpart hrel x
    rw [read_critical, readPart_part, hcaller, hrest]
    refine ⟨_, _, _, step_action h.alive (by simp [Observers.mayCall, hD, hin]) c, rfl,
      fun _ _ hj => hj, h.moved hN hD hq ?_ (hframe.2.trans h.alive) hk⟩
    obtain ⟨hlt, rfl⟩ := List.getElem?_eq_some_iff.mp hD
    rw [hframe.1, List.set_getElem_self]

/-- **Step lemma**: a block is the start of a thread, or one step of `Observers`, the one
it is read as. -/
theorem Mirrors.step {N : Numbering} {P P' : Pool (Op ν) Op.Answer (Option HResult) (Shared ν)}
    {s : Observers ν} {b : BlockOf ν} (hs : s.Inv) (h : Mirrors N P s)
    (hst : threads.BlockStep P b P') :
    (∃ e, b = .spawn e ∧ Mirrors N P' s) ∨
    ∃ N' a s', Observers.Steps s a s' ∧ N.read b = (N', [a]) ∧ N.Extends N' ∧
      Mirrors N' P' s' := by
  cases hst with
  | @spawn ts k e =>
    refine Or.inl ⟨e, rfl, h.shared, h.alive, h.count, h.owned, h.inj, fun i d hi => ?_,
      fun i p hp => ?_⟩
    · have hrange := h.range i d hi
      exact ⟨Nat.lt_of_lt_of_le hrange.1 (by simp), hrange.2⟩
    · rw [List.getElem?_append] at hp
      split at hp
      · exact h.place i p hp
      · rename_i hlt
        have hN : N.of i = none := by
          by_contra hne
          obtain ⟨d, hd⟩ := Option.ne_none_iff_exists'.mp hne
          exact hlt (h.range i d hd).1
        obtain rfl := List.mem_singleton.mp (List.mem_of_getElem? hp)
        simp only [Place, hN]
        exact Or.inl ⟨e, rfl⟩
  | @single ts k i o f x hget hout hmay =>
    have hne : o ≠ .lock := by
      rintro rfl
      rcases hout with hout | hout <;> cases hout
    obtain ⟨a, s', hst, hread, hmirrors⟩ := h.single hs hget hne x
    exact Or.inr ⟨N, a, s', hst, hread, fun _ _ hj => hj, hmirrors⟩
  | @critical ts k k' i p l o f x hget hl hpart hrel hmay =>
    exact Or.inr (h.critical hs hget hl hpart hrel x)

omit [DecidableEq ν] in
theorem transcript_snoc (l : List (BlockOf ν)) (b : BlockOf ν) :
    transcript (l ++ [b]) = transcribe (transcript l) b := by
  rw [transcript, List.foldl_append]
  rfl

omit [DecidableEq ν] in
/-- What is read stays read. -/
theorem transcript_extends (l more : List (BlockOf ν)) :
    (transcript l).2 <+: (transcript (l ++ more)).2 := by
  induction more using List.reverseRecOn with
  | nil => exact ⟨[], by rw [List.append_nil, List.append_nil]⟩
  | append_singleton more b ih =>
    rw [← List.append_assoc, transcript_snoc]
    exact ih.trans (List.prefix_append ..)

end Threaded

end RemoteControl
