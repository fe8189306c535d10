import RemoteControl.Commitment

/-!
# Accounts: what the calls of an atomic object add up to

The calls of an atomic object take place one after the other. Here this execution is written
down: it is made of the calls that were entered, apart from those still before their
commitment, and the calls that returned are among it. So what each call does to a count, all
of them together do.

* `Object.Serial` — one call, or one move of the object, at a time.
* `Object.Accounts` — a run of the object against its serial execution; `Object.accounts`
  says that there always is one.
* `Object.Accounts.le`, `Object.Accounts.ge` — what the entered calls can add to a count at
  most, and what the returned ones have added to it at least.
-/

namespace Commitment

open Runs

namespace Object

variable {I C : Type} {R : C → Type} {K E : Type}

/-! ## Serial executions -/

/-- A call with its result, or a move of the object. -/
abbrev Deed (C : Type) (R : C → Type) (E : Type) : Type := (Σ c, R c) ⊕ E

/-- It takes place. -/
def Serial (one : K → (c : C) → R c → K → Prop) (own : K → E → K → Prop) (k : K) :
    Deed C R E → K → Prop
  | .inl ⟨c, r⟩, k' => one k c r k'
  | .inr e, k' => own k e k'

/-- The calls in a serial execution. -/
def taken (str : List (K × Deed C R E)) : List (Σ c, R c) :=
  str.filterMap fun p => p.2.getLeft?

/-- The calls that were entered. -/
def entered (l : List (Event I C R E)) : List C :=
  l.filterMap fun e =>
    match e with
    | .enter _ c => some c
    | _ => none

/-- The calls that have returned. -/
def returned (l : List (Event I C R E)) : List (Σ c, R c) :=
  l.filterMap fun e =>
    match e with
    | .leave _ c r => some ⟨c, r⟩
    | _ => none

/-- One more call. -/
theorem taken_inl (str : List (K × Deed C R E)) (k : K) (d : Σ c, R c) :
    taken (str ++ [(k, .inl d)]) = taken str ++ [d] :=
  List.filterMap_append

/-- One more move. -/
theorem taken_inr (str : List (K × Deed C R E)) (k : K) (e : E) :
    taken (str ++ [(k, .inr e)]) = taken str :=
  List.filterMap_append.trans (List.append_nil _)

theorem entered_append (l l' : List (Event I C R E)) :
    entered (l ++ l') = entered l ++ entered l' :=
  List.filterMap_append

theorem returned_append (l l' : List (Event I C R E)) :
    returned (l ++ l') = returned l ++ returned l' :=
  List.filterMap_append

/-! ## Accounts -/

variable {one : K → (c : C) → R c → K → Prop} {own : K → E → K → Prop}

variable (one own) in
/-- A serial execution `str` for what was seen: `before` are the clients whose calls have not
taken place yet, `behind` those whose calls have, and have not returned. -/
structure Accounts (k : K) (seen : List (Event I C R E)) (s : Object I C R K)
    (str : List (K × Deed C R E)) (before : List (I × C)) (behind : List (I × Σ c, R c)) :
    Prop where
  run : Run (Serial one own) k str s.shared
  calls : (entered seen).Perm ((taken str).map Sigma.fst ++ before.map Prod.snd)
  results : (taken str).Perm (returned seen ++ behind.map Prod.snd)
  called : ∀ i c, s.phases i = .called c → (i, c) ∈ before
  served : ∀ i c r, s.phases i = .served c r → (i, ⟨c, r⟩) ∈ behind

variable [DecidableEq I]

/-- A phase after a move. -/
theorem phases_move_eq {s : Object I C R K} {i j : I} {ph ph' : Phase C R}
    (h : (s.move i ph).phases j = ph') : j = i ∧ ph = ph' ∨ j ≠ i ∧ s.phases j = ph' := by
  by_cases hj : j = i
  · subst hj
    exact .inl ⟨rfl, (s.phases_move_self j ph).symm.trans h⟩
  · exact .inr ⟨hj, (s.phases_move_of_ne hj ph).symm.trans h⟩

/-- What is not the element that is taken out stays. -/
theorem mem_of_mem_middle {α : Type} {a b : α} {pre post : List α} (h : a ∈ pre ++ b :: post)
    (hne : a ≠ b) : a ∈ pre ++ post := by
  rcases List.mem_append.mp h with h | h
  · exact List.mem_append_left _ h
  · exact List.mem_append_right _ (List.mem_of_ne_of_mem hne h)

/-- **One step** of the object goes into the accounts. -/
theorem Accounts.step {k : K} {seen : List (Event I C R E)} {s s' : Object I C R K}
    {str : List (K × Deed C R E)} {before : List (I × C)} {behind : List (I × Σ c, R c)}
    {e : Option (Event I C R E)} (h : Accounts one own k seen s str before behind)
    (hstep : Step one own s e s') :
    ∃ str' before' behind', Accounts one own k (seen ++ e.toList) s' str' before' behind' := by
  cases hstep with
  | @enter i c hidle =>
    have hentered : entered (seen ++ [.enter i c]) = entered seen ++ [c] := entered_append ..
    have hreturned : returned (seen ++ [.enter i c]) = returned seen :=
      (returned_append ..).trans (List.append_nil _)
    refine ⟨str, (i, c) :: before, behind, h.run, ?_, ?_, fun j c' hj => ?_, fun j c' r hj => ?_⟩
    · rw [Option.toList_some, hentered]
      refine (h.calls.append_right [c]).trans ?_
      rw [List.append_assoc]
      exact (List.perm_append_singleton c _).append_left _
    · rw [Option.toList_some, hreturned]
      exact h.results
    · rcases phases_move_eq hj with ⟨rfl, hphase⟩ | ⟨-, hphase⟩
      · obtain rfl := Phase.called.inj hphase
        exact List.mem_cons_self ..
      · exact List.mem_cons_of_mem _ (h.called j c' hphase)
    · rcases phases_move_eq hj with ⟨-, hphase⟩ | ⟨-, hphase⟩
      · cases hphase
      · exact h.served j c' r hphase
  | @commit i c r k' hcalled hone =>
    obtain ⟨pre, post, rfl⟩ := List.append_of_mem (h.called i c hcalled)
    have hrun : Run (Serial one own) k (str ++ [(s.shared, .inl ⟨c, r⟩)]) k' := h.run.snoc hone
    refine ⟨_, pre ++ post, (i, ⟨c, r⟩) :: behind, hrun, ?_, ?_, fun j c' hj => ?_,
      fun j c' r' hj => ?_⟩
    · have hmiddle := h.calls
      rw [List.map_append, List.map_cons] at hmiddle
      rw [Option.toList_none, List.append_nil, taken_inl, List.map_append, List.map_append,
        List.map_singleton, List.append_assoc]
      exact hmiddle.trans (List.perm_middle.append_left _)
    · rw [Option.toList_none, List.append_nil, taken_inl, List.map_cons]
      refine (h.results.append_right [⟨c, r⟩]).trans ?_
      rw [List.append_assoc]
      exact (List.perm_append_singleton _ _).append_left _
    · rcases phases_move_eq hj with ⟨-, hphase⟩ | ⟨hne, hphase⟩
      · cases hphase
      · exact mem_of_mem_middle (h.called j c' hphase) fun heq => hne (congrArg Prod.fst heq)
    · rcases phases_move_eq hj with ⟨rfl, hphase⟩ | ⟨-, hphase⟩
      · obtain ⟨rfl, hr⟩ := Phase.served.inj hphase
        rw [eq_of_heq hr]
        exact List.mem_cons_self ..
      · exact List.mem_cons_of_mem _ (h.served j c' r' hphase)
  | @leave i c r hserved =>
    have hentered : entered (seen ++ [.leave i c r]) = entered seen :=
      (entered_append ..).trans (List.append_nil _)
    have hreturned : returned (seen ++ [.leave i c r]) = returned seen ++ [⟨c, r⟩] :=
      returned_append ..
    obtain ⟨pre, post, rfl⟩ := List.append_of_mem (h.served i c r hserved)
    refine ⟨str, before, pre ++ post, h.run, ?_, ?_, fun j c' hj => ?_, fun j c' r' hj => ?_⟩
    · rw [Option.toList_some, hentered]
      exact h.calls
    · have hmiddle := h.results
      rw [List.map_append, List.map_cons] at hmiddle
      rw [Option.toList_some, hreturned, List.map_append, List.append_assoc]
      exact hmiddle.trans (List.perm_middle.append_left _)
    · rcases phases_move_eq hj with ⟨-, hphase⟩ | ⟨-, hphase⟩
      · cases hphase
      · exact h.called j c' hphase
    · rcases phases_move_eq hj with ⟨-, hphase⟩ | ⟨hne, hphase⟩
      · cases hphase
      · exact mem_of_mem_middle (h.served j c' r' hphase) fun heq => hne (congrArg Prod.fst heq)
  | @own e k' hown =>
    have hentered : entered (seen ++ [(.own e : Event I C R E)]) = entered seen :=
      (entered_append ..).trans (List.append_nil _)
    have hreturned : returned (seen ++ [(.own e : Event I C R E)]) = returned seen :=
      (returned_append ..).trans (List.append_nil _)
    have hrun : Run (Serial one own) k (str ++ [(s.shared, .inr e)]) k' := h.run.snoc hown
    refine ⟨_, before, behind, hrun, ?_, ?_, h.called, h.served⟩
    · rw [Option.toList_some, hentered, taken_inr]
      exact h.calls
    · rw [Option.toList_some, hreturned, taken_inr]
      exact h.results

/-- **Serial executions.** Every run of the object is made of calls that take place one after
the other. -/
theorem accounts {k : K} {s : Object I C R K}
    {tr : List (Object I C R K × Option (Event I C R E))}
    (h : Run (Step one own) (start k) tr s) :
    ∃ str before behind, Accounts one own k (history tr) s str before behind := by
  induction h with
  | nil =>
    exact ⟨[], [], [], .nil k, .refl _, .refl _, fun _ _ hphase => (by cases hphase),
      fun _ _ _ hphase => (by cases hphase)⟩
  | @snoc _ s' tr e hrun hstep ih =>
    obtain ⟨str, before, behind, haccounts⟩ := ih
    rw [history_append, history_singleton]
    exact haccounts.step hstep

/-! ## Counts -/

section Counts

omit [DecidableEq I]

variable {m : K → ℕ}

/-- What the calls of a serial execution add to a count, if each adds at most what `p` says. -/
theorem count_le {p : (Σ c, R c) → Bool}
    (hone : ∀ k c r k', one k c r k' → m k' ≤ m k + if p ⟨c, r⟩ then 1 else 0)
    (hown : ∀ k e k', own k e k' → m k' ≤ m k) {k k' : K} {str : List (K × Deed C R E)}
    (h : Run (Serial one own) k str k') : m k' ≤ m k + (taken str).countP p := by
  induction h with
  | nil => exact Nat.le_refl _
  | @snoc _ _ _ d _ hstep ih =>
    rcases d with ⟨c, r⟩ | e
    · have hlast := hone _ c r _ hstep
      rw [taken_inl, List.countP_append, List.countP_singleton]
      omega
    · rw [taken_inr]
      exact Nat.le_trans (hown _ e _ hstep) ih

/-- And if each adds at least that. -/
theorem count_ge {p : (Σ c, R c) → Bool}
    (hone : ∀ k c r k', one k c r k' → (m k + if p ⟨c, r⟩ then 1 else 0) ≤ m k')
    (hown : ∀ k e k', own k e k' → m k ≤ m k') {k k' : K} {str : List (K × Deed C R E)}
    (h : Run (Serial one own) k str k') : m k + (taken str).countP p ≤ m k' := by
  induction h with
  | nil => exact Nat.le_refl _
  | @snoc _ _ _ d _ hstep ih =>
    rcases d with ⟨c, r⟩ | e
    · have hlast := hone _ c r _ hstep
      rw [taken_inl, List.countP_append, List.countP_singleton]
      omega
    · rw [taken_inr]
      exact Nat.le_trans ih (hown _ e _ hstep)

/-- **At most**: a count grows by no more than the calls that were entered. -/
theorem Accounts.le {p : C → Bool}
    (hone : ∀ k c r k', one k c r k' → m k' ≤ m k + if p c then 1 else 0)
    (hown : ∀ k e k', own k e k' → m k' ≤ m k) {k : K} {seen : List (Event I C R E)}
    {s : Object I C R K} {str : List (K × Deed C R E)} {before : List (I × C)}
    {behind : List (I × Σ c, R c)} (h : Accounts one own k seen s str before behind) :
    m s.shared ≤ m k + (entered seen).countP p := by
  have hle := count_le (p := p ∘ Sigma.fst) hone hown h.run
  rw [h.calls.countP_eq, List.countP_append, List.countP_map]
  omega

/-- **At least**: it grows by the calls that have returned. -/
theorem Accounts.ge {p : (Σ c, R c) → Bool}
    (hone : ∀ k c r k', one k c r k' → (m k + if p ⟨c, r⟩ then 1 else 0) ≤ m k')
    (hown : ∀ k e k', own k e k' → m k ≤ m k') {k : K} {seen : List (Event I C R E)}
    {s : Object I C R K} {str : List (K × Deed C R E)} {before : List (I × C)}
    {behind : List (I × Σ c, R c)} (h : Accounts one own k seen s str before behind) :
    m k + (returned seen).countP p ≤ m s.shared := by
  have hge := count_ge hone hown h.run
  rw [h.results.countP_eq, List.countP_append] at hge
  omega

end Counts

end Object

end Commitment
