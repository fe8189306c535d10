import Mathlib.Tactic.Ring
import RemoteControl.Observers

/-!
# References: the books are balanced under every interleaving

What the implementation owes its observers, proved for every order of the steps
of `Observers.step`. The invariant `Observers.Inv` couples `_notifications` with
the snapshots of all dispatches that are still in flight: the references held on
an observer are its registration plus its unreleased snapshot entries.

* `register_cases`, `unregister_cases`, `observerSnapshot_eq`,
  `releaseObservers_eq` — what each critical section does, on vectors without
  null pointers.
* `Effect`, `effect_of_step` — everything one step can do, said once.
* `Inv.effect`, `Inv.run` — every effect keeps the invariant, hence every run.
-/

namespace RemoteControl

open Runs

variable {ν : Type} [DecidableEq ν]

namespace Observers

/-! ## What the critical sections do -/

/-- One more reference for every entry of a list. -/
def charge (s : Observers ν) (l : List (Option ν)) : Observers ν :=
  { s with refs := fun m => s.refs m + l.count (some m) }

/-- One reference less for every entry of a list. -/
def discharge (s : Observers ν) (l : List (Option ν)) : Observers ν :=
  { s with refs := fun m => s.refs m - l.count (some m) }

theorem charge_append (s : Observers ν) (l l' : List (Option ν)) :
    (s.charge l).charge l' = s.charge (l ++ l') := by
  simp only [charge, List.count_append, Nat.cast_add, add_assoc]

theorem discharge_append (s : Observers ν) (l l' : List (Option ν)) :
    (s.discharge l).discharge l' = s.discharge (l ++ l') := by
  simp only [discharge, List.count_append, Nat.cast_add, sub_sub]

theorem addRef_some (s : Observers ν) (n : ν) : s.addRef (some n) = s.charge [some n] := by
  rw [addRef, charge]
  congr 1
  funext m
  by_cases hm : m = n
  · subst hm; simp
  · have hne : ¬ n = m := fun h => hm h.symm
    simp [Function.update_of_ne hm, hne]

theorem releaseRef_some (s : Observers ν) (n : ν) :
    s.releaseRef (some n) = s.discharge [some n] := by
  rw [releaseRef, discharge]
  congr 1
  funext m
  by_cases hm : m = n
  · subst hm; simp
  · have hne : ¬ n = m := fun h => hm h.symm
    simp [Function.update_of_ne hm, hne]

/-- The loop of `ObserverSnapshot`, from any point on. -/
theorem foldl_snapshot (l : List (Option ν)) (hl : none ∉ l) :
    ∀ (seen : List (Option ν)) (s : Observers ν),
      l.foldl (fun (observers, s) n => (observers ++ [n], s.addRef n)) (seen, s) =
        (seen ++ l, s.charge l) := by
  induction l with
  | nil => intro seen s; simp [charge]
  | cons n rest ih =>
    intro seen s
    obtain ⟨m, rfl⟩ : ∃ m, n = some m :=
      Option.ne_none_iff_exists'.mp fun h => hl (h ▸ List.mem_cons_self ..)
    have hrest : none ∉ rest := fun h => hl (List.mem_cons_of_mem _ h)
    rw [List.foldl_cons, ih hrest, addRef_some, charge_append, List.append_assoc,
      List.singleton_append]

/-- `ObserverSnapshot` copies the vector and adds one reference per entry. -/
theorem observerSnapshot_eq {s : Observers ν} (h : none ∉ s.notifications) :
    s.observerSnapshot = (s.notifications, s.charge s.notifications) := by
  rw [observerSnapshot, foldl_snapshot _ h, List.nil_append]

/-- The loop of the destructor, from any point on. -/
theorem foldl_releaseRef (l : List (Option ν)) (hl : none ∉ l) :
    ∀ s : Observers ν,
      l.foldl (fun s n => if n ≠ none then s.releaseRef n else s) s = s.discharge l := by
  induction l with
  | nil => intro s; simp [discharge]
  | cons n rest ih =>
    intro s
    obtain ⟨m, rfl⟩ : ∃ m, n = some m :=
      Option.ne_none_iff_exists'.mp fun h => hl (h ▸ List.mem_cons_self ..)
    have hrest : none ∉ rest := fun h => hl (List.mem_cons_of_mem _ h)
    rw [List.foldl_cons, if_pos (by simp), ih hrest, releaseRef_some, discharge_append,
      List.singleton_append]

/-- The destructor's section gives back one reference per entry. -/
theorem releaseObservers_eq {s : Observers ν} (h : none ∉ s.notifications) :
    s.releaseObservers = { s.discharge s.notifications with notifications := [] } := by
  rw [releaseObservers, foldl_releaseRef _ h]

/-- `Register` either changes nothing or appends a new observer with a reference. -/
theorem register_cases (s : Observers ν) (n : Option ν) :
    ((n = none ∨ n ∈ s.notifications) ∧ (s.register n).2 = s) ∨
    ∃ m, n = some m ∧ some m ∉ s.notifications ∧
      (s.register n).2 =
        { s.charge [some m] with notifications := s.notifications ++ [some m] } := by
  rcases n with _ | m
  · exact Or.inl ⟨Or.inl rfl, rfl⟩
  · by_cases hm : some m ∈ s.notifications
    · exact Or.inl ⟨Or.inr hm, by simp [register, hm]⟩
    · exact Or.inr ⟨m, rfl, hm, by simp [register, hm, addRef_some, charge]⟩

/-- `Unregister` either changes nothing or removes an observer with a reference. -/
theorem unregister_cases (s : Observers ν) (n : Option ν) :
    ((n = none ∨ n ∉ s.notifications) ∧ (s.unregister n).2 = s) ∨
    ∃ m, n = some m ∧ some m ∈ s.notifications ∧
      (s.unregister n).2 =
        { s.discharge [some m] with notifications := s.notifications.erase (some m) } := by
  rcases n with _ | m
  · exact Or.inl ⟨Or.inl rfl, rfl⟩
  · by_cases hm : some m ∈ s.notifications
    · exact Or.inr ⟨m, rfl, hm, by simp [unregister, hm, releaseRef_some, discharge]⟩
    · exact Or.inl ⟨Or.inr hm, by simp [unregister, hm]⟩

/-! ## What one step can do -/

/-- How a dispatch moves on, and which entries it gives back in doing so. -/
inductive Moves : Action ν → ℕ → Dispatch ν → Dispatch ν → List (Option ν) → Prop where
  /-- into the next callback -/
  | enterCallback {d : ℕ} {D : Dispatch ν} {n : Option ν} :
      D.inCallback = false → D.observers[D.called]? = some n →
      Moves (.enterCallback d n) d D { D with called := D.called + 1, inCallback := true } []
  /-- out of the callback -/
  | leaveCallback {d : ℕ} {D : Dispatch ν} : D.inCallback = true →
      Moves (.leaveCallback d) d D { D with inCallback := false } []
  /-- past the next entry to release -/
  | release {d : ℕ} {D : Dispatch ν} {n : Option ν} : D.inCallback = false →
      D.called = D.observers.length → D.observers[D.released]? = some n →
      Moves (.release d) d D { D with released := D.released + 1 } [n]

/-- Everything one step can do to a state without null pointers. -/
inductive Effect (s : Observers ν) : Action ν → Observers ν → Prop where
  /-- `Register` of null or of a registered observer -/
  | known {c : Caller} {n : Option ν} : n = none ∨ n ∈ s.notifications →
      Effect s (.register c n) s
  /-- `Register` of a new observer -/
  | joined {c : Caller} {m : ν} : s.destroyed = false → some m ∉ s.notifications →
      Effect s (.register c (some m))
        { s.charge [some m] with notifications := s.notifications ++ [some m] }
  /-- `Unregister` of null or of a stranger -/
  | stranger {c : Caller} {n : Option ν} : n = none ∨ n ∉ s.notifications →
      Effect s (.unregister c n) s
  /-- `Unregister` of a registered observer -/
  | left {c : Caller} {m : ν} : some m ∈ s.notifications →
      Effect s (.unregister c (some m))
        { s.discharge [some m] with notifications := s.notifications.erase (some m) }
  /-- a new dispatch -/
  | taken {kind : EventKind} : s.destroyed = false →
      Effect s (.snapshot kind)
        { s.charge s.notifications with
          dispatches := s.dispatches ++ [{ kind, observers := s.notifications }] }
  /-- a dispatch moves on -/
  | moved {a : Action ν} {d : ℕ} {D D' : Dispatch ν} {back : List (Option ν)} :
      s.dispatches[d]? = some D → Moves a d D D' back →
      Effect s a { s.discharge back with dispatches := s.dispatches.set d D' }
  /-- the destructor -/
  | dismissed : s.destroyed = false →
      Effect s .destructor
        { s.discharge s.notifications with notifications := [], destroyed := true }

theorem discharge_nil (s : Observers ν) : s.discharge [] = s := by
  simp [discharge]

/-- **Inversion**: a step of a state without null pointers is one of the effects. -/
theorem effect_of_step {s t : Observers ν} {a : Action ν} (hnull : none ∉ s.notifications)
    (hsnap : ∀ D ∈ s.dispatches, none ∉ D.observers) (h : s.step a = some t) : s.Effect a t := by
  cases a with
  | register c n =>
    simp only [step, Option.ite_none_right_eq_some, Option.some.injEq, Bool.and_eq_true,
      Bool.not_eq_true'] at h
    obtain ⟨⟨hd, -⟩, rfl⟩ := h
    rcases s.register_cases n with ⟨hn, heq⟩ | ⟨m, rfl, hm, heq⟩ <;> rw [heq]
    · exact .known hn
    · exact .joined hd hm
  | unregister c n =>
    simp only [step, Option.ite_none_right_eq_some, Option.some.injEq] at h
    obtain ⟨-, rfl⟩ := h
    rcases s.unregister_cases n with ⟨hn, heq⟩ | ⟨m, rfl, hm, heq⟩ <;> rw [heq]
    · exact .stranger hn
    · exact .left hm
  | snapshot kind =>
    simp only [step, observerSnapshot_eq hnull, Option.ite_none_left_eq_some,
      Option.some.injEq] at h
    obtain ⟨hd, rfl⟩ := h
    exact .taken (by simpa using hd)
  | enterCallback d n =>
    rcases hD : s.dispatches[d]? with _ | D <;> simp only [step, hD] at h
    · cases h
    · simp only [Option.ite_none_right_eq_some, Option.some.injEq] at h
      obtain ⟨⟨hidle, hget⟩, rfl⟩ := h
      have hn : n ≠ none := fun hn =>
        hsnap D (List.mem_of_getElem? hD) (List.mem_of_getElem? (hn ▸ hget))
      have heq := Effect.moved hD (.enterCallback (d := d) hidle hget)
      rw [discharge_nil] at heq
      rwa [goThrough, if_neg hn]
  | leaveCallback d =>
    rcases hD : s.dispatches[d]? with _ | D <;> simp only [step, hD] at h
    · cases h
    · simp only [Option.ite_none_right_eq_some, Option.some.injEq] at h
      obtain ⟨hin, rfl⟩ := h
      have heq := Effect.moved hD (.leaveCallback (d := d) hin)
      rwa [discharge_nil] at heq
  | release d =>
    rcases hD : s.dispatches[d]? with _ | D <;> simp only [step, hD] at h
    · cases h
    · simp only [Option.ite_none_right_eq_some] at h
      obtain ⟨⟨hidle, hcalled⟩, h⟩ := h
      rcases hget : D.observers[D.released]? with _ | n <;> rw [hget] at h
      · cases h
      · obtain rfl := Option.some.inj h
        obtain ⟨m, rfl⟩ : ∃ m, n = some m := Option.ne_none_iff_exists'.mp fun hn =>
          hsnap D (List.mem_of_getElem? hD) (List.mem_of_getElem? (hn ▸ hget))
        rw [releaseRef_some]
        exact .moved hD (.release hidle hcalled hget)
  | destructor =>
    simp only [step, releaseObservers_eq hnull, Option.ite_none_left_eq_some,
      Option.some.injEq] at h
    obtain ⟨hd, rfl⟩ := h
    exact .dismissed (by simpa using hd)

end Observers

/-! ## The invariant -/

/-- Where the two loops of a `Notify*` function can be: the snapshot has no null
and no repetition, a callback runs only before the first release, and nothing is
released before everything is called. -/
structure Dispatch.Ok (D : Dispatch ν) : Prop where
  nonnull : none ∉ D.observers
  nodup : D.observers.Nodup
  called : D.called ≤ D.observers.length
  inside : D.inCallback = true → 0 < D.called ∧ D.released = 0
  order : 0 < D.released → D.called = D.observers.length
  released : D.released ≤ D.observers.length

namespace Observers

omit [DecidableEq ν] in
/-- A moving dispatch keeps its snapshot and stays in order, and what it gives
back is no longer owed. -/
theorem Moves.ok {a : Action ν} {d : ℕ} {D D' : Dispatch ν} {back : List (Option ν)}
    (h : Moves a d D D' back) (hD : D.Ok) :
    D'.Ok ∧ D'.observers = D.observers ∧ D'.kind = D.kind ∧
      D.unreleased = back ++ D'.unreleased := by
  cases h with
  | enterCallback hidle hget =>
    obtain ⟨hlt, -⟩ := List.getElem?_eq_some_iff.mp hget
    have hzero : D.released = 0 := by
      by_contra hne
      have := hD.order (Nat.pos_of_ne_zero hne)
      omega
    refine ⟨⟨hD.nonnull, hD.nodup, hlt, fun _ => ⟨Nat.succ_pos _, hzero⟩, ?_, hD.released⟩,
      rfl, rfl, rfl⟩
    intro hpos
    exact absurd hzero hpos.ne'
  | leaveCallback hin =>
    exact ⟨⟨hD.nonnull, hD.nodup, hD.called, fun h => absurd h (by simp), hD.order, hD.released⟩,
      rfl, rfl, rfl⟩
  | release hidle hcalled hget =>
    obtain ⟨hlt, hn⟩ := List.getElem?_eq_some_iff.mp hget
    refine ⟨⟨hD.nonnull, hD.nodup, hD.called, ?_, fun _ => hcalled, hlt⟩, rfl, rfl, ?_⟩
    · intro hin
      rw [hidle] at hin
      cases hin
    · rw [Dispatch.unreleased, Dispatch.unreleased, List.drop_eq_getElem_cons hlt, hn]
      rfl

/-- The unreleased snapshot entries for `n`, over all dispatches. -/
def outstanding (s : Observers ν) (n : ν) : ℕ :=
  (s.dispatches.map fun D => D.unreleased.count (some n)).sum

/-- **The books**: the vector holds real observers, each once; every dispatch is
in order; and the references held are the registrations plus the unreleased
snapshot entries. -/
structure Inv (s : Observers ν) : Prop where
  alive : s.crashed = false
  nonnull : none ∉ s.notifications
  nodup : s.notifications.Nodup
  dispatches : ∀ D ∈ s.dispatches, D.Ok
  refs : ∀ n, s.refs n = s.notifications.count (some n) + s.outstanding n
  destroyed : s.destroyed = true → s.notifications = []

theorem inv_fresh : (fresh : Observers ν).Inv where
  alive := rfl
  nonnull := List.not_mem_nil
  nodup := List.nodup_nil
  dispatches := fun _ h => absurd h List.not_mem_nil
  refs := fun _ => rfl
  destroyed := fun _ => rfl

/-- Replacing one summand. -/
theorem sum_map_set {α : Type} (f : α → ℕ) :
    ∀ {l : List α} {i : ℕ} {a b : α}, l[i]? = some a →
      ((l.set i b).map f).sum + f a = (l.map f).sum + f b
  | [], _, _, _, h => by simp at h
  | x :: l, 0, a, b, h => by
    obtain rfl := Option.some.inj h
    simp only [List.set_cons_zero, List.map_cons, List.sum_cons]
    omega
  | x :: l, i + 1, a, b, h => by
    have ih := sum_map_set f (l := l) (b := b) (by simpa using h)
    simp only [List.set_cons_succ, List.map_cons, List.sum_cons]
    omega

/-- A dispatch that moves on owes exactly what it has not just given back. -/
theorem outstanding_set {s : Observers ν} {a : Action ν} {d : ℕ} {D D' : Dispatch ν}
    {back : List (Option ν)} (hget : s.dispatches[d]? = some D) (hm : Moves a d D D' back)
    (hD : D.Ok) (n : ν) :
    (outstanding { s.discharge back with dispatches := s.dispatches.set d D' } n : ℤ) =
      s.outstanding n - back.count (some n) := by
  have hsum := sum_map_set (fun D => D.unreleased.count (some n)) (b := D') hget
  have hback : D.unreleased.count (some n) =
      back.count (some n) + D'.unreleased.count (some n) := by
    rw [(hm.ok hD).2.2.2, List.count_append]
  simp only [outstanding]
  omega

/-- **Step lemma**: every effect keeps the books balanced. -/
theorem Inv.effect {s t : Observers ν} {a : Action ν} (hs : s.Inv) (h : s.Effect a t) :
    t.Inv := by
  cases h with
  | known _ => exact hs
  | stranger _ => exact hs
  | @joined c m hd hm =>
    refine ⟨hs.alive, ?_, ?_, hs.dispatches, fun n => ?_, ?_⟩
    · simpa using hs.nonnull
    · refine List.nodup_append.mpr ⟨hs.nodup, List.nodup_singleton _, fun x hx y hy => ?_⟩
      obtain rfl := List.mem_singleton.mp hy
      exact fun hxy => hm (hxy ▸ hx)
    · have href := hs.refs n
      simp only [charge, outstanding, List.count_append, Nat.cast_add] at href ⊢
      omega
    · intro hd'
      rw [show s.destroyed = true from hd'] at hd
      cases hd
  | @left c m hm =>
    have hcount : ∀ n, (s.notifications.erase (some m)).count (some n) + [some m].count (some n) =
        s.notifications.count (some n) := by
      intro n
      rw [← List.count_append]
      refine List.Perm.count_eq ?_ _
      exact (List.perm_append_comm).trans (List.perm_cons_erase hm).symm
    refine ⟨hs.alive, fun h => hs.nonnull (List.mem_of_mem_erase h), hs.nodup.erase _,
      hs.dispatches, fun n => ?_, fun hd => ?_⟩
    · have href := hs.refs n
      have hc := hcount n
      simp only [discharge, outstanding] at href ⊢
      omega
    · have hnil := hs.destroyed hd
      rw [hnil] at hm
      cases hm
  | @taken kind hd =>
    refine ⟨hs.alive, hs.nonnull, hs.nodup, fun D hD => ?_, fun n => ?_, ?_⟩
    · rcases List.mem_append.mp hD with hD | hD
      · exact hs.dispatches D hD
      · obtain rfl := List.mem_singleton.mp hD
        exact ⟨hs.nonnull, hs.nodup, Nat.zero_le _, fun h => by simp at h, fun h => by simp at h,
          Nat.zero_le _⟩
    · have href := hs.refs n
      simp only [charge, outstanding, List.map_append, List.map_cons, List.map_nil,
        List.sum_append, List.sum_cons, List.sum_nil, Dispatch.unreleased, List.drop_zero,
        Nat.cast_add] at href ⊢
      omega
    · intro hd'
      rw [show s.destroyed = true from hd'] at hd
      cases hd
  | @moved a d D D' back hget hm =>
    have hD := hs.dispatches D (List.mem_of_getElem? hget)
    refine ⟨hs.alive, hs.nonnull, hs.nodup, fun E hE => ?_, fun n => ?_, hs.destroyed⟩
    · rcases List.mem_or_eq_of_mem_set hE with hE | rfl
      · exact hs.dispatches E hE
      · exact (hm.ok hD).1
    · have href := hs.refs n
      rw [outstanding_set hget hm hD n]
      simp only [discharge]
      omega
  | dismissed hd =>
    refine ⟨hs.alive, List.not_mem_nil, List.nodup_nil, hs.dispatches, fun n => ?_, fun _ => rfl⟩
    have href := hs.refs n
    simp only [discharge, outstanding, List.count_nil] at href ⊢
    omega

/-- A step of a state in order is one of the effects. -/
theorem Inv.effect_of_step {s t : Observers ν} {a : Action ν} (hs : s.Inv)
    (h : s.step a = some t) : s.Effect a t :=
  Observers.effect_of_step hs.nonnull (fun D hD => (hs.dispatches D hD).nonnull) h

theorem Inv.step {s t : Observers ν} {a : Action ν} (hs : s.Inv) (h : s.Steps a t) : t.Inv :=
  hs.effect (hs.effect_of_step h)

/-- **Run lemma**: the books are balanced after every run. -/
theorem Inv.run {s t : Observers ν} {tr : List (Observers ν × Action ν)} (hs : s.Inv)
    (h : Run Steps s tr t) : t.Inv :=
  h.invariant (fun _ _ _ hs hst => Inv.step hs hst) hs

end Observers

end RemoteControl
