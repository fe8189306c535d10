import RemoteControl.References

/-!
# Delivery: who is called, in which order

The second half of the observer story. The first half balances the references;
here the vector of pointers is connected to what it stands for, the `Roster` of
the subscription history, and every dispatch to the snapshot it took.

* `Effect.refines`, `notifications_run` — the vector is the roster of its
  history, so "registered at that moment" has a meaning without the vector.
* `calls_run`, `calls_before` — a dispatch works through its own snapshot, from
  the first entry on, and nothing else.
* `observers_balanced` — the law of registration and dispatch, for every
  interleaving.
-/

namespace RemoteControl

open Runs

variable {ν : Type} [DecidableEq ν]

namespace Observers

/-! ## The vector is the roster of the subscription history -/

/-- What an action means for the roster of subscribers. -/
def changeOf : Action ν → Option (Roster.Change ν)
  | .register _ (some n) => some (.join n)
  | .unregister _ (some n) => some (.leave n)
  | .destructor => some .clear
  | _ => none

/-- The observers that are registered after a history of steps, in registration
order. -/
def registered (tr : List (Observers ν × Action ν)) : List (Option ν) :=
  (Roster.after (tr.filterMap fun p => changeOf p.2)).members.map some

/-- **Refinement, one step**: the vector follows the roster. -/
theorem Effect.refines {s t : Observers ν} {a : Action ν} {r : Roster ν} (h : s.Effect a t)
    (hr : s.notifications = r.members.map some) :
    t.notifications = ((changeOf a).toList.foldl Roster.change r).members.map some := by
  have hmem : ∀ n, some n ∈ s.notifications ↔ n ∈ r.members := fun n => by simp [hr]
  cases h with
  | known hn =>
    rename_i c n
    rcases n with _ | n
    · exact hr
    · have hn' : n ∈ r.members := (hmem n).mp (by simpa using hn)
      simpa [changeOf, Roster.change, Roster.join_of_mem hn'] using hr
  | @joined c m hd hm =>
    have hm' : m ∉ r.members := fun h => hm ((hmem m).mpr h)
    simp [changeOf, Roster.change, Roster.members_join_of_not_mem hm', hr]
  | stranger hn =>
    rename_i c n
    rcases n with _ | n
    · exact hr
    · have hn' : n ∉ r.members := fun h => (by simpa using hn : some n ∉ s.notifications)
        ((hmem n).mpr h)
      simpa [changeOf, Roster.change, List.erase_of_not_mem hn'] using hr
  | @left c m hm =>
    simp only [changeOf, Option.toList_some, List.foldl_cons, List.foldl_nil, Roster.change,
      Roster.members_leave, hr]
    rw [List.map_erase (Option.some_injective ν)]
  | taken hd => exact hr
  | moved hget hm => cases hm <;> exact hr
  | dismissed hd => rfl

/-- **Refinement**: after every run the vector is the roster of its history. -/
theorem notifications_run {s : Observers ν} {tr : List (Observers ν × Action ν)}
    (h : Run Steps fresh tr s) : s.notifications = registered tr := by
  induction h with
  | nil => rfl
  | snoc hrun hst ih =>
    have heff := (inv_fresh.run hrun).effect_of_step hst
    rw [heff.refines ih, registered, List.filterMap_append, Roster.after_append]
    simp only [List.filterMap_cons, List.filterMap_nil]
    rcases changeOf _ <;> rfl

/-! ## A dispatch works through its own snapshot -/

/-- The callbacks dispatch `d` entered in a run, in order. -/
def calls (d : ℕ) (tr : List (Observers ν × Action ν)) : List (Option ν) :=
  tr.filterMap fun p =>
    match p.2 with
    | .enterCallback e n => if e = d then some n else none
    | _ => none

omit [DecidableEq ν] in
/-- A step to which no callback of `d` belongs. -/
theorem calls_snoc_of_ne {d : ℕ} {tr : List (Observers ν × Action ν)} {t : Observers ν}
    {a : Action ν} (h : ∀ n, a ≠ .enterCallback d n) : calls d (tr ++ [(t, a)]) = calls d tr := by
  rw [calls, List.filterMap_append]
  cases a with
  | enterCallback e n =>
    have hne : e ≠ d := fun he => h n (he ▸ rfl)
    simp [calls, hne]
  | _ => simp [calls]

omit [DecidableEq ν] in
theorem calls_snoc_enterCallback (d : ℕ) (tr : List (Observers ν × Action ν)) (t : Observers ν)
    (n : Option ν) : calls d (tr ++ [(t, .enterCallback d n)]) = calls d tr ++ [n] := by
  simp [calls, List.filterMap_append]

/-- Other steps leave dispatch `d` where it is. -/
theorem Effect.dispatch {s t : Observers ν} {a : Action ν} {d : ℕ} {D : Dispatch ν}
    (h : s.Effect a t) (hget : s.dispatches[d]? = some D) :
    t.dispatches[d]? = some D ∨
      ∃ D' back, Moves a d D D' back ∧ t.dispatches[d]? = some D' := by
  have hlt : d < s.dispatches.length := (List.getElem?_eq_some_iff.mp hget).1
  cases h with
  | taken hd => exact Or.inl (by rw [List.getElem?_append_left hlt]; exact hget)
  | @moved a e E E' back hE hm =>
    by_cases he : e = d
    · subst he
      obtain rfl := Option.some.inj (hE.symm.trans hget)
      exact Or.inr ⟨E', back, hm, List.getElem?_set_self hlt⟩
    · exact Or.inl (by rw [List.getElem?_set_ne he]; exact hget)
  | _ => exact Or.inl hget

/-- From its snapshot on, the callbacks of a dispatch are the entries of that
snapshot, from the first one up to where the loop is. -/
theorem calls_run {t s : Observers ν} {d : ℕ} {D₀ : Dispatch ν}
    {tr : List (Observers ν × Action ν)} (ht : t.Inv) (hget : t.dispatches[d]? = some D₀)
    (h : Run Steps t tr s) :
    ∃ D, s.dispatches[d]? = some D ∧ D.observers = D₀.observers ∧ D.kind = D₀.kind ∧
      D₀.observers.take D₀.called ++ calls d tr = D.observers.take D.called := by
  induction h with
  | nil => exact ⟨D₀, hget, rfl, rfl, by simp [calls]⟩
  | @snoc u s tr a hrun hst ih =>
    obtain ⟨D, hD, hobs, hkind, hcalls⟩ := ih
    have hu := ht.run hrun
    have hOk := hu.dispatches D (List.mem_of_getElem? hD)
    by_cases ha : ∃ n, a = .enterCallback d n
    -- the loop of `d` enters the next callback
    · obtain ⟨n, rfl⟩ := ha
      obtain ⟨D', hset, hmove⟩ : ∃ D', s.dispatches[d]? = some D' ∧
          Moves (.enterCallback d n) d D D' [] := by
        have heff := hu.effect_of_step hst
        cases heff with
        | moved hE hm =>
          cases hm with
          | enterCallback hidle hn =>
            obtain rfl := Option.some.inj (hE.symm.trans hD)
            exact ⟨_, List.getElem?_set_self (List.getElem?_eq_some_iff.mp hD).1,
              .enterCallback hidle hn⟩
      cases hmove with
      | enterCallback hidle hn =>
        refine ⟨_, hset, hobs, hkind, ?_⟩
        rw [calls_snoc_enterCallback, ← List.append_assoc, hcalls, List.take_add_one, hn]
        rfl
    -- any other step leaves the calls of `d` alone
    · have hne : ∀ n, a ≠ .enterCallback d n := fun n hn => ha ⟨n, hn⟩
      rw [calls_snoc_of_ne hne]
      rcases (hu.effect_of_step hst).dispatch hD with hsame | ⟨D', back, hm, hset⟩
      · exact ⟨D, hsame, hobs, hkind, hcalls⟩
      · refine ⟨D', hset, ?_⟩
        cases hm with
        | enterCallback _ _ => exact absurd rfl (hne _)
        | leaveCallback _ => exact ⟨hobs, hkind, hcalls⟩
        | release _ _ _ => exact ⟨hobs, hkind, hcalls⟩

/-- Before a dispatch exists, it makes no callbacks. -/
theorem calls_before {s : Observers ν} {tr : List (Observers ν × Action ν)}
    (h : Run Steps fresh tr s) : ∀ d, s.dispatches.length ≤ d → calls d tr = [] := by
  induction h with
  | nil => exact fun _ _ => rfl
  | @snoc u s tr a hrun hst ih =>
    intro d hd
    have heff := (inv_fresh.run hrun).effect_of_step hst
    have hlen : u.dispatches.length ≤ s.dispatches.length := by
      cases heff with
      | taken _ => simp
      | moved _ _ => simp
      | _ => exact le_refl _
    rw [calls_snoc_of_ne, ih d (hlen.trans hd)]
    rintro n rfl
    cases heff with
    | moved hE hm =>
      cases hm with
      | enterCallback _ _ =>
        have := (List.getElem?_eq_some_iff.mp hE).1
        omega

/-! ## The theorem -/

/-- The callback of dispatch `d` that is running is one on `n`. -/
def RunsOn (s : Observers ν) (d : ℕ) (n : ν) : Prop :=
  ∃ D, s.dispatches[d]? = some D ∧ D.inCallback = true ∧
    D.observers[D.called - 1]? = some (some n)

/-- While a callback runs on `n`, its own snapshot entry keeps `n` referenced. -/
theorem Inv.one_le_refs {s : Observers ν} {d : ℕ} {n : ν} (hs : s.Inv) (h : s.RunsOn d n) :
    1 ≤ s.refs n := by
  obtain ⟨D, hget, hin, hn⟩ := h
  have hD := List.mem_of_getElem? hget
  have hmem : some n ∈ D.unreleased := by
    rw [Dispatch.unreleased, ((hs.dispatches D hD).inside hin).2, List.drop_zero]
    exact List.mem_of_getElem? hn
  have hone : 1 ≤ s.outstanding n :=
    (Nat.succ_le_of_lt (List.count_pos_iff.mpr hmem)).trans
      (List.le_sum_of_mem (List.mem_map_of_mem (f := fun D => D.unreleased.count (some n)) hD))
  have := hs.refs n
  omega

end Observers

open Observers in
/-- **Registration and dispatch, under every interleaving.** After any run of
`Register`, `Unregister` (also from inside callbacks), dispatches and the
destructor, in any order:

1. no null pointer is gone through, and `_notifications` never holds null or the
   same pointer twice;
2. the references held on `n` are its registration plus its unreleased snapshot
   entries, so never negative, and at least one while a callback runs on `n`;
3. each dispatch calls the observers that were registered when its snapshot was
   taken, each once and in registration order: a part of them from the first one
   on, and all of them when it is over;
4. once the destructor has run and no dispatch is in flight, none is left. -/
theorem observers_balanced {s : Observers ν} {tr : List (Observers ν × Action ν)}
    (h : Run Steps fresh tr s) :
    (s.crashed = false ∧ none ∉ s.notifications ∧ s.notifications.Nodup) ∧
    (∀ n, s.refs n = (if some n ∈ s.notifications then 1 else 0) + s.outstanding n ∧
      0 ≤ s.refs n ∧ ∀ d, s.RunsOn d n → 1 ≤ s.refs n) ∧
    (∀ pre post t kind, tr = pre ++ (t, .snapshot kind) :: post →
      ∃ D, s.dispatches[t.dispatches.length]? = some D ∧ D.kind = kind ∧
        (registered pre).Nodup ∧
        calls t.dispatches.length tr = (registered pre).take D.called ∧
        (D.finished → calls t.dispatches.length tr = registered pre)) ∧
    (s.destroyed = true → (∀ D ∈ s.dispatches, D.finished) → ∀ n, s.refs n = 0) := by
  have hs : s.Inv := inv_fresh.run h
  refine ⟨⟨hs.alive, hs.nonnull, hs.nodup⟩, fun n => ⟨?_, ?_, fun d => hs.one_le_refs⟩, ?_, ?_⟩
  · rw [hs.refs n]
    by_cases hn : some n ∈ s.notifications
    · rw [if_pos hn, List.count_eq_one_of_mem hs.nodup hn, Nat.cast_one]
    · rw [if_neg hn, List.count_eq_zero.mpr hn, Nat.cast_zero]
  · have := hs.refs n
    omega
  · rintro pre post t kind rfl
    obtain ⟨t', hpre, hst, hpost⟩ := h.at_entry
    have ht := inv_fresh.run hpre
    have hreg := notifications_run hpre
    obtain ⟨-, rfl⟩ : _ ∧ t' = _ := by
      have heff := ht.effect_of_step hst
      cases heff with
      | taken hd => exact ⟨hd, rfl⟩
      | moved _ hm => cases hm
    obtain ⟨D, hget, hobs, hkind, hcalls⟩ :=
      calls_run (ht.step hst) (List.getElem?_concat_length ..) hpost
    have hobs : D.observers = t.notifications := hobs
    have hcalls : calls t.dispatches.length post = D.observers.take D.called := hcalls
    have hall : calls t.dispatches.length (pre ++ (t, .snapshot kind) :: post) =
        (registered pre).take D.called := by
      rw [List.append_cons, calls, List.filterMap_append, ← calls, ← calls,
        calls_snoc_of_ne (by simp), calls_before hpre _ (le_refl _), List.nil_append, hcalls,
        hobs, hreg]
    refine ⟨D, hget, hkind, hreg ▸ ht.nodup, hall, fun hfin => ?_⟩
    rw [hall, ← hreg, hfin.1, hobs, List.take_length]
  · intro hd hfin n
    have hout : s.outstanding n = 0 := by
      refine List.sum_eq_zero fun c hc => ?_
      obtain ⟨D, hD, rfl⟩ := List.mem_map.mp hc
      rw [Dispatch.unreleased, (hfin D hD).2.2, List.drop_length, List.count_nil]
    have := hs.refs n
    rw [hs.destroyed hd, hout] at this
    simpa using this

/-- A run with a nested call: while dispatch `0` calls observer `1`, that observer
unregisters observer `2`, which is called all the same. -/
def unregisterFromCallback : List (Observers.Action ℕ) :=
  [.register .client (some 1), .register .client (some 2), .register .client (some 1),
    .snapshot .status, .enterCallback 0 (some 1), .unregister (.callback 0) (some 2),
    .leaveCallback 0, .enterCallback 0 (some 2)]

open Observers in
/-- The law at the end of that run: observer `2` is called although it is no longer
registered, on the reference its snapshot entry holds. -/
theorem observers_balanced_reentrant :
    ∃ (s : Observers ℕ) (tr : List (Observers ℕ × Action ℕ)),
      follow advance fresh unregisterFromCallback = some (tr, s) ∧
      some 2 ∉ s.notifications ∧ s.RunsOn 0 2 ∧ 1 ≤ s.refs 2 := by
  obtain ⟨⟨tr, s⟩, hs⟩ : ∃ p, follow advance fresh unregisterFromCallback = some p := ⟨_, rfl⟩
  have hrun : Run Steps fresh tr s := by
    refine Run.of_follow (fun _ _ _ _ hm => ?_) hs
    exact steps_of_advance hm
  have hon : s.RunsOn 0 2 := by
    obtain ⟨-, rfl⟩ := Prod.mk.inj (Option.some.inj hs)
    exact ⟨_, rfl, rfl, rfl⟩
  refine ⟨s, tr, hs, ?_, hon, ((observers_balanced hrun).2.1 2).2.2 0 hon⟩
  obtain ⟨-, rfl⟩ := Prod.mk.inj (Option.some.inj hs)
  decide

end RemoteControl
