import Mathlib.Data.List.Basic
import Mathlib.Tactic.Ring
import RemoteControl.Sections

/-!
# Critical: what the sections do

The sections of `_adminLock`, run by one thread with nobody in between: they do
what the functions of `Observers` do in one step, and everywhere in them no
pointer or position is gone through that is not there.

* `Mid` — what holds in the middle of a section.
* `wlp_insert`, `wlp_remove`, `wlp_copy` — the code between `Lock` and `Unlock`.
* `section_answered`, `section_snapshot` — the same from `Lock` to `Unlock`, for a thread
  that is anywhere on the way.
-/

namespace RemoteControl

open Interaction Locks Runs

namespace Threaded

variable {ν : Type} [DecidableEq ν]

/-! ## What the sections do -/

/-- What holds everywhere in a section that was entered at `k₀`: nothing was gone through
that is not there, and at most the reference of the registration is given back. -/
structure Mid (k₀ k : Shared ν) : Prop where
  alive : k.crashed = false
  refs : ∀ m, k₀.refs m - k₀.notifications.count (some m) ≤ k.refs m

/-- The side condition of a section: it is not left, and `Mid` holds. -/
def InSection (k₀ k : Shared ν) (o : Op ν) : Prop :=
  access o ≠ .release ∧ Mid k₀ k

/-- Going to a position that is there. -/
theorem wlp_deref {k₀ k : Shared ν} (hk : Mid k₀ k) {it : ℕ} {n : Option ν}
    (hn : k.notifications[it]? = some n) {Q : Option ν → Shared ν → Prop} (hQ : Q n k) :
    machine.wlp (InSection k₀) (perform (.deref it)) Q k := by
  refine ⟨⟨by simp [access], hk⟩, fun x hx => ?_⟩
  obtain rfl : x = n := hx n hn
  have hlt := (List.getElem?_eq_some_iff.mp hn).1
  have hnext : machine.next k (.deref it) x = k := if_pos hlt
  rwa [hnext]

/-- `std::find` finds the first position of `n`, and otherwise stops at the end. -/
theorem wlp_find {k₀ k : Shared ν} (hk : Mid k₀ k) {n : Option ν} {Q : ℕ → Shared ν → Prop} :
    ∀ rest it, it + rest = k.notifications.length →
      Q (it + (k.notifications.drop it).idxOf n) k →
      machine.wlp (InSection k₀) (find n rest it) Q k
  | 0, it, hlen, hQ => by
    rwa [List.drop_of_length_le (by omega), List.idxOf_nil, Nat.add_zero] at hQ
  | rest + 1, it, hlen, hQ => by
    have hlt : it < k.notifications.length := by omega
    rw [List.drop_eq_getElem_cons hlt] at hQ
    refine (Machine.wlp_bind _ _ _ _).mpr (wlp_deref hk (List.getElem?_eq_getElem hlt) ?_)
    by_cases h : k.notifications[it] = n
    · simp only [if_pos h]
      rwa [List.idxOf_cons_eq _ h] at hQ
    · simp only [if_neg h]
      refine wlp_find hk rest (it + 1) (by omega) ?_
      rw [List.idxOf_cons_ne _ h] at hQ
      rwa [show it + 1 + _ = it + Nat.succ _ from Nat.add_right_comm it 1 _]

/-! ## The three sections -/

variable {s : Observers ν}

theorem mid_start (hs : s.Inv) : Mid s.shared s.shared where
  alive := hs.alive
  refs := fun _ => sub_le_self _ (Int.natCast_nonneg _)

/-- One more reference keeps the middle. -/
theorem Mid.addRef {k₀ k : Shared ν} (h : Mid k₀ k) (n : ν) : Mid k₀ (k.addRef (some n)) where
  alive := h.alive
  refs := fun m => by
    have := h.refs m
    by_cases hm : m = n
    · subst hm
      simp only [Shared.addRef, Function.update_self]
      omega
    · simpa [Shared.addRef, Function.update_of_ne hm] using this

/-- The sections of `Register` and `Unregister` begin with looking for the observer. -/
theorem wlp_located (hs : s.Inv) (n : Option ν) {body : ℕ → ℕ → Code ν Unit}
    {Q : Unit → Shared ν → Prop}
    (h : machine.wlp (InSection s.shared)
      (body s.notifications.length (s.notifications.idxOf n)) Q s.shared) :
    machine.wlp (InSection s.shared)
      (perform .last >>= fun last => find n last 0 >>= body last) Q s.shared := by
  have hmid := mid_start hs
  refine (Machine.wlp_bind _ _ _ _).mpr ⟨⟨by simp [access], hmid⟩, ?_⟩
  rintro _ rfl
  refine (Machine.wlp_bind _ _ _ _).mpr (wlp_find hmid _ _ (Nat.zero_add _) ?_)
  rwa [Nat.zero_add, List.drop_zero]

/-- The section of `Register` does what `Observers.register` does. -/
theorem wlp_insert (hs : s.Inv) (m : ν) :
    machine.wlp (InSection s.shared) (insert (some m))
      (fun _ k => Mid s.shared k ∧ k = (s.register (some m)).2.shared) s.shared := by
  have hmid := mid_start hs
  refine wlp_located hs _ (wlp_ite (fun h => ?_) fun h => ?_)
  · have hm : some m ∉ s.notifications := List.idxOf_eq_length_iff.mp h
    refine ⟨⟨by simp [access], hmid⟩, fun _ _ => ⟨⟨by simp [access], hmid.addRef m⟩, ?_⟩⟩
    exact fun _ _ => ⟨⟨hs.alive, (hmid.addRef m).refs⟩, by simp [Observers.register, hm]; rfl⟩
  · have hm : some m ∈ s.notifications := not_not.mp (mt List.idxOf_eq_length_iff.mpr h)
    exact ⟨hmid, by simp [Observers.register, hm]⟩

/-- The section of `Unregister` does what `Observers.unregister` does. -/
theorem wlp_remove (hs : s.Inv) (m : ν) :
    machine.wlp (InSection s.shared) (remove (some m))
      (fun _ k => Mid s.shared k ∧ k = (s.unregister (some m)).2.shared) s.shared := by
  have hmid := mid_start hs
  refine wlp_located hs _ (wlp_ite (fun h => ?_) fun h => ?_)
  · have hm : some m ∈ s.notifications := not_not.mp (mt List.idxOf_eq_length_iff.mpr h)
    have hlt : s.notifications.idxOf (some m) < s.notifications.length :=
      List.idxOf_lt_length_of_mem hm
    have hget : s.notifications[s.notifications.idxOf (some m)]? = some (some m) := by
      rw [List.getElem?_eq_getElem hlt, List.getElem_idxOf hlt]
    have hrelease : Mid s.shared (s.shared.releaseRef (some m)) := by
      refine ⟨hs.alive, fun n => ?_⟩
      by_cases hn : n = m
      · subst hn
        have hpos := List.count_pos_iff.mpr hm
        simp only [Shared.releaseRef, Function.update_self, Observers.shared]
        omega
      · simp [Shared.releaseRef, Function.update_of_ne hn]
    refine (Machine.wlp_bind _ _ _ _).mpr (wlp_deref hmid hget ?_)
    refine ⟨⟨by simp [access], hmid⟩, fun _ _ => ⟨⟨by simp [access], hrelease⟩, fun _ _ => ?_⟩⟩
    have hnext : machine.next (s.shared.releaseRef (some m))
        (.erase (s.notifications.idxOf (some m))) () =
        { s.shared.releaseRef (some m) with notifications := s.notifications.erase (some m) } := by
      have hgo : (s.shared.releaseRef (some m)).goTo (s.notifications.idxOf (some m)) =
          s.shared.releaseRef (some m) := if_pos hlt
      rw [List.erase_eq_eraseIdx_of_idxOf rfl]
      simp only [next, hgo]
      rfl
    refine ⟨?_, ?_⟩
    · exact hnext ▸ ⟨hrelease.alive, hrelease.refs⟩
    · exact hnext.trans (by simp [Observers.unregister, hm]; rfl)
  · have hm : some m ∉ s.notifications := List.idxOf_eq_length_iff.mp (not_not.mp h)
    exact ⟨hmid, by simp [Observers.unregister, hm]⟩

/-- One more reference for every entry of a list. -/
def charge (k : Shared ν) (l : List (Option ν)) : Shared ν :=
  ⟨k.notifications, fun m => k.refs m + l.count (some m), k.crashed⟩

theorem charge_nil (k : Shared ν) : charge k [] = k := by
  simp [charge]

theorem charge_cons (k : Shared ν) (n : ν) (l : List (Option ν)) :
    charge (k.addRef (some n)) l = charge k (some n :: l) := by
  simp only [charge, Shared.addRef, List.count_cons]
  congr 1
  funext m
  by_cases hm : m = n
  · subst hm
    simp only [Function.update_self, BEq.rfl, if_pos, Nat.cast_add, Nat.cast_one]
    ring
  · simp [Function.update_of_ne hm, Ne.symm hm]

/-- The loop of `ObserverSnapshot` copies what is left and adds a reference for each. -/
theorem wlp_copy {k₀ : Shared ν} :
    ∀ (rest it : ℕ) (observers : List (Option ν)) (k : Shared ν), Mid k₀ k →
      none ∉ k.notifications → it + rest = k.notifications.length →
      machine.wlp (InSection k₀) (copy rest it observers)
        (fun l k' => Mid k₀ k' ∧ l = observers ++ k.notifications.drop it ∧
          k' = charge k (k.notifications.drop it)) k
  | 0, it, observers, k, hk, _, hlen => by
    rw [List.drop_of_length_le (by omega), charge_nil]
    exact ⟨hk, (List.append_nil _).symm, rfl⟩
  | rest + 1, it, observers, k, hk, hnull, hlen => by
    have hlt : it < k.notifications.length := by omega
    obtain ⟨n, hn⟩ : ∃ n, k.notifications[it] = some n := Option.ne_none_iff_exists'.mp
      fun h => hnull (h ▸ List.getElem_mem hlt)
    have hget : k.notifications[it]? = some (some n) := by
      rw [List.getElem?_eq_getElem hlt, hn]
    have hdrop : k.notifications.drop it = some n :: k.notifications.drop (it + 1) := by
      rw [List.drop_eq_getElem_cons hlt, hn]
    refine (Machine.wlp_bind _ _ _ _).mpr (wlp_deref hk hget ?_)
    refine ⟨⟨by simp [access], hk⟩, fun _ _ => ?_⟩
    refine Machine.wlp_post (wlp_copy rest (it + 1) _ (k.addRef (some n)) (hk.addRef n) hnull
      (by simp only [Shared.addRef]; omega)) ?_
    rintro l k' ⟨hmid, rfl, rfl⟩
    rw [hdrop]
    exact ⟨hmid, List.append_assoc .., charge_cons k n _⟩

/-- The section of `ObserverSnapshot` does what `Observers.observerSnapshot` does. -/
theorem wlp_snapshot (hs : s.Inv) :
    machine.wlp (InSection s.shared) (perform .last >>= fun last => copy last 0 [])
      (fun l k => Mid s.shared k ∧ l = s.notifications ∧
        k = (s.charge s.notifications).shared) s.shared := by
  refine (Machine.wlp_bind _ _ _ _).mpr ⟨⟨by simp [access], mid_start hs⟩, ?_⟩
  rintro _ rfl
  exact wlp_copy _ 0 [] s.shared (mid_start hs) hs.nonnull (Nat.zero_add _)

/-! ## Threads on their way through a section -/

/-- What stands at the end of a section: `Unlock`, with `rest` behind it. -/
def EndsIn {α : Type} (part : LockedPart ν) (Q : Code ν α → Shared ν → Prop) :
    (o : Op ν) → (o.Answer → Code ν α) → Shared ν → Prop
  | .unlock part', f, k => part' = part ∧ Q (f ()) k
  | _, _, _ => False

/-- From `Lock` to `Unlock`: the middle holds everywhere, and `Q` where it ends. -/
abbrev Section {α : Type} (k₀ : Shared ν) (part : LockedPart ν) (Q : Code ν α → Shared ν → Prop)
    (p : Code ν α) (k : Shared ν) : Prop :=
  upto machine access (fun k _ => Mid k₀ k)
    (EndsIn part fun rest k => Mid k₀ k ∧ Q rest k) p k

/-- A section is entered with `Lock` and left with `Unlock`. -/
theorem section_locked {α β : Type} {part : LockedPart ν} {p : Code ν α} {g : α → Code ν β}
    {k : Shared ν} {Q : Code ν β → Shared ν → Prop} (hmid : Mid k k)
    (h : machine.wlp (InSection k) p (fun a k' => Mid k k' ∧ Q (g a) k') k) :
    Section k part Q (locked part p >>= g) k := by
  refine ⟨hmid, fun _ _ => ?_⟩
  change upto _ _ _ _ ((p >>= fun a => perform (.unlock part) >>= fun _ => pure a) >>= g) k
  rw [bind_assoc]
  refine upto_bind (Machine.wlp_post h fun a k' hQ => ?_)
  exact ⟨rfl, hQ⟩

/-- The section of a call that returns `ERROR_NONE` behind it. -/
theorem section_answered (hs : s.Inv) {part : LockedPart ν} {p : Code ν Unit} {t : Shared ν}
    (h : machine.wlp (InSection s.shared) p (fun _ k => Mid s.shared k ∧ k = t) s.shared)
    {β : Type} (g : HResult → Code ν β) :
    Section s.shared part (fun rest k => rest = g .errorNone ∧ k = t)
      ((locked part p >>= fun _ => pure .errorNone) >>= g) s.shared := by
  rw [bind_assoc]
  exact section_locked (mid_start hs) (Machine.wlp_post h fun _ _ h => ⟨h.1, rfl, h.2⟩)

theorem section_snapshot (hs : s.Inv) (kind : EventKind) {β : Type}
    (g : List (Option ν) → Code ν β) :
    Section s.shared (.snapshot kind)
      (fun rest k => rest = g s.notifications ∧ k = (s.charge s.notifications).shared)
      (observerSnapshot kind >>= g) s.shared :=
  section_locked (mid_start hs) <| Machine.wlp_post (wlp_snapshot hs) fun _ _ h =>
    ⟨h.1, h.2.1 ▸ rfl, h.2.2⟩

/-- In the open section, the middle holds. -/
theorem Section.mid {α : Type} {k₀ k k' : Shared ν} {part : LockedPart ν}
    {Q : Code ν α → Shared ν → Prop} {p q : Code ν α} {l : List (Answered (Op ν) Op.Answer)}
    (h : Section k₀ part Q p k) (hl : Underway access l) (hpart : Partway machine p k l q k') :
    Mid k₀ k' := by
  have hq := hpart.upto hl.inside h
  cases q with
  | ret r => exact hq.elim
  | op o f =>
    rw [upto] at hq
    split at hq
    · cases o <;> first | exact hq.elim | exact hq.2.1
    · exact hq.1

/-- Where it ends, `Q` holds. -/
theorem Section.ends {α : Type} {k₀ k k' : Shared ν} {part : LockedPart ν}
    {Q : Code ν α → Shared ν → Prop} {p : Code ν α} {l : List (Answered (Op ν) Op.Answer)}
    {o : Op ν} {f : o.Answer → Code ν α} (h : Section k₀ part Q p k) (hl : Underway access l)
    (hpart : Partway machine p k l (.op o f) k') (hrel : access o = .release) (x : o.Answer) :
    o = .unlock part ∧ Q (f x) (machine.next k' o x) := by
  have hq := hpart.upto hl.inside h
  rw [upto, if_pos hrel] at hq
  cases o <;> first | exact hq.elim | exact ⟨hq.1 ▸ rfl, hq.2.2⟩

end Threaded

end RemoteControl
