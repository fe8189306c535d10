import Mathlib.Logic.Function.Basic
import RemoteControl.Activation
import RemoteControl.Registration

/-!
# Holdings: all or nothing

Between two calls the plugin holds one of everything, or nothing at all, and what
the implementation has taken for itself goes when its **last** reference goes,
which need not be one of the plugin's.

* `ServiceHold` — what an implementation keeps of `Configure`; `hold_configure` and
  `hold_destructor` derive it from the code of the implementation.
* `hosting` — the plugin among others that take and drop references on the
  implementations it has made.
* `Accounted` — the state of one implementation, between its references and what
  it holds; `Coupled.step` carries it through every interleaving.
* `all_or_nothing` — the statement.
-/

namespace RemoteControl

open Interaction Runs

/-! ## What an implementation holds -/

/-- `_service` of an implementation, and the references it took on shells. -/
structure ServiceHold where
  /-- `_service` -/
  service : Option Shell
  /-- the references -/
  shells : Ledger Shell

namespace ServiceHold

/-- A new implementation. -/
def blank : ServiceHold := ⟨none, .blank⟩

/-- After a `Configure`. -/
def configured (h : ServiceHold) (service : Shell) (result : HResult) : ServiceHold :=
  ⟨if result = .errorNone then some service else none, shellsAfter h.shells service result⟩

/-- After the destructor. -/
def released (h : ServiceHold) : ServiceHold :=
  ⟨none, shellsDestroyed h.shells h.service⟩

/-- One reference for `_service`, and every other one was given back. -/
def Kept (h : ServiceHold) : Prop :=
  h.shells.Holds h.service.toList

theorem kept_blank : blank.Kept := Ledger.holds_nil.mpr Ledger.blank_balanced

theorem Kept.configured {h : ServiceHold} (hkept : h.Kept) (hnone : h.service = none)
    (service : Shell) (result : HResult) : (h.configured service result).Kept := by
  rw [Kept, hnone] at hkept
  have hbalanced : h.shells.Balanced := Ledger.holds_nil.mp hkept
  by_cases hresult : result = .errorNone
  · subst hresult
    exact hbalanced.take service
  · have hshells : shellsAfter h.shells service result = (h.shells.take service).give service := by
      cases result <;> first | rfl | exact absurd rfl hresult
    rw [Kept, ServiceHold.configured, if_neg hresult, hshells]
    exact Ledger.holds_nil.mpr (hbalanced.take service).give

theorem Kept.released {h : ServiceHold} (hkept : h.Kept) : h.released.Kept := by
  rcases hservice : h.service with _ | service <;> rw [Kept, hservice] at hkept
  · simpa [Kept, ServiceHold.released, shellsDestroyed, hservice] using hkept
  · simpa [Kept, ServiceHold.released, shellsDestroyed, hservice] using hkept.give

end ServiceHold

/-- What the state of an implementation says of it. -/
def ImplState.hold (s : ImplState) : ServiceHold := ⟨s.members.service, s.shells⟩

/-- `Configure` does to it what `ServiceHold.configured` says. -/
theorem hold_configure {answers : BusEvent → Prop} {s s' : ImplState} {service : Shell}
    {r : HResult} (hs : s.members = .constructed)
    (h : (implMachine answers).Exec (configure service) s r s') :
    s'.hold = s.hold.configured service r := by
  have hzero : s.members.handlersRegistered = 0 := by rw [hs]; rfl
  have hle : s.members.handlersRegistered ≤ 5 := hzero ▸ Nat.zero_le 5
  obtain ⟨m, l, hrun, -, rfl, -⟩ :=
    h.sound (wlp_configure admits_true hle hzero fun _ _ _ => ⟨trivial, hle⟩)
  have hservice : m.service = if r = .errorNone then some service else none := by
    cases hrun with
    | notInitialised _ => rfl
    | notConnected _ _ _ => rfl
    | configured hinit => exact hinit.service
  simp only [ImplState.hold, ServiceHold.configured, ImplState.members_became, hservice]

/-- And the destructor what `ServiceHold.released` says. -/
theorem hold_destructor {answers : BusEvent → Prop} {s s' : ImplState} {r : Unit}
    (hs : s.members.handlersRegistered ≤ 5)
    (h : (implMachine answers).Exec destructor s r s') : s'.hold = s.hold.released := by
  obtain ⟨l, -, -, rfl⟩ := h.sound (wlp_destructor admits_true.quiet trivial
    (admits_true.tearing _ hs) fun _ _ => trivial)
  rfl

/-! ## The plugin among others -/

/-- An implementation object. -/
structure Hosted where
  /-- the references others hold on it -/
  others : ℕ
  /-- what it has kept of `Configure` -/
  hold : ServiceHold

/-- The implementations `Root` has made. -/
abbrev Objects : Type := ImplId → Option Hosted

/-- The references the plugin holds on an implementation. -/
def PluginState.refs (k : PluginState) (i : ImplId) : ℕ :=
  (k.ledger.taken (.implementation i) - k.ledger.given (.implementation i)) +
    (k.ledger.taken (.configure i) - k.ledger.given (.configure i))

/-- A release of implementation `i`: with the last reference goes the object. -/
def Objects.settle (t : Objects) (k : PluginState) (i : ImplId) : Objects :=
  match t i with
  | some o =>
    if k.refs i + o.others = 0 then
      Function.update t i (some { o with hold := o.hold.released })
    else t
  | none => t

/-- What the plugin's operations do to the implementations. -/
def Objects.react (k : PluginState) (t : Objects) : (o : PluginOp) → o.Answer → Objects
  | .root _ _, (some i, _) =>
    if k.members.service = none then t else Function.update t i (some ⟨0, .blank⟩)
  | .configure, result =>
    match k.members.configure, k.members.service with
    | some i, some s =>
      Function.update t i ((t i).map fun o => { o with hold := o.hold.configured s result })
    | _, _ => t
  | .act .implementationRelease, _ =>
    match k.members.implementation with
    | some i => t.settle (k.did .implementationRelease) i
    | none => t
  | .act .configureRelease, _ =>
    match k.members.configure with
    | some i => t.settle (k.did .configureRelease) i
    | none => t
  | _, _ => t

/-- A step of somebody else who has to do with an implementation. -/
inductive OtherHolder where
  /-- `AddRef` -/
  | addRef (i : ImplId)
  /-- `Release` -/
  | release (i : ImplId)
  deriving DecidableEq

/-- What that step does: nobody gets hold of an object that is gone, and only who holds
a reference can drop it. -/
def Objects.use (k : PluginState) (t : Objects) : OtherHolder → Option Objects
  | .addRef i =>
    match t i with
    | some o =>
      if 0 < k.refs i + o.others then
        some (Function.update t i (some { o with others := o.others + 1 }))
      else none
    | none => none
  | .release i =>
    match t i with
    | some o =>
      if 0 < o.others then
        some (Objects.settle (Function.update t i (some { o with others := o.others - 1 })) k i)
      else none
    | none => none

/-- The plugin, and others who use the implementations it makes. -/
abbrev hosting : Setting PluginCall PluginOp PluginOp.Answer (Option String) PluginState Objects
    OtherHolder where
  machine := pluginMachine
  body := PluginCall.body
  ready := fun k _ c => c.ready k
  allow := fun _ _ _ _ => True
  react := Objects.react
  env := Objects.use

/-! ## The implementations -/

/-- The state of implementation `i`. -/
structure Accounted (k : PluginState) (i : ImplId) (o : Hosted) : Prop where
  /-- `Root` has made it -/
  made : k.ledger.taken (.implementation i) ≠ 0
  /-- one reference for `_service` -/
  kept : o.hold.Kept
  /-- as long as there is a reference on it, it serves the shell it was configured for -/
  configured : ∀ s, (i, s) ∈ k.configured → 0 < k.refs i + o.others → o.hold.service = some s
  /-- or none -/
  unconfigured : (∀ s, (i, s) ∉ k.configured) → o.hold.service = none

/-- The implementations agree with the plugin. -/
structure Coupled (k : PluginState) (t : Objects) : Prop where
  /-- each one by itself -/
  accounted : ∀ i o, t i = some o → Accounted k i o
  /-- with the last reference goes the object -/
  gone : ∀ i o, t i = some o → k.refs i + o.others = 0 → o.hold.service = none
  /-- they are all known -/
  known : ∀ i, k.ledger.taken (.implementation i) ≠ 0 → t i ≠ none
  /-- only known ones were configured -/
  configured : ∀ p ∈ k.configured, k.ledger.taken (.implementation p.1) ≠ 0

theorem coupled_fresh : Coupled .fresh fun _ => none where
  accounted := nofun
  gone := nofun
  known := fun _ h => absurd rfl h
  configured := nofun

/-- What the invariant looks at is the same in both states. -/
structure PluginState.SameObjects (k k' : PluginState) : Prop where
  /-- the implementations that were made -/
  taken : ∀ i, k'.ledger.taken (.implementation i) = k.ledger.taken (.implementation i)
  /-- the references on them -/
  refs : ∀ i, k'.refs i = k.refs i
  /-- the configured ones -/
  configured : k'.configured = k.configured

theorem PluginState.sameObjects_refl (k : PluginState) : k.SameObjects k :=
  ⟨fun _ => rfl, fun _ => rfl, rfl⟩

/-- A resource that is not a reference on an implementation. -/
def Resource.Other (r : Resource) : Prop :=
  (∀ i, r ≠ .implementation i) ∧ ∀ i, r ≠ .configure i

theorem PluginState.sameObjects_take (k : PluginState) {r : Resource} (hr : r.Other) :
    k.SameObjects (k.take r) := by
  have htaken : ∀ i, (k.take r).ledger.taken (.implementation i) =
      k.ledger.taken (.implementation i) :=
    fun i => by simp [take, Pi.single_eq_of_ne' (hr.1 i)]
  refine ⟨htaken, fun i => ?_, rfl⟩
  simp [PluginState.refs, take, Pi.single_eq_of_ne' (hr.1 i), Pi.single_eq_of_ne' (hr.2 i)]

theorem PluginState.sameObjects_give (k : PluginState) {r : Resource} (hr : r.Other) :
    k.SameObjects (k.give r) := by
  refine ⟨fun _ => rfl, fun i => ?_, rfl⟩
  simp [PluginState.refs, give, Pi.single_eq_of_ne' (hr.1 i), Pi.single_eq_of_ne' (hr.2 i)]

theorem PluginState.sameObjects_through {α : Type} (k : PluginState) (p : Option α)
    {f : α → PluginState} (hf : ∀ a, k.SameObjects (f a)) : k.SameObjects (k.through p f) := by
  rcases p with _ | a
  · exact ⟨fun _ => rfl, fun _ => rfl, rfl⟩
  · exact hf a

/-- Only the two releases of an implementation concern it. -/
theorem PluginState.sameObjects_act (k : PluginState) {a : PluginAct} (x : Unit)
    (himplementation : a ≠ .implementationRelease) (hconfigure : a ≠ .configureRelease) :
    k.SameObjects (k.next (.act a) x) := by
  cases a with
  | implementationRelease => exact absurd rfl himplementation
  | configureRelease => exact absurd rfl hconfigure
  | serviceAddRef => exact k.sameObjects_through _ fun _ => k.sameObjects_take ⟨nofun, nofun⟩
  | serviceRelease => exact k.sameObjects_through _ fun _ => k.sameObjects_give ⟨nofun, nofun⟩
  | registerConnectionNotification =>
    exact k.sameObjects_through _ fun _ => k.sameObjects_take ⟨nofun, nofun⟩
  | unregisterConnectionNotification =>
    exact k.sameObjects_through _ fun _ => k.sameObjects_give ⟨nofun, nofun⟩
  | unregisterNotification =>
    exact k.sameObjects_through _ fun _ => k.sameObjects_give ⟨nofun, nofun⟩
  | registerJsonRpc => exact k.sameObjects_take ⟨nofun, nofun⟩
  | unregisterJsonRpc => exact k.sameObjects_give ⟨nofun, nofun⟩
  | connectionRelease c => exact k.sameObjects_give ⟨nofun, nofun⟩
  | _ => exact ⟨fun _ => rfl, fun _ => rfl, rfl⟩

theorem Coupled.congr {k k' : PluginState} {t : Objects} (h : Coupled k t)
    (hsame : k.SameObjects k') : Coupled k' t where
  accounted := by
    intro i o ho
    obtain ⟨hmade, hkept, hconfigured, hunconfigured⟩ := h.accounted i o ho
    refine ⟨by rwa [hsame.taken], hkept, ?_, ?_⟩
    · rw [hsame.configured, hsame.refs]
      exact hconfigured
    · rwa [hsame.configured]
  gone := by
    intro i o ho
    rw [hsame.refs]
    exact h.gone i o ho
  known := by
    intro i
    rw [hsame.taken]
    exact h.known i
  configured := by
    intro p hp
    rw [hsame.taken]
    exact h.configured p (hsame.configured ▸ hp)

/-- Replacing the object of `i`: what holds of the new one and of all others holds of
every object. -/
theorem Objects.forall_update {t : Objects} {i : ImplId} {o' : Hosted}
    {P : ImplId → Hosted → Prop} (hi : P i o')
    (hothers : ∀ j o, j ≠ i → t j = some o → P j o) :
    ∀ j o, Function.update t i (some o') j = some o → P j o := by
  apply (Function.forall_update_iff t fun j o? => ∀ o, o? = some o → P j o).mpr
  exact ⟨fun o ho => Option.some.inj ho ▸ hi, fun j hj o ho => hothers j o hj ho⟩

/-- Replacing an object loses none. -/
theorem Objects.update_ne_none {t : Objects} {i j : ImplId} {o : Hosted}
    (h : j ≠ i → t j ≠ none) : Function.update t i (some o) j ≠ none := by
  by_cases hj : j = i
  · subst hj
    rw [Function.update_self]
    exact nofun
  · rw [Function.update_of_ne hj]
    exact h hj

/-- The agreement after the object of `i` is replaced. -/
theorem Coupled.update {k : PluginState} {t : Objects} {i : ImplId} {o' : Hosted}
    (hi : Accounted k i o') (hlast : k.refs i + o'.others = 0 → o'.hold.service = none)
    (haccounted : ∀ j o, j ≠ i → t j = some o → Accounted k j o)
    (hgone : ∀ j o, j ≠ i → t j = some o → k.refs j + o.others = 0 → o.hold.service = none)
    (hknown : ∀ j, j ≠ i → k.ledger.taken (.implementation j) ≠ 0 → t j ≠ none)
    (hconfigured : ∀ p ∈ k.configured, k.ledger.taken (.implementation p.1) ≠ 0) :
    Coupled k (Function.update t i (some o')) where
  accounted := Objects.forall_update hi haccounted
  gone := Objects.forall_update hlast hgone
  known := fun j hj => Objects.update_ne_none fun hne => hknown j hne hj
  configured := hconfigured

/-- A release settles the object it is about. -/
theorem Coupled.settle {k : PluginState} {t : Objects} {i : ImplId}
    (haccounted : ∀ j o, t j = some o → Accounted k j o)
    (hgone : ∀ j o, j ≠ i → t j = some o → k.refs j + o.others = 0 → o.hold.service = none)
    (hknown : ∀ j, k.ledger.taken (.implementation j) ≠ 0 → t j ≠ none)
    (hconfigured : ∀ p ∈ k.configured, k.ledger.taken (.implementation p.1) ≠ 0) :
    Coupled k (t.settle k i) := by
  rcases hi : t i with _ | o
  · rw [Objects.settle, hi]
    refine ⟨haccounted, fun j o ho => ?_, hknown, hconfigured⟩
    exact hgone j o (by rintro rfl; cases hi.symm.trans ho) ho
  · by_cases hlast : k.refs i + o.others = 0
    · have hsettle : t.settle k i =
          Function.update t i (some { o with hold := o.hold.released }) := by
        simp only [Objects.settle, hi, if_pos hlast]
      have hold := haccounted i o hi
      rw [hsettle]
      apply Coupled.update
      · exact ⟨hold.made, hold.kept.released, fun _ _ hpos => absurd hlast hpos.ne', fun _ => rfl⟩
      · exact fun _ => rfl
      · exact fun j o' _ => haccounted j o'
      · exact hgone
      · exact fun j _ => hknown j
      · exact hconfigured
    · have hsettle : t.settle k i = t := by
        simp only [Objects.settle, hi, if_neg hlast]
      rw [hsettle]
      refine ⟨haccounted, fun j o' ho' => ?_, hknown, hconfigured⟩
      by_cases hj : j = i
      · subst hj
        obtain rfl := Option.some.inj (hi.symm.trans ho')
        exact fun h => absurd h hlast
      · exact hgone j o' hj ho'

/-- The plugin drops a reference on implementation `i`. -/
theorem Coupled.release {k : PluginState} {t : Objects} {i : ImplId} {r : Resource}
    (h : Coupled k t) (hr : r = .implementation i ∨ r = .configure i) :
    Coupled (k.give r) (t.settle (k.give r) i) := by
  have hle : ∀ j, (k.give r).refs j ≤ k.refs j := by
    intro j
    simp only [PluginState.refs, PluginState.give, Ledger.given_give, Ledger.taken_give,
      Pi.add_apply]
    omega
  have hne : ∀ j, j ≠ i → (k.give r).refs j = k.refs j := by
    intro j hj
    rcases hr with rfl | rfl <;> simp [PluginState.refs, PluginState.give, hj]
  refine Coupled.settle (fun j o ho => ?_) (fun j o hj ho hlast => ?_) h.known h.configured
  · obtain ⟨hmade, hkept, hconfigured, hunconfigured⟩ := h.accounted j o ho
    exact ⟨hmade, hkept, fun s hs hpos => hconfigured s hs (hpos.trans_le
      (Nat.add_le_add_right (hle j) _)), hunconfigured⟩
  · rw [hne j hj] at hlast
    exact h.gone j o ho hlast

/-- `Root` makes a new implementation. -/
theorem Coupled.rooted {k : PluginState} {t : Objects} {i : ImplId} (h : Coupled k t)
    (hnew : k.ledger.taken (.implementation i) = 0) (c : ConnectionId) :
    Coupled (k.rooted (some i) c) (Function.update t i (some ⟨0, .blank⟩)) := by
  have htaken : ∀ j, j ≠ i → (k.rooted (some i) c).ledger.taken (.implementation j) =
      k.ledger.taken (.implementation j) := fun j hj => by simp [PluginState.rooted, hj]
  have hself : (k.rooted (some i) c).ledger.taken (.implementation i) ≠ 0 := by
    simp [PluginState.rooted]
  have hrefs : ∀ j, j ≠ i → (k.rooted (some i) c).refs j = k.refs j :=
    fun j hj => by simp [PluginState.refs, PluginState.rooted, hj]
  have hold : ∀ p ∈ k.configured, p.1 ≠ i := fun p hp hi => h.configured p hp (hi ▸ hnew)
  apply Coupled.update
  · exact ⟨hself, ServiceHold.kept_blank, fun s hs => absurd rfl (hold _ hs), fun _ => rfl⟩
  · exact fun _ => rfl
  · intro j o hj ho
    obtain ⟨hmade, hkept, hconfigured, hunconfigured⟩ := h.accounted j o ho
    refine ⟨by rwa [htaken j hj], hkept, ?_, hunconfigured⟩
    rw [hrefs j hj]
    exact hconfigured
  · intro j o hj ho
    rw [hrefs j hj]
    exact h.gone j o ho
  · exact fun j hj hmade => h.known j (htaken j hj ▸ hmade)
  · intro p hp
    rw [htaken p.1 (hold p hp)]
    exact h.configured p hp

/-- `QueryInterface` finds the configuration interface of an implementation that was not
configured. -/
theorem Coupled.queried {k : PluginState} {t : Objects} {i : ImplId} (h : Coupled k t)
    (hfresh : ∀ s, (i, s) ∉ k.configured) : Coupled (k.take (.configure i)) t := by
  have htaken : ∀ j, (k.take (.configure i)).ledger.taken (.implementation j) =
      k.ledger.taken (.implementation j) := fun j => by simp [PluginState.take]
  have hrefs : ∀ j, j ≠ i → (k.take (.configure i)).refs j = k.refs j :=
    fun j hj => by simp [PluginState.refs, PluginState.take, hj]
  refine ⟨fun j o ho => ?_, fun j o ho => ?_, fun j hj => ?_, fun p hp => ?_⟩
  · obtain ⟨hmade, hkept, hconfigured, hunconfigured⟩ := h.accounted j o ho
    refine ⟨by rwa [htaken], hkept, fun s hs => ?_, hunconfigured⟩
    rw [hrefs j fun hj => hfresh s (hj ▸ hs)]
    exact hconfigured s hs
  · by_cases hj : j = i
    · exact fun _ => (h.accounted j o ho).unconfigured (hj ▸ hfresh)
    · rw [hrefs j hj]
      exact h.gone j o ho
  · exact h.known j (htaken j ▸ hj)
  · rw [htaken]
    exact h.configured p hp

/-- `Configure` of an implementation that is referenced and was not configured. -/
theorem Coupled.configuredFor {k : PluginState} {t : Objects} {i : ImplId} {s : Shell}
    (h : Coupled k t) (hmade : k.ledger.taken (.implementation i) ≠ 0)
    (hheld : k.ledger.given (.configure i) < k.ledger.taken (.configure i))
    (hfresh : ∀ s, (i, s) ∉ k.configured) (result : HResult) :
    Coupled (k.configuredFor i s result)
      (Function.update t i ((t i).map fun o => { o with hold := o.hold.configured s result })) := by
  obtain ⟨o, ho⟩ := Option.ne_none_iff_exists'.mp (h.known i hmade)
  have hnone : o.hold.service = none := (h.accounted i o ho).unconfigured hfresh
  have hledger : (k.configuredFor i s result).ledger = k.ledger := by
    rw [PluginState.configuredFor]
    split <;> rfl
  have hrefs : ∀ j, (k.configuredFor i s result).refs j = k.refs j :=
    fun j => by rw [PluginState.refs, PluginState.refs, hledger]
  have hconfigured : ∀ p, p ∈ (k.configuredFor i s result).configured ↔
      p ∈ k.configured ∨ (result = .errorNone ∧ p = (i, s)) := by
    intro p
    by_cases hresult : result = .errorNone <;> simp [PluginState.configuredFor, hresult]
  have hpos : 0 < k.refs i := by
    rw [PluginState.refs]
    omega
  rw [ho, Option.map_some]
  apply Coupled.update
  · have hold := h.accounted i o ho
    refine ⟨by rwa [hledger], hold.kept.configured hnone s result, fun s' hs' _ => ?_,
      fun hnot => ?_⟩
    · rcases (hconfigured _).mp hs' with hs' | ⟨hresult, hs'⟩
      · exact absurd hs' (hfresh s')
      · obtain rfl := (Prod.mk.inj hs').2
        exact if_pos hresult
    · exact if_neg fun hresult => hnot s ((hconfigured _).mpr (.inr ⟨hresult, rfl⟩))
  · rw [hrefs]
    exact fun hlast => absurd hlast (by omega)
  · intro j o' hj ho'
    obtain ⟨hmade', hkept, hconf, hunconf⟩ := h.accounted j o' ho'
    refine ⟨by rwa [hledger], hkept, fun s' hs' => ?_, fun hnot => ?_⟩
    · rw [hrefs]
      refine hconf s' (((hconfigured _).mp hs').resolve_right fun h => ?_)
      exact hj (Prod.mk.inj h.2).1
    · exact hunconf fun s' hs' => hnot s' ((hconfigured _).mpr (.inl hs'))
  · intro j o' _ ho'
    rw [hrefs]
    exact h.gone j o' ho'
  · exact fun j _ hmade' => h.known j (hledger ▸ hmade')
  · intro p hp
    rw [hledger]
    rcases (hconfigured p).mp hp with hp | ⟨-, rfl⟩
    · exact h.configured p hp
    · exact hmade

/-- **An operation of the plugin.** -/
theorem Coupled.own {k : PluginState} {t : Objects} {o : PluginOp} {x : o.Answer}
    (h : Coupled k t) (hmay : k.may o x)
    (hquery : o = .queryConfiguration → ∃ i, k.members.implementation = some i ∧
      ∀ s, (i, s) ∉ k.configured)
    (hconfigure : o = .configure → ∃ i, k.members.configure = some i ∧
      k.ledger.taken (.implementation i) ≠ 0 ∧
      k.ledger.given (.configure i) < k.ledger.taken (.configure i) ∧
      ∀ s, (i, s) ∉ k.configured) :
    Coupled (k.next o x) (t.react k o x) := by
  cases o with
  | act a =>
    cases a with
    | implementationRelease =>
      rcases hi : k.members.implementation with _ | i
      · simp only [PluginState.next, PluginState.did, Objects.react, hi]
        exact h.congr ⟨fun _ => rfl, fun _ => rfl, rfl⟩
      · simp only [PluginState.next, PluginState.did, Objects.react, hi, PluginState.through_some]
        exact h.release (.inl rfl)
    | configureRelease =>
      rcases hi : k.members.configure with _ | i
      · simp only [PluginState.next, PluginState.did, Objects.react, hi]
        exact h.congr ⟨fun _ => rfl, fun _ => rfl, rfl⟩
      · simp only [PluginState.next, PluginState.did, Objects.react, hi, PluginState.through_some]
        exact h.release (.inr rfl)
    | _ =>
      apply h.congr
      apply k.sameObjects_act <;> simp
  | load => exact h
  | root waitTime className =>
    obtain ⟨i?, c⟩ := x
    rcases hs : k.members.service with _ | s
    · have hreact : t.react k (.root waitTime className) (i?, c) = t := by
        rcases i? with _ | i <;> simp [Objects.react, hs]
      rw [hreact]
      apply h.congr
      simp only [PluginState.next, hs]
      exact ⟨fun _ => rfl, fun _ => rfl, rfl⟩
    · simp only [PluginState.next, hs, PluginState.through_some]
      rcases i? with _ | i
      · exact h.congr ⟨fun _ => rfl, fun _ => rfl, rfl⟩
      · simp only [Objects.react, hs, reduceCtorEq, if_false]
        exact h.rooted (hmay.1 i rfl) c
  | queryConfiguration =>
    obtain ⟨i, hi, hfresh⟩ := hquery rfl
    simp only [PluginState.next, hi, PluginState.through_some, Objects.react]
    rcases x with _ | _
    · exact h
    · exact h.queried hfresh
  | configure =>
    obtain ⟨i, hi, hmade, hheld, hfresh⟩ := hconfigure rfl
    rcases hs : k.members.service with _ | s
    · have hreact : t.react k .configure x = t := by simp only [Objects.react, hi, hs]
      rw [hreact]
      apply h.congr
      simp only [PluginState.next, hi, hs, PluginState.through_some]
      exact ⟨fun _ => rfl, fun _ => rfl, rfl⟩
    · simp only [PluginState.next, hi, hs, PluginState.through_some, Objects.react]
      exact h.configuredFor hmade hheld hfresh x
  | registerNotification =>
    refine h.congr (k.sameObjects_through _ fun i => ?_)
    by_cases hx : x = .errorNone
    · rw [PluginState.registeredWith, if_pos hx]
      exact k.sameObjects_take ⟨by simp, by simp⟩
    · rw [PluginState.registeredWith, if_neg hx]
      exact k.sameObjects_refl
  | remoteConnection s =>
    apply h.congr
    rcases x with _ | _
    · exact k.sameObjects_refl
    · have hsame := k.sameObjects_take (r := .connection k.members.connectionId) ⟨by simp, by simp⟩
      exact ⟨hsame.taken, hsame.refs, hsame.configured⟩

/-- **A step of somebody else.** -/
theorem Coupled.use {k : PluginState} {t t' : Objects} {a : OtherHolder} (h : Coupled k t)
    (huse : t.use k a = some t') : Coupled k t' := by
  cases a with
  | addRef i =>
    rcases hi : t i with _ | o <;> simp only [Objects.use, hi] at huse
    · cases huse
    · obtain ⟨hpos, rfl⟩ := (Option.ite_none_right_eq_some).mp huse |>.imp_right Option.some.inj
      obtain ⟨hmade, hkept, hconfigured, hunconfigured⟩ := h.accounted i o hi
      apply Coupled.update
      · exact ⟨hmade, hkept, fun s hs _ => hconfigured s hs hpos, hunconfigured⟩
      · exact fun hlast => absurd hlast (Nat.succ_ne_zero _)
      · exact fun j o' _ => h.accounted j o'
      · exact fun j o' _ => h.gone j o'
      · exact fun j _ => h.known j
      · exact h.configured
  | release i =>
    rcases hi : t i with _ | o <;> simp only [Objects.use, hi] at huse
    · cases huse
    · obtain ⟨hpos, rfl⟩ := (Option.ite_none_right_eq_some).mp huse |>.imp_right Option.some.inj
      obtain ⟨hmade, hkept, hconfigured, hunconfigured⟩ := h.accounted i o hi
      apply Coupled.settle
      · apply Objects.forall_update
        · refine ⟨hmade, hkept, fun s hs hpos' => hconfigured s hs ?_, hunconfigured⟩
          have hpos' : 0 < k.refs i + (o.others - 1) := hpos'
          omega
        · exact fun j o' _ => h.accounted j o'
      · intro j o' hj ho'
        rw [Function.update_of_ne hj] at ho'
        exact h.gone j o' ho'
      · exact fun j hj => Objects.update_ne_none fun _ => h.known j hj
      · exact h.configured

/-! ## The theorem -/

/-- The configurations of `hosting`. -/
abbrev HostingConf : Type :=
  Conf PluginCall PluginOp PluginOp.Answer (Option String) PluginState Objects

/-- The actions of `hosting`. -/
abbrev HostingAct : Type := Act PluginCall PluginOp PluginOp.Answer (Option String) OtherHolder

theorem Coupled.step {s t : HostingConf} {a : HostingAct} (h : Coupled s.core s.rest)
    (hcore : PluginCore hosting s) (hstep : hosting.Step s a t) : Coupled t.core t.rest := by
  cases hstep with
  | enter _ => exact h
  | @own c e k t o f x hmay _ =>
    have hG : c.Outline e k o := hcore.1.1
    refine Coupled.own h hmay (fun ho => ?_) fun ho => ?_
    · cases c with
      | initializeFor service => exact Launching.query hG ho
      | deinitializeFor service => exact absurd ho (Retiring.quiet hG).2.1
    · cases c with
      | initializeFor service => exact (Launching.configure hG ho).2
      | deinitializeFor service => exact absurd ho (Retiring.quiet hG).2.2.1
  | leave => exact h
  | other henv => exact h.use henv

/-- **All or nothing.** In every run of `Initialize` and `Deinitialize` calls, whatever
`Root`, `QueryInterface`, `Configure`, `Register` and `RemoteConnection` answer and
whatever others do with the implementations:

* `Initialize` returns the empty string and leaves the plugin initialised, or it returns
  a message and leaves it reset;
* `Deinitialize` with the plugin's service leaves it reset, and with any other one as it
  was;
* between two calls it is one or the other;
* an implementation holds one reference for its `_service`, and none once there is no
  reference on it; the plugin's, when it is initialised, serves its shell. -/
theorem all_or_nothing {conf : HostingConf} {tr : List (HostingConf × HostingAct)}
    (h : hosting.RunOf ⟨.idle, .fresh, fun _ => none⟩ tr conf) :
    (∀ s service r, (s, .leave (.initializeFor service) r) ∈ tr → ∃ message, r = some message ∧
      ((message = "" ∧ s.core.Initialised service) ∨ (message ≠ "" ∧ s.core.Reset))) ∧
    (∀ s service r, (s, .leave (.deinitializeFor service) r) ∈ tr →
      ∃ e, s.ctrl.entry? = some e ∧ (e.members.service = some service → s.core.Reset) ∧
        (e.members.service ≠ some service → s.core = e)) ∧
    (∀ s ∈ conf :: tr.map Prod.fst, s.ctrl = .idle →
      s.core.Reset ∨ ∃ service, s.core.Initialised service) ∧
    (∀ s ∈ conf :: tr.map Prod.fst, ∀ i o, s.rest i = some o →
      o.hold.Kept ∧ (s.core.refs i + o.others = 0 → o.hold.service = none) ∧
        ∀ service, s.core.InitialisedWith service i → o.hold.service = some service) := by
  obtain ⟨hend, hall⟩ := Run.always
    (I := fun s => PluginCore hosting s ∧ Coupled s.core s.rest)
    (fun s a t hs hstep =>
      ⟨Setting.core_step (fun c k _ hk hready => wlp_track c hk hready) hs.1 hstep,
        hs.2.step hs.1 hstep⟩)
    h ⟨PluginState.settled_fresh, coupled_fresh⟩
  have hcore : ∀ p ∈ tr, PluginCore hosting p.1 := fun p hp => (hall p hp).1
  have hstates : ∀ s ∈ conf :: tr.map Prod.fst, PluginCore hosting s ∧ Coupled s.core s.rest := by
    intro s hs
    rcases List.mem_cons.mp hs with rfl | hs
    · exact hend
    · obtain ⟨p, hp, rfl⟩ := List.mem_map.mp hs
      exact hall p hp
  refine ⟨fun s service r hmem => ?_, fun s service r hmem => ?_, fun s hs hidle => ?_,
    fun s hs i o ho => ?_⟩
  · obtain ⟨e, -, ⟨message, hr, hdone⟩, -⟩ := Setting.leave_ok h hcore hmem
    exact ⟨message, hr, hdone.imp_left fun hdone => ⟨hdone.1, hdone.2.1⟩⟩
  · obtain ⟨e, hctrl, hdone, -⟩ := Setting.leave_ok h hcore hmem
    exact ⟨e, by rw [hctrl]; rfl, hdone⟩
  · have hok := (hstates s hs).1
    rw [PluginCore, Setting.CoreOk, hidle] at hok
    exact hok.status
  · obtain ⟨-, hcoupled⟩ := hstates s hs
    have hacc := hcoupled.accounted i o ho
    refine ⟨hacc.kept, hcoupled.gone i o ho, fun service hinit => ?_⟩
    refine hacc.configured service hinit.configured (Nat.add_pos_left ?_ _)
    have htaken := hinit.ledger.taken_eq (.implementation i)
    rw [hinit.members] at htaken
    simp [PluginMembers.held] at htaken
    rw [PluginState.refs]
    omega

/-- An `Initialize` that fails at `Register` while somebody else has got hold of the
implementation, a second one that succeeds, and two `Deinitialize`s. -/
def secondAttempt : List (Move PluginCall PluginOp PluginOp.Answer PluginState OtherHolder) :=
  [.enter (.initializeFor 7)] ++
    List.replicate 10 (.answer (hosted 1 5 .errorNone .errorRpcCallFailed)) ++
    [.other (.addRef 1)] ++
    List.replicate 15 (.answer (hosted 1 5 .errorNone .errorRpcCallFailed)) ++
    [.leave, .other (.release 1), .enter (.initializeFor 7)] ++
    List.replicate 12 (.answer (hosted 2 6 .errorNone .errorNone)) ++
    [.leave, .enter (.deinitializeFor 8), .answer (hosted 2 6 .errorNone .errorNone), .leave,
      .enter (.deinitializeFor 7)] ++
    List.replicate 17 (.answer (hosted 2 6 .errorNone .errorNone)) ++ [.leave]

/-- There the first call leaves nothing behind, and in the end nothing is left. -/
theorem all_or_nothing_secondAttempt :
    ∃ tr conf, follow hosting.advance ⟨.idle, .fresh, fun _ => none⟩ secondAttempt =
        some (tr, conf) ∧
      (∃ s, (s, .leave (.initializeFor 7)
          (some "RemoteControl failed to register notification handler")) ∈ tr ∧ s.core.Reset) ∧
      (∃ s, (s, .leave (.deinitializeFor 7) none) ∈ tr ∧ s.core.Reset) ∧
      ∃ o, conf.rest 1 = some o ∧ o.hold.Kept := by
  obtain ⟨⟨tr, conf⟩, hfollow⟩ : ∃ p, follow hosting.advance ⟨.idle, .fresh, fun _ => none⟩
      secondAttempt = some p := ⟨_, rfl⟩
  obtain ⟨hinit, hdeinit, -, hobjects⟩ := all_or_nothing (hosting.run_of_follow hfollow)
  have hfailed : ∃ s, (s, .leave (.initializeFor 7)
      (some "RemoteControl failed to register notification handler")) ∈ tr := by
    obtain ⟨rfl, -⟩ := Prod.mk.inj (Option.some.inj hfollow)
    exact ⟨_, List.mem_of_getElem? (i := 27) rfl⟩
  have hended : ∃ s, (s, .leave (.deinitializeFor 7) none) ∈ tr ∧
      ∀ e ∈ s.ctrl.entry?, e.members.service = some 7 := by
    obtain ⟨rfl, -⟩ := Prod.mk.inj (Option.some.inj hfollow)
    refine ⟨_, List.mem_of_getElem? (i := 64) rfl, ?_⟩
    rintro e he
    obtain rfl := Option.some.inj he
    rfl
  have hobject : ∃ o, conf.rest 1 = some o := by
    obtain ⟨-, rfl⟩ := Prod.mk.inj (Option.some.inj hfollow)
    exact ⟨_, rfl⟩
  obtain ⟨s, hs⟩ := hfailed
  obtain ⟨t, ht, hservice⟩ := hended
  obtain ⟨o, ho⟩ := hobject
  refine ⟨tr, conf, hfollow, ⟨s, hs, ?_⟩, ⟨t, ht, ?_⟩, o, ho,
    (hobjects conf (List.mem_cons_self ..) 1 o ho).1⟩
  · obtain ⟨message, hmessage, ⟨hempty, -⟩ | ⟨-, hreset⟩⟩ := hinit s 7 _ hs
    · rw [hempty] at hmessage
      exact absurd (Option.some.inj hmessage) (by decide)
    · exact hreset
  · obtain ⟨e, he, hreset, -⟩ := hdeinit t 7 _ ht
    exact hreset (hservice e he)

end RemoteControl
