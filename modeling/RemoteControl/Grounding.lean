import RemoteControl.Activation

/-!
# Grounding: what the plugin holds when it uses it

`_implementation` and `_configure` point to one object, and each stands for a reference on
it. The outlines of `Activation` say when each operation happens; the ones here say which
references stand behind it.

* `Grounded` — the plugin goes through a pointer only while it holds a reference on what is
  behind it, and calls `Root` when it holds none.
* `grounded_pluginCall` — both calls of the plugin are grounded throughout.
-/

namespace RemoteControl

open Interaction

/-! ## The references of the plugin -/

namespace PluginOp

/-- The operation goes through `_implementation`. -/
def throughImplementation : PluginOp → Bool
  | .queryConfiguration => true
  | .registerNotification => true
  | .act .unregisterNotification => true
  | .act .implementationRelease => true
  | _ => false

/-- The operation goes through `_configure`. -/
def throughConfigure : PluginOp → Bool
  | .configure => true
  | .act .configureRelease => true
  | _ => false

end PluginOp

/-- What the plugin holds when it performs `o`. -/
@[mk_iff] structure Grounded (k : PluginState) (o : PluginOp) : Prop where
  /-- at `Root` there is a shell, and no reference on any instance -/
  root : ∀ waitTime className, o = .root waitTime className → k.members.service ≠ none ∧
    (∀ i, k.ledger.taken (.implementation i) = k.ledger.given (.implementation i) ∧
      k.ledger.taken (.configure i) = k.ledger.given (.configure i)) ∧
    ∀ p ∈ k.configured, k.ledger.taken (.implementation p.1) ≠ 0
  /-- a reference through `_implementation` -/
  implementation : o.throughImplementation = true → ∃ i, k.members.implementation = some i ∧
    k.ledger.given (.implementation i) < k.ledger.taken (.implementation i)
  /-- a reference through `_configure` -/
  interface : o.throughConfigure = true → ∃ i, k.members.configure = some i ∧
    k.ledger.given (.configure i) < k.ledger.taken (.configure i)
  /-- no more references are given back than were taken -/
  query : o = .queryConfiguration →
    ∀ i, k.ledger.given (.configure i) ≤ k.ledger.taken (.configure i)
  /-- `Configure` is given a shell, and was not called on this instance before -/
  configure : o = .configure → k.members.service ≠ none ∧
    ∀ i ∈ k.members.configure, ∀ s, (i, s) ∉ k.configured

namespace Plugin

/-- **The rollback** is grounded. -/
theorem grounded_rollback {service : Shell} {e k : PluginState} (h : Pending service e k) :
    pluginMachine.wlp Grounded (rollback service) (fun _ _ => True) k := by
  obtain ⟨⟨i?, conf?, service?, c⟩, ledger, roots, configured, obtained, terminated, crashed⟩ := k
  have hheld := h.ledger
  rcases i? with _ | i
  · simp [rollback, grounded_iff, PluginOp.throughImplementation, PluginOp.throughConfigure]
  · have himpl : ledger.given (.implementation i) < ledger.taken (.implementation i) :=
      hheld.lt (by simp [PluginMembers.held])
    rcases conf? with _ | j
    · simp [rollback, dropConfigure, dropImplementation, PluginState.did, PluginState.give,
        PluginState.take, PluginState.connectedTo, grounded_iff, PluginOp.throughImplementation,
        PluginOp.throughConfigure, himpl]
    · have hconf : ledger.given (.configure j) < ledger.taken (.configure j) :=
        hheld.lt (by simp [PluginMembers.held])
      simp [rollback, dropConfigure, dropImplementation, PluginState.did, PluginState.give,
        PluginState.take, PluginState.connectedTo, grounded_iff, PluginOp.throughImplementation,
        PluginOp.throughConfigure, himpl, hconf]

theorem grounded_configureImplementation {service : Shell} {e k : PluginState} {i : ImplId}
    (h : Pending service e k) (himpl : k.members.implementation = some i)
    (hfresh : ∀ s, (i, s) ∉ k.configured) :
    pluginMachine.wlp Grounded configureImplementation (fun _ _ => True) k := by
  obtain ⟨⟨i?, conf?, service?, c⟩, ledger, roots, configured, obtained, terminated, crashed⟩ := k
  obtain rfl : i? = some i := himpl
  obtain rfl : service? = some service := h.service
  have hheld : ledger.given (.implementation i) < ledger.taken (.implementation i) :=
    h.ledger.lt (by simp [PluginMembers.held])
  have hle : ∀ j, ledger.given (.configure j) ≤ ledger.taken (.configure j) := by
    intro j
    have htaken := h.ledger.taken_eq (.configure j)
    exact htaken ▸ Nat.le_add_right _ _
  have hlt : ledger.given (.configure i) < ledger.taken (.configure i) + 1 :=
    Nat.lt_succ_of_le (hle i)
  have hi : ∀ s, (i, s) ∉ configured := hfresh
  simp [configureImplementation, PluginState.did, PluginState.take, PluginState.configuredFor,
    grounded_iff, PluginOp.throughImplementation, PluginOp.throughConfigure, hheld, hi, hle, hlt]
  intro result
  split <;> simp

theorem grounded_publish {service : Shell} {e k : PluginState} {i : ImplId} {message : String}
    (h : Pending service e k) (himpl : k.members.implementation = some i) :
    pluginMachine.wlp Grounded (publish message) (fun _ _ => True) k := by
  have hheld : k.ledger.given (.implementation i) < k.ledger.taken (.implementation i) :=
    h.ledger.lt (by simp [PluginMembers.held, himpl])
  by_cases hmessage : message = ""
  · simp [publish, hmessage, himpl, grounded_iff, PluginOp.throughImplementation,
      PluginOp.throughConfigure, hheld]
    intro result
    split <;> simp [grounded_iff, PluginOp.throughImplementation, PluginOp.throughConfigure]
  · simp [publish, hmessage]

theorem grounded_acquire {service : Shell} {e k : PluginState} (h : Pending service e k)
    (hconf : k.members.configure = none)
    (hfresh : ∀ i ∈ k.members.implementation, ∀ s, (i, s) ∉ k.configured) :
    pluginMachine.wlp Grounded acquire (fun _ _ => True) k := by
  simp only [acquire, Machine.wlp_bind, wlp_load]
  refine ⟨by simp [grounded_iff, PluginOp.throughImplementation, PluginOp.throughConfigure], ?_⟩
  rcases himpl : k.members.implementation with _ | i
  · simp
  · simp only [ne_eq, reduceCtorEq, not_false_eq_true, if_true, Machine.wlp_bind]
    have hi := hfresh i himpl
    refine Machine.wlp_with (wlp_configureImplementation h himpl hconf hi)
      (grounded_configureImplementation h himpl hi) ?_
    rintro message k' ⟨h', himpl', -⟩ -
    exact grounded_publish h' himpl'

theorem grounded_initializePlugin {service : Shell} {k : PluginState} (hreset : k.Reset)
    (hsettled : k.Settled) :
    pluginMachine.wlp Grounded (initializePlugin service) (fun _ _ => True) k := by
  have hmembers := hreset.members
  have hbalanced : ∀ r, k.ledger.taken r = k.ledger.given r := congrFun hreset.ledger
  have hmade := hsettled.made
  simp only [initializePlugin, Machine.wlp_bind, wlp_act, wlp_root]
  simp [PluginState.did, PluginState.take, hmembers, PluginMembers.cleared, grounded_iff,
    PluginOp.throughImplementation, PluginOp.throughConfigure, hbalanced]
  refine ⟨fun i s hi => ?_, fun i? c hfresh hc => ?_⟩
  · rw [← hbalanced]
    exact hmade (i, s) hi
  · have hpending : Pending service k (k.attached service i? c) :=
      hreset.pending_attached hsettled (by simpa [hbalanced] using hfresh) hc
    have hnew : ∀ i ∈ (k.attached service i? c).members.implementation,
        ∀ s, (i, s) ∉ k.configured := by
      intro i hi s hmem
      refine hmade (i, s) hmem ?_
      rw [hbalanced]
      exact hfresh i hi
    refine Machine.wlp_with (wlp_acquire hpending rfl hnew) (grounded_acquire hpending rfl hnew) ?_
    rintro message k' (⟨rfl, -⟩ | ⟨hmessage, hpending'⟩) -
    · simp
    · simp [hmessage]
      exact Machine.wlp_post (grounded_rollback hpending') fun _ _ _ => trivial

/-- **`Deinitialize`** is grounded. -/
theorem grounded_deinitializePlugin {service : Shell} {k : PluginState} (hsettled : k.Settled) :
    pluginMachine.wlp Grounded (deinitializePlugin service) (fun _ _ => True) k := by
  by_cases hservice : k.members.service = some service
  · obtain ⟨i, hinit⟩ : k.Initialised service := by
      rcases hsettled.status with hreset | ⟨service', hinit⟩
      · exact absurd (hreset.service_eq.symm.trans hservice) (by simp)
      · obtain rfl := Option.some.inj (hinit.service_eq.symm.trans hservice)
        exact hinit
    have himpl : k.ledger.given (.implementation i) < k.ledger.taken (.implementation i) := by
      refine hinit.ledger.lt ?_
      rw [hinit.members]
      simp [PluginMembers.held]
    have hconf : k.ledger.given (.configure i) < k.ledger.taken (.configure i) := by
      refine hinit.ledger.lt ?_
      rw [hinit.members]
      simp [PluginMembers.held]
    have hmembers := hinit.members
    obtain ⟨⟨i?, conf?, service?, c⟩, ledger, roots, configured, obtained, terminated, crashed⟩ := k
    obtain ⟨rfl, rfl, rfl, -⟩ := PluginMembers.mk.inj hmembers
    simp [deinitializePlugin, dropConfigure, dropImplementation, PluginState.did, PluginState.give,
      PluginState.take, PluginState.connectedTo, grounded_iff, PluginOp.throughImplementation,
      PluginOp.throughConfigure, himpl, hconf]
  · simp [deinitializePlugin, hservice, grounded_iff, PluginOp.throughImplementation,
      PluginOp.throughConfigure]

/-- **Both calls** are grounded. -/
theorem grounded_pluginCall (c : PluginCall) {k : PluginState} (hk : k.Settled)
    (hready : c.ready k) : pluginMachine.wlp Grounded c.body
      (fun r k' => c.Done k r k' ∧ k'.Settled) k := by
  have hground : pluginMachine.wlp Grounded c.body (fun _ _ => True) k := by
    cases c with
    | initializeFor service =>
      have hreset : k.Reset := by
        rcases hk.status with hreset | ⟨s, hinit⟩
        · exact hreset
        · exact absurd (hinit.service_eq.symm.trans hready.1) (by simp)
      simp only [PluginCall.body, Machine.wlp_bind, Machine.wlp_pure]
      exact grounded_initializePlugin hreset hk
    | deinitializeFor service =>
      simp only [PluginCall.body, Machine.wlp_bind, Machine.wlp_pure]
      exact grounded_deinitializePlugin hk
  exact Machine.wlp_with (wlp_pluginCall c hk hready) hground fun _ _ h _ => h

end Plugin

end RemoteControl
