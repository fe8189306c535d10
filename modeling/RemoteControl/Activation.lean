import Mathlib.Tactic.Abel
import RemoteControl.Plugin

/-!
# Activation: what `Initialize` and `Deinitialize` do

* `Reset`, `Initialised` — the two states the plugin may be in between two calls:
  it holds nothing, or one of everything. `Settled` adds what is remembered of the past.
* `Launching`, `Retiring` — the proof outlines of the two functions: what is true
  **at each operation**, whatever has been answered so far. They say where a
  connection is terminated, and what `_connectionId` and `_service` are there.
* `wlp_initializePlugin`, `wlp_deinitializePlugin` — from a settled state the two
  functions follow their outlines and end in one of the two states.
-/

namespace RemoteControl

open Interaction

/-! ## Between two calls -/

/-- What is held on account of the members alone: everything that a failed `Initialize`
may have to give back. -/
def PluginMembers.held (m : PluginMembers) : List Resource :=
  (match m.service with
    | some s => [.shell s, .connectionNotification s]
    | none => []) ++
  (match m.implementation with
    | some i => [.implementation i]
    | none => []) ++
  match m.configure with
  | some i => [.configure i]
  | none => []

namespace PluginState

/-- The plugin holds nothing: the members are null, and everything was given back. -/
structure Reset (k : PluginState) : Prop where
  /-- the members are as constructed -/
  members : k.members = .cleared
  /-- whatever was taken was given back, and no more than that -/
  ledger : k.ledger.Balanced
  /-- each remote connection was terminated once -/
  connections : k.terminated = k.obtained
  /-- no null pointer was gone through -/
  crashed : k.crashed = false

/-- The plugin is initialised for `service`: it holds one of everything. -/
structure InitialisedWith (k : PluginState) (service : Shell) (i : ImplId) : Prop where
  /-- the interfaces are those of one implementation -/
  members : k.members = ⟨some i, some i, some service, k.members.connectionId⟩
  /-- one reference on the shell, one through each interface, each registration once -/
  ledger : k.ledger.Holds (k.members.held ++ [.notification i, .jsonRpc])
  /-- the implementation has accepted its configuration -/
  configured : (i, service) ∈ k.configured
  /-- no remote connection is held, and each was terminated once -/
  connections : k.terminated = k.obtained
  /-- no null pointer was gone through -/
  crashed : k.crashed = false

/-- The plugin is initialised for `service`. -/
def Initialised (k : PluginState) (service : Shell) : Prop :=
  ∃ i, k.InitialisedWith service i

/-- The state between two calls. -/
structure Settled (k : PluginState) : Prop where
  /-- one of the two -/
  status : k.Reset ∨ ∃ service, k.Initialised service
  /-- `_connectionId` is what the last `Root` has set it to, and not terminated -/
  current : k.members.service ≠ none → k.roots.getLast? = some k.members.connectionId ∧
    (k.members.connectionId = 0 ∨ k.members.connectionId ∉ k.terminated)
  /-- only connections of former implementations were terminated -/
  former : ∀ c ∈ k.terminated, c ∈ k.roots
  /-- only implementations `Root` has made were configured -/
  made : ∀ p ∈ k.configured, k.ledger.taken (.implementation p.1) ≠ 0

theorem reset_fresh : fresh.Reset := ⟨rfl, Ledger.blank_balanced, rfl, rfl⟩

theorem settled_fresh : fresh.Settled := ⟨.inl reset_fresh, fun h => absurd rfl h, nofun, nofun⟩

theorem Initialised.service_eq {k : PluginState} {service : Shell} (h : k.Initialised service) :
    k.members.service = some service := by
  obtain ⟨i, hi⟩ := h
  rw [hi.members]

theorem Reset.service_eq {k : PluginState} (h : k.Reset) : k.members.service = none := by
  rw [h.members]
  rfl

end PluginState

/-! ## The outlines -/

/-- The operations between the end of a connection and the clearing of `_connectionId`,
that one included. -/
def PluginOp.closing : PluginOp → Prop
  | .act (.connectionRelease _) => True
  | .act (.setConnectionId 0) => True
  | _ => False

/-- What is true at operation `o` of `Initialize(service)`, entered in `e`. -/
@[mk_iff] structure Launching (service : Shell) (e k : PluginState) (o : PluginOp) : Prop where
  /-- `_connectionId` is null, or what this call's `Root` has set it to, and new -/
  current : k.members.connectionId = 0 ∨
    (k.roots = e.roots ++ [k.members.connectionId] ∧ k.members.connectionId ∉ e.roots)
  /-- if the connection is terminated, it is right before its release or the clearing -/
  terminated : k.members.connectionId = 0 ∨ k.terminated = e.terminated ∨
    (k.terminated = e.terminated ++ [k.members.connectionId] ∧ o.closing)
  /-- and the one that is released is this one -/
  released : ∀ c, o = .act (.connectionRelease c) →
    c = k.members.connectionId ∧ k.terminated = e.terminated ++ [c]
  /-- at the clearing, one connection was terminated or none -/
  cleared : o = .act (.setConnectionId 0) → k.terminated = e.terminated ∨
    k.terminated = e.terminated ++ [k.members.connectionId]
  /-- by then `_service` is still set -/
  serving : o.closing → k.members.service = some service
  /-- the implementation is asked for its configuration interface before it is configured -/
  query : o = .queryConfiguration → ∃ i, k.members.implementation = some i ∧
    ∀ s, (i, s) ∉ k.configured
  /-- and it is configured once -/
  configure : o = .configure → k.members.service = some service ∧
    ∃ i, k.members.configure = some i ∧ k.ledger.taken (.implementation i) ≠ 0 ∧
      k.ledger.given (.configure i) < k.ledger.taken (.configure i) ∧ ∀ s, (i, s) ∉ k.configured
  /-- `_notification` is not unregistered -/
  registers : o ≠ .act .unregisterNotification
  /-- and registered once -/
  notification : o ≠ .act .registerJsonRpc →
    ∀ i, k.ledger.taken (.notification i) = k.ledger.given (.notification i)

/-- What is true at operation `o` of a `Deinitialize`, entered in `e`. -/
@[mk_iff] structure Retiring (e k : PluginState) (o : PluginOp) : Prop where
  /-- as long as `_connectionNotification` is registered, nothing has happened -/
  untouched : (∃ s, k.ledger.given (.connectionNotification s) <
    k.ledger.taken (.connectionNotification s)) → k = e
  /-- where the plugin is not initialised, nothing ever happens -/
  unmatched : e.members.service = none → k = e
  /-- nothing is asked of the implementation -/
  quiet : (∀ waitTime className, o ≠ .root waitTime className) ∧ o ≠ .queryConfiguration ∧
    o ≠ .configure ∧ o ≠ .registerNotification
  /-- `_notification` is unregistered where it is registered -/
  notification : o = .act .unregisterNotification → ∃ i, k.members.implementation = some i ∧
    ∀ j, k.ledger.taken (.notification j) =
      k.ledger.given (.notification j) + if j = i then 1 else 0

/-- The state of an `Initialize` that may still have to roll back. -/
structure Pending (service : Shell) (e k : PluginState) : Prop where
  /-- `_service` is set -/
  service : k.members.service = some service
  /-- `_configure` is null or an interface of the implementation -/
  configure : ∀ i ∈ k.members.configure, k.members.implementation = some i
  /-- what is held is told by the members -/
  ledger : k.ledger.Holds k.members.held
  /-- `Root` was called once -/
  roots : k.roots = e.roots ++ [k.members.connectionId]
  /-- and has made a new connection, or none -/
  new : k.members.connectionId = 0 ∨ k.members.connectionId ∉ e.roots
  /-- nothing was terminated -/
  terminated : k.terminated = e.terminated
  /-- each remote connection was terminated once -/
  connections : k.terminated = k.obtained
  /-- no null pointer was gone through -/
  crashed : k.crashed = false
  /-- only connections of former implementations were terminated -/
  former : ∀ c ∈ k.terminated, c ∈ e.roots
  /-- only implementations `Root` has made were configured -/
  made : ∀ p ∈ k.configured, k.ledger.taken (.implementation p.1) ≠ 0

/-- `_notification` is not registered yet. -/
theorem Pending.unlisted {service : Shell} {e k : PluginState} (h : Pending service e k)
    (i : ImplId) : k.ledger.taken (.notification i) = k.ledger.given (.notification i) := by
  rw [h.ledger.taken_eq, PluginMembers.held]
  rcases k.members with ⟨_ | _, _ | _, _ | _, _⟩ <;> simp

/-- The state after `Root`. -/
def PluginState.attached (k : PluginState) (service : Shell) (i? : Option ImplId)
    (c : ConnectionId) : PluginState :=
  { k with
    members := ⟨i?, none, some service, c⟩
    ledger :=
      let ledger := (k.ledger.take (.shell service)).take (.connectionNotification service)
      match i? with
      | some i => ledger.take (.implementation i)
      | none => ledger
    roots := k.roots ++ [c] }

theorem PluginState.Reset.pending_attached {k : PluginState} (hreset : k.Reset)
    (hsettled : k.Settled) {service : Shell} {i? : Option ImplId} {c : ConnectionId}
    (hfresh : ∀ i ∈ i?, k.ledger.taken (.implementation i) = 0) (hc : c = 0 ∨ c ∉ k.roots) :
    Pending service k (k.attached service i? c) where
  service := rfl
  configure := nofun
  ledger := by
    have hbalanced := hreset.ledger
    rcases i? with _ | i <;>
      simp [Ledger.Balanced, Ledger.Holds, PluginState.attached, PluginMembers.held]
        at hbalanced ⊢ <;>
      rw [hbalanced] <;> abel
  roots := rfl
  new := hc
  terminated := rfl
  connections := hreset.connections
  crashed := hreset.crashed
  former := hsettled.former
  made := by
    intro i hi
    have hmade := hsettled.made i hi
    rcases i? with _ | j <;> simp [PluginState.attached, hmade]

/-- Once everything is given back and the connections `l` are terminated, the plugin is
reset and settled. -/
theorem PluginState.closed {k k' : PluginState} {l : List ConnectionId}
    (hconnections : k.terminated = k.obtained) (hcrashed : k.crashed = false)
    (hformer : ∀ c ∈ k.terminated ++ l, c ∈ k.roots)
    (hmade : ∀ p ∈ k.configured, k.ledger.taken (.implementation p.1) ≠ 0)
    (hmembers : k'.members = .cleared) (hledger : k'.ledger.Balanced) (hroots : k'.roots = k.roots)
    (hconfigured : k'.configured = k.configured) (hcrashed' : k'.crashed = k.crashed)
    (hobtained : k'.obtained = k.obtained ++ l) (hterminated : k'.terminated = k.terminated ++ l)
    (htaken : ∀ i, k'.ledger.taken (.implementation i) = k.ledger.taken (.implementation i)) :
    k'.Reset ∧ k'.Settled := by
  have hreset : k'.Reset := by
    refine ⟨hmembers, hledger, ?_, hcrashed'.trans hcrashed⟩
    rw [hterminated, hobtained, hconnections]
  refine ⟨hreset, .inl hreset, fun h => absurd hreset.service_eq h, fun c hc => ?_, fun i hi => ?_⟩
  · rw [hroots]
    exact hformer c (hterminated ▸ hc)
  · rw [htaken]
    exact hmade i (hconfigured ▸ hi)

namespace Plugin

/-- **The rollback** gives everything back. -/
theorem wlp_rollback {service : Shell} {e k : PluginState} (h : Pending service e k) :
    pluginMachine.wlp (Launching service e) (rollback service)
      (fun _ k' => k'.Reset ∧ k'.Settled) k := by
  obtain ⟨⟨i?, conf?, service?, c⟩, ledger, roots, configured, obtained, terminated, crashed⟩ := k
  obtain rfl : service? = some service := h.service
  obtain rfl : roots = e.roots ++ [c] := h.roots
  obtain rfl : terminated = e.terminated := h.terminated
  have hnew : c = 0 ∨ c ∉ e.roots := h.new
  have hheld := h.ledger
  have hformer : ∀ l : List ConnectionId, (∀ c' ∈ l, c' = c) →
      ∀ c' ∈ e.terminated ++ l, c' ∈ e.roots ++ [c] := by
    intro l hl c' hc'
    rw [List.mem_append] at hc' ⊢
    exact hc'.imp (h.former c') fun hc' => List.mem_singleton.mpr (hl c' hc')
  have hnone : ∀ j, ledger.taken (.notification j) = ledger.given (.notification j) := h.unlisted
  -- what is given back depends on how far `Initialize` has come
  rcases i? with _ | i
  · obtain rfl : conf? = none := by
      rcases conf? with _ | j
      · rfl
      · exact absurd (h.configure j rfl) nofun
    simp [rollback, PluginState.did, PluginState.give, launching_iff, PluginOp.closing, hnew,
      hnone]
    refine PluginState.closed h.connections h.crashed (hformer [] nofun) h.made rfl ?_ rfl rfl rfl
      (by simp) (by simp) fun _ => rfl
    simp [Ledger.Balanced, Ledger.Holds, PluginMembers.held] at hheld ⊢
    rw [hheld]
    abel
  · rcases conf? with _ | j
    all_goals
      simp [rollback, dropConfigure, dropImplementation, PluginState.did, PluginState.give,
        PluginState.take, PluginState.connectedTo, launching_iff, PluginOp.closing, hnew,
        hnone]
      -- there may be no remote connection, or there is one to terminate
      refine ⟨PluginState.closed h.connections h.crashed (hformer [] nofun) h.made rfl ?_
          rfl rfl rfl (by simp) (by simp) fun _ => by simp,
        PluginState.closed h.connections h.crashed (hformer [c] (by simp)) h.made rfl ?_
          rfl rfl rfl rfl rfl fun _ => by simp⟩
    all_goals
      simp [Ledger.Balanced, Ledger.Holds, PluginMembers.held] at hheld ⊢
      rw [hheld]
      abel

/-- `QueryInterface` and `Configure`: an empty message comes with a configured
implementation. -/
theorem wlp_configureImplementation {service : Shell} {e k : PluginState} {i : ImplId}
    (h : Pending service e k) (himpl : k.members.implementation = some i)
    (hconf : k.members.configure = none) (hfresh : ∀ s, (i, s) ∉ k.configured) :
    pluginMachine.wlp (Launching service e) configureImplementation
      (fun message k' => Pending service e k' ∧ k'.members.implementation = some i ∧
        (message = "" → k'.members.configure = some i ∧ (i, service) ∈ k'.configured)) k := by
  obtain ⟨⟨i?, conf?, service?, c⟩, ledger, roots, configured, obtained, terminated, crashed⟩ := k
  obtain rfl : i? = some i := himpl
  obtain rfl : conf? = none := hconf
  obtain rfl : service? = some service := h.service
  obtain rfl : roots = e.roots ++ [c] := h.roots
  obtain rfl : terminated = e.terminated := h.terminated
  have hnew : c = 0 ∨ c ∉ e.roots := h.new
  have hi : ∀ s, (i, s) ∉ configured := hfresh
  have htake : (ledger.take (.configure i)).Holds
      (PluginMembers.mk (some i) (some i) (some service) c).held := by
    have hheld := h.ledger
    simp [Ledger.Holds, PluginMembers.held] at hheld ⊢
    rw [hheld]
    abel
  have hmade : ledger.taken (.implementation i) ≠ 0 := by
    rw [h.ledger.taken_eq]
    simp [PluginMembers.held]
  have hnone : ∀ j, ledger.taken (.notification j) = ledger.given (.notification j) := h.unlisted
  have hgiven : ledger.given (.configure i) = ledger.taken (.configure i) := by
    rw [h.ledger.taken_eq]
    simp [PluginMembers.held]
  simp [configureImplementation, PluginState.did, PluginState.take, PluginState.configuredFor,
    launching_iff, PluginOp.closing, hnew, hi, hmade, hgiven, hnone]
  refine ⟨h, fun result => ?_⟩
  by_cases hresult : result = .errorNone
  · simp only [if_pos hresult, Machine.wlp_ret]
    refine ⟨{ h with configure := by simp, ledger := htake, made := fun j hj => ?_ }, trivial,
      by simp⟩
    rcases List.mem_append.mp hj with hj | hj
    · simpa using h.made j hj
    · obtain rfl := List.mem_singleton.mp hj
      simpa using hmade
  · simp only [if_neg hresult, Machine.wlp_ret]
    refine ⟨{ h with configure := by simp, ledger := htake, made := fun j hj => ?_ }, trivial,
      by simp⟩
    simpa using h.made j hj

/-- `Register`, on both sides: an empty message comes with everything. -/
theorem wlp_publish {service : Shell} {e k : PluginState} {i : ImplId} {message : String}
    (h : Pending service e k) (himpl : k.members.implementation = some i)
    (hconf : message = "" → k.members.configure = some i ∧ (i, service) ∈ k.configured) :
    pluginMachine.wlp (Launching service e) (publish message)
      (fun message k' => (message = "" ∧ k'.Initialised service ∧ k'.Settled ∧
          k'.roots = e.roots ++ [k'.members.connectionId]) ∨
        (message ≠ "" ∧ Pending service e k')) k := by
  by_cases hmessage : message = ""
  · obtain ⟨hconfigure, hi⟩ := hconf hmessage
    subst hmessage
    obtain ⟨⟨i?, conf?, service?, c⟩, ledger, roots, configured, obtained, terminated, crashed⟩ := k
    obtain rfl : i? = some i := himpl
    obtain rfl : conf? = some i := hconfigure
    obtain rfl : service? = some service := h.service
    obtain rfl : roots = e.roots ++ [c] := h.roots
    obtain rfl : terminated = e.terminated := h.terminated
    have hnew : c = 0 ∨ c ∉ e.roots := h.new
    have hnone : ∀ j, ledger.taken (.notification j) = ledger.given (.notification j) :=
      h.unlisted
    have hall : ((ledger.take (.notification i)).take .jsonRpc).Holds
        ((PluginMembers.mk (some i) (some i) (some service) c).held ++
          [.notification i, .jsonRpc]) := by
      have hheld := h.ledger
      simp [Ledger.Holds, PluginMembers.held] at hheld ⊢
      rw [hheld]
      abel
    simp [publish, PluginState.take, PluginState.registeredWith, launching_iff, PluginOp.closing,
      hnew, hnone]
    intro result
    by_cases hresult : result = .errorNone
    · simp [hresult, PluginState.did, PluginState.take, launching_iff, PluginOp.closing, hnew]
      have hinit : PluginState.InitialisedWith ⟨⟨some i, some i, some service, c⟩, _,
          e.roots ++ [c], configured, obtained, e.terminated, crashed⟩ service i :=
        ⟨rfl, hall, hi, h.connections, h.crashed⟩
      refine ⟨⟨i, hinit⟩, .inr ⟨service, i, hinit⟩, ?_, fun c' hc' => ?_, fun j hj => ?_⟩
      · exact fun _ => ⟨List.getLast?_concat, hnew.imp id fun hc hc' => hc (h.former c hc')⟩
      · exact List.mem_append_left _ (h.former c' hc')
      · simpa using h.made j hj
    · simp [hresult]
      exact h
  · simp [publish, hmessage]
    exact h

/-- **The acquisitions** after `Root`: an empty message comes with everything, any other
one with what the rollback expects. -/
theorem wlp_acquire {service : Shell} {e k : PluginState} (h : Pending service e k)
    (hconf : k.members.configure = none)
    (hfresh : ∀ i ∈ k.members.implementation, ∀ s, (i, s) ∉ k.configured) :
    pluginMachine.wlp (Launching service e) acquire
      (fun message k' => (message = "" ∧ k'.Initialised service ∧ k'.Settled ∧
          k'.roots = e.roots ++ [k'.members.connectionId]) ∨
        (message ≠ "" ∧ Pending service e k')) k := by
  have hload : Launching service e k .load := by
    rw [launching_iff]
    refine ⟨?_, .inr (.inl h.terminated), nofun, nofun, nofun, nofun, nofun, nofun,
      fun _ => h.unlisted⟩
    exact h.new.imp id fun hc => ⟨h.roots, hc⟩
  simp only [acquire, Machine.wlp_bind, wlp_load]
  refine ⟨hload, ?_⟩
  rcases himpl : k.members.implementation with _ | i
  · simp only [ne_eq, not_true_eq_false, if_false, Machine.wlp_pure]
    exact .inr ⟨by decide, h⟩
  · simp only [ne_eq, reduceCtorEq, not_false_eq_true, if_true, Machine.wlp_bind]
    apply Machine.wlp_post (wlp_configureImplementation h himpl hconf (hfresh i himpl))
    rintro message k' ⟨h', himpl', hconf'⟩
    exact wlp_publish h' himpl' hconf'

/-- **`Initialize`.** -/
theorem wlp_initializePlugin {service : Shell} {k : PluginState} (hreset : k.Reset)
    (hsettled : k.Settled) :
    pluginMachine.wlp (Launching service k) (initializePlugin service)
      (fun message k' => ((message = "" ∧ k'.Initialised service ∧
          k'.roots = k.roots ++ [k'.members.connectionId]) ∨ (message ≠ "" ∧ k'.Reset)) ∧
        k'.Settled) k := by
  have hmembers := hreset.members
  have hnone : ∀ j, k.ledger.taken (.notification j) = k.ledger.given (.notification j) :=
    fun j => congrFun hreset.ledger _
  simp only [initializePlugin, Machine.wlp_bind, wlp_act, wlp_root]
  simp [PluginState.did, PluginState.take, hmembers, PluginMembers.cleared, launching_iff,
    PluginOp.closing, hnone]
  intro i? c hfresh hc
  refine ⟨⟨?_, ?_, ?_⟩, ?_⟩
  · exact hc.imp id fun hc => ⟨rfl, hc⟩
  · exact .inr rfl
  · rcases i? with _ | i <;> simp [PluginState.rooted, hnone]
  · have hpending : Pending service k (k.attached service i? c) :=
      hreset.pending_attached hsettled hfresh hc
    have hnew : ∀ i ∈ (k.attached service i? c).members.implementation,
        ∀ s, (i, s) ∉ k.configured :=
      fun i hi s hmem => hsettled.made (i, s) hmem (hfresh i hi)
    apply Machine.wlp_post (wlp_acquire hpending rfl hnew)
    rintro message k' (⟨rfl, hinit, hsettled', hroots⟩ | ⟨hmessage, hpending'⟩)
    · simp [hinit, hsettled']
      exact hroots
    · simp [hmessage]
      apply Machine.wlp_post (wlp_rollback hpending')
      rintro - k'' ⟨hreset', hsettled'⟩
      simp [hreset', hsettled']

/-- **`Deinitialize`.** -/
theorem wlp_deinitializePlugin {service : Shell} {k : PluginState} (hsettled : k.Settled) :
    pluginMachine.wlp (Retiring k) (deinitializePlugin service)
      (fun _ k' => (k.members.service = some service → k'.Reset) ∧
        (k.members.service ≠ some service → k' = k) ∧ k'.Settled) k := by
  have hfirst : Retiring k k .load := ⟨fun _ => rfl, fun _ => rfl, by simp, nofun⟩
  by_cases hservice : k.members.service = some service
  · obtain ⟨i, hinit⟩ : k.Initialised service := by
      rcases hsettled.status with hreset | ⟨service', hinit⟩
      · exact absurd (hreset.service_eq.symm.trans hservice) nofun
      · obtain rfl := Option.some.inj (hinit.service_eq.symm.trans hservice)
        exact hinit
    obtain ⟨⟨i?, conf?, service?, c⟩, ledger, roots, configured, obtained, terminated, crashed⟩ := k
    obtain ⟨rfl, rfl, rfl, -⟩ := PluginMembers.mk.inj hinit.members
    have hheld := hinit.ledger
    have hregistered : ∀ s, ledger.taken (.connectionNotification s) =
        ledger.given (.connectionNotification s) +
          (Pi.single (.connectionNotification service) 1 : Resource → ℕ)
            (.connectionNotification s) := by
      intro s
      rw [hheld.taken_eq]
      by_cases hs : s = service
      · simp [hs, PluginMembers.held]
      · simp [hs, Ne.symm hs, PluginMembers.held]
    have hnotification : ∀ j, ledger.taken (.notification j) =
        ledger.given (.notification j) + if j = i then 1 else 0 := by
      intro j
      rw [hheld.taken_eq]
      by_cases hj : j = i
      · simp [hj, PluginMembers.held]
      · simp [hj, Ne.symm hj, PluginMembers.held]
    have hroot : c ∈ roots := List.mem_of_getLast? (hsettled.current (by simp)).1
    have hformer : ∀ l : List ConnectionId, (∀ c' ∈ l, c' = c) →
        ∀ c' ∈ terminated ++ l, c' ∈ roots := by
      intro l hl c' hc'
      rcases List.mem_append.mp hc' with hc' | hc'
      · exact hsettled.former c' hc'
      · exact hl c' hc' ▸ hroot
    simp [deinitializePlugin, dropConfigure, dropImplementation, PluginState.did, PluginState.give,
      PluginState.take, PluginState.connectedTo, retiring_iff, hregistered, hnotification]
    refine ⟨PluginState.closed hinit.connections hinit.crashed (hformer [] nofun) hsettled.made
        rfl ?_ rfl rfl rfl (by simp) (by simp) fun _ => by simp,
      PluginState.closed hinit.connections hinit.crashed (hformer [c] (by simp)) hsettled.made
        rfl ?_ rfl rfl rfl rfl rfl fun _ => by simp⟩
    all_goals
      simp [Ledger.Balanced, Ledger.Holds, PluginMembers.held] at hheld ⊢
      rw [hheld]
      abel
  · simp [deinitializePlugin, hservice, hfirst, hsettled]

end Plugin

/-! ## The calls -/

/-- The calls of the plugin. -/
inductive PluginCall where
  /-- `Initialize(service)` -/
  | initializeFor (service : Shell)
  /-- `Deinitialize(service)` -/
  | deinitializeFor (service : Shell)
  deriving DecidableEq

/-- The program behind a call; only `Initialize` returns something. -/
def PluginCall.body : PluginCall → PluginM (Option String)
  | .initializeFor service => do
    let message ← Plugin.initializePlugin service
    return some message
  | .deinitializeFor service => do
    Plugin.deinitializePlugin service
    return none

/-- `Initialize` asserts that the plugin is not initialised. -/
def PluginCall.ready (k : PluginState) : PluginCall → Prop
  | .initializeFor _ =>
    k.members.service = none ∧ k.members.implementation = none ∧ k.members.connectionId = 0
  | .deinitializeFor _ => True

instance PluginCall.decidableReady (k : PluginState) : (c : PluginCall) → Decidable (c.ready k)
  | .initializeFor _ => inferInstanceAs (Decidable (_ ∧ _ ∧ _))
  | .deinitializeFor _ => .isTrue trivial

/-- What is true at each operation of a call, entered in `e`. -/
def PluginCall.Outline (e : PluginState) : PluginCall → PluginState → PluginOp → Prop
  | .initializeFor service => Launching service e
  | .deinitializeFor _ => Retiring e

/-- What is true when a call, entered in `e`, returns `r` in `k`. -/
def PluginCall.Done (e : PluginState) (c : PluginCall) (r : Option String) (k : PluginState) :
    Prop :=
  match c with
  | .initializeFor service => ∃ message, r = some message ∧
      ((message = "" ∧ k.Initialised service ∧ k.roots = e.roots ++ [k.members.connectionId]) ∨
        (message ≠ "" ∧ k.Reset))
  | .deinitializeFor service => (e.members.service = some service → k.Reset) ∧
      (e.members.service ≠ some service → k = e)

/-- **Both calls** follow their outlines and return to a settled state. -/
theorem wlp_pluginCall (c : PluginCall) {k : PluginState} (hk : k.Settled) (hready : c.ready k) :
    pluginMachine.wlp (c.Outline k) c.body (fun r k' => c.Done k r k' ∧ k'.Settled) k := by
  cases c with
  | initializeFor service =>
    have hreset : k.Reset := by
      rcases hk.status with hreset | ⟨s, hinit⟩
      · exact hreset
      · exact absurd (hinit.service_eq.symm.trans hready.1) (by simp)
    simp only [PluginCall.body, Machine.wlp_bind, Machine.wlp_pure]
    apply Machine.wlp_post (Plugin.wlp_initializePlugin hreset hk)
    rintro message k' ⟨hmessage, hk'⟩
    exact ⟨⟨message, rfl, hmessage⟩, hk'⟩
  | deinitializeFor service =>
    simp only [PluginCall.body, Machine.wlp_bind, Machine.wlp_pure]
    apply Machine.wlp_post (Plugin.wlp_deinitializePlugin hk)
    rintro - k' ⟨hown, hother, hk'⟩
    exact ⟨⟨hown, hother⟩, hk'⟩

/-- The outline of a call, together with what is known of where it was entered. -/
def PluginCall.Track (e : PluginState) (c : PluginCall) (k : PluginState) (o : PluginOp) : Prop :=
  c.Outline e k o ∧ e.Settled

/-- The calls are in order. -/
abbrev PluginCore {T E : Type}
    (W : Setting PluginCall PluginOp PluginOp.Answer (Option String) PluginState T E)
    (s : Conf PluginCall PluginOp PluginOp.Answer (Option String) PluginState T) : Prop :=
  W.CoreOk (fun c e => c.Track e) (fun c e => c.Done e) PluginState.Settled s

theorem wlp_track (c : PluginCall) {k : PluginState} (hk : k.Settled) (hready : c.ready k) :
    pluginMachine.wlp (c.Track k) c.body (fun r k' => c.Done k r k' ∧ k'.Settled) k :=
  Machine.wlp_mono (fun _ _ h => ⟨h, hk⟩) (fun _ _ h => h) _ k (wlp_pluginCall c hk hready)

/-- Answers: `Root` makes implementation `i` behind connection `c`, `Configure` and `Register`
answer as given, and all the rest goes well. -/
def hosted (i : ImplId) (c : ConnectionId) (configured registered : HResult) (k : PluginState) :
    (o : PluginOp) → o.Answer
  | .act _ => ()
  | .load => k.members
  | .root _ _ => (some i, c)
  | .queryConfiguration => true
  | .configure => configured
  | .registerNotification => registered
  | .remoteConnection _ => true

end RemoteControl
