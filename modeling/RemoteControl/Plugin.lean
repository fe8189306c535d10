import RemoteControl.Implementation

/-!
# `RemoteControl`: the plugin and what it holds

`Initialize` and `Deinitialize` of the plugin object, as programs over the calls they
make on the shell, on the implementation and on a remote connection. What these
answer is open: `Root` may fail, `QueryInterface` may find nothing, `Configure` and
`Register` may refuse, and there may be no `RemoteConnection`.

* `PluginMembers` — the members the two functions work on.
* `Resource` — everything the plugin takes and has to give back, kept in a `Ledger`.
* `PluginAct`, `PluginOp` — the calls; an act answers nothing the code looks at.
* `initializePlugin`, `deinitializePlugin` — the code, statement by statement.
-/

namespace RemoteControl

open Interaction

/-- A connection id; `0` stands for none. -/
abbrev ConnectionId : Type := ℕ

/-- The members `_implementation`, `_configure`, `_service` and `_connectionId`.
`_configure` is an interface of an implementation object, and named by it. -/
structure PluginMembers where
  /-- `_implementation` -/
  implementation : Option ImplId
  /-- `_configure` -/
  configure : Option ImplId
  /-- `_service` -/
  service : Option Shell
  /-- `_connectionId` -/
  connectionId : ConnectionId
  deriving DecidableEq

/-- The members as the constructor leaves them. -/
def PluginMembers.cleared : PluginMembers := ⟨none, none, none, 0⟩

/-- What the plugin takes, and has to give back. -/
inductive Resource where
  /-- a reference on a shell -/
  | shell (service : Shell)
  /-- the registration of `_connectionNotification` with a shell -/
  | connectionNotification (service : Shell)
  /-- a reference on an implementation, through `_implementation` -/
  | implementation (i : ImplId)
  /-- a reference on an implementation, through `_configure` -/
  | configure (i : ImplId)
  /-- the registration of `_notification` with an implementation -/
  | notification (i : ImplId)
  /-- the JSON-RPC methods -/
  | jsonRpc
  /-- a reference on a remote connection -/
  | connection (c : ConnectionId)
  deriving DecidableEq

/-- The calls and assignments whose answer the code does not look at. -/
inductive PluginAct where
  /-- `_service = p` -/
  | setService (p : Option Shell)
  /-- `_service->AddRef()` -/
  | serviceAddRef
  /-- `_service->Release()` -/
  | serviceRelease
  /-- `_service->Register(&_connectionNotification)` -/
  | registerConnectionNotification
  /-- `_service->Unregister(&_connectionNotification)` -/
  | unregisterConnectionNotification
  /-- `_implementation = p` -/
  | setImplementation (p : Option ImplId)
  /-- `_implementation->Release()`; the count it returns is only logged -/
  | implementationRelease
  /-- `_implementation->Unregister(&_notification)` -/
  | unregisterNotification
  /-- `_configure = p` -/
  | setConfigure (p : Option ImplId)
  /-- `_configure->Release()` -/
  | configureRelease
  /-- `Exchange::JRemoteControl::Register(*this, _implementation)` -/
  | registerJsonRpc
  /-- `Exchange::JRemoteControl::Unregister(*this)` -/
  | unregisterJsonRpc
  /-- `connection->Terminate()` -/
  | connectionTerminate (c : ConnectionId)
  /-- `connection->Release()` -/
  | connectionRelease (c : ConnectionId)
  /-- `_connectionId = c` -/
  | setConnectionId (c : ConnectionId)
  deriving DecidableEq

/-- The operations of the plugin. -/
inductive PluginOp where
  /-- one whose answer does not matter -/
  | act (a : PluginAct)
  /-- read the members -/
  | load
  /-- `_service->Root<IRemoteControl>(_connectionId, waitTime, className)`; the answer is
  the interface and what `_connectionId` is set to -/
  | root (waitTime : ℕ) (className : String)
  /-- `_implementation->QueryInterface<IConfiguration>()`; the answer is whether there
  is one -/
  | queryConfiguration
  /-- `_configure->Configure(_service)` -/
  | configure
  /-- `_implementation->Register(&_notification)` -/
  | registerNotification
  /-- `service->RemoteConnection(_connectionId)`; the answer is whether there is one -/
  | remoteConnection (service : Shell)
  deriving DecidableEq

/-- The answer each operation waits for. -/
abbrev PluginOp.Answer : PluginOp → Type
  | .act _ => Unit
  | .load => PluginMembers
  | .root _ _ => Option ImplId × ConnectionId
  | .queryConfiguration => Bool
  | .configure => HResult
  | .registerNotification => HResult
  | .remoteConnection _ => Bool

/-- Programs of the plugin. -/
abbrev PluginM : Type → Type := Prog PluginOp PluginOp.Answer

namespace Plugin

/-- One operation. -/
def perform (o : PluginOp) : PluginM o.Answer := Prog.perform o

/-- An operation whose answer does not matter. -/
def act (a : PluginAct) : PluginM Unit := perform (.act a)

/-- Read the members. -/
def load : PluginM PluginMembers := perform .load

/-- `_service->Root<IRemoteControl>(_connectionId, waitTime, className)`. -/
def root (waitTime : ℕ) (className : String) : PluginM (Option ImplId × ConnectionId) :=
  perform (.root waitTime className)

/-- `_implementation->QueryInterface<IConfiguration>()`. -/
def queryConfiguration : PluginM Bool := perform .queryConfiguration

/-- `_configure->Configure(_service)`. -/
def configure : PluginM HResult := perform .configure

/-- `_implementation->Register(&_notification)`. -/
def registerNotification : PluginM HResult := perform .registerNotification

/-- `service->RemoteConnection(_connectionId)`. -/
def remoteConnection (service : Shell) : PluginM Bool := perform (.remoteConnection service)

/-! ## The code -/

/-- `_configure->Release(); _configure = nullptr;` unless it is null. -/
def dropConfigure : PluginM Unit := do
  let m ← load
  if m.configure ≠ none then
    act .configureRelease
    act (.setConfigure none)

/-- From `RemoteConnection` to the end of the connection: the implementation is
released in between. -/
def dropImplementation (service : Shell) : PluginM Unit := do
  let m ← load
  let connection ← remoteConnection service
  act .implementationRelease
  act (.setImplementation none)
  if connection then
    act (.connectionTerminate m.connectionId)
    act (.connectionRelease m.connectionId)

/-- `Initialize` from the `QueryInterface` to the end of `Configure`: the message. -/
def configureImplementation : PluginM String := do
  let m ← load
  let found ← queryConfiguration
  act (.setConfigure (if found then m.implementation else none))
  if found then
    let result ← configure
    if result ≠ .errorNone then
      return "RemoteControl could not be configured"
    else
      return ""
  else
    return "RemoteControl implementation did not provide a configuration interface"

/-- `Initialize` from there to the end of its acquisitions: the message. -/
def publish (message : String) : PluginM String := do
  if message.isEmpty then
    let registerResult ← registerNotification
    if registerResult ≠ .errorNone then
      return "RemoteControl failed to register notification handler"
    else
      act .registerJsonRpc
      return message
  else
    return message

/-- `Initialize` after `Root`, up to the rollback: the message. -/
def acquire : PluginM String := do
  let m ← load
  if m.implementation ≠ none then
    let message ← configureImplementation
    publish message
  else
    return "RemoteControl could not be instantiated"

/-- The rollback of a failed `Initialize`. -/
def rollback (service : Shell) : PluginM Unit := do
  let m ← load
  if m.implementation ≠ none then
    dropConfigure
    dropImplementation service
  act (.setConnectionId 0)
  act .unregisterConnectionNotification
  act .serviceRelease
  act (.setService none)

/-- `Initialize(service)`. -/
def initializePlugin (service : Shell) : PluginM String := do
  act (.setService (some service))
  act .serviceAddRef
  act .registerConnectionNotification
  let (implementation, _) ← root 2000 "RemoteControlImplementation"
  act (.setImplementation implementation)
  let message ← acquire
  if message.isEmpty = false then
    rollback service
  return message

/-- `Deinitialize(service)`. -/
def deinitializePlugin (service : Shell) : PluginM Unit := do
  let m ← load
  if m.service ≠ some service then
    return ()
  else
    act .unregisterConnectionNotification
    let m ← load
    if m.implementation ≠ none then
      act .unregisterNotification
      act .unregisterJsonRpc
      dropConfigure
      dropImplementation service
    act (.setConnectionId 0)
    act .serviceRelease
    act (.setService none)

end Plugin

/-! ## What the operations mean -/

/-- The plugin and what it has taken. -/
structure PluginState where
  /-- the members -/
  members : PluginMembers
  /-- what it has taken and given back -/
  ledger : Ledger Resource
  /-- what `Root` has set `_connectionId` to, oldest first -/
  roots : List ConnectionId
  /-- the implementations whose `Configure` has succeeded, with the shell they were given,
  oldest first -/
  configured : List (ImplId × Shell)
  /-- the remote connections it was given, oldest first -/
  obtained : List ConnectionId
  /-- the remote connections it has terminated, oldest first -/
  terminated : List ConnectionId
  /-- a null pointer was gone through -/
  crashed : Bool

/-- A plugin that was never initialised. -/
def PluginState.fresh : PluginState where
  members := .cleared
  ledger := .blank
  roots := []
  configured := []
  obtained := []
  terminated := []
  crashed := false

namespace PluginState

/-- Go through a pointer. -/
def through {α : Type} (k : PluginState) (p : Option α) (f : α → PluginState) : PluginState :=
  match p with
  | some a => f a
  | none => { k with crashed := true }

@[simp] theorem through_some {α : Type} (k : PluginState) (a : α) (f : α → PluginState) :
    k.through (some a) f = f a := rfl

/-- Take something. -/
def take (k : PluginState) (r : Resource) : PluginState := { k with ledger := k.ledger.take r }

/-- Give something back. -/
def give (k : PluginState) (r : Resource) : PluginState := { k with ledger := k.ledger.give r }

/-- The effect of an act. -/
def did (k : PluginState) : PluginAct → PluginState
  | .setService p => { k with members := { k.members with service := p } }
  | .serviceAddRef => k.through k.members.service fun s => k.take (.shell s)
  | .serviceRelease => k.through k.members.service fun s => k.give (.shell s)
  | .registerConnectionNotification =>
    k.through k.members.service fun s => k.take (.connectionNotification s)
  | .unregisterConnectionNotification =>
    k.through k.members.service fun s => k.give (.connectionNotification s)
  | .setImplementation p => { k with members := { k.members with implementation := p } }
  | .implementationRelease =>
    k.through k.members.implementation fun i => k.give (.implementation i)
  | .unregisterNotification => k.through k.members.implementation fun i => k.give (.notification i)
  | .setConfigure p => { k with members := { k.members with configure := p } }
  | .configureRelease => k.through k.members.configure fun i => k.give (.configure i)
  | .registerJsonRpc => k.take .jsonRpc
  | .unregisterJsonRpc => k.give .jsonRpc
  | .connectionTerminate c => { k with terminated := k.terminated ++ [c] }
  | .connectionRelease c => k.give (.connection c)
  | .setConnectionId c => { k with members := { k.members with connectionId := c } }

/-- The state after `Root` has answered. -/
def rooted (k : PluginState) (implementation : Option ImplId) (c : ConnectionId) : PluginState :=
  { k with
    members := { k.members with connectionId := c }
    roots := k.roots ++ [c]
    ledger :=
      match implementation with
      | some i => k.ledger.take (.implementation i)
      | none => k.ledger }

/-- The state after `Configure` has answered. -/
def configuredFor (k : PluginState) (i : ImplId) (service : Shell) (result : HResult) :
    PluginState :=
  if result = .errorNone then { k with configured := k.configured ++ [(i, service)] } else k

/-- The state after `Register` has answered. -/
def registeredWith (k : PluginState) (i : ImplId) (result : HResult) : PluginState :=
  if result = .errorNone then k.take (.notification i) else k

/-- The state after `RemoteConnection` has answered. -/
def connectedTo (k : PluginState) (c : ConnectionId) (found : Bool) : PluginState :=
  if found then { k.take (.connection c) with obtained := k.obtained ++ [c] } else k

/-- The effect of an operation with its answer. What fails has no effect. -/
def next (k : PluginState) : (o : PluginOp) → o.Answer → PluginState
  | .act a, _ => k.did a
  | .load, _ => k
  | .root _ _, (implementation, c) =>
    k.through k.members.service fun _ => k.rooted implementation c
  | .queryConfiguration, found =>
    k.through k.members.implementation fun i => if found then k.take (.configure i) else k
  | .configure, result =>
    k.through k.members.configure fun i => k.through k.members.service fun s =>
      k.configuredFor i s result
  | .registerNotification, result =>
    k.through k.members.implementation fun i => k.registeredWith i result
  | .remoteConnection _, found => k.connectedTo k.members.connectionId found

/-- The answers the outside may give. `Root` creates a **new** object, and where it
starts a process for it, a connection with a new id. -/
def may (k : PluginState) : (o : PluginOp) → o.Answer → Prop
  | .load, m => m = k.members
  | .root _ _, (implementation, c) =>
    (∀ i ∈ implementation, k.ledger.taken (.implementation i) = 0) ∧ (c = 0 ∨ c ∉ k.roots)
  | _, _ => True

end PluginState

/-- The machine of the plugin. -/
def pluginMachine : Machine PluginOp PluginOp.Answer PluginState where
  may := PluginState.may
  next := PluginState.next

instance (k : PluginState) : (o : PluginOp) → (x : o.Answer) → Decidable (pluginMachine.may k o x)
  | .load, m => inferInstanceAs (Decidable ((m : PluginMembers) = k.members))
  | .root _ _, (implementation, c) =>
    inferInstanceAs (Decidable ((∀ i ∈ implementation, k.ledger.taken (.implementation i) = 0) ∧
      (c = 0 ∨ c ∉ k.roots)))
  | .act _, _ | .queryConfiguration, _ | .configure, _ | .registerNotification, _
  | .remoteConnection _, _ => .isTrue trivial

/-! ### Rules for the operations -/

namespace Plugin

variable {G : PluginState → PluginOp → Prop} {k : PluginState}

@[simp] theorem wlp_act (a : PluginAct) (Q : Unit → PluginState → Prop) :
    pluginMachine.wlp G (act a) Q k ↔ G k (.act a) ∧ Q () (k.did a) :=
  and_congr_right fun _ => ⟨fun h => h () trivial, fun h _ _ => h⟩

@[simp] theorem wlp_load (Q : PluginMembers → PluginState → Prop) :
    pluginMachine.wlp G load Q k ↔ G k .load ∧ Q k.members k :=
  and_congr_right fun _ => ⟨fun h => h _ rfl, fun h _ hm => hm ▸ h⟩

@[simp] theorem wlp_root (waitTime : ℕ) (className : String)
    (Q : Option ImplId × ConnectionId → PluginState → Prop) :
    pluginMachine.wlp G (root waitTime className) Q k ↔
      G k (.root waitTime className) ∧ ∀ implementation c,
        (∀ i ∈ implementation, k.ledger.taken (.implementation i) = 0) ∧ (c = 0 ∨ c ∉ k.roots) →
        Q (implementation, c) (k.through k.members.service fun _ => k.rooted implementation c) :=
  and_congr_right fun _ => ⟨fun h i c hic => h (i, c) hic, fun h x hx => h x.1 x.2 hx⟩

@[simp] theorem wlp_queryConfiguration (Q : Bool → PluginState → Prop) :
    pluginMachine.wlp G queryConfiguration Q k ↔
      G k .queryConfiguration ∧ ∀ found, Q found (k.through k.members.implementation fun i =>
        if found then k.take (.configure i) else k) :=
  and_congr_right fun _ => ⟨fun h found => h found trivial, fun h found _ => h found⟩

@[simp] theorem wlp_configure (Q : HResult → PluginState → Prop) :
    pluginMachine.wlp G configure Q k ↔
      G k .configure ∧ ∀ result, Q result (k.through k.members.configure fun i =>
        k.through k.members.service fun s => k.configuredFor i s result) :=
  and_congr_right fun _ => ⟨fun h result => h result trivial, fun h result _ => h result⟩

@[simp] theorem wlp_registerNotification (Q : HResult → PluginState → Prop) :
    pluginMachine.wlp G registerNotification Q k ↔
      G k .registerNotification ∧ ∀ result, Q result (k.through k.members.implementation fun i =>
        k.registeredWith i result) :=
  and_congr_right fun _ => ⟨fun h result => h result trivial, fun h result _ => h result⟩

@[simp] theorem wlp_remoteConnection (service : Shell) (Q : Bool → PluginState → Prop) :
    pluginMachine.wlp G (remoteConnection service) Q k ↔
      G k (.remoteConnection service) ∧
        ∀ found, Q found (k.connectedTo k.members.connectionId found) :=
  and_congr_right fun _ => ⟨fun h found => h found trivial, fun h found _ => h found⟩

end Plugin

end RemoteControl
