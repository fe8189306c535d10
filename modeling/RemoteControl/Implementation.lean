import RemoteControl.Iarm
import RemoteControl.Interaction
import RemoteControl.Ledger

/-!
# `RemoteControlImplementation`: its life on the bus

The part of the implementation that has a life cycle: the constructor,
`Configure`, `InitializeIARM`, `DeinitializeIARM` and the destructor, together
with `Utils::IARM`, whose `init` does the connecting. Each is a program over the
operations of `ImplOp`, in the order in which the code performs them; what the
bus answers is open.

`implMachine` gives the operations their meaning for one process: the members of
the object, the static `_instance`, the bus, and the references taken on shells.
-/

namespace RemoteControl

open Interaction

/-- An `IShell*` that is not null. -/
abbrev Shell : Type := ℕ

/-- A `RemoteControlImplementation*` that is not null. -/
abbrev ImplId : Type := ℕ

/-- The members `_service`, `_hasOwnProcess` and `_handlersRegistered`. The
counter is a `uint8_t`; it never passes five. -/
structure Members where
  /-- `_service` -/
  service : Option Shell
  /-- `_hasOwnProcess` -/
  hasOwnProcess : Bool
  /-- `_handlersRegistered` -/
  handlersRegistered : ℕ
  deriving DecidableEq

/-- The members as the constructor leaves them. -/
def Members.constructed : Members := ⟨none, false, 0⟩

namespace Members

/-- `_service = service`. -/
def serving (m : Members) (service : Option Shell) : Members := { m with service := service }

/-- `_hasOwnProcess = b`. -/
def owning (m : Members) (b : Bool) : Members := { m with hasOwnProcess := b }

/-- `_handlersRegistered++`. -/
def counted (m : Members) : Members :=
  { m with handlersRegistered := m.handlersRegistered + 1 }

/-- `_handlersRegistered = 0`. -/
def uncounted (m : Members) : Members := { m with handlersRegistered := 0 }

@[simp] theorem service_serving (m : Members) (service : Option Shell) :
    (m.serving service).service = service := rfl

@[simp] theorem hasOwnProcess_serving (m : Members) (service : Option Shell) :
    (m.serving service).hasOwnProcess = m.hasOwnProcess := rfl

@[simp] theorem handlersRegistered_serving (m : Members) (service : Option Shell) :
    (m.serving service).handlersRegistered = m.handlersRegistered := rfl

@[simp] theorem service_owning (m : Members) (b : Bool) : (m.owning b).service = m.service := rfl

@[simp] theorem hasOwnProcess_owning (m : Members) (b : Bool) :
    (m.owning b).hasOwnProcess = b := rfl

@[simp] theorem handlersRegistered_owning (m : Members) (b : Bool) :
    (m.owning b).handlersRegistered = m.handlersRegistered := rfl

@[simp] theorem service_counted (m : Members) : m.counted.service = m.service := rfl

@[simp] theorem hasOwnProcess_counted (m : Members) :
    m.counted.hasOwnProcess = m.hasOwnProcess := rfl

@[simp] theorem handlersRegistered_counted (m : Members) :
    m.counted.handlersRegistered = m.handlersRegistered + 1 := rfl

@[simp] theorem service_uncounted (m : Members) : m.uncounted.service = m.service := rfl

@[simp] theorem hasOwnProcess_uncounted (m : Members) :
    m.uncounted.hasOwnProcess = m.hasOwnProcess := rfl

@[simp] theorem handlersRegistered_uncounted (m : Members) :
    m.uncounted.handlersRegistered = 0 := rfl

theorem serving_of_eq {m : Members} {service : Option Shell} (h : m.service = service) :
    m.serving service = m := by
  rw [serving, ← h]

theorem owning_of_eq {m : Members} {b : Bool} (h : m.hasOwnProcess = b) : m.owning b = m := by
  rw [owning, ← h]

theorem uncounted_of_zero {m : Members} (h : m.handlersRegistered = 0) : m.uncounted = m := by
  rw [uncounted, ← h]

end Members

/-- The operations the life cycle is made of. -/
inductive ImplOp where
  /-- a call of the bus library -/
  | bus (c : BusCall)
  /-- read the members -/
  | load
  /-- write the members -/
  | store (m : Members)
  /-- `_service->AddRef()` -/
  | serviceAddRef
  /-- `_service->Release()` -/
  | serviceRelease
  /-- `_instance = p`, under `_instanceLock` -/
  | setInstance (p : Option ImplId)
  /-- the destructor's section under `_adminLock` -/
  | releaseObservers
  /-- `usleep(usec)` -/
  | usleep (usec : ℕ)
  /-- the destructor is through: the object is gone -/
  | endOfLifetime
  deriving DecidableEq

/-- The answer each operation waits for. -/
abbrev ImplOp.Answer : ImplOp → Type
  | .bus c => c.Answer
  | .load => Members
  | _ => Unit

/-- Programs of the implementation. -/
abbrev ImplM : Type → Type := Prog ImplOp ImplOp.Answer

/-- One operation. -/
def perform (o : ImplOp) : ImplM o.Answer := Prog.perform o

/-- `IARM_Bus_Init(NAME)`. -/
def iarmBusInit : ImplM IarmResult := perform (.bus .init)

/-- `IARM_Bus_Connect()`. -/
def iarmBusConnect : ImplM IarmResult := perform (.bus .connect)

/-- `IARM_Bus_IsConnected(NAME, &isRegistered)`; the answer is `isRegistered`. -/
def iarmBusIsConnected : ImplM ℤ := perform (.bus .isConnected)

/-- `IARM_Bus_Disconnect()`. -/
def iarmBusDisconnect : ImplM IarmResult := perform (.bus .disconnect)

/-- `IARM_Bus_Term()`. -/
def iarmBusTerm : ImplM IarmResult := perform (.bus .term)

/-- `IARM_Bus_RegisterEventHandler(CTRLM_MAIN_IARM_BUS_NAME, event, remoteEventHandler)`. -/
def iarmBusRegisterEventHandler (event : RcuEvent) : ImplM IarmResult :=
  perform (.bus (.registerEventHandler event))

/-- `IARM_Bus_RemoveEventHandler(CTRLM_MAIN_IARM_BUS_NAME, event, remoteEventHandler)`. -/
def iarmBusRemoveEventHandler (event : RcuEvent) : ImplM IarmResult :=
  perform (.bus (.removeEventHandler event))

/-- Read the members. -/
def load : ImplM Members := perform .load

/-- Write the members. -/
def store (m : Members) : ImplM Unit := perform (.store m)

/-- `_service->AddRef()`. -/
def serviceAddRef : ImplM Unit := perform .serviceAddRef

/-- `_service->Release()`. -/
def serviceRelease : ImplM Unit := perform .serviceRelease

/-- `_instance = p`, under `_instanceLock`. -/
def setInstance (p : Option ImplId) : ImplM Unit := perform (.setInstance p)

/-- The destructor's section under `_adminLock`. -/
def releaseObservers : ImplM Unit := perform .releaseObservers

/-- `usleep(usec)`. -/
def usleep (usec : ℕ) : ImplM Unit := perform (.usleep usec)

/-- The destructor is through. -/
def endOfLifetime : ImplM Unit := perform .endOfLifetime

/-! ## `Utils::IARM` -/

namespace IARM

/-- `Utils::IARM::isConnected()`. -/
def isConnected : ImplM Bool := do
  let isRegistered ← iarmBusIsConnected
  return decide (isRegistered = 1)

/-- The answers after which `init` goes on. -/
def proceeds (res : IarmResult) : Bool :=
  res = .success || res = .invalidState

/-- One try to get connected: the value of `result` before the `usleep`. -/
def connectOnce : ImplM Bool := do
  let res ← iarmBusInit
  if proceeds res then
    let res ← iarmBusConnect
    if proceeds res then
      isConnected
    else
      return false
  else
    return false

/-- The body of the loop in `init`. -/
def attempt : ImplM Bool := do
  let result ← connectOnce
  if result = false then
    usleep 100000
  return result

/-- The loop in `init`, with `20 - retryCount` retries left. -/
def attempts : ℕ → ImplM Bool
  | 0 => attempt
  | retriesLeft + 1 => do
    if ← attempt then
      return true
    else
      attempts retriesLeft

/-- `Utils::IARM::init()`. -/
def init : ImplM Bool := do
  if ← isConnected then
    return true
  else
    attempts 20

end IARM

/-! ## The implementation -/

/-- The order in which `InitializeIARM` registers the events. -/
def registrationOrder : List RcuEvent :=
  [.rcuStatus, .firmwareUpdateProgress, .validationStatus, .configurationComplete,
    .rf4cePairingWindowTimeout]

/-- The handler removals of `DeinitializeIARM`: in reverse, those that were
successfully registered. -/
def removeHandlers (handlersRegistered : ℕ) : ImplM Unit := do
  if 5 ≤ handlersRegistered then
    let _ ← iarmBusRemoveEventHandler .rf4cePairingWindowTimeout
  if 4 ≤ handlersRegistered then
    let _ ← iarmBusRemoveEventHandler .configurationComplete
  if 3 ≤ handlersRegistered then
    let _ ← iarmBusRemoveEventHandler .validationStatus
  if 2 ≤ handlersRegistered then
    let _ ← iarmBusRemoveEventHandler .firmwareUpdateProgress
  if 1 ≤ handlersRegistered then
    let _ ← iarmBusRemoveEventHandler .rcuStatus

/-- The first block of `DeinitializeIARM`. -/
def removeRegistered : ImplM Unit := do
  let m ← load
  if 0 < m.handlersRegistered then
    removeHandlers m.handlersRegistered
    let m ← load
    store m.uncounted

/-- The second block of `DeinitializeIARM`. -/
def leaveOwnProcess : ImplM Unit := do
  let m ← load
  if m.hasOwnProcess then
    let _ ← iarmBusDisconnect
    let _ ← iarmBusTerm
    let m ← load
    store (m.owning false)

/-- `DeinitializeIARM()`. -/
def deinitializeIARM : ImplM Unit := do
  removeRegistered
  leaveOwnProcess

/-- The expansions of `RC_REGISTER`, one per event, and the `return true` after
them. -/
def registerHandlers : List RcuEvent → ImplM Bool
  | [] => return true
  | event :: rest => do
    let res ← iarmBusRegisterEventHandler event
    if res = .success then
      let m ← load
      store m.counted
      registerHandlers rest
    else
      deinitializeIARM
      return false

/-- `InitializeIARM()`. -/
def initializeIARM : ImplM Bool := do
  let alreadyConnected ← IARM.isConnected
  if ← IARM.init then
    let m ← load
    store (m.owning !alreadyConnected)
    registerHandlers registrationOrder
  else
    let m ← load
    store (m.owning false)
    return false

/-- `_service->Release(); _service = nullptr;` -/
def dropService : ImplM Unit := do
  serviceRelease
  let m ← load
  store (m.serving none)

/-- `Configure(service)`. -/
def configure (service : Shell) : ImplM HResult := do
  let m ← load
  store (m.serving (some service))
  serviceAddRef
  if (← initializeIARM) = false then
    dropService
    return .errorGeneral
  else if (← IARM.isConnected) = false then
    deinitializeIARM
    dropService
    return .errorGeneral
  else
    return .errorNone

/-- The constructor of the instance `self`. -/
def constructor (self : ImplId) : ImplM Unit := do
  store .constructed
  setInstance (some self)

/-- The destructor. -/
def destructor : ImplM Unit := do
  setInstance none
  deinitializeIARM
  releaseObservers
  let m ← load
  if m.service ≠ none then
    dropService
  endOfLifetime

/-! ## What the operations mean -/

/-- The state of one implementation object and of what it shares with its
process. -/
structure ImplState where
  /-- the members of the object -/
  members : Members
  /-- the static `_instance` -/
  theInstance : Option ImplId
  /-- the bus, as far as answered calls have moved it -/
  bus : Bus
  /-- the references the object took on shells -/
  shells : Ledger Shell
  /-- a null pointer was gone through -/
  crashed : Bool
  /-- the destructor has completed -/
  ended : Bool

/-- A new instance, on a bus that has been used before. -/
def ImplState.new (self : ImplId) (bus : Bus) : ImplState where
  members := .constructed
  theInstance := some self
  bus := bus
  shells := .blank
  crashed := false
  ended := false

/-- The effect of an operation with its answer. -/
def ImplState.next (s : ImplState) : (o : ImplOp) → o.Answer → ImplState
  | .bus c, x => { s with bus := s.bus.next (c.answered x) }
  | .store m, _ => { s with members := m }
  | .serviceAddRef, _ =>
    match s.members.service with
    | some service => { s with shells := s.shells.take service }
    | none => { s with crashed := true }
  | .serviceRelease, _ =>
    match s.members.service with
    | some service => { s with shells := s.shells.give service }
    | none => { s with crashed := true }
  | .setInstance p, _ => { s with theInstance := p }
  | .endOfLifetime, _ => { s with ended := true }
  | .load, _ => s
  | .releaseObservers, _ => s
  | .usleep _, _ => s

/-- Only a call of the bus moves the bus, and only a write the members. -/
theorem ImplState.next_frame (s : ImplState) {o : ImplOp} (x : o.Answer)
    (hbus : ∀ c, o ≠ .bus c) (hstore : ∀ m, o ≠ .store m) :
    (s.next o x).members = s.members ∧ (s.next o x).bus = s.bus := by
  cases o with
  | bus c => exact absurd rfl (hbus c)
  | store m => exact absurd rfl (hstore m)
  | serviceAddRef => rcases h : s.members.service <;> simp [ImplState.next, h]
  | serviceRelease => rcases h : s.members.service <;> simp [ImplState.next, h]
  | _ => exact ⟨rfl, rfl⟩

/-- The answers the outside may give: the members as they are, and from the bus
whatever `answers` admits. -/
def ImplState.may (answers : BusEvent → Prop) (s : ImplState) : (o : ImplOp) → o.Answer → Prop
  | .bus c, x => answers (c.answered x)
  | .load, x => x = s.members
  | _, _ => True

/-- The machine of the implementation, on a bus that gives the admitted answers. -/
def implMachine (answers : BusEvent → Prop) : Machine ImplOp ImplOp.Answer ImplState where
  may := ImplState.may answers
  next := ImplState.next

instance (answers : BusEvent → Prop) [DecidablePred answers] (s : ImplState) :
    (o : ImplOp) → (x : o.Answer) → Decidable ((implMachine answers).may s o x)
  | .bus c, x => inferInstanceAs (Decidable (answers (c.answered x)))
  | .load, x => inferInstanceAs (Decidable ((x : Members) = s.members))
  | .store _, _ | .serviceAddRef, _ | .serviceRelease, _ | .setInstance _, _
  | .releaseObservers, _ | .usleep _, _ | .endOfLifetime, _ => .isTrue trivial

/-- The answers of a given bus: the rest of the world has no choice. -/
def replying (reply : Bus → (c : BusCall) → c.Answer) (s : ImplState) :
    (o : ImplOp) → o.Answer
  | .bus c => reply s.bus c
  | .load => s.members
  | .store _ => ()
  | .serviceAddRef => ()
  | .serviceRelease => ()
  | .setInstance _ => ()
  | .releaseObservers => ()
  | .usleep _ => ()
  | .endOfLifetime => ()

theorem may_replying {answers : BusEvent → Prop} {reply : Bus → (c : BusCall) → c.Answer}
    (h : ∀ (b : Bus) (c : BusCall), answers (c.answered (reply b c))) (s : ImplState) (o : ImplOp) :
    (implMachine answers).may s o (replying reply s o) := by
  cases o with
  | bus c => exact h s.bus c
  | load => exact rfl
  | _ => trivial

/-! ### Rules for the operations -/

section Rules

variable {answers : BusEvent → Prop} {G : ImplState → ImplOp → Prop} {s : ImplState}

@[simp] theorem wlp_iarmBusInit (Q : IarmResult → ImplState → Prop) :
    (implMachine answers).wlp G iarmBusInit Q s ↔
      G s (.bus .init) ∧ ∀ res, answers (.init res) →
        Q res { s with bus := s.bus.next (.init res) } := Iff.rfl

@[simp] theorem wlp_iarmBusConnect (Q : IarmResult → ImplState → Prop) :
    (implMachine answers).wlp G iarmBusConnect Q s ↔
      G s (.bus .connect) ∧ ∀ res, answers (.connect res) →
        Q res { s with bus := s.bus.next (.connect res) } := Iff.rfl

@[simp] theorem wlp_iarmBusIsConnected (Q : ℤ → ImplState → Prop) :
    (implMachine answers).wlp G iarmBusIsConnected Q s ↔
      G s (.bus .isConnected) ∧ ∀ v, answers (.isConnected v) →
        Q v { s with bus := s.bus.next (.isConnected v) } := Iff.rfl

@[simp] theorem wlp_iarmBusDisconnect (Q : IarmResult → ImplState → Prop) :
    (implMachine answers).wlp G iarmBusDisconnect Q s ↔
      G s (.bus .disconnect) ∧ ∀ res, answers (.disconnect res) →
        Q res { s with bus := s.bus.next (.disconnect res) } := Iff.rfl

@[simp] theorem wlp_iarmBusTerm (Q : IarmResult → ImplState → Prop) :
    (implMachine answers).wlp G iarmBusTerm Q s ↔
      G s (.bus .term) ∧ ∀ res, answers (.term res) →
        Q res { s with bus := s.bus.next (.term res) } := Iff.rfl

@[simp] theorem wlp_iarmBusRegisterEventHandler (event : RcuEvent)
    (Q : IarmResult → ImplState → Prop) :
    (implMachine answers).wlp G (iarmBusRegisterEventHandler event) Q s ↔
      G s (.bus (.registerEventHandler event)) ∧
        ∀ res, answers (.registerEventHandler event res) →
          Q res { s with bus := s.bus.next (.registerEventHandler event res) } := Iff.rfl

@[simp] theorem wlp_iarmBusRemoveEventHandler (event : RcuEvent)
    (Q : IarmResult → ImplState → Prop) :
    (implMachine answers).wlp G (iarmBusRemoveEventHandler event) Q s ↔
      G s (.bus (.removeEventHandler event)) ∧
        ∀ res, answers (.removeEventHandler event res) →
          Q res { s with bus := s.bus.next (.removeEventHandler event res) } := Iff.rfl

@[simp] theorem wlp_load (Q : Members → ImplState → Prop) :
    (implMachine answers).wlp G load Q s ↔ G s .load ∧ Q s.members s := by
  constructor
  · exact fun ⟨hG, h⟩ => ⟨hG, h _ rfl⟩
  · rintro ⟨hG, h⟩
    refine ⟨hG, fun x hx => ?_⟩
    obtain rfl : x = s.members := hx
    exact h

@[simp] theorem wlp_store (m : Members) (Q : Unit → ImplState → Prop) :
    (implMachine answers).wlp G (store m) Q s ↔
      G s (.store m) ∧ Q () { s with members := m } :=
  and_congr_right fun _ => ⟨fun h => h () trivial, fun h _ _ => h⟩

@[simp] theorem wlp_usleep (usec : ℕ) (Q : Unit → ImplState → Prop) :
    (implMachine answers).wlp G (usleep usec) Q s ↔
      G s (.usleep usec) ∧ Q () s :=
  and_congr_right fun _ => ⟨fun h => h () trivial, fun h _ _ => h⟩

@[simp] theorem wlp_serviceAddRef (Q : Unit → ImplState → Prop) :
    (implMachine answers).wlp G serviceAddRef Q s ↔
      G s .serviceAddRef ∧ Q () (s.next .serviceAddRef ()) :=
  and_congr_right fun _ => ⟨fun h => h () trivial, fun h _ _ => h⟩

@[simp] theorem wlp_serviceRelease (Q : Unit → ImplState → Prop) :
    (implMachine answers).wlp G serviceRelease Q s ↔
      G s .serviceRelease ∧ Q () (s.next .serviceRelease ()) :=
  and_congr_right fun _ => ⟨fun h => h () trivial, fun h _ _ => h⟩

@[simp] theorem wlp_setInstance (p : Option ImplId) (Q : Unit → ImplState → Prop) :
    (implMachine answers).wlp G (setInstance p) Q s ↔
      G s (.setInstance p) ∧ Q () { s with theInstance := p } :=
  and_congr_right fun _ => ⟨fun h => h () trivial, fun h _ _ => h⟩

@[simp] theorem wlp_releaseObservers (Q : Unit → ImplState → Prop) :
    (implMachine answers).wlp G releaseObservers Q s ↔
      G s .releaseObservers ∧ Q () s :=
  and_congr_right fun _ => ⟨fun h => h () trivial, fun h _ _ => h⟩

@[simp] theorem wlp_endOfLifetime (Q : Unit → ImplState → Prop) :
    (implMachine answers).wlp G endOfLifetime Q s ↔
      G s .endOfLifetime ∧ Q () { s with ended := true } :=
  and_congr_right fun _ => ⟨fun h => h () trivial, fun h _ _ => h⟩

end Rules

end RemoteControl
