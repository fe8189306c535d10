import Mathlib.Data.List.Basic
import RemoteControl.Observers

/-!
# The IARM bus, as the plugin sees it

The bus library is not part of this repository; what the plugin relies on is its
calls and their answers. Here are the calls (`BusCall`), the answers each can
have, and a record of what a sequence of answered calls has **brought about**
(`Bus.next`): a call has an effect only when it is answered with success, and the
registrations of `remoteEventHandler` are a set, since the bus knows them by bus
name, event id and handler function. Every answered call is also logged.
-/

namespace RemoteControl

/-- `IARM_Result_t`. -/
inductive IarmResult where
  /-- `IARM_RESULT_SUCCESS` -/
  | success
  /-- `IARM_RESULT_INVALID_PARAM` -/
  | invalidParam
  /-- `IARM_RESULT_INVALID_STATE` -/
  | invalidState
  /-- `IARM_RESULT_IPCCORE_FAIL` -/
  | ipccoreFail
  /-- `IARM_RESULT_OOM` -/
  | oom
  deriving DecidableEq, Repr

/-- The ctrlm events `remoteEventHandler` is registered for. -/
inductive RcuEvent where
  /-- `CTRLM_RCU_IARM_EVENT_RCU_STATUS` -/
  | rcuStatus
  /-- `CTRLM_RCU_IARM_EVENT_FIRMWARE_UPDATE_PROGRESS` -/
  | firmwareUpdateProgress
  /-- `CTRLM_RCU_IARM_EVENT_VALIDATION_STATUS` -/
  | validationStatus
  /-- `CTRLM_RCU_IARM_EVENT_CONFIGURATION_COMPLETE` -/
  | configurationComplete
  /-- `CTRLM_RCU_IARM_EVENT_RF4CE_PAIRING_WINDOW_TIMEOUT` -/
  | rf4cePairingWindowTimeout
  deriving DecidableEq, Repr

/-- The calls of the bus library that `Utils::IARM` and the implementation make
outside of `IARMBusCall`. -/
inductive BusCall where
  /-- `IARM_Bus_Init(NAME)` -/
  | init
  /-- `IARM_Bus_Connect()` -/
  | connect
  /-- `IARM_Bus_IsConnected(NAME, &isRegistered)` -/
  | isConnected
  /-- `IARM_Bus_Disconnect()` -/
  | disconnect
  /-- `IARM_Bus_Term()` -/
  | term
  /-- `IARM_Bus_RegisterEventHandler(CTRLM_MAIN_IARM_BUS_NAME, event, remoteEventHandler)` -/
  | registerEventHandler (event : RcuEvent)
  /-- `IARM_Bus_RemoveEventHandler(CTRLM_MAIN_IARM_BUS_NAME, event, remoteEventHandler)` -/
  | removeEventHandler (event : RcuEvent)
  deriving DecidableEq, Repr

/-- What the caller gets back. Of `IARM_Bus_IsConnected` only the out-parameter
`isRegistered` is used; it stays `0` when the call fails. -/
abbrev BusCall.Answer : BusCall → Type
  | .isConnected => ℤ
  | _ => IarmResult

/-- An answered call. -/
inductive BusEvent where
  /-- `IARM_Bus_Init` answered `res` -/
  | init (res : IarmResult)
  /-- `IARM_Bus_Connect` answered `res` -/
  | connect (res : IarmResult)
  /-- `IARM_Bus_IsConnected` left `isRegistered` at this value -/
  | isConnected (isRegistered : ℤ)
  /-- `IARM_Bus_Disconnect` answered `res` -/
  | disconnect (res : IarmResult)
  /-- `IARM_Bus_Term` answered `res` -/
  | term (res : IarmResult)
  /-- `IARM_Bus_RegisterEventHandler` answered `res` -/
  | registerEventHandler (event : RcuEvent) (res : IarmResult)
  /-- `IARM_Bus_RemoveEventHandler` answered `res` -/
  | removeEventHandler (event : RcuEvent) (res : IarmResult)
  deriving DecidableEq

/-- The answered call made of a call and its answer. -/
def BusCall.answered : (c : BusCall) → c.Answer → BusEvent
  | .init, res => .init res
  | .connect, res => .connect res
  | .isConnected, isRegistered => .isConnected isRegistered
  | .disconnect, res => .disconnect res
  | .term, res => .term res
  | .registerEventHandler event, res => .registerEventHandler event res
  | .removeEventHandler event, res => .removeEventHandler event res

/-- What the answered calls of the process have brought about. -/
structure Bus where
  /-- the library is initialised -/
  inited : Bool
  /-- the process is connected -/
  connected : Bool
  /-- the events `remoteEventHandler` is registered for, oldest first -/
  handlers : List RcuEvent
  /-- every answered call, oldest first -/
  log : List BusEvent
  deriving DecidableEq

/-- A bus nothing has been said to. -/
def Bus.blank : Bus := ⟨false, false, [], []⟩

/-- The effect of an answered call. `RemoveEventHandler` of a registered handler
removes it, whatever it answers; the other calls act only on success. -/
def Bus.effect (b : Bus) : BusEvent → Bus
  | .init .success => { b with inited := true }
  | .connect .success => { b with connected := true }
  | .disconnect .success => { b with connected := false }
  | .term .success => { b with inited := false }
  | .registerEventHandler event .success =>
    if event ∈ b.handlers then b else { b with handlers := b.handlers ++ [event] }
  | .removeEventHandler event _ => { b with handlers := b.handlers.erase event }
  | _ => b

/-- The bus after an answered call. -/
def Bus.next (b : Bus) (e : BusEvent) : Bus :=
  { b.effect e with log := b.log ++ [e] }

end RemoteControl
