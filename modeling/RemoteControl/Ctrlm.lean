import RemoteControl.Doubles
import RemoteControl.Interaction
import RemoteControl.Json
import RemoteControl.Observers
import RemoteControl.Iarm

/-!
# Talking to ctrlm

What passes between the plugin and ctrlm, and how it is turned into the types of
`IRemoteControl`.

* the enumerations, with the strings ctrlm uses for them;
* the structures of `IRemoteControl` and their decoders (`ParseUint32Array`,
  `ParseRemoteInfo`, `ParseRemoteDataArray`);
* `IARMBusCall`, a program over the allocation, the bus call and the release of
  the call buffer, and `exchange`, the frame all methods share around it.

What the functions write to the log is left out, and with it the counter `seen`.
-/

namespace RemoteControl

open Interaction

/-! ## Enumerations -/

/-- `Exchange::WakeupConfig`. -/
inductive WakeupConfig where
  | all
  | none
  | custom
  deriving DecidableEq, Repr

/-- `enumToString<WakeupConfig>`. -/
def WakeupConfig.enumToString : WakeupConfig → String
  | .all => "all"
  | .none => "none"
  | .custom => "custom"

/-- `stringToEnum<WakeupConfig>`. -/
def WakeupConfig.stringToEnum (str : String) (defaultValue : WakeupConfig) : WakeupConfig :=
  match str with
  | "all" => .all
  | "none" => .none
  | "custom" => .custom
  | _ => defaultValue

/-- `Exchange::FindMyRemoteLevel`. -/
inductive FindMyRemoteLevel where
  | off
  | mid
  | high
  deriving DecidableEq, Repr

/-- `enumToString<FindMyRemoteLevel>`. -/
def FindMyRemoteLevel.enumToString : FindMyRemoteLevel → String
  | .off => "off"
  | .mid => "mid"
  | .high => "high"

/-- `Exchange::AVDevType`. -/
inductive AVDevType where
  | tv
  | amp
  deriving DecidableEq, Repr

/-- `enumToString<AVDevType>`. -/
def AVDevType.enumToString : AVDevType → String
  | .tv => "TV"
  | .amp => "AMP"

/-- The `stringToEnum` that has no default value. -/
def AVDevType.stringToEnum : String → Option AVDevType
  | "TV" => some .tv
  | "AMP" => some .amp
  | _ => none

/-- `Exchange::PairingState`. -/
inductive PairingState where
  | initialising
  | idle
  | searching
  | pairing
  | complete
  | failed
  deriving DecidableEq, Repr

/-- `stringToEnum<PairingState>`. -/
def PairingState.stringToEnum (str : String) (defaultValue : PairingState) : PairingState :=
  match str with
  | "INITIALIZING" => .initialising
  | "INITIALISING" => .initialising
  | "IDLE" => .idle
  | "SEARCHING" => .searching
  | "PAIRING" => .pairing
  | "COMPLETE" => .complete
  | "FAILED" => .failed
  | _ => defaultValue

/-- `Exchange::IRProgState`. -/
inductive IRProgState where
  | idle
  | waiting
  | complete
  | failed
  deriving DecidableEq, Repr

/-- `stringToEnum<IRProgState>`. -/
def IRProgState.stringToEnum (str : String) (defaultValue : IRProgState) : IRProgState :=
  match str with
  | "IDLE" => .idle
  | "WAITING" => .waiting
  | "COMPLETE" => .complete
  | "FAILED" => .failed
  | _ => defaultValue

/-- `Exchange::FirmwareUpdateState`. -/
inductive FirmwareUpdateState where
  | success
  | idle
  | pending
  | canceled
  | retrying
  | error
  | invalid
  deriving DecidableEq, Repr

/-- `stringToEnum<FirmwareUpdateState>`. -/
def FirmwareUpdateState.stringToEnum (str : String) (defaultValue : FirmwareUpdateState) :
    FirmwareUpdateState :=
  match str with
  | "success" => .success
  | "idle" => .idle
  | "pending" => .pending
  | "canceled" => .canceled
  | "retrying" => .retrying
  | "error" => .error
  | "invalid" => .invalid
  | _ => defaultValue

/-! ## Structures -/

/-- `Exchange::PairedRemoteInfo`. -/
structure PairedRemoteInfo where
  macAddress : String
  connected : Bool
  name : String
  remoteId : UInt32
  deviceId : UInt32
  make : String
  model : String
  hwVersion : String
  swVersion : String
  btlVersion : String
  serialNumber : String
  batteryPercent : UInt32
  tvIRCode : String
  ampIRCode : String
  wakeupKeyCode : UInt32
  upgradeSessionId : String
  wakeupConfig : WakeupConfig
  wakeupCustomList : List UInt32
  deriving DecidableEq

/-- `Exchange::NetStatusData`. -/
structure NetStatusData where
  netType : UInt32
  pairingState : PairingState
  irProgState : IRProgState
  netTypesSupported : List UInt32
  remoteData : List PairedRemoteInfo
  deriving DecidableEq

/-- `Exchange::FirmwareUpdateStatusData`. -/
structure FirmwareUpdateStatusData where
  upgradeSessionId : String
  macAddress : String
  upgradeState : FirmwareUpdateState
  percentComplete : UInt32
  errorString : Option String
  deriving DecidableEq

/-- An `IStringIterator`: the strings it hands out. An output parameter of this
type is a pointer, which may be null. -/
structure StringIterator where
  elements : List String
  deriving DecidableEq

/-! ## Decoders -/

/-- `static_cast<uint32_t>` of what `Number()` returns. -/
def castUint32 (number : Int64) : UInt32 :=
  number.toUInt64.toUInt32

/-- The range check of `ParseUint32Array`, made on a `double`, and the cast of it. -/
def clampUint32 (number : Int64) : UInt32 :=
  let number := Doubles.ofInt number.toInt
  if 0 ≤ number ∧ number ≤ 4294967295 then UInt32.ofNat number.toNat
  else if 0 < number then 4294967295
  else 0

/-- The loop of `ParseUint32Array` and `ParseRemoteDataArray`: once `limit`
elements are decoded it only goes on to the end of the array. -/
def decodeUpTo {α β : Type} (decode : α → β) (limit : ℕ) : List α → List β → List β
  | [], result => result
  | element :: rest, result =>
    if limit ≤ result.length then decodeUpTo decode limit rest result
    else decodeUpTo decode limit rest (result ++ [decode element])

/-- What is decoded is the first elements, up to the limit, each by itself. -/
theorem decodeUpTo_eq {α β : Type} (decode : α → β) (limit : ℕ) (l : List α) (result : List β) :
    decodeUpTo decode limit l result = result ++ (l.take (limit - result.length)).map decode := by
  induction l generalizing result with
  | nil => rw [decodeUpTo, List.take_nil, List.map_nil, List.append_nil]
  | cons element rest ih =>
    rcases Nat.lt_or_ge result.length limit with hroom | hfull
    · obtain ⟨n, hn⟩ := Nat.exists_eq_add_of_lt hroom
      have hleft : limit - result.length = n + 1 := by omega
      rw [decodeUpTo, if_neg (Nat.not_le.mpr hroom), ih, List.length_append, List.length_singleton,
        hleft, List.take_succ_cons, List.map_cons, List.append_assoc, List.singleton_append,
        show limit - (result.length + 1) = n by omega]
    · rw [decodeUpTo, if_pos hfull, ih, Nat.sub_eq_zero_of_le hfull, List.take_zero,
        List.take_zero]

variable (J : JsonLib)

/-- `ParseUint32Array(value, limit, fieldName)`; the name only goes to the log. -/
def parseUint32Array (value : J.Variant) (limit : ℕ) : List UInt32 :=
  decodeUpTo (fun element => clampUint32 (J.number element)) limit (J.elements (J.array value)) []

/-- `ParseRemoteInfo(obj)`. -/
def parseRemoteInfo (obj : J.Object) : PairedRemoteInfo where
  macAddress := J.fieldOr obj "macAddress" J.string ""
  connected := J.fieldOr obj "connected" J.boolean false
  name := J.fieldOr obj "name" J.string ""
  remoteId := J.fieldOr obj "remoteId" (fun v => castUint32 (J.number v)) 0
  deviceId := J.fieldOr obj "deviceId" (fun v => castUint32 (J.number v)) 0
  make := J.fieldOr obj "make" J.string ""
  model := J.fieldOr obj "model" J.string ""
  hwVersion := J.fieldOr obj "hwVersion" J.string ""
  swVersion := J.fieldOr obj "swVersion" J.string ""
  btlVersion := J.fieldOr obj "btlVersion" J.string ""
  serialNumber := J.fieldOr obj "serialNumber" J.string ""
  batteryPercent := J.fieldOr obj "batteryPercent" (fun v => castUint32 (J.number v)) 0
  tvIRCode := J.fieldOr obj "tvIRCode" J.string "0"
  ampIRCode := J.fieldOr obj "ampIRCode" J.string "0"
  wakeupKeyCode := J.fieldOr obj "wakeupKeyCode" (fun v => castUint32 (J.number v)) 0
  upgradeSessionId := J.fieldOr obj "upgradeSessionId" J.string ""
  wakeupConfig :=
    J.fieldOr obj "wakeupConfig" (fun v => WakeupConfig.stringToEnum (J.string v) .none) .none
  wakeupCustomList :=
    J.fieldOr obj "wakeupCustomList" (fun v => parseUint32Array J v 32) []

/-- `ParseRemoteDataArray(value, limit)`. -/
def parseRemoteDataArray (value : J.Variant) (limit : ℕ) : List PairedRemoteInfo :=
  decodeUpTo (fun element => parseRemoteInfo J (J.object element)) limit
    (J.elements (J.array value)) []

/-- The image of an array of numbers. -/
theorem parseUint32Array_eq (value : J.Variant) (limit : ℕ) :
    parseUint32Array J value limit =
      ((J.elements (J.array value)).take limit).map fun element =>
        clampUint32 (J.number element) := by
  rw [parseUint32Array, decodeUpTo_eq, List.length_nil, Nat.sub_zero, List.nil_append]

/-- The image of an array of remotes. -/
theorem parseRemoteDataArray_eq (value : J.Variant) (limit : ℕ) :
    parseRemoteDataArray J value limit =
      ((J.elements (J.array value)).take limit).map fun element =>
        parseRemoteInfo J (J.object element) := by
  rw [parseRemoteDataArray, decodeUpTo_eq, List.length_nil, Nat.sub_zero, List.nil_append]

/-! ## The bus call -/

/-- The calls of ctrlm the plugin makes: `CTRLM_MAIN_IARM_CALL_*`. -/
inductive CtrlmCall where
  | startPairing
  | stopPairing
  | getRcuStatus
  | irManufacturers
  | irModels
  | irAutoLookup
  | irCodes
  | irSetCode
  | irClearCode
  | lastKeypressGet
  | writeRcuWakeupConfig
  | irInitialize
  | findMyRemote
  | factoryReset
  | unpair
  | startFirmwareUpdate
  | cancelFirmwareUpdate
  | statusFirmwareUpdate
  deriving DecidableEq, Repr

/-- `IARM_FACTORY_RESET_TIMEOUT`, in milliseconds. -/
def iarmFactoryResetTimeout : ℤ := 15 * 1000

/-- `IARM_IRDB_CALLS_TIMEOUT`, in milliseconds. -/
def iarmIrdbCallsTimeout : ℤ := 10 * 1000

/-- What a method does besides computing. -/
inductive CtrlmOp where
  /-- `calloc` of a `ctrlm_main_iarm_call_json_t` with room for so many characters
  of payload -/
  | calloc (payloadSize : ℕ)
  /-- `IARM_Bus_Call(CTRLM_MAIN_IARM_BUS_NAME, method, call, totalsize)` -/
  | busCall (method : CtrlmCall) (payload : List Char)
  /-- `IARM_Bus_Call_with_IPCTimeout(…, timeoutMs)` -/
  | busCallWithIPCTimeout (method : CtrlmCall) (payload : List Char) (timeoutMs : ℤ)
  /-- `free(call)` -/
  | free
  /-- `Core::Service<RPC::StringIterator>::Create<IStringIterator>(elements)` -/
  | createIterator (elements : List String)
  deriving DecidableEq

/-- The elements of the iterator that is created, if one is. -/
def CtrlmOp.created? : CtrlmOp → Option (List String)
  | .createIterator elements => some elements
  | _ => none

/-- The call of ctrlm and its payload, if the operation is one. -/
def CtrlmOp.sent? : CtrlmOp → Option (CtrlmCall × List Char)
  | .busCall method payload => some (method, payload)
  | .busCallWithIPCTimeout method payload _ => some (method, payload)
  | _ => none

/-- The answer each of these waits for. Of a bus call it is the result and the
text in `call->result`. -/
abbrev CtrlmOp.Answer : CtrlmOp → Type
  | .calloc _ => Bool
  | .busCall .. => IarmResult × String
  | .busCallWithIPCTimeout .. => IarmResult × String
  | _ => Unit

/-- Programs that talk to ctrlm. -/
abbrev CtrlmM : Type → Type := Prog CtrlmOp CtrlmOp.Answer

/-- `calloc`; the answer says whether the pointer is not null. -/
def calloc (payloadSize : ℕ) : CtrlmM Bool := Prog.perform (CtrlmOp.calloc payloadSize)

/-- `IARM_Bus_Call`, with the timeout if there is one. -/
def busCall (method : CtrlmCall) (payload : List Char) (timeoutMs : ℤ) :
    CtrlmM (IarmResult × String) :=
  if timeoutMs > 0 then Prog.perform (CtrlmOp.busCallWithIPCTimeout method payload timeoutMs)
  else Prog.perform (CtrlmOp.busCall method payload)

/-- `free(call)`. -/
def free : CtrlmM Unit := Prog.perform CtrlmOp.free

/-- A new iterator. -/
def createIterator (elements : List String) : CtrlmM (Option StringIterator) := do
  Prog.perform (CtrlmOp.createIterator elements)
  return some ⟨elements⟩

/-- The payload after `jsonParams.copy(call->payload, jsonParams.size())` and
`call->payload[len] = '\0'`. -/
def copied (jsonParams : String) : List Char :=
  let zeroed := List.replicate (jsonParams.length + 1) '\x00'
  let len := jsonParams.length
  (jsonParams.toList ++ zeroed.drop len).set len '\x00'

/-- **The payload** is the whole text and a NUL. -/
theorem copied_eq (jsonParams : String) : copied jsonParams = jsonParams.toList ++ ['\x00'] := by
  have hdrop : (List.replicate (jsonParams.length + 1) '\x00').drop jsonParams.length =
      ['\x00'] := by
    rw [List.drop_replicate, Nat.add_sub_cancel_left]
    rfl
  unfold copied
  dsimp only
  rw [hdrop, ← String.length_toList, List.set_append_right _ _ (Nat.le_refl _), Nat.sub_self]
  rfl

/-- `IARMBusCall(method, jsonParams, result, timeoutMs)`. The callers pass a fresh
`result`; it is returned as the second component. -/
def iarmBusCall (method : CtrlmCall) (jsonParams : String) (result : J.Object)
    (timeoutMs : ℤ) : CtrlmM (HResult × J.Object) := do
  let call ← calloc (jsonParams.length + 1)
  if !call then
    return (.errorGeneral, result)
  let (res, reply) ← busCall method (copied jsonParams) timeoutMs
  if res ≠ .success then
    free
    return (.errorRpcCallFailed, result)
  let result := J.fromString reply
  free
  return (.errorNone, result)

/-- The frame of every method: send `params`, and go on according to what came of
the call. -/
def exchange {α : Type} (method : CtrlmCall) (params : J.Object) (timeoutMs : ℤ)
    (failed : CtrlmM α) (replied : J.Object → CtrlmM α) : CtrlmM α := do
  let jsonParams := J.toString params
  let (callResult, iarmResult) ← iarmBusCall J method jsonParams J.emptyObject timeoutMs
  if callResult ≠ .errorNone then failed else replied iarmResult

/-! ## Outcomes -/

/-- What the system and ctrlm answer to one call. -/
structure Outcome where
  /-- `calloc` succeeds -/
  allocated : Bool
  /-- the result of the bus call -/
  res : IarmResult
  /-- `call->result` -/
  result : String

namespace Outcome

/-- The outcome as an answer to every operation. -/
def answer (w : Outcome) : (o : CtrlmOp) → o.Answer
  | .calloc _ => w.allocated
  | .busCall .. => (w.res, w.result)
  | .busCallWithIPCTimeout .. => (w.res, w.result)
  | .free => ()
  | .createIterator _ => ()

/-- The call fails: there is no memory for it, or the bus says so. -/
def Failed (w : Outcome) : Prop :=
  w.allocated = false ∨ w.res ≠ .success

instance decidableFailed (w : Outcome) : Decidable w.Failed :=
  inferInstanceAs (Decidable (_ ∨ _))

/-- ctrlm answers with this text. -/
def replied (result : String) : Outcome := ⟨true, .success, result⟩

@[simp] theorem not_failed_replied (result : String) : ¬ (replied result).Failed := by
  rintro (h | h)
  · cases h
  · exact h rfl

@[simp] theorem eval_busCall (w : Outcome) (method : CtrlmCall) (payload : List Char)
    (timeoutMs : ℤ) : (busCall method payload timeoutMs).eval w.answer = (w.res, w.result) := by
  unfold busCall
  split
  · rfl
  · rfl

/-- `IARMBusCall` returns `ERROR_NONE` and the reply exactly when the call does not
fail, and otherwise leaves `result` alone. -/
theorem eval_iarmBusCall (w : Outcome) (method : CtrlmCall) (jsonParams : String)
    (result : J.Object) (timeoutMs : ℤ) :
    (iarmBusCall J method jsonParams result timeoutMs).eval w.answer =
      if w.allocated = false then (.errorGeneral, result)
      else if w.res ≠ .success then (.errorRpcCallFailed, result)
      else (.errorNone, J.fromString w.result) := by
  obtain ⟨allocated, res, reply⟩ := w
  cases allocated with
  | false => rfl
  | true =>
    unfold iarmBusCall
    rw [Prog.eval_bind]
    show Prog.eval _ (busCall _ _ _ >>= _) = _
    rw [Prog.eval_bind, eval_busCall]
    cases res with
    | success => rfl
    | _ => rfl

/-- `IARMBusCall` sends the text that it copied, once, if there is memory for it. -/
theorem ops_iarmBusCall (w : Outcome) (method : CtrlmCall) (jsonParams : String)
    (result : J.Object) (timeoutMs : ℤ) :
    ∃ send : CtrlmOp, send.created? = none ∧ send.sent? = some (method, copied jsonParams) ∧
      (iarmBusCall J method jsonParams result timeoutMs).ops w.answer =
        .calloc (jsonParams.length + 1) :: if w.allocated = true then [send, .free] else [] := by
  obtain ⟨allocated, res, reply⟩ := w
  unfold iarmBusCall busCall
  -- the operation that sends is the one with a timeout, or the one without
  by_cases htimeout : timeoutMs > 0
  · simp only [if_pos htimeout]
    refine ⟨.busCallWithIPCTimeout method (copied jsonParams) timeoutMs, rfl, rfl, ?_⟩
    cases allocated <;> cases res <;> rfl
  · simp only [if_neg htimeout]
    refine ⟨.busCall method (copied jsonParams), rfl, rfl, ?_⟩
    cases allocated <;> cases res <;> rfl

/-- The frame of the methods: the failure branch when the call fails, and
otherwise the other branch with the reply. -/
@[simp] theorem eval_exchange {α : Type} (w : Outcome) (method : CtrlmCall) (params : J.Object)
    (timeoutMs : ℤ) (failed : CtrlmM α) (replied : J.Object → CtrlmM α) :
    (exchange J method params timeoutMs failed replied).eval w.answer =
      if w.Failed then failed.eval w.answer
      else (replied (J.fromString w.result)).eval w.answer := by
  unfold exchange
  rw [Prog.eval_bind, eval_iarmBusCall]
  obtain ⟨allocated, res, reply⟩ := w
  cases allocated with
  | false => rfl
  | true =>
    cases res with
    | success => rfl
    | _ => rfl

/-- What the methods do: the call, and then what the branch does that they take. -/
@[simp] theorem ops_exchange {α : Type} (w : Outcome) (method : CtrlmCall) (params : J.Object)
    (timeoutMs : ℤ) (failed : CtrlmM α) (replied : J.Object → CtrlmM α) :
    (exchange J method params timeoutMs failed replied).ops w.answer =
      (iarmBusCall J method (J.toString params) J.emptyObject timeoutMs).ops w.answer ++
        if w.Failed then failed.ops w.answer
        else (replied (J.fromString w.result)).ops w.answer := by
  unfold exchange
  rw [Prog.ops_bind, eval_iarmBusCall]
  obtain ⟨allocated, res, reply⟩ := w
  cases allocated with
  | false => rfl
  | true =>
    cases res with
    | success => rfl
    | _ => rfl

@[simp] theorem eval_createIterator (w : Outcome) (elements : List String) :
    (createIterator elements).eval w.answer = some ⟨elements⟩ := rfl

end Outcome

end RemoteControl
