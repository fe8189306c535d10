import RemoteControl.Ctrlm

/-!
# The methods of `IRemoteControl` that call ctrlm

Each is a program from its arguments and from what its output parameters hold
before the call; an assignment to an output is a record update, so that what a
branch does not assign is what was there before. `Returned` keeps the parameters
that are both read and written apart from those that are only written.

Ten methods do nothing but send a request and report whether it succeeded
(`exchangeSuccess`); they differ in how they read the flag.
-/

namespace RemoteControl

open Interaction

/-- What a method hands back: its result, the parameters that go in and out, and
the output parameters. -/
structure Returned (ι ω : Type) where
  /-- the `Core::hresult` -/
  code : HResult
  /-- the parameters that are read and written -/
  inouts : ι
  /-- the parameters that are only written -/
  outs : ω

/-- `return Core::ERROR_NONE;` with the parameters as they are. -/
def finish {ι ω : Type} (inouts : ι) (outs : ω) : CtrlmM (Returned ι ω) :=
  return ⟨.errorNone, inouts, outs⟩

@[simp] theorem eval_finish {ι ω : Type} (w : Outcome) (inouts : ι) (outs : ω) :
    (finish inouts outs).eval w.answer = ⟨.errorNone, inouts, outs⟩ := rfl

/-! ## Output parameters -/

/-- `Exchange::RemoteControlSuccessResult`. -/
structure SuccessResult where
  success : Bool

/-- `Exchange::GetNetStatusResult`. -/
structure GetNetStatusResult where
  success : Bool
  status : NetStatusData

/-- The outputs of `GetIRDBManufacturers`. -/
structure ManufacturersOuts where
  success : Bool
  manufacturers : Option StringIterator

/-- The outputs of `GetIRDBModels`. -/
structure ModelsOuts where
  success : Bool
  models : Option StringIterator

/-- The outputs of `GetIRCodesByAutoLookup`. -/
structure AutoLookupOuts where
  tvManufacturer : String
  tvModel : String
  avrManufacturer : String
  avrModel : String
  success : Bool
  tvCodes : Option StringIterator
  avrCodes : Option StringIterator

/-- The outputs of `GetIRCodesByNames`. -/
structure CodesOuts where
  success : Bool
  codes : Option StringIterator

/-- `Exchange::GetLastKeypressSourceResponse`. -/
structure GetLastKeypressSourceResponse where
  controllerId : UInt32
  timestamp : UInt64
  sourceName : String
  sourceType : String
  sourceKeyCode : UInt32
  bIsScreenBindMode : Bool
  remoteKeypadConfig : UInt32
  success : Bool

/-- The outputs of `StartFirmwareUpdate`. -/
structure StartFirmwareUpdateOuts where
  success : Bool
  sessionIdList : List String

/-- `Exchange::StatusFirmwareUpdateResponse`. -/
structure StatusFirmwareUpdateResponse where
  status : FirmwareUpdateStatusData
  success : Bool

/-! ## Pieces the methods share -/

variable (J : JsonLib)

/-- `iarmResult.HasLabel("success") ? iarmResult["success"].Boolean() : false`. -/
def successIfPresent (iarmResult : J.Object) : Bool :=
  J.fieldOr iarmResult "success" J.boolean false

/-- `iarmResult["success"].Boolean()`. -/
def successFlag (iarmResult : J.Object) : Bool :=
  J.boolean (J.get iarmResult "success")

/-- `JsonObject statusObj; if (result.HasLabel("status")) statusObj = …;` -/
def statusObject (result : J.Object) : J.Object :=
  J.fieldOr result "status" J.object J.emptyObject

/-- `if (!macAddressList.empty()) params["macAddressList"] = …;` -/
def setMacAddressList (params : J.Object) (macAddressList : List String) : J.Object :=
  if macAddressList.isEmpty then params
  else J.set params "macAddressList" (J.ofArray (J.addStrings J.emptyArr macAddressList))

/-- The strings of an array, if the label is there. -/
def stringsAt (result : J.Object) (label : String) : List String :=
  J.fieldOr result label (fun v => J.pushStrings (J.array v) 0 []) []

/-- An in-out `avDevType` after a reply. -/
def avDevTypeOf (iarmResult : J.Object) : Option AVDevType :=
  J.fieldOr iarmResult "avDevType" (fun v => AVDevType.stringToEnum (J.string v)) none

/-- An in-out string after a reply. -/
def optionalStringOf (iarmResult : J.Object) (label : String) : Option String :=
  J.fieldOr iarmResult label (fun v => some (J.string v)) none

/-- The body of the methods whose only output is a success flag. -/
def exchangeSuccess (method : CtrlmCall) (params : J.Object) (timeoutMs : ℤ)
    (success : J.Object → Bool) (result : SuccessResult) :
    CtrlmM (Returned Unit SuccessResult) :=
  exchange J method params timeoutMs
    (finish () { result with success := false })
    fun iarmResult => finish () { result with success := success iarmResult }

/-! ## Pairing and status -/

/-- `StartPairing`. -/
def startPairing (timeout : Option UInt32) (screenBindEnable scanEnable : Option Bool)
    (macAddressList : List String) (result : SuccessResult) :
    CtrlmM (Returned Unit SuccessResult) :=
  let params := J.emptyObject
  let params := J.setIfSet params "timeout" J.ofUint32 timeout
  let params := J.setIfSet params "screenBindEnable" J.ofBool screenBindEnable
  let params := J.setIfSet params "scanEnable" J.ofBool scanEnable
  let params := setMacAddressList J params macAddressList
  exchangeSuccess J .startPairing params 0 (successIfPresent J) result

/-- `StopPairing`. -/
def stopPairing (screenBindDisable scanDisable : Option Bool) (result : SuccessResult) :
    CtrlmM (Returned Unit SuccessResult) :=
  let params := J.emptyObject
  let params := J.setIfSet params "screenBindDisable" J.ofBool screenBindDisable
  let params := J.setIfSet params "scanDisable" J.ofBool scanDisable
  exchangeSuccess J .stopPairing params 0 (successIfPresent J) result

/-- `GetNetStatus`. -/
def getNetStatus (netType : UInt32) (result : GetNetStatusResult) :
    CtrlmM (Returned Unit GetNetStatusResult) :=
  let params := J.set J.emptyObject "netType" (J.ofUint32 netType)
  exchange J .getRcuStatus params 0
    (finish () { result with
      success := false
      status := { result.status with
        netType := netType
        pairingState := .idle
        irProgState := .idle
        netTypesSupported := []
        remoteData := [] } })
    fun iarmResult =>
      let statusObj := statusObject J iarmResult
      finish () { result with
        success := successIfPresent J iarmResult
        status := { result.status with
          netType := J.fieldOr statusObj "netType" (fun v => castUint32 (J.number v)) netType
          pairingState := J.fieldOr statusObj "pairingState"
            (fun v => PairingState.stringToEnum (J.string v) .idle) .idle
          irProgState := J.fieldOr statusObj "irProgState"
            (fun v => IRProgState.stringToEnum (J.string v) .idle) .idle
          netTypesSupported := J.fieldOr statusObj "netTypesSupported"
            (fun v => parseUint32Array J v 8) []
          remoteData := J.fieldOr statusObj "remoteData"
            (fun v => parseRemoteDataArray J v 32) [] } }

/-! ## The infrared database -/

/-- `GetIRDBManufacturers`. -/
def getIRDBManufacturers (avDevType : Option AVDevType) (manufacturer : String)
    (out : ManufacturersOuts) : CtrlmM (Returned (Option AVDevType) ManufacturersOuts) := do
  let failed : CtrlmM (Returned (Option AVDevType) ManufacturersOuts) := do
    let out := { out with success := false }
    let manufacturers ← createIterator []
    finish none { out with manufacturers := manufacturers }
  match avDevType with
  | none => failed
  | some type =>
    if manufacturer.isEmpty then failed
    else
      let params := J.emptyObject
      let params := J.set params "avDevType" (J.ofString type.enumToString)
      let params := J.set params "manufacturer" (J.ofString manufacturer)
      exchange J .irManufacturers params iarmIrdbCallsTimeout failed fun iarmResult => do
        let avDevType := avDevTypeOf J iarmResult
        let out := { out with success := successIfPresent J iarmResult }
        let manufacturers ← createIterator (stringsAt J iarmResult "manufacturers")
        finish avDevType { out with manufacturers := manufacturers }

/-- `GetIRDBModels`. -/
def getIRDBModels (avDevType : Option AVDevType) (manufacturer : Option String)
    (model : String) (out : ModelsOuts) :
    CtrlmM (Returned (Option AVDevType × Option String) ModelsOuts) := do
  let failed : CtrlmM (Returned (Option AVDevType × Option String) ModelsOuts) := do
    let out := { out with success := false }
    let models ← createIterator []
    finish (none, none) { out with models := models }
  match avDevType with
  | none => failed
  | some type =>
    let params := J.emptyObject
    let params := J.set params "avDevType" (J.ofString type.enumToString)
    let params := J.setIfSet params "manufacturer" J.ofString manufacturer
    let params := J.set params "model" (J.ofString model)
    exchange J .irModels params iarmIrdbCallsTimeout failed fun iarmResult => do
      let avDevType := avDevTypeOf J iarmResult
      let manufacturer := optionalStringOf J iarmResult "manufacturer"
      let out := { out with success := successIfPresent J iarmResult }
      let models ← createIterator (stringsAt J iarmResult "models")
      finish (avDevType, manufacturer) { out with models := models }

/-- `GetIRCodesByAutoLookup`. -/
def getIRCodesByAutoLookup (out : AutoLookupOuts) : CtrlmM (Returned Unit AutoLookupOuts) :=
  exchange J .irAutoLookup J.emptyObject iarmIrdbCallsTimeout
    (do
      let out := { out with
        success := false
        tvManufacturer := ""
        tvModel := ""
        avrManufacturer := ""
        avrModel := "" }
      let tvCodes ← createIterator []
      let out := { out with tvCodes := tvCodes }
      let avrCodes ← createIterator []
      finish () { out with avrCodes := avrCodes })
    fun result => do
      let out := { out with
        tvManufacturer := J.fieldOr result "tvManufacturer" J.string ""
        tvModel := J.fieldOr result "tvModel" J.string ""
        avrManufacturer := J.fieldOr result "avrManufacturer" J.string ""
        avrModel := J.fieldOr result "avrModel" J.string ""
        success := successIfPresent J result }
      let tvCodes ← createIterator (stringsAt J result "tvCodes")
      let out := { out with tvCodes := tvCodes }
      let avrCodes ← createIterator (stringsAt J result "avrCodes")
      finish () { out with avrCodes := avrCodes }

/-- `GetIRCodesByNames`. -/
def getIRCodesByNames (avDevType : Option AVDevType) (manufacturer model : Option String)
    (out : CodesOuts) :
    CtrlmM (Returned (Option AVDevType × Option String × Option String) CodesOuts) := do
  let failed : CtrlmM (Returned (Option AVDevType × Option String × Option String) CodesOuts) := do
    let out := { out with success := false }
    let codes ← createIterator []
    finish (none, none, none) { out with codes := codes }
  match avDevType with
  | none => failed
  | some type =>
    let params := J.emptyObject
    let params := J.set params "avDevType" (J.ofString type.enumToString)
    let params := J.setIfSet params "manufacturer" J.ofString manufacturer
    let params := J.setIfSet params "model" J.ofString model
    exchange J .irCodes params iarmIrdbCallsTimeout failed fun iarmResult => do
      let avDevType := avDevTypeOf J iarmResult
      let manufacturer := optionalStringOf J iarmResult "manufacturer"
      let model := optionalStringOf J iarmResult "model"
      let out := { out with success := successIfPresent J iarmResult }
      let codes ← createIterator (stringsAt J iarmResult "codes")
      finish (avDevType, manufacturer, model) { out with codes := codes }

/-- `SetIRCode`. -/
def setIRCode (remoteId : UInt32) (avDevType : AVDevType) (code : String)
    (result : SuccessResult) : CtrlmM (Returned Unit SuccessResult) :=
  let params := J.emptyObject
  let params := J.set params "remoteId" (J.ofUint32 remoteId)
  let params := J.set params "avDevType" (J.ofString avDevType.enumToString)
  let params := J.setIfNonEmpty params "code" code
  exchangeSuccess J .irSetCode params 0 (successFlag J) result

/-- `ClearIRCodes`. -/
def clearIRCodes (remoteId : UInt32) (result : SuccessResult) :
    CtrlmM (Returned Unit SuccessResult) :=
  let params := J.set J.emptyObject "remoteId" (J.ofUint32 remoteId)
  exchangeSuccess J .irClearCode params 0 (successFlag J) result

/-- `InitializeIRDB`. -/
def initializeIRDB (result : SuccessResult) : CtrlmM (Returned Unit SuccessResult) :=
  exchangeSuccess J .irInitialize J.emptyObject iarmIrdbCallsTimeout (successFlag J) result

/-! ## Keys -/

/-- `GetLastKeypressSource`. -/
def getLastKeypressSource (response : GetLastKeypressSourceResponse) :
    CtrlmM (Returned Unit GetLastKeypressSourceResponse) :=
  exchange J .lastKeypressGet J.emptyObject 0
    -- the other fields are not assigned here
    (finish () { response with success := false })
    fun result =>
      finish () { response with
        controllerId := J.fieldOr result "controllerId" (fun v => castUint32 (J.number v)) 0
        timestamp := J.fieldOr result "timestamp" (fun v => (J.number v).toUInt64) 0
        sourceName := J.fieldOr result "sourceName" J.string ""
        sourceType := J.fieldOr result "sourceType" J.string ""
        sourceKeyCode := J.fieldOr result "sourceKeyCode" (fun v => castUint32 (J.number v)) 0
        bIsScreenBindMode := J.fieldOr result "bIsScreenBindMode" J.boolean false
        remoteKeypadConfig :=
          J.fieldOr result "remoteKeypadConfig" (fun v => castUint32 (J.number v)) 0
        success := successIfPresent J result }

/-- `ConfigureWakeupKeys`. -/
def configureWakeupKeys (wakeupConfig : WakeupConfig) (customKeys : Option String)
    (result : SuccessResult) : CtrlmM (Returned Unit SuccessResult) :=
  let params := J.emptyObject
  let params := J.set params "wakeupConfig" (J.ofString wakeupConfig.enumToString)
  let params := J.setIfSet params "customKeys" J.ofString customKeys
  exchangeSuccess J .writeRcuWakeupConfig params 0 (successFlag J) result

/-! ## The remotes themselves -/

/-- `FindMyRemote`. -/
def findMyRemote (level : Option FindMyRemoteLevel) (result : SuccessResult) :
    CtrlmM (Returned Unit SuccessResult) :=
  match level with
  | none => finish () { result with success := false }
  | some level =>
    let params := J.set J.emptyObject "level" (J.ofString level.enumToString)
    exchangeSuccess J .findMyRemote params 0 (successFlag J) result

/-- `FactoryReset`. -/
def factoryReset (result : SuccessResult) : CtrlmM (Returned Unit SuccessResult) :=
  exchangeSuccess J .factoryReset J.emptyObject iarmFactoryResetTimeout (successFlag J) result

/-- `Unpair`. -/
def unpair (macAddressList : List String) (result : SuccessResult) :
    CtrlmM (Returned Unit SuccessResult) :=
  let params := setMacAddressList J J.emptyObject macAddressList
  exchangeSuccess J .unpair params 0 (successFlag J) result

/-! ## Firmware -/

/-- `StartFirmwareUpdate`. -/
def startFirmwareUpdate (macAddress fileName fileType : String) (percentIncrement : UInt32)
    (out : StartFirmwareUpdateOuts) : CtrlmM (Returned Unit StartFirmwareUpdateOuts) :=
  let out := { out with sessionIdList := [] }
  let params := J.emptyObject
  let params := J.setIfNonEmpty params "macAddress" macAddress
  let params := J.setIfNonEmpty params "fileName" fileName
  let params := J.setIfNonEmpty params "fileType" fileType
  let params :=
    if percentIncrement ≠ 0 then
      J.set params "percentIncrement" (J.ofUint32 percentIncrement)
    else params
  exchange J .startFirmwareUpdate params 0
    (finish () { out with success := false })
    fun result =>
      let out := { out with success := successIfPresent J result }
      let sessionIdList := J.fieldOr result "sessionIdList"
        (fun v => J.pushStringsUpTo 32 (J.array v) 0 out.sessionIdList) out.sessionIdList
      finish () { out with sessionIdList := sessionIdList }

/-- `CancelFirmwareUpdate`. -/
def cancelFirmwareUpdate (sessionId : String) (result : SuccessResult) :
    CtrlmM (Returned Unit SuccessResult) :=
  let params := J.set J.emptyObject "sessionId" (J.ofString sessionId)
  exchangeSuccess J .cancelFirmwareUpdate params 0 (successFlag J) result

/-- `StatusFirmwareUpdate`. -/
def statusFirmwareUpdate (sessionId : String) (response : StatusFirmwareUpdateResponse) :
    CtrlmM (Returned Unit StatusFirmwareUpdateResponse) :=
  let params := J.set J.emptyObject "sessionId" (J.ofString sessionId)
  exchange J .statusFirmwareUpdate params 0
    (finish () { response with
      status := { response.status with
        upgradeSessionId := sessionId
        macAddress := ""
        upgradeState := .invalid
        percentComplete := 0
        errorString := none }
      success := false })
    fun result =>
      let statusObj := statusObject J result
      finish () { response with
        status := { response.status with
          upgradeSessionId := J.fieldOr statusObj "upgradeSessionId" J.string sessionId
          macAddress := J.fieldOr statusObj "macAddress" J.string ""
          upgradeState := J.fieldOr statusObj "upgradeState"
            (fun v => FirmwareUpdateState.stringToEnum (J.string v) .invalid) .invalid
          percentComplete :=
            J.fieldOr statusObj "percentComplete" (fun v => castUint32 (J.number v)) 0
          errorString := optionalStringOf J statusObj "errorString" }
        success := successIfPresent J result }

end RemoteControl
