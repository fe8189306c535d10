import RemoteControl.Images
import RemoteControl.Requests

/-!
# The requests that ctrlm gets

The arguments of a method go into an object, and its text into the payload of the
call. Three rules say what is left out: an optional argument that is not set, a
string or list that is empty, a number that is zero. `Request.readBack` reads an
object by the same rules, and `payload_determines` says that it finds the arguments
again.
-/

namespace RemoteControl

open Interaction

/-! ## What was written -/

namespace JsonLib

variable {J : JsonLib} {α β : Type}

/-- Reading a label that was written if there was something to write. -/
theorem Lawful.fieldOr_setIfSet_self (hJ : J.Lawful) (object : J.Object) (label : String)
    (write : β → J.Variant) (optional : Option β) (read : J.Variant → α) (defaultValue : α) :
    J.fieldOr (J.setIfSet object label write optional) label read defaultValue =
      optional.elim (J.fieldOr object label read defaultValue) fun value => read (write value) := by
  cases optional with
  | none => rfl
  | some value => exact hJ.fieldOr_set_self object label (write value) read defaultValue

theorem Lawful.fieldOr_setIfSet_ne (hJ : J.Lawful) (object : J.Object) {label label' : String}
    (h : label' ≠ label) (write : β → J.Variant) (optional : Option β) (read : J.Variant → α)
    (defaultValue : α) :
    J.fieldOr (J.setIfSet object label write optional) label' read defaultValue =
      J.fieldOr object label' read defaultValue := by
  cases optional with
  | none => rfl
  | some value => exact hJ.fieldOr_set_ne object h (write value) read defaultValue

/-- Reading a string that was written if it was not empty. -/
theorem Lawful.fieldOr_setIfNonEmpty_self (hJ : J.Lawful) (object : J.Object)
    (label text : String) :
    J.fieldOr (J.setIfNonEmpty object label text) label J.string "" =
      if text.isEmpty then J.fieldOr object label J.string "" else text := by
  unfold setIfNonEmpty
  split
  · rfl
  · rw [hJ.fieldOr_set_self, hJ.string_ofString]

theorem Lawful.fieldOr_setIfNonEmpty_ne (hJ : J.Lawful) (object : J.Object)
    {label label' : String} (h : label' ≠ label) (text : String) (read : J.Variant → α)
    (defaultValue : α) :
    J.fieldOr (J.setIfNonEmpty object label text) label' read defaultValue =
      J.fieldOr object label' read defaultValue := by
  unfold setIfNonEmpty
  split
  · rfl
  · exact hJ.fieldOr_set_ne object h _ read defaultValue

end JsonLib

variable {J : JsonLib} {α : Type}

theorem fieldOr_setMacAddressList_ne (hJ : J.Lawful) (params : J.Object) {label : String}
    (h : label ≠ "macAddressList") (macAddressList : List String) (read : J.Variant → α)
    (defaultValue : α) :
    J.fieldOr (setMacAddressList J params macAddressList) label read defaultValue =
      J.fieldOr params label read defaultValue := by
  unfold setMacAddressList
  split
  · rfl
  · exact hJ.fieldOr_set_ne params h _ read defaultValue

/-- The addresses, in order. -/
theorem textsAt_setMacAddressList (hJ : J.Lawful) {params : J.Object}
    (h : textsAt J params "macAddressList" = []) (macAddressList : List String) :
    textsAt J (setMacAddressList J params macAddressList) "macAddressList" = macAddressList := by
  unfold setMacAddressList
  split
  next hempty => rw [h, List.isEmpty_iff.mp hempty]
  next hempty =>
    rw [textsAt, elementsAt, hJ.fieldOr_set_self, hJ.elements_ofArray, hJ.elements_addStrings,
      hJ.elements_emptyArr]
    rfl

/-- A `uint32_t` survives its way through the object. -/
theorem castUint32_ofUint32 (hJ : J.Lawful) (n : UInt32) :
    castUint32 (J.number (J.ofUint32 n)) = n := by
  rw [hJ.number_ofUint32, castUint32]
  simp

theorem stringToEnum_enumToString (type : AVDevType) :
    AVDevType.stringToEnum type.enumToString = some type := by
  cases type with
  | _ => rfl

theorem wakeupConfig_stringToEnum_enumToString (wakeupConfig defaultValue : WakeupConfig) :
    WakeupConfig.stringToEnum wakeupConfig.enumToString defaultValue = wakeupConfig := by
  cases wakeupConfig with
  | _ => rfl

/-- The level that a string stands for. -/
def FindMyRemoteLevel.ofString : String → Option FindMyRemoteLevel
  | "off" => some .off
  | "mid" => some .mid
  | "high" => some .high
  | _ => none

theorem ofString_enumToString (level : FindMyRemoteLevel) :
    FindMyRemoteLevel.ofString level.enumToString = some level := by
  cases level with
  | _ => rfl

/-! ## Reading a request -/

/-- An optional number. -/
def optionalNumberOf (J : JsonLib) (object : J.Object) (label : String) : Option UInt32 :=
  J.fieldOr object label (fun v => some (castUint32 (J.number v))) none

/-- An optional flag. -/
def optionalBoolOf (J : JsonLib) (object : J.Object) (label : String) : Option Bool :=
  J.fieldOr object label (fun v => some (J.boolean v)) none

/-- A number; zero if it is missing. -/
def numberOf (J : JsonLib) (object : J.Object) (label : String) : UInt32 :=
  J.fieldOr object label (fun v => castUint32 (J.number v)) 0

/-- A string; empty if it is missing. -/
def stringOf (J : JsonLib) (object : J.Object) (label : String) : String :=
  J.fieldOr object label J.string ""

/-- The request that an object stands for, read by the rules it is written by. -/
def Request.readBack (J : JsonLib) (method : CtrlmCall) (o : J.Object) : Option Request :=
  match method with
  | .startPairing => some (.startPairing (optionalNumberOf J o "timeout")
      (optionalBoolOf J o "screenBindEnable") (optionalBoolOf J o "scanEnable")
      (textsAt J o "macAddressList"))
  | .stopPairing => some (.stopPairing (optionalBoolOf J o "screenBindDisable")
      (optionalBoolOf J o "scanDisable"))
  | .getRcuStatus => some (.getNetStatus (numberOf J o "netType"))
  | .irManufacturers => some (.getIRDBManufacturers (avDevTypeOf J o) (stringOf J o "manufacturer"))
  | .irModels => some (.getIRDBModels (avDevTypeOf J o) (optionalStringOf J o "manufacturer")
      (stringOf J o "model"))
  | .irAutoLookup => some .getIRCodesByAutoLookup
  | .irCodes => some (.getIRCodesByNames (avDevTypeOf J o) (optionalStringOf J o "manufacturer")
      (optionalStringOf J o "model"))
  | .irSetCode => (avDevTypeOf J o).map fun avDevType =>
      .setIRCode (numberOf J o "remoteId") avDevType (stringOf J o "code")
  | .irClearCode => some (.clearIRCodes (numberOf J o "remoteId"))
  | .lastKeypressGet => some .getLastKeypressSource
  | .writeRcuWakeupConfig => some (.configureWakeupKeys
      (WakeupConfig.stringToEnum (stringOf J o "wakeupConfig") .none)
      (optionalStringOf J o "customKeys"))
  | .irInitialize => some .initializeIRDB
  | .findMyRemote => some (.findMyRemote
      (J.fieldOr o "level" (fun v => FindMyRemoteLevel.ofString (J.string v)) none))
  | .factoryReset => some .factoryReset
  | .unpair => some (.unpair (textsAt J o "macAddressList"))
  | .startFirmwareUpdate => some (.startFirmwareUpdate (stringOf J o "macAddress")
      (stringOf J o "fileName") (stringOf J o "fileType") (numberOf J o "percentIncrement"))
  | .cancelFirmwareUpdate => some (.cancelFirmwareUpdate (stringOf J o "sessionId"))
  | .statusFirmwareUpdate => some (.statusFirmwareUpdate (stringOf J o "sessionId"))

namespace Request

/-- The device type is read back. -/
theorem fieldOr_setAvDevType_self (hJ : J.Lawful) (type : AVDevType) :
    J.fieldOr (setAvDevType J J.emptyObject (some type)) "avDevType"
      (fun v => AVDevType.stringToEnum (J.string v)) none = some type := by
  rw [setAvDevType, hJ.fieldOr_setIfSet_self, Option.elim_some, hJ.string_ofString,
    stringToEnum_enumToString]

theorem fieldOr_setAvDevType_ne (hJ : J.Lawful) {label : String} (h : label ≠ "avDevType")
    (avDevType : Option AVDevType) (read : J.Variant → α) (defaultValue : α) :
    J.fieldOr (setAvDevType J J.emptyObject avDevType) label read defaultValue = defaultValue := by
  rw [setAvDevType, hJ.fieldOr_setIfSet_ne _ h, hJ.fieldOr_emptyObject]

theorem elim_none_some {β : Type} (optional : Option β) :
    (optional.elim none fun value => some value) = optional := by
  cases optional with
  | none => rfl
  | some value => rfl

theorem ite_isEmpty (text : String) : (if text.isEmpty then "" else text) = text := by
  split
  next h => exact (String.isEmpty_iff.mp h).symm
  next => rfl

/-- **The arguments are found again** in the object that is sent. -/
theorem readBack_params (hJ : J.Lawful) {r : Request} (h : r.accepted = true) :
    readBack J r.method (r.params J) = some r := by
  cases r with
  | startPairing timeout screenBindEnable scanEnable macAddressList =>
    have hnone : textsAt J (J.setIfSet (J.setIfSet (J.setIfSet J.emptyObject "timeout" J.ofUint32
        timeout) "screenBindEnable" J.ofBool screenBindEnable) "scanEnable" J.ofBool scanEnable)
        "macAddressList" = [] := by
      simp (disch := decide) only [textsAt, elementsAt, hJ.fieldOr_setIfSet_ne,
        hJ.fieldOr_emptyObject, List.map_nil]
    simp (disch := decide) only [readBack, method, params, optionalNumberOf, optionalBoolOf,
      fieldOr_setMacAddressList_ne hJ, hJ.fieldOr_setIfSet_ne, hJ.fieldOr_setIfSet_self,
      hJ.fieldOr_emptyObject, castUint32_ofUint32 hJ, hJ.boolean_ofBool,
      textsAt_setMacAddressList hJ hnone, elim_none_some]
  | stopPairing screenBindDisable scanDisable =>
    simp (disch := decide) only [readBack, method, params, optionalBoolOf,
      hJ.fieldOr_setIfSet_ne, hJ.fieldOr_setIfSet_self, hJ.fieldOr_emptyObject, hJ.boolean_ofBool,
      elim_none_some]
  | getNetStatus netType =>
    simp only [readBack, method, params, numberOf, hJ.fieldOr_set_self, castUint32_ofUint32 hJ]
  | getIRDBManufacturers avDevType manufacturer =>
    cases avDevType with
    | none => cases h
    | some type =>
      simp (disch := decide) only [readBack, method, params, avDevTypeOf, stringOf,
        hJ.fieldOr_set_ne, hJ.fieldOr_set_self, fieldOr_setAvDevType_self hJ,
        hJ.string_ofString]
  | getIRDBModels avDevType manufacturer model =>
    cases avDevType with
    | none => cases h
    | some type =>
      simp (disch := decide) only [readBack, method, params, avDevTypeOf, optionalStringOf,
        stringOf, hJ.fieldOr_set_ne, hJ.fieldOr_set_self, hJ.fieldOr_setIfSet_ne,
        hJ.fieldOr_setIfSet_self, fieldOr_setAvDevType_self hJ, fieldOr_setAvDevType_ne hJ,
        hJ.string_ofString, elim_none_some]
  | getIRCodesByAutoLookup => rfl
  | getIRCodesByNames avDevType manufacturer model =>
    cases avDevType with
    | none => cases h
    | some type =>
      simp (disch := decide) only [readBack, method, params, avDevTypeOf, optionalStringOf,
        hJ.fieldOr_setIfSet_ne, hJ.fieldOr_setIfSet_self, fieldOr_setAvDevType_self hJ,
        fieldOr_setAvDevType_ne hJ, hJ.string_ofString, elim_none_some]
  | setIRCode remoteId avDevType code =>
    simp (disch := decide) only [readBack, method, params, avDevTypeOf, numberOf, stringOf,
      hJ.fieldOr_setIfNonEmpty_ne, hJ.fieldOr_setIfNonEmpty_self, hJ.fieldOr_set_ne,
      hJ.fieldOr_set_self, hJ.fieldOr_emptyObject, castUint32_ofUint32 hJ, hJ.string_ofString,
      stringToEnum_enumToString, ite_isEmpty, Option.map_some]
  | clearIRCodes remoteId =>
    simp only [readBack, method, params, numberOf, hJ.fieldOr_set_self, castUint32_ofUint32 hJ]
  | getLastKeypressSource => rfl
  | configureWakeupKeys wakeupConfig customKeys =>
    simp (disch := decide) only [readBack, method, params, stringOf, optionalStringOf,
      hJ.fieldOr_setIfSet_ne, hJ.fieldOr_setIfSet_self, hJ.fieldOr_set_ne, hJ.fieldOr_set_self,
      hJ.fieldOr_emptyObject, hJ.string_ofString, wakeupConfig_stringToEnum_enumToString,
      elim_none_some]
  | initializeIRDB => rfl
  | findMyRemote level =>
    cases level with
    | none => cases h
    | some level =>
      simp only [readBack, method, params, hJ.fieldOr_setIfSet_self, Option.elim_some,
        hJ.string_ofString, ofString_enumToString]
  | factoryReset => rfl
  | unpair macAddressList =>
    have hnone : textsAt J J.emptyObject "macAddressList" = [] := by
      rw [textsAt, elementsAt, hJ.fieldOr_emptyObject, List.map_nil]
    simp only [readBack, method, params, textsAt_setMacAddressList hJ hnone]
  | startFirmwareUpdate macAddress fileName fileType percentIncrement =>
    by_cases hpercent : percentIncrement = 0
    · simp (disch := decide) only [readBack, method, params, stringOf, numberOf, hpercent, ne_eq,
        not_true, if_false, hJ.fieldOr_setIfNonEmpty_ne, hJ.fieldOr_setIfNonEmpty_self,
        hJ.fieldOr_emptyObject, ite_isEmpty]
    · simp (disch := decide) only [readBack, method, params, stringOf, numberOf, hpercent, ne_eq,
        not_false_iff, if_true, hJ.fieldOr_setIfNonEmpty_ne, hJ.fieldOr_setIfNonEmpty_self,
        hJ.fieldOr_set_ne, hJ.fieldOr_set_self, hJ.fieldOr_emptyObject, castUint32_ofUint32 hJ,
        ite_isEmpty]
  | cancelFirmwareUpdate sessionId =>
    simp only [readBack, method, params, stringOf, hJ.fieldOr_set_self, hJ.string_ofString]
  | statusFirmwareUpdate sessionId =>
    simp only [readBack, method, params, stringOf, hJ.fieldOr_set_self, hJ.string_ofString]

/-! ## The payload -/

/-- What `IARMBusCall` sends. -/
theorem sent_call (r : Request) {w : Outcome} (h : w.allocated = true) :
    ((r.call J).ops w.answer).filterMap CtrlmOp.sent? =
      [(r.method, (J.toString (r.params J)).toList ++ ['\x00'])] := by
  obtain ⟨send, -, hsent, hops⟩ := Outcome.ops_iarmBusCall J w r.method
    (J.toString (r.params J)) J.emptyObject r.timeoutMs
  rw [copied_eq] at hsent
  rw [call, hops, if_pos h, List.filterMap_cons_none rfl, List.filterMap_cons_some hsent]
  rfl

/-- What a method sends, when its arguments are accepted and there is memory for the
call. -/
theorem sent_run {r : Request} (haccepted : r.accepted = true) {w : Outcome}
    (h : w.allocated = true) (before : r.Outs) :
    ((r.run J before).ops w.answer).filterMap CtrlmOp.sent? =
      [(r.method, (J.toString (r.params J)).toList ++ ['\x00'])] := by
  have hsilent : ∀ elements : List (List String),
      (elements.map CtrlmOp.createIterator).filterMap CtrlmOp.sent? = [] := by
    intro elements
    rw [List.filterMap_map, List.filterMap_eq_nil_iff]
    exact fun _ _ => rfl
  rcases run_cases (J := J) r w before with ⟨hrejected, -⟩ |
      ⟨-, failed, replied, hrun, ⟨n, hfailed⟩, hreplied⟩
  · exact absurd (haccepted.symm.trans hrejected) nofun
  · obtain ⟨elements, hexit⟩ := hreplied (J.fromString w.result)
    rw [hrun, Outcome.ops_exchange, List.filterMap_append]
    refine (congrArg₂ _ (sent_call r h) ?_).trans (List.append_nil _)
    split
    · rw [hfailed.ops, hsilent]
    · rw [hexit.ops, hsilent]

/-- **Payloads**: a method whose arguments are accepted sends one payload: the whole text
of the object with its arguments, and a NUL. Read up to the NUL it gives the arguments
back; and no other call of the method makes that object. -/
theorem payload_determines (hJ : J.Lawful) {r : Request} (haccepted : r.accepted = true)
    {w : Outcome} (h : w.allocated = true) (before : r.Outs)
    (hround : J.fromString (J.toString (r.params J)) = r.params J)
    (hnul : '\x00' ∉ (J.toString (r.params J)).toList) :
    (∃ payload, ((r.run J before).ops w.answer).filterMap CtrlmOp.sent? = [(r.method, payload)] ∧
      payload = (J.toString (r.params J)).toList ++ ['\x00'] ∧
      readBack J r.method (J.fromString (String.ofList (payload.takeWhile (· ≠ '\x00')))) =
        some r) ∧
    ∀ r' : Request, r'.accepted = true → r'.method = r.method → r'.params J = r.params J →
      r' = r := by
  refine ⟨⟨_, sent_run haccepted h before, rfl, ?_⟩, fun r' haccepted' hmethod hparams => ?_⟩
  · have hread : ((J.toString (r.params J)).toList ++ ['\x00']).takeWhile (· ≠ '\x00') =
        (J.toString (r.params J)).toList := by
      rw [List.takeWhile_append_of_pos]
      · exact List.append_nil _
      · exact fun c hc => decide_eq_true fun heq => hnul (heq ▸ hc)
    rw [hread, String.ofList_toList, hround, readBack_params hJ haccepted]
  · have hback := readBack_params hJ haccepted'
    rw [hmethod, hparams, readBack_params hJ haccepted] at hback
    exact (Option.some.inj hback).symm

/-- A request with a timeout of zero, a flag that is not set and one that is false. -/
def explicitZero : Request := .startPairing (some 0) none (some false) ["b", "a"]

/-- All of it is sent. -/
theorem payload_determines_explicitZero :
    ∃ payload, ((explicitZero.run treeJson ⟨true⟩).ops (Outcome.replied "").answer).filterMap
        CtrlmOp.sent? = [(.startPairing, payload)] ∧
      readBack treeJson .startPairing
        (treeJson.fromString (String.ofList (payload.takeWhile (· ≠ '\x00')))) =
          some explicitZero := by
  have hround : treeJson.fromString (treeJson.toString (explicitZero.params treeJson)) =
      explicitZero.params treeJson := by
    apply Json.eq_of_sameFields
    decide +kernel
  obtain ⟨⟨payload, hsent, -, hread⟩, -⟩ := payload_determines treeJson_lawful
    (r := explicitZero) rfl (w := .replied "") rfl ⟨true⟩ hround (by decide +kernel)
  exact ⟨payload, hsent, hread⟩

end Request

end RemoteControl
