import RemoteControl.Leftovers

/-!
# What the methods ask of ctrlm

Every method that talks to ctrlm checks its arguments, writes them into an object,
sends that with one `IARMBusCall`, and reports what came of it.

* `Request.run_cases` — a method is either turned away by its checks, or it is one
  `exchange` of its parameters, and every way it can end is an `Exit`: it returns
  `ERROR_NONE`, and creates one iterator for each it hands out.
* `reports_truthfully` — hence what the client is told is what happened.
-/

namespace RemoteControl

open Interaction

namespace Request

/-! ## The parts of a call -/

/-- The call of ctrlm that the method makes. -/
def method : Request → CtrlmCall
  | startPairing .. => .startPairing
  | stopPairing .. => .stopPairing
  | getNetStatus _ => .getRcuStatus
  | getIRDBManufacturers .. => .irManufacturers
  | getIRDBModels .. => .irModels
  | getIRCodesByAutoLookup => .irAutoLookup
  | getIRCodesByNames .. => .irCodes
  | setIRCode .. => .irSetCode
  | clearIRCodes _ => .irClearCode
  | getLastKeypressSource => .lastKeypressGet
  | configureWakeupKeys .. => .writeRcuWakeupConfig
  | initializeIRDB => .irInitialize
  | findMyRemote _ => .findMyRemote
  | factoryReset => .factoryReset
  | unpair _ => .unpair
  | startFirmwareUpdate .. => .startFirmwareUpdate
  | cancelFirmwareUpdate _ => .cancelFirmwareUpdate
  | statusFirmwareUpdate _ => .statusFirmwareUpdate

/-- Its timeout, zero for the one of the bus. -/
def timeoutMs : Request → ℤ
  | getIRDBManufacturers .. => iarmIrdbCallsTimeout
  | getIRDBModels .. => iarmIrdbCallsTimeout
  | getIRCodesByAutoLookup => iarmIrdbCallsTimeout
  | getIRCodesByNames .. => iarmIrdbCallsTimeout
  | initializeIRDB => iarmIrdbCallsTimeout
  | factoryReset => iarmFactoryResetTimeout
  | _ => 0

/-- The arguments pass the checks of the method. -/
def accepted : Request → Bool
  | getIRDBManufacturers avDevType manufacturer => avDevType.isSome && !manufacturer.isEmpty
  | getIRDBModels avDevType _ _ => avDevType.isSome
  | getIRCodesByNames avDevType _ _ => avDevType.isSome
  | findMyRemote level => level.isSome
  | _ => true

/-- The device type, once it is known to be set. -/
def setAvDevType (J : JsonLib) (params : J.Object) (avDevType : Option AVDevType) : J.Object :=
  J.setIfSet params "avDevType" (fun type => J.ofString type.enumToString) avDevType

/-- The object that is sent, when the arguments pass the checks. -/
def params (J : JsonLib) : Request → J.Object
  | startPairing timeout screenBindEnable scanEnable macAddressList =>
    setMacAddressList J
      (J.setIfSet
        (J.setIfSet (J.setIfSet J.emptyObject "timeout" J.ofUint32 timeout)
          "screenBindEnable" J.ofBool screenBindEnable)
        "scanEnable" J.ofBool scanEnable)
      macAddressList
  | stopPairing screenBindDisable scanDisable =>
    J.setIfSet (J.setIfSet J.emptyObject "screenBindDisable" J.ofBool screenBindDisable)
      "scanDisable" J.ofBool scanDisable
  | getNetStatus netType => J.set J.emptyObject "netType" (J.ofUint32 netType)
  | getIRDBManufacturers avDevType manufacturer =>
    J.set (setAvDevType J J.emptyObject avDevType) "manufacturer" (J.ofString manufacturer)
  | getIRDBModels avDevType manufacturer model =>
    J.set
      (J.setIfSet (setAvDevType J J.emptyObject avDevType) "manufacturer" J.ofString manufacturer)
      "model" (J.ofString model)
  | getIRCodesByNames avDevType manufacturer model =>
    J.setIfSet
      (J.setIfSet (setAvDevType J J.emptyObject avDevType) "manufacturer" J.ofString manufacturer)
      "model" J.ofString model
  | setIRCode remoteId avDevType code =>
    J.setIfNonEmpty
      (J.set (J.set J.emptyObject "remoteId" (J.ofUint32 remoteId))
        "avDevType" (J.ofString avDevType.enumToString))
      "code" code
  | clearIRCodes remoteId => J.set J.emptyObject "remoteId" (J.ofUint32 remoteId)
  | configureWakeupKeys wakeupConfig customKeys =>
    J.setIfSet (J.set J.emptyObject "wakeupConfig" (J.ofString wakeupConfig.enumToString))
      "customKeys" J.ofString customKeys
  | findMyRemote level =>
    J.setIfSet J.emptyObject "level" (fun level => J.ofString level.enumToString) level
  | unpair macAddressList => setMacAddressList J J.emptyObject macAddressList
  | startFirmwareUpdate macAddress fileName fileType percentIncrement =>
    let params := J.setIfNonEmpty
      (J.setIfNonEmpty (J.setIfNonEmpty J.emptyObject "macAddress" macAddress)
        "fileName" fileName)
      "fileType" fileType
    if percentIncrement ≠ 0 then
      J.set params "percentIncrement" (J.ofUint32 percentIncrement)
    else params
  | cancelFirmwareUpdate sessionId => J.set J.emptyObject "sessionId" (J.ofString sessionId)
  | statusFirmwareUpdate sessionId => J.set J.emptyObject "sessionId" (J.ofString sessionId)
  | _ => J.emptyObject

/-- The `IARMBusCall` that the method makes. -/
def call (J : JsonLib) (r : Request) : CtrlmM (HResult × J.Object) :=
  iarmBusCall J r.method (J.toString (r.params J)) J.emptyObject r.timeoutMs

/-- The success flag among the outputs. -/
def success : (r : Request) → r.Outs → Bool
  | startPairing .., out => SuccessResult.success out
  | stopPairing .., out => SuccessResult.success out
  | getNetStatus _, out => GetNetStatusResult.success out
  | getIRDBManufacturers .., out => ManufacturersOuts.success out
  | getIRDBModels .., out => ModelsOuts.success out
  | getIRCodesByAutoLookup, out => AutoLookupOuts.success out
  | getIRCodesByNames .., out => CodesOuts.success out
  | setIRCode .., out => SuccessResult.success out
  | clearIRCodes _, out => SuccessResult.success out
  | getLastKeypressSource, out => GetLastKeypressSourceResponse.success out
  | configureWakeupKeys .., out => SuccessResult.success out
  | initializeIRDB, out => SuccessResult.success out
  | findMyRemote _, out => SuccessResult.success out
  | factoryReset, out => SuccessResult.success out
  | unpair _, out => SuccessResult.success out
  | startFirmwareUpdate .., out => StartFirmwareUpdateOuts.success out
  | cancelFirmwareUpdate _, out => SuccessResult.success out
  | statusFirmwareUpdate _, out => StatusFirmwareUpdateResponse.success out

/-- How the method reads the flag of the reply. -/
def readSuccess (J : JsonLib) : Request → J.Object → Bool
  | setIRCode .. => successFlag J
  | clearIRCodes _ => successFlag J
  | configureWakeupKeys .. => successFlag J
  | initializeIRDB => successFlag J
  | findMyRemote _ => successFlag J
  | factoryReset => successFlag J
  | unpair _ => successFlag J
  | cancelFirmwareUpdate _ => successFlag J
  | _ => successIfPresent J

/-- The iterators among the outputs, in the order in which they are assigned. -/
def iterators : (r : Request) → r.Outs → List (Option StringIterator)
  | getIRDBManufacturers .., out => [ManufacturersOuts.manufacturers out]
  | getIRDBModels .., out => [ModelsOuts.models out]
  | getIRCodesByAutoLookup, out => [AutoLookupOuts.tvCodes out, AutoLookupOuts.avrCodes out]
  | getIRCodesByNames .., out => [CodesOuts.codes out]
  | _, _ => []

/-! ## The ways a method ends -/

/-- From here on the method `r` returns `ERROR_NONE` with this success flag, and creates
an iterator for each that it hands out, with these elements. -/
structure Exit (r : Request) (w : Outcome) (p : CtrlmM (Returned r.InOuts r.Outs))
    (flag : Bool) (elements : List (List String)) : Prop where
  code : (p.eval w.answer).code = .errorNone
  success : r.success (p.eval w.answer).outs = flag
  iterators : r.iterators (p.eval w.answer).outs = elements.map fun it => some ⟨it⟩
  ops : p.ops w.answer = elements.map CtrlmOp.createIterator

/-- The method is turned away by its checks. -/
def Rejected (J : JsonLib) (r : Request) (w : Outcome) (before : r.Outs) : Prop :=
  r.accepted = false ∧ ∃ n, r.Exit w (r.run J before) false (List.replicate n [])

/-- The method is one `exchange`: it reports a failure with empty iterators when the call
fails, and the flag of the reply otherwise. -/
def Exchanged (J : JsonLib) (r : Request) (w : Outcome) (before : r.Outs) : Prop :=
  r.accepted = true ∧ ∃ failed replied,
    r.run J before = exchange J r.method (r.params J) r.timeoutMs failed replied ∧
      (∃ n, r.Exit w failed false (List.replicate n [])) ∧
      ∀ reply, ∃ elements, r.Exit w (replied reply) (r.readSuccess J reply) elements

variable {J : JsonLib}

/-- **Every method** is turned away, or is one `exchange`. -/
theorem run_cases (r : Request) (w : Outcome) (before : r.Outs) :
    r.Rejected J w before ∨ r.Exchanged J w before := by
  cases r with
  | startPairing | stopPairing =>
    refine .inr ⟨rfl, ?_⟩
    simp only [run, RemoteControl.startPairing, RemoteControl.stopPairing, exchangeSuccess]
    exact ⟨_, _, rfl, ⟨0, rfl, rfl, rfl, rfl⟩, fun reply => ⟨[], rfl, rfl, rfl, rfl⟩⟩
  | setIRCode | clearIRCodes | configureWakeupKeys | initializeIRDB | factoryReset | unpair
  | cancelFirmwareUpdate =>
    refine .inr ⟨rfl, ?_⟩
    simp only [run, RemoteControl.setIRCode, RemoteControl.clearIRCodes,
      RemoteControl.configureWakeupKeys, RemoteControl.initializeIRDB, RemoteControl.factoryReset,
      RemoteControl.unpair, RemoteControl.cancelFirmwareUpdate, exchangeSuccess]
    exact ⟨_, _, rfl, ⟨0, rfl, rfl, rfl, rfl⟩, fun reply => ⟨[], rfl, rfl, rfl, rfl⟩⟩
  | findMyRemote level =>
    cases level with
    | none => exact .inl ⟨rfl, 0, rfl, rfl, rfl, rfl⟩
    | some level =>
      refine .inr ⟨rfl, ?_⟩
      simp only [run, RemoteControl.findMyRemote, exchangeSuccess]
      exact ⟨_, _, rfl, ⟨0, rfl, rfl, rfl, rfl⟩, fun reply => ⟨[], rfl, rfl, rfl, rfl⟩⟩
  | getNetStatus | getLastKeypressSource | startFirmwareUpdate | statusFirmwareUpdate =>
    refine .inr ⟨rfl, ?_⟩
    unfold run RemoteControl.getNetStatus RemoteControl.getLastKeypressSource
      RemoteControl.startFirmwareUpdate RemoteControl.statusFirmwareUpdate
    exact ⟨_, _, rfl, ⟨0, rfl, rfl, rfl, rfl⟩, fun reply => ⟨[], rfl, rfl, rfl, rfl⟩⟩
  | getIRDBManufacturers avDevType manufacturer =>
    cases avDevType with
    | none => exact .inl ⟨rfl, 1, rfl, rfl, rfl, rfl⟩
    | some type =>
      by_cases hmanufacturer : manufacturer.isEmpty = true
      · refine .inl ⟨?_, 1, ?_⟩
        · rw [accepted, hmanufacturer]
          rfl
        · simp only [run, RemoteControl.getIRDBManufacturers, if_pos hmanufacturer]
          exact ⟨rfl, rfl, rfl, rfl⟩
      · refine .inr ⟨?_, ?_⟩
        · rw [accepted, Bool.eq_false_iff.mpr hmanufacturer]
          rfl
        · simp only [run, RemoteControl.getIRDBManufacturers, if_neg hmanufacturer]
          exact ⟨_, _, rfl, ⟨1, rfl, rfl, rfl, rfl⟩, fun reply => ⟨[_], rfl, rfl, rfl, rfl⟩⟩
  | getIRDBModels avDevType =>
    cases avDevType with
    | none => exact .inl ⟨rfl, 1, rfl, rfl, rfl, rfl⟩
    | some type =>
      refine .inr ⟨rfl, ?_⟩
      unfold run RemoteControl.getIRDBModels
      exact ⟨_, _, rfl, ⟨1, rfl, rfl, rfl, rfl⟩, fun reply => ⟨[_], rfl, rfl, rfl, rfl⟩⟩
  | getIRCodesByAutoLookup =>
    refine .inr ⟨rfl, ?_⟩
    unfold run RemoteControl.getIRCodesByAutoLookup
    exact ⟨_, _, rfl, ⟨2, rfl, rfl, rfl, rfl⟩, fun reply => ⟨[_, _], rfl, rfl, rfl, rfl⟩⟩
  | getIRCodesByNames avDevType =>
    cases avDevType with
    | none => exact .inl ⟨rfl, 1, rfl, rfl, rfl, rfl⟩
    | some type =>
      refine .inr ⟨rfl, ?_⟩
      unfold run RemoteControl.getIRCodesByNames
      exact ⟨_, _, rfl, ⟨1, rfl, rfl, rfl, rfl⟩, fun reply => ⟨[_], rfl, rfl, rfl, rfl⟩⟩

/-! ## What the client is told -/

/-- The reply carries a `success` that is true. -/
def Confirmed (J : JsonLib) (reply : J.Object) : Prop :=
  J.hasLabel reply "success" = true ∧ J.boolean (J.get reply "success") = true

/-- Whichever way the flag is read. -/
theorem readSuccess_iff
    (hmissing : ∀ object label, J.hasLabel object label = false →
      J.boolean (J.get object label) = false) (r : Request) (reply : J.Object) :
    r.readSuccess J reply = true ↔ Confirmed J reply := by
  have hpresent : successIfPresent J reply = true ↔ Confirmed J reply := by
    rw [successIfPresent, Confirmed]
    by_cases hlabel : J.hasLabel reply "success" = true
    · rw [J.fieldOr_of_has hlabel]
      exact (and_iff_right hlabel).symm
    · rw [J.fieldOr_of_not_has hlabel]
      exact ⟨nofun, fun h => absurd h.1 hlabel⟩
  have hflag : successFlag J reply = true ↔ Confirmed J reply := by
    rw [successFlag, Confirmed]
    refine ⟨fun hboolean => ⟨?_, hboolean⟩, And.right⟩
    by_contra hlabel
    exact absurd ((hmissing _ _ (Bool.eq_false_iff.mpr hlabel)).symm.trans hboolean) nofun
  cases r with
  | setIRCode | clearIRCodes | configureWakeupKeys | initializeIRDB | findMyRemote | factoryReset
  | unpair | cancelFirmwareUpdate => exact hflag
  | _ => exact hpresent

/-- The call returns `ERROR_NONE` exactly when it does not fail, with the reply. -/
theorem eval_call (r : Request) (w : Outcome) :
    (((r.call J).eval w.answer).1 = .errorNone ↔ ¬ w.Failed) ∧
      (¬ w.Failed → ((r.call J).eval w.answer).2 = J.fromString w.result) := by
  rw [call, Outcome.eval_iarmBusCall]
  unfold Outcome.Failed
  split
  next hallocated => exact ⟨⟨nofun, fun h => absurd (.inl hallocated) h⟩,
    fun h => absurd (.inl hallocated) h⟩
  next hallocated =>
    split
    next hres => exact ⟨⟨nofun, fun h => absurd (.inr hres) h⟩, fun h => absurd (.inr hres) h⟩
    next hres =>
      refine ⟨⟨fun _ hfailed => ?_, fun _ => rfl⟩, fun _ => rfl⟩
      exact hfailed.elim hallocated hres

/-- `IARMBusCall` creates no iterators. -/
theorem created_call (r : Request) (w : Outcome) :
    ∀ o ∈ (r.call J).ops w.answer, o.created? = none := by
  obtain ⟨send, hcreated, -, hops⟩ := Outcome.ops_iarmBusCall J w r.method
    (J.toString (r.params J)) J.emptyObject r.timeoutMs
  intro o ho
  rw [call, hops] at ho
  rcases List.mem_cons.mp ho with rfl | ho
  · rfl
  split at ho
  · rcases List.mem_cons.mp ho with rfl | ho
    · exact hcreated
    · rw [List.mem_singleton.mp ho]
      rfl
  · exact absurd ho List.not_mem_nil

/-- What is done besides creating iterators, and the iterators that are created. -/
theorem Exit.ops_after {r : Request} {w : Outcome} {p : CtrlmM (Returned r.InOuts r.Outs)}
    {flag : Bool} {elements : List (List String)} (h : r.Exit w p flag elements)
    {before : List CtrlmOp} (hbefore : ∀ o ∈ before, o.created? = none) :
    (before ++ p.ops w.answer).filter (fun o => o.created?.isNone) = before ∧
      (before ++ p.ops w.answer).filterMap CtrlmOp.created? = elements := by
  have hnone : (elements.map CtrlmOp.createIterator).filter (fun o => o.created?.isNone) = [] := by
    rw [List.filter_eq_nil_iff]
    intro o ho
    obtain ⟨list, -, rfl⟩ := List.mem_map.mp ho
    exact Bool.false_ne_true
  have hall : (elements.map CtrlmOp.createIterator).filterMap CtrlmOp.created? = elements := by
    rw [List.filterMap_map]
    exact List.filterMap_some
  rw [h.ops, List.filter_append, List.filterMap_append, hnone, hall, List.append_nil]
  constructor
  · rw [List.filter_eq_self]
    intro o ho
    rw [hbefore o ho]
    rfl
  · rw [List.filterMap_eq_nil_iff.mpr hbefore, List.nil_append]

/-- What a call of the method comes to: it returns `ERROR_NONE`; besides creating
iterators it does what one `IARMBusCall` does, if its arguments are accepted, and nothing
otherwise; it reports success exactly when the arguments were accepted, the call returned
`ERROR_NONE` and the reply confirms it; and it hands out the iterators that it has
created, each once, all of them empty unless the call came through. -/
structure Truthful (J : JsonLib) (r : Request) (w : Outcome) (before : r.Outs) : Prop where
  code : ((r.run J before).eval w.answer).code = .errorNone
  calls : ((r.run J before).ops w.answer).filter (fun o => o.created?.isNone) =
    if r.accepted = true then (r.call J).ops w.answer else []
  success : r.success ((r.run J before).eval w.answer).outs = true ↔
    r.accepted = true ∧ ((r.call J).eval w.answer).1 = .errorNone ∧
      Confirmed J ((r.call J).eval w.answer).2
  iterators : ∃ elements : List (List String),
    r.iterators ((r.run J before).eval w.answer).outs = elements.map (fun list => some ⟨list⟩) ∧
      ((r.run J before).ops w.answer).filterMap CtrlmOp.created? = elements ∧
      (r.accepted = false ∨ ((r.call J).eval w.answer).1 ≠ .errorNone →
        ∀ list ∈ elements, list = [])

/-- **Reports**: every method is truthful about its call, whatever its arguments and
whatever comes of it. -/
theorem reports_truthfully
    (hmissing : ∀ object label, J.hasLabel object label = false →
      J.boolean (J.get object label) = false) (r : Request) (w : Outcome) (before : r.Outs) :
    r.Truthful J w before := by
  obtain ⟨hnone, hreply⟩ := eval_call (J := J) r w
  rcases run_cases (J := J) r w before with ⟨hrejected, n, hexit⟩ |
      ⟨haccepted, failed, replied, hrun, ⟨n, hfailed⟩, hreplied⟩
  · have hnil : ∀ o ∈ ([] : List CtrlmOp), o.created? = none := nofun
    obtain ⟨hcalls, hcreated⟩ := hexit.ops_after hnil
    refine ⟨hexit.code, ?_, ?_, _, hexit.iterators, hcreated, ?_⟩
    · rw [hrejected, if_neg Bool.false_ne_true]
      exact hcalls
    · rw [hexit.success, hrejected]
      exact ⟨nofun, fun h => h.1⟩
    · exact fun _ list hlist => List.eq_of_mem_replicate hlist
  · by_cases hw : w.Failed
    · obtain ⟨hcalls, hcreated⟩ := hfailed.ops_after (created_call r w)
      have heval : (r.run J before).eval w.answer = failed.eval w.answer := by
        rw [hrun, Outcome.eval_exchange, if_pos hw]
      have hops : (r.run J before).ops w.answer =
          (r.call J).ops w.answer ++ failed.ops w.answer := by
        rw [hrun, Outcome.ops_exchange, if_pos hw]
        rfl
      refine ⟨heval ▸ hfailed.code, ?_, ?_, _, heval ▸ hfailed.iterators, hops ▸ hcreated, ?_⟩
      · rw [if_pos haccepted, hops, hcalls]
      · rw [heval, hfailed.success]
        exact ⟨nofun, fun h => absurd hw (hnone.mp h.2.1)⟩
      · exact fun _ list hlist => List.eq_of_mem_replicate hlist
    · obtain ⟨elements, hexit⟩ := hreplied (J.fromString w.result)
      obtain ⟨hcalls, hcreated⟩ := hexit.ops_after (created_call r w)
      have heval : (r.run J before).eval w.answer =
          (replied (J.fromString w.result)).eval w.answer := by
        rw [hrun, Outcome.eval_exchange, if_neg hw]
      have hops : (r.run J before).ops w.answer =
          (r.call J).ops w.answer ++ (replied (J.fromString w.result)).ops w.answer := by
        rw [hrun, Outcome.ops_exchange, if_neg hw]
        rfl
      refine ⟨heval ▸ hexit.code, ?_, ?_, _, heval ▸ hexit.iterators, hops ▸ hcreated, ?_⟩
      · rw [if_pos haccepted, hops, hcalls]
      · rw [heval, hexit.success, readSuccess_iff hmissing, hreply hw]
        exact ⟨fun h => ⟨haccepted, hnone.mpr hw, h⟩, fun h => h.2.2⟩
      · rintro (h | h)
        · exact absurd (haccepted.symm.trans h) nofun
        · exact absurd (hnone.mpr hw) h

/-- A reply that confirms a request for models, and names one. -/
def oneModel : String := "\x7b\"success\":true,\"models\":[\"m\"]\x7d"

/-- The request is reported as a success. -/
theorem reports_truthfully_oneModel :
    Truthful treeJson (.getIRDBModels (some .tv) none "") (.replied oneModel) ⟨false, none⟩ ∧
      success (.getIRDBModels (some .tv) none "")
        ((run treeJson (.getIRDBModels (some .tv) none "") ⟨false, none⟩).eval
          (Outcome.replied oneModel).answer).outs = true := by
  have hmissing : ∀ object label, treeJson.hasLabel object label = false →
      treeJson.boolean (treeJson.get object label) = false :=
    fun _ _ h => congrArg Json.toBoolean (Json.getField_of_not_any h)
  have htruthful := reports_truthfully hmissing (.getIRDBModels (some .tv) none "")
    (.replied oneModel) ⟨false, none⟩
  have hconfirmed : Confirmed treeJson (treeJson.fromString oneModel) := by
    constructor
    · decide +kernel
    · decide +kernel
  obtain ⟨hnone, hreply⟩ := eval_call (J := treeJson) (.getIRDBModels (some .tv) none "")
    (.replied oneModel)
  have hw := Outcome.not_failed_replied oneModel
  exact ⟨htruthful, htruthful.success.mpr ⟨rfl, hnone.mpr hw, (hreply hw).symm ▸ hconfirmed⟩⟩

end Request

end RemoteControl
