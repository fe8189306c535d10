import RemoteControl.Broadcasts

/-!
# Replies: what a client gets of ctrlm's answer

The way back of a call. ctrlm writes its answer into an object, `IARMBusCall` brings the
text of it, and the method takes it apart into its output parameters.

* `pushStrings_walked` — an index loop with a 16-bit index reads as many elements as the
  length of the array has in 16 bits.
* `Request.reply` — an answer as ctrlm writes it; `Request.handedOut` what is left of it
  when lists are cut off.
* `Request.failure`, `Request.refusal` — what a client gets when there is no answer, and
  when there is one that says no more than that.
* `Request.eval_failed`, `Request.eval_refused`, `Request.eval_answered` — the methods do so.
-/

namespace RemoteControl

open Interaction

/-! ## Lists of strings, of any length -/

namespace JsonLib

variable {J : JsonLib}

/-- The loop condition, on an array of any length. -/
theorem Indexed.lt_length_mod_iff (hJ : J.Indexed) {array : J.Arr} {i : UInt16} :
    i < J.length array ↔ i.toNat < (J.elements array).length % 2 ^ 16 := by
  rw [hJ.length, UInt16.lt_iff_toNat_lt, UInt16.toNat_ofNat']

/-- The elements an index loop goes through: all of them, if their number fits in 16 bits. -/
def walked {α : Type} (l : List α) : List α := l.take (l.length % 2 ^ 16)

theorem walked_map {α β : Type} (f : α → β) (l : List α) :
    walked (l.map f) = (walked l).map f := by
  rw [walked, walked, List.length_map, List.map_take]

/-- The ones from the index on, at an index the loop gets to. -/
theorem Indexed.drop_walked (hJ : J.Indexed) {array : J.Arr} {i : UInt16}
    (h : i < J.length array) :
    (walked (J.elements array)).drop i.toNat =
      J.index array i :: (walked (J.elements array)).drop (i.toNat + 1) := by
  have hi := hJ.lt_length_mod_iff.mp h
  have hlen : i.toNat < (J.elements array).length := hi.trans_le (Nat.mod_le _ _)
  have hget : (walked (J.elements array))[i.toNat]? = some (J.index array i) := by
    rw [walked, List.getElem?_take_of_lt hi, hJ.index array i hlen]
  obtain ⟨hlt, hget⟩ := List.getElem?_eq_some_iff.mp hget
  rw [List.drop_eq_getElem_cons hlt, hget]

/-- And none behind the last it gets to. -/
theorem Indexed.drop_walked_eq_nil (hJ : J.Indexed) {array : J.Arr} {i : UInt16}
    (h : ¬ i < J.length array) : (walked (J.elements array)).drop i.toNat = [] := by
  refine List.drop_eq_nil_of_le ?_
  rw [walked, List.length_take]
  have hi := mt hJ.lt_length_mod_iff.mpr h
  omega

theorem pushStrings_walked (hJ : J.Indexed) (array : J.Arr) (i : UInt16) (list : List String) :
    J.pushStrings array i list =
      list ++ ((walked (J.elements array)).drop i.toNat).map J.string := by
  fun_induction J.pushStrings array i list with
  | case1 i list h ih =>
    rw [ih, toNat_succ_of_lt h, hJ.drop_walked h, List.map_cons, List.append_assoc,
      List.singleton_append]
  | case2 i list h => rw [hJ.drop_walked_eq_nil h, List.map_nil, List.append_nil]

theorem pushStringsUpTo_walked (hJ : J.Indexed) (limit : ℕ) (array : J.Arr) (i : UInt16)
    (list : List String) :
    J.pushStringsUpTo limit array i list =
      list ++ (((walked (J.elements array)).drop i.toNat).take (limit - list.length)).map
        J.string := by
  fun_induction J.pushStringsUpTo limit array i list with
  | case1 i list h ih =>
    obtain ⟨n, hn⟩ := Nat.exists_eq_add_of_lt h.2
    have hroom : limit - list.length = n + 1 := by omega
    rw [ih, toNat_succ_of_lt h.1, hJ.drop_walked h.1, hroom, List.take_succ_cons, List.map_cons,
      List.append_assoc, List.singleton_append, List.length_append, List.length_singleton,
      show limit - (list.length + 1) = n by omega]
  | case2 i list h =>
    rcases Nat.lt_or_ge list.length limit with hroom | hfull
    · rw [hJ.drop_walked_eq_nil fun hlt => h ⟨hlt, hroom⟩, List.take_nil, List.map_nil,
        List.append_nil]
    · rw [Nat.sub_eq_zero_of_le hfull, List.take_zero, List.map_nil, List.append_nil]

/-! ## Answers as they are written -/

/-- What else can be put into values: a number of 64 bits. -/
structure Writing (J : JsonLib) extends J.Nesting where
  /-- a variant holding a number -/
  ofInt64 : Int64 → J.Variant
  /-- what it holds -/
  number_ofInt64 : ∀ n, J.number (ofInt64 n) = n

/-- Reading the first field, if it is there. -/
theorem Lawful.fieldOr_objectOf_optional (hJ : J.Lawful) {α β : Type} (label label' : String)
    (write : α → J.Variant) (optional : Option α) (rest : List (String × J.Variant))
    (read : J.Variant → β) (defaultValue : β) :
    J.fieldOr (J.objectOf (J.optionalField label write optional ++ rest)) label' read
        defaultValue =
      if label' = label then
        optional.elim (J.fieldOr (J.objectOf rest) label' read defaultValue)
          fun value => read (write value)
      else J.fieldOr (J.objectOf rest) label' read defaultValue := by
  cases optional with
  | none => exact (ite_self _).symm
  | some value => exact hJ.fieldOr_objectOf_cons label label' (write value) rest read defaultValue

end JsonLib

open JsonLib

/-- The strings an iterator hands out; a null pointer hands out none. -/
def strings : Option StringIterator → List String
  | some it => it.elements
  | none => []

/-- The iterator that a client gets for it. -/
def iterator (it : Option StringIterator) : Option StringIterator := some ⟨walked (strings it)⟩

/-- A status with its lists cut off. -/
def NetStatusData.restricted (status : NetStatusData) : NetStatusData :=
  { status with
    netTypesSupported := status.netTypesSupported.take 8
    remoteData := (status.remoteData.take 32).map PairedRemoteInfo.restricted }

namespace Request

section Encoders

variable {J : JsonLib}

/-- A list of strings. -/
def texts (J : JsonLib) (ss : List String) : J.Variant := J.arrayOf (ss.map J.ofString)

/-- The flag of an answer. -/
def flag (J : JsonLib) (success : Bool) : String × J.Variant := ("success", J.ofBool success)

/-- The device type in an answer. -/
def typeField (J : JsonLib) (type : Option AVDevType) : List (String × J.Variant) :=
  J.optionalField "avDevType" (fun type => J.ofString type.enumToString) type

/-- The object of an answer with these outputs. -/
def reply (N : J.Writing) : (r : Request) → r.InOuts → r.Outs → J.Object
  | getNetStatus _, _, ⟨success, status⟩ =>
    J.objectOf [flag J success, ("status", N.ofObject (netStatusObject N.toNesting status))]
  | getIRDBManufacturers .., type, ⟨success, manufacturers⟩ =>
    J.objectOf (typeField J type ++
      [("manufacturers", texts J (strings manufacturers)), flag J success])
  | getIRDBModels .., (type, manufacturer), ⟨success, models⟩ =>
    J.objectOf (typeField J type ++
      (J.optionalField "manufacturer" J.ofString manufacturer ++
        [("models", texts J (strings models)), flag J success]))
  | getIRCodesByAutoLookup, _, out =>
    J.objectOf
      [("tvManufacturer", J.ofString out.tvManufacturer), ("tvModel", J.ofString out.tvModel),
        ("avrManufacturer", J.ofString out.avrManufacturer),
        ("avrModel", J.ofString out.avrModel), ("tvCodes", texts J (strings out.tvCodes)),
        ("avrCodes", texts J (strings out.avrCodes)), flag J out.success]
  | getIRCodesByNames .., (type, manufacturer, model), ⟨success, codes⟩ =>
    J.objectOf (typeField J type ++
      (J.optionalField "manufacturer" J.ofString manufacturer ++
        (J.optionalField "model" J.ofString model ++
          [("codes", texts J (strings codes)), flag J success])))
  | getLastKeypressSource, _, out =>
    J.objectOf
      [("controllerId", J.ofUint32 out.controllerId),
        ("timestamp", N.ofInt64 out.timestamp.toInt64),
        ("sourceName", J.ofString out.sourceName), ("sourceType", J.ofString out.sourceType),
        ("sourceKeyCode", J.ofUint32 out.sourceKeyCode),
        ("bIsScreenBindMode", J.ofBool out.bIsScreenBindMode),
        ("remoteKeypadConfig", J.ofUint32 out.remoteKeypadConfig), flag J out.success]
  | startFirmwareUpdate .., _, ⟨success, sessionIdList⟩ =>
    J.objectOf [("sessionIdList", texts J sessionIdList), flag J success]
  | statusFirmwareUpdate _, _, ⟨status, success⟩ =>
    J.objectOf [flag J success, ("status", N.ofObject (firmwareUpdateStatusObject J status))]
  | startPairing .., _, ⟨success⟩ => J.objectOf [flag J success]
  | stopPairing .., _, ⟨success⟩ => J.objectOf [flag J success]
  | setIRCode .., _, ⟨success⟩ => J.objectOf [flag J success]
  | clearIRCodes _, _, ⟨success⟩ => J.objectOf [flag J success]
  | configureWakeupKeys .., _, ⟨success⟩ => J.objectOf [flag J success]
  | initializeIRDB, _, ⟨success⟩ => J.objectOf [flag J success]
  | findMyRemote _, _, ⟨success⟩ => J.objectOf [flag J success]
  | factoryReset, _, ⟨success⟩ => J.objectOf [flag J success]
  | unpair _, _, ⟨success⟩ => J.objectOf [flag J success]
  | cancelFirmwareUpdate _, _, ⟨success⟩ => J.objectOf [flag J success]

end Encoders

/-! ## What is handed out -/

/-- The outputs of an answer, with the lists cut off. -/
def handedOut : (r : Request) → r.Outs → r.Outs
  | getNetStatus _, ⟨success, status⟩ => ⟨success, status.restricted⟩
  | getIRDBManufacturers .., ⟨success, manufacturers⟩ => ⟨success, iterator manufacturers⟩
  | getIRDBModels .., ⟨success, models⟩ => ⟨success, iterator models⟩
  | getIRCodesByAutoLookup, out =>
    { out with tvCodes := iterator out.tvCodes, avrCodes := iterator out.avrCodes }
  | getIRCodesByNames .., ⟨success, codes⟩ => ⟨success, iterator codes⟩
  | startFirmwareUpdate .., ⟨success, sessionIdList⟩ =>
    ⟨success, (walked sessionIdList).take 32⟩
  | _, out => out

/-- What is returned when there is no answer. -/
def failure : (r : Request) → r.Outs → Returned r.InOuts r.Outs
  | getNetStatus netType, _ => ⟨.errorNone, (), ⟨false, netType, .idle, .idle, [], []⟩⟩
  | getIRDBManufacturers .., _ => ⟨.errorNone, none, ⟨false, some ⟨[]⟩⟩⟩
  | getIRDBModels .., _ => ⟨.errorNone, (none, none), ⟨false, some ⟨[]⟩⟩⟩
  | getIRCodesByAutoLookup, _ =>
    ⟨.errorNone, (), ⟨"", "", "", "", false, some ⟨[]⟩, some ⟨[]⟩⟩⟩
  | getIRCodesByNames .., _ => ⟨.errorNone, (none, none, none), ⟨false, some ⟨[]⟩⟩⟩
  | getLastKeypressSource, before => ⟨.errorNone, (), { before with success := false }⟩
  | startFirmwareUpdate .., _ => ⟨.errorNone, (), ⟨false, []⟩⟩
  | statusFirmwareUpdate sessionId, _ =>
    ⟨.errorNone, (), ⟨⟨sessionId, "", .invalid, 0, none⟩, false⟩⟩
  | startPairing .., _ => ⟨.errorNone, (), ⟨false⟩⟩
  | stopPairing .., _ => ⟨.errorNone, (), ⟨false⟩⟩
  | setIRCode .., _ => ⟨.errorNone, (), ⟨false⟩⟩
  | clearIRCodes _, _ => ⟨.errorNone, (), ⟨false⟩⟩
  | configureWakeupKeys .., _ => ⟨.errorNone, (), ⟨false⟩⟩
  | initializeIRDB, _ => ⟨.errorNone, (), ⟨false⟩⟩
  | findMyRemote _, _ => ⟨.errorNone, (), ⟨false⟩⟩
  | factoryReset, _ => ⟨.errorNone, (), ⟨false⟩⟩
  | unpair _, _ => ⟨.errorNone, (), ⟨false⟩⟩
  | cancelFirmwareUpdate _, _ => ⟨.errorNone, (), ⟨false⟩⟩

/-- What is returned when ctrlm only answers that there was no success. It looks like
`failure`, except that `GetLastKeypressSource` assigns everything. -/
def refusal : (r : Request) → r.Outs → Returned r.InOuts r.Outs
  | getLastKeypressSource, _ => ⟨.errorNone, (), ⟨0, 0, "", "", 0, false, 0, false⟩⟩
  | r, before => r.failure before

variable {J : JsonLib}

/-! ## What the methods return -/

/-- A method that is turned away, or whose call fails. -/
theorem eval_failed {r : Request} {w : Outcome} (h : r.accepted = false ∨ w.Failed)
    (before : r.Outs) : (r.run J before).eval w.answer = r.failure before := by
  have hfailed : r.accepted = true → w.Failed := fun haccepted =>
    h.resolve_left fun hrejected => Bool.false_ne_true (hrejected.symm.trans haccepted)
  cases r with
  | startPairing | stopPairing | setIRCode | clearIRCodes | configureWakeupKeys | initializeIRDB
  | factoryReset | unpair | cancelFirmwareUpdate =>
    simp only [run, RemoteControl.startPairing, RemoteControl.stopPairing,
      RemoteControl.setIRCode, RemoteControl.clearIRCodes, RemoteControl.configureWakeupKeys,
      RemoteControl.initializeIRDB, RemoteControl.factoryReset, RemoteControl.unpair,
      RemoteControl.cancelFirmwareUpdate, exchangeSuccess, Outcome.eval_exchange,
      if_pos (hfailed rfl), eval_finish, failure]
  | findMyRemote level =>
    cases level with
    | none => rfl
    | some level =>
      simp only [run, RemoteControl.findMyRemote, exchangeSuccess, Outcome.eval_exchange,
        if_pos (hfailed rfl), eval_finish, failure]
  | getNetStatus | getLastKeypressSource | startFirmwareUpdate | statusFirmwareUpdate =>
    simp only [run, RemoteControl.getNetStatus, RemoteControl.getLastKeypressSource,
      RemoteControl.startFirmwareUpdate, RemoteControl.statusFirmwareUpdate,
      Outcome.eval_exchange, if_pos (hfailed rfl), eval_finish, failure]
  | getIRDBManufacturers avDevType manufacturer =>
    cases avDevType with
    | none => rfl
    | some type =>
      by_cases hmanufacturer : manufacturer.isEmpty = true
      · simp only [run, RemoteControl.getIRDBManufacturers, if_pos hmanufacturer]
        rfl
      · have haccepted : accepted (.getIRDBManufacturers (some type) manufacturer) = true := by
          rw [accepted, Bool.eq_false_iff.mpr hmanufacturer]
          rfl
        simp only [run, RemoteControl.getIRDBManufacturers, if_neg hmanufacturer,
          Outcome.eval_exchange, if_pos (hfailed haccepted)]
        rfl
  | getIRDBModels avDevType =>
    cases avDevType with
    | none => rfl
    | some type =>
      simp only [run, RemoteControl.getIRDBModels, Outcome.eval_exchange, if_pos (hfailed rfl)]
      rfl
  | getIRCodesByAutoLookup =>
    simp only [run, RemoteControl.getIRCodesByAutoLookup, Outcome.eval_exchange,
      if_pos (hfailed rfl)]
    rfl
  | getIRCodesByNames avDevType =>
    cases avDevType with
    | none => rfl
    | some type =>
      simp only [run, RemoteControl.getIRCodesByNames, Outcome.eval_exchange,
        if_pos (hfailed rfl)]
      rfl

/-- A method that is told that there was no success. -/
theorem eval_refused (hJ : J.Lawful) {r : Request} {w : Outcome}
    (haccepted : r.accepted = true) (hw : ¬ w.Failed)
    (hobject : J.fromString w.result = J.objectOf [flag J false]) (before : r.Outs) :
    (r.run J before).eval w.answer = r.refusal before := by
  have hmissing : ∀ {β : Type} {label : String}, label ≠ "success" → ∀ (read : J.Variant → β) d,
      J.fieldOr (J.objectOf [flag J false]) label read d = d := by
    intro β label hlabel read d
    rw [flag, hJ.fieldOr_objectOf_cons, if_neg hlabel, hJ.fieldOr_objectOf_nil]
  have hpresent : successIfPresent J (J.objectOf [flag J false]) = false := by
    rw [successIfPresent, flag, hJ.fieldOr_objectOf_cons, if_pos rfl, hJ.boolean_ofBool]
  have hflag : successFlag J (J.objectOf [flag J false]) = false := by
    rw [successFlag, flag, hJ.get_objectOf_cons, if_pos rfl, hJ.boolean_ofBool]
  cases r with
  | startPairing | stopPairing | setIRCode | clearIRCodes | configureWakeupKeys | initializeIRDB
  | factoryReset | unpair | cancelFirmwareUpdate =>
    simp only [run, RemoteControl.startPairing, RemoteControl.stopPairing,
      RemoteControl.setIRCode, RemoteControl.clearIRCodes, RemoteControl.configureWakeupKeys,
      RemoteControl.initializeIRDB, RemoteControl.factoryReset, RemoteControl.unpair,
      RemoteControl.cancelFirmwareUpdate, exchangeSuccess, Outcome.eval_exchange, if_neg hw,
      eval_finish, hobject, hpresent, hflag, refusal, failure]
  | findMyRemote level =>
    cases level with
    | none => cases haccepted
    | some level =>
      simp only [run, RemoteControl.findMyRemote, exchangeSuccess, Outcome.eval_exchange,
        if_neg hw, eval_finish, hobject, hflag, refusal, failure]
  | getNetStatus | getLastKeypressSource | startFirmwareUpdate | statusFirmwareUpdate =>
    simp (disch := decide) only [run, RemoteControl.getNetStatus,
      RemoteControl.getLastKeypressSource, RemoteControl.startFirmwareUpdate,
      RemoteControl.statusFirmwareUpdate, Outcome.eval_exchange, if_neg hw, eval_finish, hobject,
      hpresent, statusObject, optionalStringOf, hmissing, hJ.fieldOr_emptyObject, refusal, failure]
  | getIRDBManufacturers avDevType manufacturer =>
    cases avDevType with
    | none => cases haccepted
    | some type =>
      have hmanufacturer : ¬ manufacturer.isEmpty = true := by
        intro hempty
        rw [accepted, hempty] at haccepted
        cases haccepted
      simp (disch := decide) only [run, RemoteControl.getIRDBManufacturers, if_neg hmanufacturer,
        Outcome.eval_exchange, if_neg hw, hobject, avDevTypeOf, stringsAt, hpresent, hmissing]
      rfl
  | getIRDBModels avDevType =>
    cases avDevType with
    | none => cases haccepted
    | some type =>
      simp (disch := decide) only [run, RemoteControl.getIRDBModels, Outcome.eval_exchange,
        if_neg hw, hobject, avDevTypeOf, optionalStringOf, stringsAt, hpresent, hmissing]
      rfl
  | getIRCodesByAutoLookup =>
    simp (disch := decide) only [run, RemoteControl.getIRCodesByAutoLookup, Outcome.eval_exchange,
      if_neg hw, hobject, stringsAt, hpresent, hmissing]
    rfl
  | getIRCodesByNames avDevType =>
    cases avDevType with
    | none => cases haccepted
    | some type =>
      simp (disch := decide) only [run, RemoteControl.getIRCodesByNames, Outcome.eval_exchange,
        if_neg hw, hobject, avDevTypeOf, optionalStringOf, stringsAt, hpresent, hmissing]
      rfl

/-- The strings of a list in an answer. -/
theorem pushStrings_texts (hJ : J.Lawful) (hI : J.Indexed) (ss : List String) :
    J.pushStrings (J.array (texts J ss)) 0 [] = walked ss := by
  rw [pushStrings_walked hI, texts, hJ.elements_arrayOf, walked_map, List.nil_append,
    ← List.map_drop, List.map_map]
  exact (List.map_congr_left fun s _ => hJ.string_ofString s).trans (List.map_id _)

/-- The first of them, up to a limit. -/
theorem pushStringsUpTo_texts (hJ : J.Lawful) (hI : J.Indexed) (limit : ℕ) (ss : List String) :
    J.pushStringsUpTo limit (J.array (texts J ss)) 0 [] = (walked ss).take limit := by
  rw [pushStringsUpTo_walked hI, texts, hJ.elements_arrayOf, walked_map, List.nil_append,
    ← List.map_drop, ← List.map_take, List.map_map]
  exact (List.map_congr_left fun s _ => hJ.string_ofString s).trans (List.map_id _)

/-- **The answer arrives**: what the method returns is what ctrlm answered, with its lists cut
off. -/
theorem eval_answered (hJ : J.Lawful) (hI : J.Indexed) (N : J.Writing) {r : Request}
    {w : Outcome} (haccepted : r.accepted = true) (hw : ¬ w.Failed) {inouts : r.InOuts}
    {outs : r.Outs} (hobject : J.fromString w.result = r.reply N inouts outs) (before : r.Outs) :
    (r.run J before).eval w.answer = ⟨.errorNone, inouts, r.handedOut outs⟩ := by
  cases r with
  | startPairing | stopPairing | setIRCode | clearIRCodes | configureWakeupKeys | initializeIRDB
  | factoryReset | unpair | cancelFirmwareUpdate =>
    simp only [run, RemoteControl.startPairing, RemoteControl.stopPairing,
      RemoteControl.setIRCode, RemoteControl.clearIRCodes, RemoteControl.configureWakeupKeys,
      RemoteControl.initializeIRDB, RemoteControl.factoryReset, RemoteControl.unpair,
      RemoteControl.cancelFirmwareUpdate, exchangeSuccess, Outcome.eval_exchange, if_neg hw,
      eval_finish, hobject, reply, flag, successIfPresent, successFlag,
      hJ.fieldOr_objectOf_cons, hJ.get_objectOf_cons, if_true, hJ.boolean_ofBool, handedOut]
  | findMyRemote level =>
    cases level with
    | none => cases haccepted
    | some level =>
      simp only [run, RemoteControl.findMyRemote, exchangeSuccess, Outcome.eval_exchange,
        if_neg hw, eval_finish, hobject, reply, flag, successFlag, hJ.get_objectOf_cons, if_true,
        hJ.boolean_ofBool, handedOut]
  | getNetStatus netType =>
    obtain ⟨success, status⟩ := outs
    simp [run, RemoteControl.getNetStatus, if_neg hw, hobject, reply, flag, successIfPresent,
      statusObject, netStatusObject, netStatusFields, hJ.fieldOr_objectOf_cons, hJ.boolean_ofBool,
      N.object_ofObject, hJ.string_ofString, castUint32_ofUint32 hJ, parseUint32Array_numbers hJ,
      parseRemoteDataArray_remotes hJ, PairingState.stringToEnum_name,
      IRProgState.stringToEnum_name, handedOut, NetStatusData.restricted]
  | getIRDBManufacturers avDevType manufacturer =>
    cases avDevType with
    | none => cases haccepted
    | some type =>
      have hmanufacturer : ¬ manufacturer.isEmpty = true := by
        intro hempty
        rw [accepted, hempty] at haccepted
        cases haccepted
      obtain ⟨success, manufacturers⟩ := outs
      simp only [run, RemoteControl.getIRDBManufacturers, if_neg hmanufacturer,
        Outcome.eval_exchange, if_neg hw, hobject]
      simp [reply, flag, typeField, successIfPresent, avDevTypeOf, stringsAt, strings, iterator,
        hJ.fieldOr_objectOf_optional, hJ.fieldOr_objectOf_cons, hJ.boolean_ofBool,
        hJ.string_ofString, stringToEnum_enumToString, hJ.fieldOr_objectOf_nil, elim_none_some,
        pushStrings_texts hJ hI, handedOut]
  | getIRDBModels avDevType =>
    cases avDevType with
    | none => cases haccepted
    | some type =>
      obtain ⟨type', manufacturer⟩ := inouts
      obtain ⟨success, models⟩ := outs
      simp only [run, RemoteControl.getIRDBModels, Outcome.eval_exchange, if_neg hw, hobject]
      simp [reply, flag, typeField, successIfPresent, avDevTypeOf, optionalStringOf, stringsAt,
        strings, iterator, hJ.fieldOr_objectOf_optional, hJ.fieldOr_objectOf_cons,
        hJ.boolean_ofBool, hJ.string_ofString, stringToEnum_enumToString,
        hJ.fieldOr_objectOf_nil, elim_none_some, pushStrings_texts hJ hI, handedOut]
  | getIRCodesByAutoLookup =>
    simp only [run, RemoteControl.getIRCodesByAutoLookup, Outcome.eval_exchange, if_neg hw,
      hobject]
    simp [reply, flag, successIfPresent, stringsAt, strings, iterator, hJ.fieldOr_objectOf_cons,
      hJ.boolean_ofBool, hJ.string_ofString, pushStrings_texts hJ hI, handedOut]
  | getIRCodesByNames avDevType =>
    cases avDevType with
    | none => cases haccepted
    | some type =>
      obtain ⟨type', manufacturer, model⟩ := inouts
      obtain ⟨success, codes⟩ := outs
      simp only [run, RemoteControl.getIRCodesByNames, Outcome.eval_exchange, if_neg hw, hobject]
      simp [reply, flag, typeField, successIfPresent, avDevTypeOf, optionalStringOf, stringsAt,
        strings, iterator, hJ.fieldOr_objectOf_optional, hJ.fieldOr_objectOf_cons,
        hJ.boolean_ofBool, hJ.string_ofString, stringToEnum_enumToString,
        hJ.fieldOr_objectOf_nil, elim_none_some, pushStrings_texts hJ hI, handedOut]
  | getLastKeypressSource =>
    simp [run, RemoteControl.getLastKeypressSource, if_neg hw, hobject, reply, flag,
      successIfPresent, hJ.fieldOr_objectOf_cons, hJ.boolean_ofBool, hJ.string_ofString,
      castUint32_ofUint32 hJ, N.number_ofInt64, handedOut]
  | startFirmwareUpdate =>
    obtain ⟨success, sessionIdList⟩ := outs
    simp [run, RemoteControl.startFirmwareUpdate, if_neg hw, hobject, reply, flag,
      successIfPresent, hJ.fieldOr_objectOf_cons, hJ.boolean_ofBool,
      pushStringsUpTo_texts hJ hI, handedOut]
  | statusFirmwareUpdate =>
    obtain ⟨⟨session, mac, state, percent, error⟩, success⟩ := outs
    cases error <;>
      simp [run, RemoteControl.statusFirmwareUpdate, if_neg hw, hobject, reply, flag,
        successIfPresent, statusObject, optionalStringOf, firmwareUpdateStatusObject,
        firmwareUpdateStatusFields, JsonLib.optionalField, hJ.fieldOr_objectOf_cons,
        hJ.fieldOr_objectOf_nil, hJ.boolean_ofBool, hJ.string_ofString,
        N.object_ofObject, castUint32_ofUint32 hJ, FirmwareUpdateState.stringToEnum_name,
        handedOut]

end Request

end RemoteControl
