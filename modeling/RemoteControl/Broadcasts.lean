import RemoteControl.Numbers
import RemoteControl.Payloads
import RemoteControl.Relay

/-!
# Broadcasts: records put on the bus arrive as they are

`Relay` says which messages reach an observer; here is what arrives. ctrlm sends its
records as JSON text in an event buffer, the decoders take them apart again. A record
written down field by field, in any order, comes out as it was, but for the lists, which are
cut off at their limits; so a record that keeps the limits arrives as it is.

* `Nesting` — objects inside values, which is how ctrlm writes them.
* `Written` — an object with some fields, in any order.
* `Notification.SentAs` — a record as ctrlm sends it; what is not set is not written.
* `Carries` — a message whose payload is the text of a record.
* `records_arrive` — the same from the bus to the observers, in every interleaving.
-/

namespace RemoteControl

/-! ## Objects, field by field -/

namespace JsonLib

variable {J : JsonLib} {α : Type}

/-- Objects can be put into values, and `Object()` gets them out. -/
structure Nesting (J : JsonLib) where
  /-- a variant holding an object -/
  ofObject : J.Object → J.Variant
  /-- what it holds -/
  object_ofObject : ∀ object, J.object (ofObject object) = object

/-- The object of a list of fields. -/
def objectOf (J : JsonLib) : List (String × J.Variant) → J.Object
  | [] => J.emptyObject
  | (label, value) :: rest => J.set (objectOf J rest) label value

/-- The array of a list of values. -/
def arrayOf (J : JsonLib) (values : List J.Variant) : J.Variant :=
  J.ofArray (values.foldl J.add J.emptyArr)

theorem Lawful.fieldOr_objectOf_nil (hJ : J.Lawful) (label : String) (read : J.Variant → α)
    (defaultValue : α) : J.fieldOr (J.objectOf []) label read defaultValue = defaultValue :=
  hJ.fieldOr_emptyObject label read defaultValue

/-- Reading the first field. -/
theorem Lawful.fieldOr_objectOf_cons (hJ : J.Lawful) (label label' : String) (value : J.Variant)
    (rest : List (String × J.Variant)) (read : J.Variant → α) (defaultValue : α) :
    J.fieldOr (J.objectOf ((label, value) :: rest)) label' read defaultValue =
      if label' = label then read value
      else J.fieldOr (J.objectOf rest) label' read defaultValue := by
  by_cases h : label' = label
  · subst h
    rw [if_pos rfl]
    exact hJ.fieldOr_set_self _ _ _ _ _
  · rw [if_neg h]
    exact hJ.fieldOr_set_ne _ h _ _ _

theorem Lawful.get_objectOf_cons (hJ : J.Lawful) (label label' : String) (value : J.Variant)
    (rest : List (String × J.Variant)) :
    J.get (J.objectOf ((label, value) :: rest)) label' =
      if label' = label then value else J.get (J.objectOf rest) label' :=
  hJ.get_set _ _ _ _

theorem Lawful.hasLabel_objectOf (hJ : J.Lawful) (fields : List (String × J.Variant))
    (label : String) :
    J.hasLabel (J.objectOf fields) label = fields.any fun field => decide (label = field.1) := by
  induction fields with
  | nil => exact hJ.hasLabel_emptyObject label
  | cons field rest ih => rw [objectOf, hJ.hasLabel_set, ih, List.any_cons]

/-- The values of an array. -/
theorem Lawful.elements_arrayOf (hJ : J.Lawful) (values : List J.Variant) :
    J.elements (J.array (J.arrayOf values)) = values := by
  have hadd : ∀ a, J.elements (values.foldl J.add a) = J.elements a ++ values := by
    induction values with
    | nil => exact fun a => (List.append_nil _).symm
    | cons value rest ih =>
      intro a
      rw [List.foldl_cons, ih, hJ.elements_add, List.append_assoc, List.singleton_append]
  rw [arrayOf, hJ.elements_ofArray, hadd, hJ.elements_emptyArr, List.nil_append]

/-- A field that is only written if there is a value. -/
def optionalField (J : JsonLib) (label : String) (write : α → J.Variant)
    (optional : Option α) : List (String × J.Variant) :=
  (optional.map fun value => (label, write value)).toList

/-- An object with these fields, in whatever order they were written. -/
def Written (J : JsonLib) (fields : List (String × J.Variant)) (object : J.Object) : Prop :=
  ∃ written, written.Perm fields ∧ object = J.objectOf written

/-- If the labels differ, the order makes no difference. -/
theorem Lawful.get_objectOf_perm (hJ : J.Lawful) {fields fields' : List (String × J.Variant)}
    (h : fields.Perm fields') (hlabels : (fields.map Prod.fst).Nodup) (label : String) :
    J.get (J.objectOf fields) label = J.get (J.objectOf fields') label := by
  induction h with
  | nil => rfl
  | cons field _ ih =>
    obtain ⟨l, v⟩ := field
    rw [hJ.get_objectOf_cons, hJ.get_objectOf_cons, ih (List.nodup_cons.mp hlabels).2]
  | swap a b rest =>
    obtain ⟨la, va⟩ := a
    obtain ⟨lb, vb⟩ := b
    have hne : lb ≠ la := fun heq => by simp [heq] at hlabels
    simp only [hJ.get_objectOf_cons]
    by_cases ha : label = la
    · have hb : label ≠ lb := fun hb => hne (hb.symm.trans ha)
      simp only [if_pos ha, if_neg hb]
    · simp only [if_neg ha]
  | trans hfirst _ ih ih' =>
    rw [ih hlabels, ih' ((hfirst.map Prod.fst).nodup_iff.mp hlabels)]

/-- An object is read by its fields. -/
theorem Written.fieldOr_eq (hJ : J.Lawful) {fields : List (String × J.Variant)}
    {object : J.Object} (h : J.Written fields object) (hlabels : (fields.map Prod.fst).Nodup)
    (label : String) (read : J.Variant → α) (defaultValue : α) :
    J.fieldOr object label read defaultValue =
      J.fieldOr (J.objectOf fields) label read defaultValue := by
  obtain ⟨written, hperm, rfl⟩ := h
  have hnodup := (hperm.map Prod.fst).nodup_iff.mpr hlabels
  rw [fieldOr, fieldOr, hJ.hasLabel_objectOf, hJ.hasLabel_objectOf, hperm.any_eq,
    hJ.get_objectOf_perm hperm hnodup]

end JsonLib

/-! ## The records as they are sent -/

/-- The name ctrlm has for a `PairingState`. -/
def PairingState.name : PairingState → String
  | .initialising => "INITIALISING"
  | .idle => "IDLE"
  | .searching => "SEARCHING"
  | .pairing => "PAIRING"
  | .complete => "COMPLETE"
  | .failed => "FAILED"

/-- The name of an `IRProgState`. -/
def IRProgState.name : IRProgState → String
  | .idle => "IDLE"
  | .waiting => "WAITING"
  | .complete => "COMPLETE"
  | .failed => "FAILED"

/-- The name of a `FirmwareUpdateState`. -/
def FirmwareUpdateState.name : FirmwareUpdateState → String
  | .success => "success"
  | .idle => "idle"
  | .pending => "pending"
  | .canceled => "canceled"
  | .retrying => "retrying"
  | .error => "error"
  | .invalid => "invalid"

/-- The name of a `ValidationStatus`. -/
def ValidationStatus.name : ValidationStatus → String
  | .success => "SUCCESS"
  | .pending => "PENDING"
  | .timeout => "TIMEOUT"
  | .collision => "COLLISION"
  | .failure => "FAILURE"
  | .abort => "ABORT"
  | .fullAbort => "FULL_ABORT"
  | .failed => "FAILED"
  | .bindTableFull => "BIND_TABLE_FULL"
  | .inProgress => "IN_PROGRESS"
  | .ctrlmRestart => "CTRLM_RESTART"

theorem PairingState.stringToEnum_name (state defaultValue : PairingState) :
    stringToEnum state.name defaultValue = state := by
  cases state with
  | _ => rfl

theorem IRProgState.stringToEnum_name (state defaultValue : IRProgState) :
    stringToEnum state.name defaultValue = state := by
  cases state with
  | _ => rfl

theorem FirmwareUpdateState.stringToEnum_name (state defaultValue : FirmwareUpdateState) :
    stringToEnum state.name defaultValue = state := by
  cases state with
  | _ => rfl

theorem ValidationStatus.stringToEnum_name (status defaultValue : ValidationStatus) :
    stringToEnum status.name defaultValue = status := by
  cases status with
  | _ => rfl

section Encoders

variable (J : JsonLib)

/-- A list of numbers. -/
def numbers (ns : List UInt32) : J.Variant := J.arrayOf (ns.map J.ofUint32)

/-- The fields of a remote. -/
def remoteFields (remote : PairedRemoteInfo) : List (String × J.Variant) :=
  [("macAddress", J.ofString remote.macAddress), ("connected", J.ofBool remote.connected),
    ("name", J.ofString remote.name), ("remoteId", J.ofUint32 remote.remoteId),
    ("deviceId", J.ofUint32 remote.deviceId), ("make", J.ofString remote.make),
    ("model", J.ofString remote.model), ("hwVersion", J.ofString remote.hwVersion),
    ("swVersion", J.ofString remote.swVersion), ("btlVersion", J.ofString remote.btlVersion),
    ("serialNumber", J.ofString remote.serialNumber),
    ("batteryPercent", J.ofUint32 remote.batteryPercent),
    ("tvIRCode", J.ofString remote.tvIRCode), ("ampIRCode", J.ofString remote.ampIRCode),
    ("wakeupKeyCode", J.ofUint32 remote.wakeupKeyCode),
    ("upgradeSessionId", J.ofString remote.upgradeSessionId),
    ("wakeupConfig", J.ofString remote.wakeupConfig.enumToString),
    ("wakeupCustomList", numbers J remote.wakeupCustomList)]

/-- The fields of the `status` of a status event, with these values for the remotes. -/
def netStatusFields (status : NetStatusData) (remotes : List J.Variant) :
    List (String × J.Variant) :=
  [("netType", J.ofUint32 status.netType),
    ("pairingState", J.ofString status.pairingState.name),
    ("irProgState", J.ofString status.irProgState.name),
    ("netTypesSupported", numbers J status.netTypesSupported), ("remoteData", J.arrayOf remotes)]

/-- The fields of the `status` of a validation event. The codes come with the golden code,
the key with a key that was pressed, and neither of them when the validation ends. -/
def validationStatusFields (status : ValidationStatusObject) : List (String × J.Variant) :=
  [("status", J.ofString status.status.name)] ++
    J.optionalField "code" (numbers J) (if status.code = [] then none else some status.code) ++
    J.optionalField "key" J.ofUint32 status.key

/-- The fields of the `status` of a firmware update event. -/
def firmwareUpdateStatusFields (status : FirmwareUpdateStatusData) :
    List (String × J.Variant) :=
  [("upgradeSessionId", J.ofString status.upgradeSessionId),
    ("macAddress", J.ofString status.macAddress),
    ("upgradeState", J.ofString status.upgradeState.name),
    ("percentComplete", J.ofUint32 status.percentComplete)] ++
    J.optionalField "errorString" J.ofString status.errorString

/-- A remote. -/
def remoteObject (remote : PairedRemoteInfo) : J.Object := J.objectOf (remoteFields J remote)

variable {J} (N : J.Nesting)

/-- The `status` of a network. -/
def netStatusObject (status : NetStatusData) : J.Object :=
  J.objectOf (netStatusFields J status
    (status.remoteData.map fun r => N.ofObject (remoteObject J r)))

variable (J) in
/-- The `status` of an update. -/
def firmwareUpdateStatusObject (status : FirmwareUpdateStatusData) : J.Object :=
  J.objectOf (firmwareUpdateStatusFields J status)

/-- The `status` of an event that tells a record, with the fields of every object in any
order. -/
def Notification.Status : Notification → J.Object → Prop
  | .onStatus status, object => ∃ remotes,
    List.Forall₂ (fun r o => J.Written (remoteFields J r) o) status.remoteData remotes ∧
      J.Written (netStatusFields J status (remotes.map N.ofObject)) object
  | .onValidation status, object => J.Written (validationStatusFields J status) object
  | .onFirmwareUpdateProgress status, object =>
    J.Written (firmwareUpdateStatusFields J status) object

/-- The object of such an event. -/
def Notification.SentAs (record : Notification) (object : J.Object) : Prop :=
  ∃ status, record.Status N status ∧ J.Written [("status", N.ofObject status)] object

end Encoders

/-! ## The limits -/

/-- A remote with its list cut off. -/
def PairedRemoteInfo.restricted (remote : PairedRemoteInfo) : PairedRemoteInfo :=
  { remote with wakeupCustomList := remote.wakeupCustomList.take 32 }

/-- A record with its lists cut off. -/
def Notification.restricted : Notification → Notification
  | .onStatus status => .onStatus
    { status with
      netTypesSupported := status.netTypesSupported.take 8
      remoteData := (status.remoteData.take 32).map PairedRemoteInfo.restricted }
  | .onValidation status => .onValidation { status with code := status.code.take 3 }
  | .onFirmwareUpdateProgress status => .onFirmwareUpdateProgress status

/-! ## The way back -/

section Decoders

variable {J : JsonLib} (hJ : J.Lawful)

include hJ

/-- Nothing is cut off from a `uint32_t`. -/
theorem clampUint32_ofUint32 (n : UInt32) : clampUint32 (J.number (J.ofUint32 n)) = n := by
  have hbits := toNat_toUInt64 (J.number (J.ofUint32 n))
  have hlow := (J.number (J.ofUint32 n)).le_toInt
  have hhigh := (J.number (J.ofUint32 n)).toInt_lt
  have hn : (J.number (J.ofUint32 n)).toUInt64.toNat = n.toNat := by
    rw [hJ.number_ofUint32, UInt64.toUInt64_toInt64, UInt32.toNat_toUInt64]
  have hlt := n.toNat_lt
  rw [hn] at hbits
  have hclamp := toNat_clampUint32 (J.number (J.ofUint32 n))
  rw [saturate_of_mem (by omega) (by omega)] at hclamp
  apply UInt32.toNat_inj.mp
  omega

theorem parseUint32Array_numbers (ns : List UInt32) (limit : ℕ) :
    parseUint32Array J (numbers J ns) limit = ns.take limit := by
  rw [parseUint32Array_eq, numbers, hJ.elements_arrayOf, ← List.map_take, List.map_map]
  exact (List.map_congr_left fun n _ => clampUint32_ofUint32 hJ n).trans (List.map_id _)

/-- A remote is read as it was written. -/
theorem parseRemoteInfo_written {remote : PairedRemoteInfo} {object : J.Object}
    (h : J.Written (remoteFields J remote) object) :
    parseRemoteInfo J object = remote.restricted := by
  have hlabels : ((remoteFields J remote).map Prod.fst).Nodup := by simp [remoteFields]
  simp only [parseRemoteInfo, h.fieldOr_eq hJ hlabels]
  simp [remoteFields, hJ.fieldOr_objectOf_cons, hJ.string_ofString, hJ.boolean_ofBool,
    castUint32_ofUint32 hJ, parseUint32Array_numbers hJ, wakeupConfig_stringToEnum_enumToString,
    PairedRemoteInfo.restricted]

/-- So is a list of them. -/
theorem parseRemoteDataArray_written (N : J.Nesting) {remotes : List PairedRemoteInfo}
    {objects : List J.Object}
    (h : List.Forall₂ (fun r o => J.Written (remoteFields J r) o) remotes objects) (limit : ℕ) :
    parseRemoteDataArray J (J.arrayOf (objects.map N.ofObject)) limit =
      (remotes.take limit).map PairedRemoteInfo.restricted := by
  have hall : objects.map (parseRemoteInfo J) = remotes.map PairedRemoteInfo.restricted := by
    induction h with
    | nil => rfl
    | cons hremote _ ih => rw [List.map_cons, List.map_cons, parseRemoteInfo_written hJ hremote, ih]
  rw [parseRemoteDataArray_eq, hJ.elements_arrayOf, List.map_take, List.map_take, ← hall,
    List.map_map]
  simp only [Function.comp_def, N.object_ofObject]

theorem parseRemoteDataArray_remotes (N : J.Nesting) (remotes : List PairedRemoteInfo)
    (limit : ℕ) :
    parseRemoteDataArray J (J.arrayOf (remotes.map fun r => N.ofObject (remoteObject J r))) limit =
      (remotes.take limit).map PairedRemoteInfo.restricted := by
  have hwritten : List.Forall₂ (fun r o => J.Written (remoteFields J r) o) remotes
      (remotes.map (remoteObject J)) :=
    List.forall₂_map_right_iff.mpr (List.forall₂_same.mpr fun r _ => ⟨_, .refl _, rfl⟩)
  rw [← parseRemoteDataArray_written hJ N hwritten, List.map_map]
  rfl

/-- The object of the only field of an event. -/
theorem statusObject_written {N : J.Nesting} {status object : J.Object}
    (h : J.Written [("status", N.ofObject status)] object) : statusObject J object = status := by
  rw [statusObject, h.fieldOr_eq hJ (List.nodup_singleton _), hJ.fieldOr_objectOf_cons, if_pos rfl,
    N.object_ofObject]

theorem netStatusOf_sent {N : J.Nesting} {status : NetStatusData} {object : J.Object}
    (h : (Notification.onStatus status).SentAs N object) :
    Notification.onStatus (netStatusOf J object) = (Notification.onStatus status).restricted := by
  obtain ⟨statusObj, ⟨remotes, hremotes, hstatus⟩, hobject⟩ := h
  have hlabels : ((netStatusFields J status (remotes.map N.ofObject)).map Prod.fst).Nodup := by
    simp [netStatusFields]
  simp only [netStatusOf, statusObject_written hJ hobject, hstatus.fieldOr_eq hJ hlabels]
  simp [netStatusFields, hJ.fieldOr_objectOf_cons, hJ.string_ofString, castUint32_ofUint32 hJ,
    parseUint32Array_numbers hJ, parseRemoteDataArray_written hJ N hremotes,
    PairingState.stringToEnum_name, IRProgState.stringToEnum_name, Notification.restricted]

theorem validationStatusOf_sent {N : J.Nesting} {status : ValidationStatusObject}
    {object : J.Object} (h : (Notification.onValidation status).SentAs N object) :
    Notification.onValidation (validationStatusOf J object) =
      (Notification.onValidation status).restricted := by
  obtain ⟨statusObj, hstatus, hobject⟩ := h
  have hlabels : ((validationStatusFields J status).map Prod.fst).Nodup := by
    rcases status with ⟨status, _ | ⟨c, code⟩, _ | key⟩ <;>
      simp [validationStatusFields, JsonLib.optionalField]
  simp only [validationStatusOf_eq, statusObject_written hJ hobject,
    hstatus.fieldOr_eq hJ hlabels]
  rcases status with ⟨status, _ | ⟨c, code⟩, _ | key⟩ <;>
    simp [validationStatusFields, JsonLib.optionalField, hJ.fieldOr_objectOf_cons,
      hJ.fieldOr_objectOf_nil, hJ.string_ofString, castUint32_ofUint32 hJ,
      parseUint32Array_numbers hJ, ValidationStatus.stringToEnum_name, Notification.restricted]

theorem firmwareUpdateStatusOf_sent {N : J.Nesting} {status : FirmwareUpdateStatusData}
    {object : J.Object} (h : (Notification.onFirmwareUpdateProgress status).SentAs N object) :
    firmwareUpdateStatusOf J object = status := by
  obtain ⟨statusObj, hstatus, hobject⟩ := h
  have hlabels : ((firmwareUpdateStatusFields J status).map Prod.fst).Nodup := by
    rcases status with ⟨session, mac, state, percent, _ | error⟩ <;>
      simp [firmwareUpdateStatusFields, JsonLib.optionalField]
  simp only [firmwareUpdateStatusOf_eq hJ.hasLabel_emptyObject, optionalStringOf,
    statusObject_written hJ hobject, hstatus.fieldOr_eq hJ hlabels]
  rcases status with ⟨session, mac, state, percent, _ | error⟩ <;>
    simp [firmwareUpdateStatusFields, JsonLib.optionalField, hJ.fieldOr_objectOf_cons,
      hJ.fieldOr_objectOf_nil, hJ.string_ofString, castUint32_ofUint32 hJ,
      FirmwareUpdateState.stringToEnum_name]

end Decoders

/-! ## The messages -/

/-- A string that ends is read up to its end. -/
theorem readString_terminated {chars : List UInt8} (h : ∀ b ∈ chars, b ≠ 0) (rest : List UInt8) :
    ∀ offset, (readString offset (chars ++ 0 :: rest)).2 = some chars := by
  induction chars with
  | nil => exact fun _ => rfl
  | cons b chars ih =>
    intro offset
    obtain ⟨hb, hchars⟩ := List.forall_mem_cons.mp h
    rw [List.cons_append, readString, if_neg hb]
    simp only [ih hchars (offset + 1), Option.map_some]

section Messages

variable (J : JsonLib) (ipc : CtrlmIpc) {ν : Type}

/-- The text has no NUL, and its characters are bytes. -/
def Sendable (text : String) : Prop := ∀ c ∈ text.toList, 0 < c.toNat ∧ c.toNat < 256

/-- The message is one of this event whose payload is this text. -/
def Payload (m : BusMessage) (event : RcuEvent) (text : String) : Prop :=
  ∃ header beyond, header.length = ipc.payloadOffset ∧
    m = ⟨ipc.busName, some event, some ⟨header ++ bytes text ++ [0], beyond⟩⟩

/-- The message carries the record: its payload is the text of an object of it. -/
def Carries (N : J.Nesting) (m : BusMessage) (record : Notification) : Prop :=
  ∃ event text, record.kind = event.kind ∧ Sendable text ∧
    record.SentAs N (J.fromString text) ∧ Payload ipc m event text

variable {J ipc}

theorem ofList_bytes {text : String} (h : Sendable text) :
    String.ofList ((bytes text).map fun b => Char.ofNat b.toNat) = text := by
  have hchars : (bytes text).map (fun b => Char.ofNat b.toNat) = text.toList := by
    rw [bytes, List.map_map]
    refine (List.map_congr_left fun c hc => ?_).trans (List.map_id _)
    rw [Function.comp_apply, UInt8.toNat_ofNat_of_lt' (h c hc).2, Char.ofNat_toNat, id]
  rw [hchars, String.ofList_toList]

theorem ne_zero_of_mem_bytes {text : String} (h : Sendable text) : ∀ b ∈ bytes text, b ≠ 0 := by
  intro b hb hzero
  obtain ⟨c, hc, rfl⟩ := List.mem_map.mp hb
  have hnat := UInt8.toNat_ofNat_of_lt' (h c hc).2
  rw [hzero] at hnat
  exact absurd hnat.symm (Nat.pos_iff_ne_zero.mp (h c hc).1)

/-- What the handler does with a message of a known event: it reads no further than the
buffer, and the observers are told what the text says. -/
theorem handled_payload {m : BusMessage} {event : RcuEvent} {text : String}
    (hm : Payload ipc m event text) (htext : Sendable text) (observers : List ν) :
    (m.handled J ipc observers).calls = notify J event text observers ∧
      (m.handled J ipc observers).faulted = false := by
  obtain ⟨header, beyond, hheader, rfl⟩ := hm
  have hread := readString_terminated (ne_zero_of_mem_bytes htext) beyond ipc.payloadOffset
  have hdrop : (header ++ bytes text ++ [0] ++ beyond).drop ipc.payloadOffset =
      bytes text ++ 0 :: beyond := by
    rw [← hheader, List.append_assoc, List.append_assoc, List.drop_left, List.singleton_append]
  have hlen : (header ++ bytes text ++ [0]).length ≠ 0 := by simp
  rw [BusMessage.handled, iarmEventHandler, if_neg (not_not_intro rfl)]
  simp only [if_neg hlen, hdrop, hread, ofList_bytes htext]
  exact ⟨trivial, trivial⟩

/-- **A record arrives**, with its lists cut off at their limits. -/
theorem told_of_carries (hJ : J.Lawful) {N : J.Nesting} {m : BusMessage} {record : Notification}
    (h : Carries J ipc N m record) : m.told J ipc = some record.restricted := by
  obtain ⟨event, text, hkind, htext, hsent, hm⟩ := h
  have hcalls := (handled_payload (J := J) hm htext [()]).1
  rw [BusMessage.told, hcalls]
  cases record with
  | onStatus status =>
    rw [← netStatusOf_sent hJ hsent]
    cases event with
    | validationStatus => cases hkind
    | firmwareUpdateProgress => cases hkind
    | _ => rfl
  | onValidation status =>
    rw [← validationStatusOf_sent hJ hsent]
    cases event with
    | validationStatus => rfl
    | _ => cases hkind
  | onFirmwareUpdateProgress status =>
    cases event with
    | firmwareUpdateProgress =>
      exact congrArg (some ∘ Notification.onFirmwareUpdateProgress)
        (firmwareUpdateStatusOf_sent hJ hsent)
    | _ => cases hkind

end Messages

/-! ## From the bus to the observers -/

namespace Relay

variable {ν : Type} [DecidableEq ν]

/-- The record of a step's message, if `n` is registered. -/
def publish (record : BusMessage → Notification) (n : ν) (p : Relay ν × RelayAct ν) :
    Option Notification :=
  match p.2 with
  | .deliver m =>
    if p.1.observers.notifications.contains (some n) then some (record m) else none
  | _ => none

/-- The records sent while `n` was registered, in the order of the messages. -/
def published (record : BusMessage → Notification) (n : ν) (tr : List (Relay ν × RelayAct ν)) :
    List Notification :=
  tr.filterMap (publish record n)

/-- What is offered are the records that were sent. -/
theorem offered_eq {J : JsonLib} (hJ : J.Lawful) {ipc : CtrlmIpc} {N : J.Nesting}
    {record : BusMessage → Notification} {tr : List (Relay ν × RelayAct ν)}
    (h : ∀ p ∈ tr, ∀ m, p.2 = .deliver m → Carries J ipc N m (record m)) (n : ν) :
    offered J ipc n tr = (published record n tr).map Notification.restricted := by
  rw [offered, published, List.map_filterMap]
  refine List.filterMap_congr fun p hp => ?_
  obtain ⟨s, a⟩ := p
  cases a with
  | other b => rfl
  | deliver m =>
    simp only [offer, publish, told_of_carries hJ (h _ hp m rfl)]
    split <;> rfl

end Relay

open Relay Runs in
/-- **Records.** Clients register and unregister, ctrlm sends records, and their dispatches
run, in any interleaving. What an observer is told are, up to the order, records that were
sent while it was registered, each once and with its lists cut off at their limits, and all
of them when every dispatch has called everybody. If ctrlm's events come one after the
other, they arrive in their order, and only the latest can be missing. -/
theorem records_arrive {ν : Type} [DecidableEq ν] {J : JsonLib} (hJ : J.Lawful) (N : J.Nesting)
    {ipc : CtrlmIpc} {record : BusMessage → Notification} {s : Relay ν}
    {tr : List (Relay ν × RelayAct ν)} (h : Run (Steps J ipc) fresh tr s)
    (hcarries : ∀ p ∈ tr, ∀ m, p.2 = .deliver m → Carries J ipc N m (record m)) (n : ν) :
    let sent := (published record n tr).map Notification.restricted
    (received n tr).Subperm sent ∧ (s.Through → (received n tr).Perm sent) ∧
      (OneByOne tr → ∃ missing, sent = received n tr ++ missing ∧ missing.length ≤ 1 ∧
        (s.Through → missing = [])) := by
  have harrives := arrives J ipc h n
  rw [offered_eq hJ hcarries n] at harrives
  exact ⟨harrives.subperm, harrives.perm, harrives.inOrder⟩

/-- Objects in the trees. -/
def treeNesting : treeJson.Nesting := ⟨Json.object, fun _ => rfl⟩

/-- The texts of a validation, with what they say: the golden code is generated, its first
key is pressed, and the validation ends. -/
def validation : List (String × Notification) :=
  [("\x7b\"status\":\x7b\"status\":\"PENDING\",\"code\":[2,3,4]\x7d\x7d",
      .onValidation ⟨.pending, [2, 3, 4], none⟩),
    ("\x7b\"status\":\x7b\"status\":\"PENDING\",\"key\":2\x7d\x7d",
      .onValidation ⟨.pending, [], some 2⟩),
    ("\x7b\"status\":\x7b\"status\":\"SUCCESS\"\x7d\x7d", .onValidation ⟨.success, [], none⟩)]

/-- What a message of the validation says. -/
def validationRecord (m : BusMessage) : Notification :=
  ((validation.find? fun p => m = validationMessage p.1).map Prod.snd).getD
    (.onValidation ⟨.failed, [], none⟩)

/-- An observer registers and is called for each of them. -/
def validated : List (RelayAct ℕ) :=
  .other (.register .client (some 4)) :: ((validation.zipIdx).flatMap fun p =>
    [.deliver (validationMessage p.1.1), .other (.enterCallback p.2 (some 4)),
      .other (.leaveCallback p.2)])

/-- A message carries the record whose fields its text has. The tree keeps them in the order
of the text, which is the reverse of the order in which `objectOf` writes. -/
theorem carries_validationMessage {text : String} {status : ValidationStatusObject}
    (htext : Sendable text)
    (hfields : treeJson.fromString text =
      [("status", .object (treeJson.objectOf (validationStatusFields treeJson status).reverse))]) :
    Carries treeJson ⟨"Ctrlm", 1⟩ treeNesting (validationMessage text) (.onValidation status) := by
  refine ⟨.validationStatus, text, rfl, htext, ⟨_, ⟨_, List.reverse_perm _, rfl⟩, ?_⟩, [0], [],
    rfl, rfl⟩
  rw [hfields]
  exact ⟨_, .refl _, rfl⟩

/-- Each of them carries what it says. -/
theorem carries_validation : ∀ p ∈ validation,
    Carries treeJson ⟨"Ctrlm", 1⟩ treeNesting (validationMessage p.1)
      (validationRecord (validationMessage p.1)) := by
  have hsendable : ∀ p ∈ validation, Sendable p.1 := by simp [validation, Sendable]
  have hrecord : ∀ p ∈ validation, validationRecord (validationMessage p.1) = p.2 := by
    decide +kernel
  intro p hp
  rw [hrecord p hp]
  have htext := hsendable p hp
  simp only [validation, List.mem_cons, List.not_mem_nil, or_false] at hp
  rcases hp with rfl | rfl | rfl
  all_goals exact carries_validationMessage htext (Json.eq_of_sameFields (by decide +kernel))

/-- A schedule takes the steps it says. -/
theorem Relay.actions_of_follow {ν : Type} [DecidableEq ν] {J : JsonLib} {ipc : CtrlmIpc}
    {as : List (RelayAct ν)} {s t : Relay ν} {tr : List (Relay ν × RelayAct ν)}
    (h : Runs.follow (advance J ipc) s as = some (tr, t)) : tr.map Prod.snd = as := by
  induction as generalizing s tr with
  | nil =>
    obtain ⟨rfl, rfl⟩ := Prod.mk.inj (Option.some.inj h)
    rfl
  | cons a as ih =>
    rw [Runs.follow, advance] at h
    rcases hstep : s.step J ipc a with _ | u
    · rw [hstep] at h
      cases h
    · rw [hstep] at h
      obtain ⟨⟨tr', t'⟩, hrest, heq⟩ := Option.map_eq_some_iff.mp h
      obtain ⟨rfl, rfl⟩ := Prod.mk.inj heq
      rw [List.map_cons, ih hrest]

open Relay Runs in
/-- The observer is told of the golden code, of the key, and of the end, in this order. -/
theorem records_arrive_validation :
    ∃ (s : Relay ℕ) (tr : List (Relay ℕ × RelayAct ℕ)),
      follow (advance treeJson ⟨"Ctrlm", 1⟩) fresh validated = some (tr, s) ∧
      received 4 tr = validation.map Prod.snd ∧
      (published validationRecord 4 tr).map Notification.restricted = received 4 tr := by
  have hall : (follow (advance treeJson ⟨"Ctrlm", 1⟩) fresh validated).map
      (fun p => (received 4 p.1, decide (OneByOne p.1), decide p.2.Through)) =
      some (validation.map Prod.snd, true, true) := by
    decide +kernel
  obtain ⟨⟨tr, s⟩, hs, hvalues⟩ := Option.map_eq_some_iff.mp hall
  obtain ⟨hreceived, hrest⟩ := Prod.mk.inj hvalues
  obtain ⟨hone, hthrough⟩ := Prod.mk.inj hrest
  have hrun : Run (Steps treeJson ⟨"Ctrlm", 1⟩) fresh tr s := by
    refine Run.of_follow (fun _ _ _ _ hm => ?_) hs
    exact steps_of_advance _ _ hm
  have hcarries : ∀ p ∈ tr, ∀ m, p.2 = .deliver m →
      Carries treeJson ⟨"Ctrlm", 1⟩ treeNesting m (validationRecord m) := by
    intro p hp m hm
    have hmem : .deliver m ∈ validated := by
      rw [← actions_of_follow hs, ← hm]
      exact List.mem_map_of_mem hp
    obtain ⟨q, hq, rfl⟩ : ∃ q ∈ validation, m = validationMessage q.1 := by
      simpa [validated, validation] using hmem
    exact carries_validation q hq
  obtain ⟨-, -, hordered⟩ := records_arrive treeJson_lawful treeNesting hrun hcarries 4
  obtain ⟨missing, hmissing, -, hnone⟩ := hordered (of_decide_eq_true hone)
  refine ⟨s, tr, hs, hreceived, ?_⟩
  rw [hmissing, hnone (of_decide_eq_true hthrough), List.append_nil]

end RemoteControl
