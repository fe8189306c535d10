import RemoteControl.Images

/-!
# Numbers that ctrlm sends

A number arrives as a 64-bit signed integer and is handed on as a 32-bit unsigned
one. The elements of arrays are compared with the bounds first (`clampUint32`), which is
done on a `double`; the scalar fields are cast (`castUint32`), which keeps the number modulo
`2 ^ 32`. `scalars_saturate_iff` says for which numbers that makes no difference.
-/

namespace RemoteControl

/-! ## Saturation -/

/-- The number of the range of `uint32_t` that is closest to `n`. -/
def saturate (n : ℤ) : ℤ := max 0 (min n (2 ^ 32 - 1))

theorem saturate_of_mem {n : ℤ} (h : 0 ≤ n) (h' : n < 2 ^ 32) : saturate n = n := by
  unfold saturate
  omega

theorem saturate_of_neg {n : ℤ} (h : n < 0) : saturate n = 0 := by
  unfold saturate
  omega

theorem saturate_of_large {n : ℤ} (h : 2 ^ 32 ≤ n) : saturate n = 2 ^ 32 - 1 := by
  unfold saturate
  omega

/-- A number that wrapping and saturating take to the same one: one in the range, or
one outside that is congruent to the bound on its side. -/
def Survives (n : ℤ) : Prop :=
  (0 ≤ n ∧ n < 2 ^ 32) ∨ (n < 0 ∧ 2 ^ 32 ∣ n) ∨ (2 ^ 32 ≤ n ∧ 2 ^ 32 ∣ n + 1)

theorem emod_eq_saturate_iff (n : ℤ) : n % 2 ^ 32 = saturate n ↔ Survives n := by
  unfold saturate Survives
  omega

/-! ## The two conversions -/

/-- A 64-bit number and its bits. -/
theorem toNat_toUInt64 (number : Int64) :
    (number.toUInt64.toNat : ℤ) = number.toInt % 2 ^ 64 := by
  have hcond := BitVec.toInt_eq_toNat_cond number.toBitVec
  rw [Int64.toInt_toBitVec] at hcond
  have hbits : number.toBitVec.toNat = number.toUInt64.toNat := rfl
  have hlt : number.toUInt64.toNat < 2 ^ 64 := UInt64.toNat_lt _
  rw [hcond, hbits]
  split
  · omega
  · omega

/-- **The cast** keeps a number modulo `2 ^ 32`. -/
theorem toNat_castUint32 (number : Int64) :
    ((castUint32 number).toNat : ℤ) = number.toInt % 2 ^ 32 := by
  have hbits := toNat_toUInt64 number
  rw [castUint32, UInt64.toNat_toUInt32]
  omega

/-- **The comparison** saturates; the bounds are exact in a `double`, and rounding moves no
number across them. -/
theorem toNat_clampUint32 (number : Int64) :
    ((clampUint32 number).toNat : ℤ) = saturate number.toInt := by
  have hmax : (4294967295 : UInt32).toNat = 4294967295 := rfl
  unfold clampUint32
  dsimp only
  rcases Nat.lt_or_ge number.toInt.natAbs (2 ^ 53) with hexact | hlarge
  · rw [Doubles.ofInt_of_lt hexact]
    split
    next h =>
      have hsize : number.toInt.toNat < UInt32.size := by
        rw [UInt32.size]
        omega
      rw [UInt32.toNat_ofNat_of_lt' hsize, saturate_of_mem h.1 (by omega)]
      omega
    next h =>
      split
      next hpos =>
        rw [saturate_of_large (by omega), hmax]
        rfl
      next hpos =>
        rw [saturate_of_neg (by omega)]
        rfl
  · rcases lt_or_ge number.toInt 0 with hneg | hnonneg
    · have hdouble := Doubles.ofInt_le (z := number.toInt) (by omega)
      rw [if_neg (by omega), if_neg (by omega), saturate_of_neg hneg]
      rfl
    · have hdouble := Doubles.le_ofInt (z := number.toInt) (by omega)
      rw [if_neg (by omega), if_pos (by omega), saturate_of_large (by omega), hmax]
      rfl

/-! ## The fields -/

/-- The fields of a remote that are numbers. -/
inductive RemoteField where
  | remoteId
  | deviceId
  | batteryPercent
  | wakeupKeyCode

/-- The label of the field. -/
def RemoteField.label : RemoteField → String
  | .remoteId => "remoteId"
  | .deviceId => "deviceId"
  | .batteryPercent => "batteryPercent"
  | .wakeupKeyCode => "wakeupKeyCode"

/-- The field of a decoded remote. -/
def RemoteField.value (remote : PairedRemoteInfo) : RemoteField → UInt32
  | .remoteId => remote.remoteId
  | .deviceId => remote.deviceId
  | .batteryPercent => remote.batteryPercent
  | .wakeupKeyCode => remote.wakeupKeyCode

/-- Where the status of an update is decoded. -/
inductive UpdateView where
  /-- `NotifyFirmwareUpdateProgress` -/
  | event
  /-- `StatusFirmwareUpdate(sessionId)`, with what its response held before -/
  | query (sessionId : String) (before : StatusFirmwareUpdateResponse)

/-- The status that is handed on when ctrlm sends `text`. -/
def UpdateView.status (J : JsonLib) (text : String) : UpdateView → FirmwareUpdateStatusData
  | .event => firmwareUpdateStatusOf J (J.fromString text)
  | .query sessionId before => queriedFirmwareUpdateStatus J sessionId text before

/-- The `uint32_t` fields that are filled from what ctrlm sends. -/
inductive Uint32Field where
  | netType (view : StatusView)
  | netTypesSupported (view : StatusView) (i : ℕ)
  | remote (view : StatusView) (k : ℕ) (field : RemoteField)
  | wakeupCustomList (view : StatusView) (k i : ℕ)
  | key
  | code (i : ℕ)
  | percentComplete (view : UpdateView)
  | controllerId (before : GetLastKeypressSourceResponse)
  | sourceKeyCode (before : GetLastKeypressSourceResponse)
  | remoteKeypadConfig (before : GetLastKeypressSourceResponse)

variable (J : JsonLib)

/-- The number with this label, if it is there. -/
def numberAt (object : J.Object) (label : String) : Option Int64 :=
  J.fieldOr object label (fun v => some (J.number v)) none

/-- The remotes that are decoded. -/
def remotesIn (text : String) : List J.Variant :=
  (elementsAt J (statusObject J (J.fromString text)) "remoteData").take 32

namespace Uint32Field

/-- The field is an element of an array. -/
def isElement : Uint32Field → Bool
  | netTypesSupported .. => true
  | wakeupCustomList .. => true
  | code _ => true
  | _ => false

/-- The number that ctrlm sends for the field with `text`, if it does. -/
def sent (text : String) : Uint32Field → Option Int64
  | netType .event =>
    (numberAt J (statusObject J (J.fromString text)) "netType").or
      (numberAt J (J.fromString text) "netType")
  | netType (.query _ _) => numberAt J (statusObject J (J.fromString text)) "netType"
  | netTypesSupported _ i =>
    ((elementsAt J (statusObject J (J.fromString text)) "netTypesSupported").take 8)[i]?.map
      J.number
  | remote _ k field =>
    (remotesIn J text)[k]?.bind fun element => numberAt J (J.object element) field.label
  | wakeupCustomList _ k i =>
    (remotesIn J text)[k]?.bind fun element =>
      ((elementsAt J (J.object element) "wakeupCustomList").take 32)[i]?.map J.number
  | key => numberAt J (statusObject J (J.fromString text)) "key"
  | code i => ((elementsAt J (statusObject J (J.fromString text)) "code").take 3)[i]?.map J.number
  | percentComplete _ => numberAt J (statusObject J (J.fromString text)) "percentComplete"
  | controllerId _ => numberAt J (J.fromString text) "controllerId"
  | sourceKeyCode _ => numberAt J (J.fromString text) "sourceKeyCode"
  | remoteKeypadConfig _ => numberAt J (J.fromString text) "remoteKeypadConfig"

/-- What `GetLastKeypressSource` hands out. -/
def keypress (text : String) (before : GetLastKeypressSourceResponse) :
    GetLastKeypressSourceResponse :=
  Request.outsReplied J .getLastKeypressSource text before

/-- The value of the field that is handed on. -/
def decoded (text : String) : Uint32Field → Option UInt32
  | netType view => some (view.status J text).netType
  | netTypesSupported view i => (view.status J text).netTypesSupported[i]?
  | remote view k field => (view.status J text).remoteData[k]?.map field.value
  | wakeupCustomList view k i =>
    (view.status J text).remoteData[k]?.bind fun remote => remote.wakeupCustomList[i]?
  | key => (validationStatusOf J (J.fromString text)).key
  | code i => (validationStatusOf J (J.fromString text)).code[i]?
  | percentComplete view => some (view.status J text).percentComplete
  | controllerId before => some (keypress J text before).controllerId
  | sourceKeyCode before => some (keypress J text before).sourceKeyCode
  | remoteKeypadConfig before => some (keypress J text before).remoteKeypadConfig

end Uint32Field

variable {J}

/-- Reading a number that is there. -/
theorem fieldOr_number {object : J.Object} {label : String} {number : Int64}
    (h : numberAt J object label = some number) (defaultValue : UInt32) :
    J.fieldOr object label (fun v => castUint32 (J.number v)) defaultValue = castUint32 number := by
  by_cases hlabel : J.hasLabel object label = true
  · rw [numberAt, J.fieldOr_of_has hlabel] at h
    rw [J.fieldOr_of_has hlabel, Option.some.inj h]
  · rw [numberAt, J.fieldOr_of_not_has hlabel] at h
    cases h

/-- Reading a number that is not there. -/
theorem fieldOr_number_none {object : J.Object} {label : String}
    (h : numberAt J object label = none) (defaultValue : UInt32) :
    J.fieldOr object label (fun v => castUint32 (J.number v)) defaultValue = defaultValue := by
  by_cases hlabel : J.hasLabel object label = true
  · rw [numberAt, J.fieldOr_of_has hlabel] at h
    cases h
  · exact J.fieldOr_of_not_has hlabel _ _

/-- An element of a list of numbers. -/
theorem getElem?_numbersAt {object : J.Object} {label : String} {limit i : ℕ} {number : Int64}
    (h : ((elementsAt J object label).take limit)[i]?.map J.number = some number) :
    (numbersAt J object label limit)[i]? = some (clampUint32 number) := by
  obtain ⟨element, helement, rfl⟩ := Option.map_eq_some_iff.mp h
  rw [numbersAt, List.getElem?_map, helement]
  rfl

/-- A decoded remote. -/
theorem StatusView.getElem?_remoteData (view : StatusView) (text : String) (k : ℕ) :
    (view.status J text).remoteData[k]? =
      (remotesIn J text)[k]?.map fun element => parseRemoteInfo J (J.object element) := by
  rw [view.remoteData_eq, List.getElem?_map]
  rfl

theorem RemoteField.value_parseRemoteInfo (object : J.Object) (field : RemoteField) :
    field.value (parseRemoteInfo J object) =
      J.fieldOr object field.label (fun v => castUint32 (J.number v)) 0 := by
  cases field with
  | _ => rfl

/-- The key is the number that is there, if it is. -/
theorem key_validationStatusOf (params : J.Object) :
    (validationStatusOf J params).key =
      (numberAt J (statusObject J params) "key").map castUint32 := by
  rw [validationStatusOf_eq, numberAt]
  by_cases hkey : J.hasLabel (statusObject J params) "key" = true
  · rw [J.fieldOr_of_has hkey, J.fieldOr_of_has hkey, Option.map_some]
  · rw [J.fieldOr_of_not_has hkey, J.fieldOr_of_not_has hkey, Option.map_none]

theorem UpdateView.percentComplete_eq (hempty : ∀ label, J.hasLabel J.emptyObject label = false)
    (text : String) (view : UpdateView) :
    (view.status J text).percentComplete =
      J.fieldOr (statusObject J (J.fromString text)) "percentComplete"
        (fun v => castUint32 (J.number v)) 0 := by
  cases view with
  | event =>
    rw [status, firmwareUpdateStatusOf_eq hempty]
  | query sessionId before =>
    rw [status, queriedFirmwareUpdateStatus_eq hempty, firmwareUpdateStatusOf_eq hempty]

theorem Uint32Field.keypress_eq (text : String) (before : GetLastKeypressSourceResponse) :
    (keypress J text before).controllerId =
        J.fieldOr (J.fromString text) "controllerId" (fun v => castUint32 (J.number v)) 0 ∧
      (keypress J text before).sourceKeyCode =
        J.fieldOr (J.fromString text) "sourceKeyCode" (fun v => castUint32 (J.number v)) 0 ∧
      (keypress J text before).remoteKeypadConfig =
        J.fieldOr (J.fromString text) "remoteKeypadConfig"
          (fun v => castUint32 (J.number v)) 0 := by
  rw [keypress, Request.outsReplied, Request.outsAfter, Request.run, getLastKeypressSource,
    Outcome.eval_exchange, if_neg (Outcome.not_failed_replied text), eval_finish]
  exact ⟨rfl, rfl, rfl⟩

/-- **How a field is decoded**: the elements of arrays are compared with the bounds, the
others are cast. -/
theorem Uint32Field.decoded_of_sent (hempty : ∀ label, J.hasLabel J.emptyObject label = false)
    {text : String} {field : Uint32Field} {number : Int64}
    (h : field.sent J text = some number) :
    field.decoded J text =
      some (if field.isElement then clampUint32 number else castUint32 number) := by
  cases field with
  | netType view =>
    cases view with
    | event =>
      refine congrArg some ((netType_netStatusOf J _).trans ?_)
      rcases Option.or_eq_some_iff.mp h with hstatus | ⟨hnone, htop⟩
      · exact fieldOr_number hstatus _
      · rw [fieldOr_number_none hnone]
        exact fieldOr_number htop _
    | query netType before =>
      exact congrArg some ((netType_queriedNetStatus netType text before).trans
        (fieldOr_number h _))
  | netTypesSupported view i =>
    rw [decoded, view.netTypesSupported_eq]
    exact getElem?_numbersAt h
  | remote view k field =>
    obtain ⟨element, helement, hnumber⟩ := Option.bind_eq_some_iff.mp h
    rw [decoded, view.getElem?_remoteData, helement]
    exact congrArg some ((field.value_parseRemoteInfo _).trans (fieldOr_number hnumber _))
  | wakeupCustomList view k i =>
    obtain ⟨element, helement, hnumber⟩ := Option.bind_eq_some_iff.mp h
    rw [decoded, view.getElem?_remoteData, helement, Option.map_some, Option.bind_some,
      wakeupCustomList_parseRemoteInfo]
    exact getElem?_numbersAt hnumber
  | key => exact (key_validationStatusOf _).trans (congrArg (Option.map castUint32) h)
  | code i =>
    rw [decoded, code_validationStatusOf]
    exact getElem?_numbersAt h
  | percentComplete view =>
    exact congrArg some ((view.percentComplete_eq hempty text).trans (fieldOr_number h _))
  | controllerId before =>
    exact congrArg some ((keypress_eq text before).1.trans (fieldOr_number h _))
  | sourceKeyCode before =>
    exact congrArg some ((keypress_eq text before).2.1.trans (fieldOr_number h _))
  | remoteKeypadConfig before =>
    exact congrArg some ((keypress_eq text before).2.2.trans (fieldOr_number h _))

/-- **Numbers**: a field is the number that was sent, or the bound that it is beyond,
exactly when it is an element of an array or wrapping makes no difference. -/
theorem scalars_saturate_iff (hempty : ∀ label, J.hasLabel J.emptyObject label = false)
    {text : String} {field : Uint32Field} {number : Int64}
    (h : field.sent J text = some number) :
    ∃ value, field.decoded J text = some value ∧
      ((value.toNat : ℤ) = saturate number.toInt ↔
        field.isElement = true ∨ Survives number.toInt) := by
  refine ⟨_, field.decoded_of_sent hempty h, ?_⟩
  cases field.isElement with
  | true =>
    rw [if_pos rfl, toNat_clampUint32]
    exact ⟨fun _ => .inl rfl, fun _ => rfl⟩
  | false =>
    rw [if_neg Bool.false_ne_true, toNat_castUint32, emod_eq_saturate_iff]
    exact ⟨.inr, fun hor => hor.resolve_left Bool.false_ne_true⟩

/-- A reply whose `controllerId` is `2 ^ 32 + 5`. -/
def largeController : String := "\x7b\"controllerId\":4294967301\x7d"

/-- The field that is filled from it. -/
def largeField : Uint32Field := .controllerId ⟨0, 0, "", "", 0, false, 0, false⟩

/-- A number in the range is handed on as it is, also in a scalar field. -/
theorem scalars_saturate_iff_inRange :
    ∃ value, Uint32Field.decoded treeJson netTypeOnly (.netType .event) = some value ∧
      (value.toNat : ℤ) = saturate 2 := by
  have hsent : Uint32Field.sent treeJson netTypeOnly (.netType .event) = some 2 := by
    decide +kernel
  obtain ⟨value, hvalue, hiff⟩ := scalars_saturate_iff (fun _ => rfl) hsent
  exact ⟨value, hvalue, hiff.mpr (.inr (.inl (by decide)))⟩

/-- The large one is handed on as 5. -/
theorem controllerId_wraps :
    largeField.sent treeJson largeController = some 4294967301 ∧
      largeField.decoded treeJson largeController = some 5 ∧
      ((5 : UInt32).toNat : ℤ) ≠ saturate (4294967301 : Int64).toInt := by
  refine ⟨?_, ?_, ?_⟩
  · decide +kernel
  · decide +kernel
  · decide

end RemoteControl
