import RemoteControl.Methods
import RemoteControl.Shutdown

/-!
# The events of ctrlm

What `iarmEventHandler` makes of the buffer the bus library hands it: its checks,
the switch, and the three `Notify` functions, each of which reads the payload as
a string that ends with a NUL, decodes it and calls the observers.

Which observers are in the snapshot and how long they are kept is the subject of
`Observers`; here they are given as a list, and the question is what they are
told and what was read for it.
-/

namespace RemoteControl

/-! ## What is told -/

/-- `Exchange::ValidationStatus`. -/
inductive ValidationStatus where
  | success
  | pending
  | timeout
  | collision
  | failure
  | abort
  | fullAbort
  | failed
  | bindTableFull
  | inProgress
  | ctrlmRestart
  deriving DecidableEq, Repr

/-- `stringToEnum<ValidationStatus>`. -/
def ValidationStatus.stringToEnum (str : String) (defaultValue : ValidationStatus) :
    ValidationStatus :=
  match str with
  | "SUCCESS" => .success
  | "PENDING" => .pending
  | "TIMEOUT" => .timeout
  | "COLLISION" => .collision
  | "FAILURE" => .failure
  | "ABORT" => .abort
  | "FULL_ABORT" => .fullAbort
  | "FAILED" => .failed
  | "BIND_TABLE_FULL" => .bindTableFull
  | "IN_PROGRESS" => .inProgress
  | "CTRLM_RESTART" => .ctrlmRestart
  | _ => defaultValue

/-- `Exchange::ValidationStatusObject`. -/
structure ValidationStatusObject where
  status : ValidationStatus
  code : List UInt32
  key : Option UInt32
  deriving DecidableEq

/-- What an observer is called with. -/
inductive Notification where
  /-- `OnStatus` -/
  | onStatus (status : NetStatusData)
  /-- `OnValidation` -/
  | onValidation (status : ValidationStatusObject)
  /-- `OnFirmwareUpdateProgress` -/
  | onFirmwareUpdateProgress (status : FirmwareUpdateStatusData)
  deriving DecidableEq

/-- The kind of dispatch it belongs to. -/
def Notification.kind : Notification → EventKind
  | .onStatus _ => .status
  | .onValidation _ => .validation
  | .onFirmwareUpdateProgress _ => .firmwareUpdateProgress

/-! ## The decoders -/

variable (J : JsonLib) {ν : Type}

/-- The `status` that `NotifyStatus` fills in from `params`. -/
def netStatusOf (params : J.Object) : NetStatusData :=
  let statusObj := statusObject J params
  { netType := J.fieldOr statusObj "netType" (fun v => castUint32 (J.number v))
      (J.fieldOr params "netType" (fun v => castUint32 (J.number v)) 0)
    pairingState := J.fieldOr statusObj "pairingState"
      (fun v => PairingState.stringToEnum (J.string v) .idle) .idle
    irProgState := J.fieldOr statusObj "irProgState"
      (fun v => IRProgState.stringToEnum (J.string v) .idle) .idle
    netTypesSupported := J.fieldOr statusObj "netTypesSupported"
      (fun v => parseUint32Array J v 8) []
    remoteData := J.fieldOr statusObj "remoteData" (fun v => parseRemoteDataArray J v 32) [] }

@[simp] theorem netType_netStatusOf (params : J.Object) :
    (netStatusOf J params).netType =
      J.fieldOr (statusObject J params) "netType" (fun v => castUint32 (J.number v))
        (J.fieldOr params "netType" (fun v => castUint32 (J.number v)) 0) := rfl

/-- The `status` that `NotifyValidation` fills in from `params`; `key` is not set unless
it is assigned. -/
def validationStatusOf (params : J.Object) : ValidationStatusObject :=
  let statusObj := statusObject J params
  let status : ValidationStatusObject :=
    { status := J.fieldOr statusObj "status"
        (fun v => ValidationStatus.stringToEnum (J.string v) .failed) .failed
      code := J.fieldOr statusObj "code" (fun v => parseUint32Array J v 3) []
      key := none }
  if J.hasLabel statusObj "key" then
    { status with key := some (castUint32 (J.number (J.get statusObj "key"))) }
  else status

/-- A key is there if its label is. -/
theorem validationStatusOf_eq (params : J.Object) :
    validationStatusOf J params =
      { status := J.fieldOr (statusObject J params) "status"
          (fun v => ValidationStatus.stringToEnum (J.string v) .failed) .failed
        code := J.fieldOr (statusObject J params) "code" (fun v => parseUint32Array J v 3) []
        key := J.fieldOr (statusObject J params) "key"
          (fun v => some (castUint32 (J.number v))) none } := by
  rw [validationStatusOf]
  dsimp only
  split
  next hkey => rw [J.fieldOr_of_has hkey]
  next hkey => rw [J.fieldOr_of_not_has hkey (fun v => some (castUint32 (J.number v)))]

/-- The `status` that `NotifyFirmwareUpdateProgress` fills in from `params`;
`errorString` is not set unless it is assigned. -/
def firmwareUpdateStatusOf (params : J.Object) : FirmwareUpdateStatusData :=
  if J.hasLabel params "status" then
    let statusObj := J.object (J.get params "status")
    let status : FirmwareUpdateStatusData :=
      { upgradeSessionId := J.fieldOr statusObj "upgradeSessionId" J.string ""
        macAddress := J.fieldOr statusObj "macAddress" J.string ""
        upgradeState := J.fieldOr statusObj "upgradeState"
          (fun v => FirmwareUpdateState.stringToEnum (J.string v) .invalid) .invalid
        percentComplete :=
          J.fieldOr statusObj "percentComplete" (fun v => castUint32 (J.number v)) 0
        errorString := none }
    if J.hasLabel statusObj "errorString" then
      { status with errorString := some (J.string (J.get statusObj "errorString")) }
    else status
  else
    { upgradeSessionId := ""
      macAddress := ""
      upgradeState := .invalid
      percentComplete := 0
      errorString := none }

/-- `NotifyStatus`: the calls it makes. -/
def notifyStatus (payload : String) (observers : List ν) : List (ν × Notification) :=
  let status := netStatusOf J (J.fromString payload)
  observers.map fun notification => (notification, .onStatus status)

/-- `NotifyValidation`. -/
def notifyValidation (payload : String) (observers : List ν) : List (ν × Notification) :=
  let status := validationStatusOf J (J.fromString payload)
  observers.map fun notification => (notification, .onValidation status)

/-- `NotifyFirmwareUpdateProgress`. -/
def notifyFirmwareUpdateProgress (payload : String) (observers : List ν) :
    List (ν × Notification) :=
  let status := firmwareUpdateStatusOf J (J.fromString payload)
  observers.map fun notification => (notification, .onFirmwareUpdateProgress status)

/-- The switch of `iarmEventHandler`. -/
def notify (event : RcuEvent) (payload : String) (observers : List ν) :
    List (ν × Notification) :=
  match event with
  | .rcuStatus => notifyStatus J payload observers
  | .configurationComplete => notifyStatus J payload observers
  | .rf4cePairingWindowTimeout => notifyStatus J payload observers
  | .validationStatus => notifyValidation J payload observers
  | .firmwareUpdateProgress => notifyFirmwareUpdateProgress J payload observers

/-! ## The buffer -/

/-- What the headers of ctrlm fix. -/
structure CtrlmIpc where
  /-- `CTRLM_MAIN_IARM_BUS_NAME` -/
  busName : String
  /-- the size of the header of a `ctrlm_main_iarm_event_json_t`, which is where its
  `payload` begins -/
  payloadOffset : ℕ

/-- The memory at `data`. -/
structure EventBuffer where
  /-- the `len` bytes that were handed over -/
  bytes : List UInt8
  /-- what can be read behind them -/
  beyond : List UInt8
  deriving DecidableEq

/-- The characters of a text, as bytes. -/
def bytes (text : String) : List UInt8 := text.toList.map fun c => UInt8.ofNat c.toNat

/-- A string that ends with a NUL, read from the front of `memory`, which lies at
`offset`: the offsets that are read, and the characters unless the end of the
memory comes first. -/
def readString : ℕ → List UInt8 → List ℕ × Option (List UInt8)
  | offset, [] => ([offset], none)
  | offset, b :: memory =>
    if b = 0 then ([offset], some [])
    else
      let (offsets, text) := readString (offset + 1) memory
      (offset :: offsets, text.map (b :: ·))

/-- What a run of `iarmEventHandler` has done. -/
structure Handled (ν : Type) where
  /-- the offsets from `data` that were read -/
  reads : List ℕ
  /-- the calls of observers -/
  calls : List (ν × Notification)
  /-- the last read was of memory that is not there -/
  faulted : Bool

/-- The handler returns without doing anything. -/
def Handled.rejected : Handled ν := ⟨[], [], false⟩

/-- `iarmEventHandler(owner, eventId, data, len)`; a null `data` and an event it does
not know are `none`. -/
def iarmEventHandler (ipc : CtrlmIpc) (owner : String) (eventId : Option RcuEvent)
    (data : Option EventBuffer) (observers : List ν) : Handled ν :=
  if owner ≠ ipc.busName then .rejected
  else
    match data with
    | none => .rejected
    | some buffer =>
      if buffer.bytes.length = 0 then .rejected
      else
        match eventId with
        | none => .rejected
        | some event =>
          let memory := buffer.bytes ++ buffer.beyond
          let (reads, payload) := readString ipc.payloadOffset (memory.drop ipc.payloadOffset)
          match payload with
          | none => ⟨reads, [], true⟩
          | some chars =>
            let text := String.ofList (chars.map fun b => Char.ofNat b.toNat)
            ⟨reads, notify J event text observers, false⟩

/-! ## What is read -/

/-- A string is read within the first `n` offsets exactly when a NUL is there. -/
theorem readString_within {n : ℕ} (memory : List UInt8) :
    ∀ offset, n ≤ offset + memory.length →
      ((∀ o ∈ (readString offset memory).1, o < n) ↔
        ∃ i, offset + i < n ∧ memory[i]? = some 0) := by
  induction memory with
  | nil =>
    intro offset hn
    have hend : n ≤ offset := by simpa using hn
    constructor
    · intro h
      exact absurd (h offset (List.mem_singleton_self offset)) (Nat.not_lt.mpr hend)
    · rintro ⟨i, -, hi⟩
      cases hi
  | cons b memory ih =>
    intro offset hn
    by_cases hb : b = 0
    · subst hb
      rw [readString, if_pos rfl]
      constructor
      · intro h
        exact ⟨0, h offset (List.mem_singleton_self offset), rfl⟩
      · rintro ⟨i, hi, -⟩ o ho
        rw [List.mem_singleton.mp ho]
        omega
    · have hn' : n ≤ (offset + 1) + memory.length := by
        rw [List.length_cons] at hn
        omega
      have hrest := ih (offset + 1) hn'
      rw [readString, if_neg hb]
      constructor
      · intro h
        obtain ⟨i, hi, hget⟩ := hrest.mp fun o ho => h o (List.mem_cons_of_mem _ ho)
        exact ⟨i + 1, by omega, hget⟩
      · rintro ⟨i, hi, hget⟩ o ho
        cases i with
        | zero => exact absurd (Option.some.inj hget) hb
        | succ i =>
          rcases List.mem_cons.mp ho with rfl | ho
          · omega
          · exact hrest.mpr ⟨i, by omega, hget⟩ o ho

namespace EventBuffer

/-- The payload ends within the buffer. -/
def Terminated (ipc : CtrlmIpc) (buffer : EventBuffer) : Prop :=
  ∃ i, ipc.payloadOffset ≤ i ∧ buffer.bytes[i]? = some 0

/-- The payload is read within the buffer exactly when it ends there. -/
theorem reads_within_iff (ipc : CtrlmIpc) (buffer : EventBuffer) :
    (∀ o ∈ (readString ipc.payloadOffset
        ((buffer.bytes ++ buffer.beyond).drop ipc.payloadOffset)).1, o < buffer.bytes.length) ↔
      buffer.Terminated ipc := by
  rw [readString_within]
  · constructor
    · rintro ⟨i, hi, hget⟩
      rw [List.getElem?_drop, List.getElem?_append_left hi] at hget
      exact ⟨_, Nat.le_add_right _ i, hget⟩
    · rintro ⟨i, hi, hget⟩
      obtain ⟨hlt, -⟩ := List.getElem?_eq_some_iff.mp hget
      refine ⟨i - ipc.payloadOffset, by omega, ?_⟩
      rw [List.getElem?_drop, Nat.add_sub_cancel' hi, List.getElem?_append_left hlt]
      exact hget
  · rw [List.length_drop, List.length_append]
    omega

end EventBuffer

/-- The checks let a buffer through to its payload. -/
def Admitted (ipc : CtrlmIpc) (owner : String) (eventId : Option RcuEvent)
    (data : Option EventBuffer) (buffer : EventBuffer) : Prop :=
  owner = ipc.busName ∧ eventId ≠ none ∧ data = some buffer ∧ buffer.bytes ≠ []

/-- The handler stays within the buffer, and calls nobody if the payload does not end
there. -/
def Bounded (ipc : CtrlmIpc) (data : Option EventBuffer) (handled : Handled ν) : Prop :=
  ∀ buffer, data = some buffer →
    (∀ o ∈ handled.reads, o < buffer.bytes.length) ∧
      (¬ buffer.Terminated ipc → handled.calls = [] ∧ handled.faulted = false)

/-- A buffer that is turned away is not read. -/
theorem bounded_rejected (ipc : CtrlmIpc) (data : Option EventBuffer) :
    Bounded ipc data (Handled.rejected : Handled ν) :=
  fun _ _ => ⟨nofun, fun _ => ⟨rfl, rfl⟩⟩

/-- What the handler reads of a buffer that is let through. -/
theorem reads_of_admitted {ipc : CtrlmIpc} {owner : String} {eventId : Option RcuEvent}
    {data : Option EventBuffer} {buffer : EventBuffer} (observers : List ν)
    (h : Admitted ipc owner eventId data buffer) :
    (iarmEventHandler J ipc owner eventId data observers).reads =
      (readString ipc.payloadOffset
        ((buffer.bytes ++ buffer.beyond).drop ipc.payloadOffset)).1 := by
  obtain ⟨rfl, hevent, rfl, hbytes⟩ := h
  obtain ⟨event, rfl⟩ := Option.ne_none_iff_exists'.mp hevent
  have hlen : buffer.bytes.length ≠ 0 := fun hzero => hbytes (List.length_eq_zero_iff.mp hzero)
  rw [iarmEventHandler, if_neg (not_not_intro rfl)]
  dsimp only
  rw [if_neg hlen]
  generalize readString ipc.payloadOffset
    ((buffer.bytes ++ buffer.beyond).drop ipc.payloadOffset) = r
  obtain ⟨reads, payload⟩ := r
  cases payload with
  | none => rfl
  | some chars => rfl

/-- A buffer that is not let through is turned away. -/
theorem rejected_of_not_admitted {ipc : CtrlmIpc} {owner : String} {eventId : Option RcuEvent}
    {data : Option EventBuffer} (observers : List ν)
    (h : ∀ buffer, ¬ Admitted ipc owner eventId data buffer) :
    iarmEventHandler J ipc owner eventId data observers = .rejected := by
  unfold iarmEventHandler
  split
  · rfl
  next howner =>
    cases data with
    | none => rfl
    | some buffer =>
      dsimp only
      split
      · rfl
      next hlen =>
        cases eventId with
        | none => rfl
        | some event =>
          have hbytes : buffer.bytes ≠ [] := fun hnil => hlen (by rw [hnil]; rfl)
          exact absurd ⟨not_not.mp howner, nofun, rfl, hbytes⟩ (h buffer)

/-- **Bounds**: the handler stays within the buffer, and turns away one whose payload
does not end in it, exactly when every buffer that its checks let through has a
payload that ends in it. -/
theorem bounded_iff (ipc : CtrlmIpc) (owner : String) (eventId : Option RcuEvent)
    (data : Option EventBuffer) (observers : List ν) :
    Bounded ipc data (iarmEventHandler J ipc owner eventId data observers) ↔
      ∀ buffer, Admitted ipc owner eventId data buffer → buffer.Terminated ipc := by
  constructor
  · intro hbounded buffer hadmitted
    obtain ⟨hreads, -⟩ := hbounded buffer hadmitted.2.2.1
    rw [reads_of_admitted J observers hadmitted] at hreads
    exact (buffer.reads_within_iff ipc).mp hreads
  · intro hterminated
    by_cases hadmitted : ∃ buffer, Admitted ipc owner eventId data buffer
    · obtain ⟨buffer, hadmitted⟩ := hadmitted
      have hends := hterminated buffer hadmitted
      intro buffer' hdata
      obtain rfl : buffer = buffer' := Option.some.inj (hadmitted.2.2.1.symm.trans hdata)
      rw [reads_of_admitted J observers hadmitted]
      exact ⟨(buffer.reads_within_iff ipc).mpr hends, fun hopen => absurd hends hopen⟩
    · rw [rejected_of_not_admitted J observers (not_exists.mp hadmitted)]
      exact bounded_rejected ipc data

/-- Two bytes, a header of one and a payload that does not end, and a NUL behind them. -/
def unterminated : EventBuffer := ⟨[0, 123], [0]⟩

/-- The handler reads the byte behind the buffer, and calls the observer. -/
theorem payload_overrun :
    ¬ Bounded ⟨"Ctrlm", 1⟩ (some unterminated)
        (iarmEventHandler treeJson ⟨"Ctrlm", 1⟩ "Ctrlm" (some .rcuStatus) (some unterminated) [4]) ∧
      (iarmEventHandler treeJson ⟨"Ctrlm", 1⟩ "Ctrlm" (some .rcuStatus) (some unterminated)
        [4]).reads = [1, 2] ∧
      (iarmEventHandler treeJson ⟨"Ctrlm", 1⟩ "Ctrlm" (some .rcuStatus) (some unterminated)
        [4]).calls ≠ [] := by
  have hreads : (iarmEventHandler treeJson ⟨"Ctrlm", 1⟩ "Ctrlm" (some .rcuStatus)
      (some unterminated) [4]).reads = [1, 2] := rfl
  refine ⟨fun hbounded => ?_, hreads, List.cons_ne_nil _ _⟩
  obtain ⟨hwithin, -⟩ := hbounded unterminated rfl
  rw [hreads] at hwithin
  exact absurd (hwithin 2 (by decide)) (by decide)

end RemoteControl
