import RemoteControl.Views

/-!
# Lists that ctrlm sends

Every list the plugin hands on is decoded element by element from an array that
ctrlm sent. The loops that do so come in three shapes: one over `Elements()` that
goes on to the end when the limit is reached, an index loop, and an index loop with
a limit. `lists_are_images` says what comes of them: the first elements up to the
limit, or all of them, in order, each decoded by itself.
-/

namespace RemoteControl

variable (J : JsonLib)

/-! ## Where the lists come from -/

/-- The elements of the array with this label; none if it is missing. -/
def elementsAt (object : J.Object) (label : String) : List J.Variant :=
  J.fieldOr object label (fun v => J.elements (J.array v)) []

/-- The first `limit` of them, as numbers. -/
def numbersAt (object : J.Object) (label : String) (limit : ℕ) : List UInt32 :=
  ((elementsAt J object label).take limit).map fun element => clampUint32 (J.number element)

/-- All of them, as strings. -/
def textsAt (object : J.Object) (label : String) : List String :=
  (elementsAt J object label).map J.string

theorem length_numbersAt_le (object : J.Object) (label : String) (limit : ℕ) :
    (numbersAt J object label limit).length ≤ limit := by
  rw [numbersAt, List.length_map]
  exact List.length_take_le limit _

/-- A list that is decoded with a limit, or is empty because the label is missing. -/
theorem fieldOr_image {β : Type} (object : J.Object) (label : String) (limit : ℕ)
    (decode : J.Variant → β) :
    J.fieldOr object label (fun v => ((J.elements (J.array v)).take limit).map decode) [] =
      ((elementsAt J object label).take limit).map decode := by
  unfold elementsAt JsonLib.fieldOr
  split
  · rfl
  · rw [List.take_nil, List.map_nil]

/-- A list of numbers. -/
theorem fieldOr_parseUint32Array (object : J.Object) (label : String) (limit : ℕ) :
    J.fieldOr object label (fun v => parseUint32Array J v limit) [] =
      numbersAt J object label limit := by
  simp only [parseUint32Array_eq]
  exact fieldOr_image J object label limit _

/-- A list of remotes. -/
theorem fieldOr_parseRemoteDataArray (object : J.Object) (label : String) (limit : ℕ) :
    J.fieldOr object label (fun v => parseRemoteDataArray J v limit) [] =
      ((elementsAt J object label).take limit).map fun element =>
        parseRemoteInfo J (J.object element) := by
  simp only [parseRemoteDataArray_eq]
  exact fieldOr_image J object label limit _

/-- The keys of one remote. -/
theorem wakeupCustomList_parseRemoteInfo (object : J.Object) :
    (parseRemoteInfo J object).wakeupCustomList = numbersAt J object "wakeupCustomList" 32 :=
  fieldOr_parseUint32Array J object "wakeupCustomList" 32

variable {J}

/-- A list of strings that is read by index. -/
theorem stringsAt_eq (hJ : J.Indexed) {result : J.Object} {label : String}
    (hlen : (elementsAt J result label).length < 2 ^ 16) :
    stringsAt J result label = textsAt J result label := by
  by_cases hlabel : J.hasLabel result label = true
  · rw [elementsAt, J.fieldOr_of_has hlabel] at hlen
    rw [stringsAt, textsAt, elementsAt, J.fieldOr_of_has hlabel, J.fieldOr_of_has hlabel,
      JsonLib.pushStrings_eq hJ hlen, List.nil_append]
    rfl
  · rw [stringsAt, textsAt, elementsAt, J.fieldOr_of_not_has hlabel, J.fieldOr_of_not_has hlabel]
    rfl

/-- The same with a limit. -/
theorem stringsUpTo_eq (hJ : J.Indexed) {result : J.Object} {label : String} {limit : ℕ}
    (hlen : (elementsAt J result label).length < 2 ^ 16) :
    J.fieldOr result label (fun v => J.pushStringsUpTo limit (J.array v) 0 []) [] =
      (textsAt J result label).take limit := by
  by_cases hlabel : J.hasLabel result label = true
  · rw [elementsAt, J.fieldOr_of_has hlabel] at hlen
    rw [textsAt, elementsAt, J.fieldOr_of_has hlabel, J.fieldOr_of_has hlabel,
      JsonLib.pushStringsUpTo_eq hJ hlen, List.nil_append, List.map_take]
    rfl
  · rw [textsAt, elementsAt, J.fieldOr_of_not_has hlabel, J.fieldOr_of_not_has hlabel,
      List.map_nil, List.take_nil]

/-! ## The two ways a status arrives -/

/-- Where the status of a network is decoded. -/
inductive StatusView where
  /-- `NotifyStatus` -/
  | event
  /-- `GetNetStatus(netType)`, with what its result held before -/
  | query (netType : UInt32) (before : GetNetStatusResult)

/-- The status that is handed on when ctrlm sends `text`. -/
def StatusView.status (J : JsonLib) (text : String) : StatusView → NetStatusData
  | .event => netStatusOf J (J.fromString text)
  | .query netType before => queriedNetStatus J netType text before

/-- They differ in the type of the network only. -/
theorem StatusView.status_eq (text : String) (view : StatusView) :
    view.status J text =
      { netStatusOf J (J.fromString text) with netType := (view.status J text).netType } := by
  cases view with
  | event => rfl
  | query netType before =>
    rw [status, queriedNetStatus_eq]

theorem StatusView.netTypesSupported_eq (text : String) (view : StatusView) :
    (view.status J text).netTypesSupported =
      numbersAt J (statusObject J (J.fromString text)) "netTypesSupported" 8 := by
  rw [view.status_eq]
  exact fieldOr_parseUint32Array J _ "netTypesSupported" 8

theorem StatusView.remoteData_eq (text : String) (view : StatusView) :
    (view.status J text).remoteData =
      ((elementsAt J (statusObject J (J.fromString text)) "remoteData").take 32).map fun element =>
        parseRemoteInfo J (J.object element) := by
  rw [view.status_eq]
  exact fieldOr_parseRemoteDataArray J _ "remoteData" 32

theorem code_validationStatusOf (params : J.Object) :
    (validationStatusOf J params).code = numbersAt J (statusObject J params) "code" 3 := by
  rw [validationStatusOf_eq, ← fieldOr_parseUint32Array]

/-! ## The lists of the replies -/

/-- What a method hands out when ctrlm replies `text`. -/
def Request.outsReplied (J : JsonLib) (r : Request) (text : String) (before : r.Outs) : r.Outs :=
  r.outsAfter J (.replied text) before

namespace Request

theorem sessionIdList_replied (macAddress fileName fileType : String) (percentIncrement : UInt32)
    (text : String) (before : StartFirmwareUpdateOuts) :
    StartFirmwareUpdateOuts.sessionIdList (outsReplied J
      (.startFirmwareUpdate macAddress fileName fileType percentIncrement) text before) =
    J.fieldOr (J.fromString text) "sessionIdList"
      (fun v => J.pushStringsUpTo 32 (J.array v) 0 []) [] := by
  rw [outsReplied, outsAfter, run, RemoteControl.startFirmwareUpdate, Outcome.eval_exchange,
    if_neg (Outcome.not_failed_replied text), eval_finish]
  rfl

theorem manufacturers_replied (type : AVDevType) {manufacturer : String}
    (hmanufacturer : manufacturer.isEmpty = false) (text : String) (before : ManufacturersOuts) :
    ManufacturersOuts.manufacturers
      (outsReplied J (.getIRDBManufacturers (some type) manufacturer) text before) =
    some ⟨stringsAt J (J.fromString text) "manufacturers"⟩ := by
  unfold outsReplied outsAfter run RemoteControl.getIRDBManufacturers
  dsimp only
  rw [hmanufacturer, if_neg Bool.false_ne_true, Outcome.eval_exchange,
    if_neg (Outcome.not_failed_replied text)]
  rfl

theorem models_replied (type : AVDevType) (manufacturer : Option String) (model : String)
    (text : String) (before : ModelsOuts) :
    ModelsOuts.models
      (outsReplied J (.getIRDBModels (some type) manufacturer model) text before) =
    some ⟨stringsAt J (J.fromString text) "models"⟩ := by
  unfold outsReplied outsAfter run RemoteControl.getIRDBModels
  dsimp only
  rw [Outcome.eval_exchange, if_neg (Outcome.not_failed_replied text)]
  rfl

theorem autoLookup_replied (text : String) (before : AutoLookupOuts) :
    AutoLookupOuts.tvCodes (outsReplied J .getIRCodesByAutoLookup text before) =
      some ⟨stringsAt J (J.fromString text) "tvCodes"⟩ ∧
    AutoLookupOuts.avrCodes (outsReplied J .getIRCodesByAutoLookup text before) =
      some ⟨stringsAt J (J.fromString text) "avrCodes"⟩ := by
  rw [outsReplied, outsAfter, run, RemoteControl.getIRCodesByAutoLookup, Outcome.eval_exchange,
    if_neg (Outcome.not_failed_replied text)]
  exact ⟨rfl, rfl⟩

theorem codes_replied (type : AVDevType) (manufacturer model : Option String) (text : String)
    (before : CodesOuts) :
    CodesOuts.codes
      (outsReplied J (.getIRCodesByNames (some type) manufacturer model) text before) =
    some ⟨stringsAt J (J.fromString text) "codes"⟩ := by
  unfold outsReplied outsAfter run RemoteControl.getIRCodesByNames
  dsimp only
  rw [Outcome.eval_exchange, if_neg (Outcome.not_failed_replied text)]
  rfl

end Request

/-! ## All of them -/

/-- The lists of a status are images, and so is the list of keys of each remote in it. -/
structure StatusImages (J : JsonLib) (statusObj : J.Object) (status : NetStatusData) : Prop where
  netTypesSupported : status.netTypesSupported = numbersAt J statusObj "netTypesSupported" 8
  remoteData : status.remoteData = ((elementsAt J statusObj "remoteData").take 32).map
    fun element => parseRemoteInfo J (J.object element)
  remotes : status.remoteData.length ≤ 32
  wakeupCustomList : ∀ i < 32, ∀ element, (elementsAt J statusObj "remoteData")[i]? = some element →
    ∃ remote, status.remoteData[i]? = some remote ∧
      remote.wakeupCustomList = numbersAt J (J.object element) "wakeupCustomList" 32

theorem StatusView.images (text : String) (view : StatusView) :
    StatusImages J (statusObject J (J.fromString text)) (view.status J text) where
  netTypesSupported := view.netTypesSupported_eq text
  remoteData := view.remoteData_eq text
  remotes := by
    rw [view.remoteData_eq, List.length_map]
    exact List.length_take_le 32 _
  wakeupCustomList := by
    intro i hi element helement
    refine ⟨parseRemoteInfo J (J.object element), ?_, wakeupCustomList_parseRemoteInfo J _⟩
    rw [view.remoteData_eq, List.getElem?_map, List.getElem?_take_of_lt hi, helement]
    rfl

/-- **Lists are images** of the arrays that ctrlm sent. Whatever it sends:

* a missing label is an array without elements, and numbers are never more than their
  limit;
* the lists of a status, told to the observers or returned by the query, and the keys
  of a validation are the first elements up to their limits, each decoded by itself;
* so are the sessions of an update, and the iterators carry every element, of arrays
  with at most 65535 elements. -/
theorem lists_are_images (hJ : J.Indexed) (text : String) :
    ((∀ object label, J.hasLabel object label = false → elementsAt J object label = []) ∧
      ∀ object label limit, (numbersAt J object label limit).length ≤ limit) ∧
    ((∀ view : StatusView,
        StatusImages J (statusObject J (J.fromString text)) (view.status J text)) ∧
      (validationStatusOf J (J.fromString text)).code =
        numbersAt J (statusObject J (J.fromString text)) "code" 3) ∧
    ((elementsAt J (J.fromString text) "sessionIdList").length ≤ 65535 →
      ∀ macAddress fileName fileType percentIncrement before,
        StartFirmwareUpdateOuts.sessionIdList (Request.outsReplied J
          (.startFirmwareUpdate macAddress fileName fileType percentIncrement) text before) =
        (textsAt J (J.fromString text) "sessionIdList").take 32) ∧
    ((elementsAt J (J.fromString text) "manufacturers").length ≤ 65535 →
      ∀ type manufacturer, manufacturer.isEmpty = false → ∀ before,
        ManufacturersOuts.manufacturers
          (Request.outsReplied J (.getIRDBManufacturers (some type) manufacturer) text before) =
        some ⟨textsAt J (J.fromString text) "manufacturers"⟩) ∧
    ((elementsAt J (J.fromString text) "models").length ≤ 65535 →
      ∀ type manufacturer model before,
        ModelsOuts.models
          (Request.outsReplied J (.getIRDBModels (some type) manufacturer model) text before) =
        some ⟨textsAt J (J.fromString text) "models"⟩) ∧
    ((elementsAt J (J.fromString text) "tvCodes").length ≤ 65535 → ∀ before,
        AutoLookupOuts.tvCodes (Request.outsReplied J .getIRCodesByAutoLookup text before) =
        some ⟨textsAt J (J.fromString text) "tvCodes"⟩) ∧
    ((elementsAt J (J.fromString text) "avrCodes").length ≤ 65535 → ∀ before,
        AutoLookupOuts.avrCodes (Request.outsReplied J .getIRCodesByAutoLookup text before) =
        some ⟨textsAt J (J.fromString text) "avrCodes"⟩) ∧
    ((elementsAt J (J.fromString text) "codes").length ≤ 65535 →
      ∀ type manufacturer model before,
        CodesOuts.codes
          (Request.outsReplied J (.getIRCodesByNames (some type) manufacturer model) text before) =
        some ⟨textsAt J (J.fromString text) "codes"⟩) := by
  have hwalked : ∀ {label}, (elementsAt J (J.fromString text) label).length ≤ 65535 →
      stringsAt J (J.fromString text) label = textsAt J (J.fromString text) label :=
    fun hlen => stringsAt_eq hJ (Nat.lt_succ_of_le hlen)
  refine ⟨⟨fun object label hlabel => ?_, length_numbersAt_le J⟩,
    ⟨StatusView.images text, code_validationStatusOf _⟩, fun hlen => ?_, fun hlen => ?_,
    fun hlen => ?_, fun hlen => ?_, fun hlen => ?_, fun hlen => ?_⟩
  · rw [elementsAt, JsonLib.fieldOr, hlabel, if_neg Bool.false_ne_true]
  · intro macAddress fileName fileType percentIncrement before
    rw [Request.sessionIdList_replied, stringsUpTo_eq hJ (Nat.lt_succ_of_le hlen)]
  · intro type manufacturer hmanufacturer before
    rw [Request.manufacturers_replied type hmanufacturer, hwalked hlen]
  · intro type manufacturer model before
    rw [Request.models_replied, hwalked hlen]
  · intro before
    rw [(Request.autoLookup_replied text before).1, hwalked hlen]
  · intro before
    rw [(Request.autoLookup_replied text before).2, hwalked hlen]
  · intro type manufacturer model before
    rw [Request.codes_replied, hwalked hlen]

/-- A reply with two sessions. -/
def twoSessions : String := "\x7b\"sessionIdList\":[\"a\",\"b\"]\x7d"

/-- Both are handed out, whatever was in the list before. -/
theorem lists_are_images_twoSessions :
    StartFirmwareUpdateOuts.sessionIdList (Request.outsReplied treeJson
      (.startFirmwareUpdate "" "" "" 0) twoSessions ⟨false, ["c"]⟩) = ["a", "b"] := by
  obtain ⟨-, -, hsessions, -⟩ := lists_are_images treeJson_indexed twoSessions
  rw [hsessions (by decide +kernel)]
  decide +kernel

end RemoteControl
