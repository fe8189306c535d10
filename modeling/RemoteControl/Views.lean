import RemoteControl.Events
import RemoteControl.Leftovers

/-!
# Two views of one state

ctrlm tells the state of a network, and that of a firmware update, in two ways: it
broadcasts it, and it replies to a query. The plugin decodes the two with code
written twice. `views_agree` compares them on the same object: they differ in one
default each.
-/

namespace RemoteControl

variable (J : JsonLib) {ν : Type}

/-! ## The two queries -/

/-- The status that `GetNetStatus(netType)` hands out when ctrlm replies `reply`. -/
def queriedNetStatus (netType : UInt32) (reply : String) (before : GetNetStatusResult) :
    NetStatusData :=
  GetNetStatusResult.status
    (Request.outsAfter J (.getNetStatus netType) (.replied reply) before)

/-- The status that `StatusFirmwareUpdate(sessionId)` hands out. -/
def queriedFirmwareUpdateStatus (sessionId : String) (reply : String)
    (before : StatusFirmwareUpdateResponse) : FirmwareUpdateStatusData :=
  StatusFirmwareUpdateResponse.status
    (Request.outsAfter J (.statusFirmwareUpdate sessionId) (.replied reply) before)

/-- `p` has a `status` object with this label. -/
def HasStatusLabel (p : J.Object) (label : String) : Prop :=
  J.hasLabel p "status" = true ∧ J.hasLabel (J.object (J.get p "status")) label = true

instance decidableHasStatusLabel (p : J.Object) (label : String) :
    Decidable (HasStatusLabel J p label) :=
  inferInstanceAs (Decidable (_ ∧ _))

variable {J}

/-- The labels of `statusObj`. -/
theorem hasLabel_statusObject (hempty : ∀ label, J.hasLabel J.emptyObject label = false)
    (p : J.Object) (label : String) :
    J.hasLabel (statusObject J p) label = true ↔ HasStatusLabel J p label := by
  unfold statusObject JsonLib.fieldOr HasStatusLabel
  split
  next hstatus => exact (and_iff_right hstatus).symm
  next hstatus =>
    rw [hempty]
    exact ⟨nofun, fun h => absurd h.1 hstatus⟩

/-- Reading a label that `statusObj` has, whatever stands for it otherwise. -/
theorem fieldOr_statusObject_of_has {α : Type}
    (hempty : ∀ label, J.hasLabel J.emptyObject label = false) {p : J.Object} {label : String}
    (h : HasStatusLabel J p label) (read : J.Variant → α) (x y : α) :
    J.fieldOr (statusObject J p) label read x = J.fieldOr (statusObject J p) label read y := by
  rw [JsonLib.fieldOr, JsonLib.fieldOr, if_pos ((hasLabel_statusObject hempty p label).mpr h),
    if_pos ((hasLabel_statusObject hempty p label).mpr h)]

/-- Reading a label that it does not have. -/
theorem fieldOr_statusObject_of_not_has {α : Type}
    (hempty : ∀ label, J.hasLabel J.emptyObject label = false) {p : J.Object} {label : String}
    (h : ¬ HasStatusLabel J p label) (read : J.Variant → α) (x : α) :
    J.fieldOr (statusObject J p) label read x = x := by
  rw [JsonLib.fieldOr, if_neg fun hlabel => h ((hasLabel_statusObject hempty p label).mp hlabel)]

/-! ## What they return -/

/-- The status of a network in a reply is that of an event, but for the type of the
network. -/
theorem queriedNetStatus_eq (netType : UInt32) (reply : String) (before : GetNetStatusResult) :
    queriedNetStatus J netType reply before =
      { netStatusOf J (J.fromString reply) with
        netType := J.fieldOr (statusObject J (J.fromString reply)) "netType"
          (fun v => castUint32 (J.number v)) netType } := by
  rw [queriedNetStatus, Request.outsAfter, Request.run, getNetStatus, Outcome.eval_exchange,
    if_neg (Outcome.not_failed_replied reply), eval_finish]
  rfl

/-- The type of the network in a reply. -/
theorem netType_queriedNetStatus (netType : UInt32) (reply : String)
    (before : GetNetStatusResult) :
    (queriedNetStatus J netType reply before).netType =
      J.fieldOr (statusObject J (J.fromString reply)) "netType"
        (fun v => castUint32 (J.number v)) netType := by
  rw [queriedNetStatus_eq]

/-- An event without `status` is decoded as one with an empty `status`, and
`errorString` as what is there or not. -/
theorem firmwareUpdateStatusOf_eq
    (hempty : ∀ label, J.hasLabel J.emptyObject label = false) (p : J.Object) :
    firmwareUpdateStatusOf J p =
      { upgradeSessionId := J.fieldOr (statusObject J p) "upgradeSessionId" J.string ""
        macAddress := J.fieldOr (statusObject J p) "macAddress" J.string ""
        upgradeState := J.fieldOr (statusObject J p) "upgradeState"
          (fun v => FirmwareUpdateState.stringToEnum (J.string v) .invalid) .invalid
        percentComplete := J.fieldOr (statusObject J p) "percentComplete"
          (fun v => castUint32 (J.number v)) 0
        errorString := optionalStringOf J (statusObject J p) "errorString" } := by
  unfold firmwareUpdateStatusOf
  by_cases hstatus : J.hasLabel p "status" = true
  · have hobj : statusObject J p = J.object (J.get p "status") := if_pos hstatus
    rw [if_pos hstatus, hobj]
    dsimp only
    split
    next herror => rw [optionalStringOf, J.fieldOr_of_has herror]
    next herror => rw [optionalStringOf, J.fieldOr_of_not_has herror]
  · have hobj : statusObject J p = J.emptyObject := if_neg hstatus
    have hnone : ∀ label, ¬ J.hasLabel J.emptyObject label = true := by
      intro label h
      rw [hempty] at h
      cases h
    rw [if_neg hstatus, hobj, optionalStringOf]
    simp only [J.fieldOr_of_not_has (hnone _)]

/-- The status of an update in a reply is that of an event, but for the session. -/
theorem queriedFirmwareUpdateStatus_eq
    (hempty : ∀ label, J.hasLabel J.emptyObject label = false) (sessionId : String)
    (reply : String) (before : StatusFirmwareUpdateResponse) :
    queriedFirmwareUpdateStatus J sessionId reply before =
      { firmwareUpdateStatusOf J (J.fromString reply) with
        upgradeSessionId := J.fieldOr (statusObject J (J.fromString reply)) "upgradeSessionId"
          J.string sessionId } := by
  rw [queriedFirmwareUpdateStatus, Request.outsAfter, Request.run, statusFirmwareUpdate,
    Outcome.eval_exchange, if_neg (Outcome.not_failed_replied reply), eval_finish,
    firmwareUpdateStatusOf_eq hempty]
  rfl

/-- The session in a reply. -/
theorem upgradeSessionId_queriedFirmwareUpdateStatus
    (hempty : ∀ label, J.hasLabel J.emptyObject label = false) (sessionId : String)
    (reply : String) (before : StatusFirmwareUpdateResponse) :
    (queriedFirmwareUpdateStatus J sessionId reply before).upgradeSessionId =
      J.fieldOr (statusObject J (J.fromString reply)) "upgradeSessionId" J.string sessionId := by
  rw [queriedFirmwareUpdateStatus_eq hempty]

/-- The session in an event. -/
theorem upgradeSessionId_firmwareUpdateStatusOf
    (hempty : ∀ label, J.hasLabel J.emptyObject label = false) (p : J.Object) :
    (firmwareUpdateStatusOf J p).upgradeSessionId =
      J.fieldOr (statusObject J p) "upgradeSessionId" J.string "" := by
  rw [firmwareUpdateStatusOf_eq hempty]

/-! ## The two views -/

/-- **Two views of one state.** When an event and a reply are the same object:

* a status event tells every observer what `GetNetStatus` returns, in every field,
  except that without `status.netType` the type is the one at the top level, or 0, in
  the event, and the argument in the query;
* a progress event tells every observer what `StatusFirmwareUpdate` returns, whatever
  the response held before, except that without `status.upgradeSessionId` the session
  is empty in the event, and the argument in the query. -/
theorem views_agree (hempty : ∀ label, J.hasLabel J.emptyObject label = false)
    {payload reply : String} (hsame : J.fromString payload = J.fromString reply)
    (observers : List ν) :
    (∀ event : RcuEvent, event.kind = .status → ∃ told,
      notify J event payload observers = observers.map (fun n => (n, .onStatus told)) ∧
      ∀ netType before,
        told = { queriedNetStatus J netType reply before with netType := told.netType } ∧
        (HasStatusLabel J (J.fromString reply) "netType" →
          told.netType = (queriedNetStatus J netType reply before).netType) ∧
        (¬ HasStatusLabel J (J.fromString reply) "netType" →
          told.netType = J.fieldOr (J.fromString payload) "netType"
            (fun v => castUint32 (J.number v)) 0 ∧
          (queriedNetStatus J netType reply before).netType = netType)) ∧
    ∃ told, notify J .firmwareUpdateProgress payload observers =
        observers.map (fun n => (n, .onFirmwareUpdateProgress told)) ∧
      ∀ sessionId before,
        told = { queriedFirmwareUpdateStatus J sessionId reply before with
          upgradeSessionId := told.upgradeSessionId } ∧
        (HasStatusLabel J (J.fromString reply) "upgradeSessionId" →
          told.upgradeSessionId =
            (queriedFirmwareUpdateStatus J sessionId reply before).upgradeSessionId) ∧
        (¬ HasStatusLabel J (J.fromString reply) "upgradeSessionId" →
          told.upgradeSessionId = "" ∧
          (queriedFirmwareUpdateStatus J sessionId reply before).upgradeSessionId = sessionId) := by
  constructor
  · intro event hkind
    refine ⟨netStatusOf J (J.fromString payload), ?_, fun netType before => ⟨?_, ?_, ?_⟩⟩
    · cases event with
      | validationStatus => cases hkind
      | firmwareUpdateProgress => cases hkind
      | _ => rfl
    · rw [queriedNetStatus_eq, hsame]
    · intro hlabel
      rw [netType_queriedNetStatus, netType_netStatusOf, hsame]
      exact fieldOr_statusObject_of_has hempty hlabel _ _ _
    · intro hlabel
      rw [netType_queriedNetStatus, netType_netStatusOf, hsame]
      exact ⟨fieldOr_statusObject_of_not_has hempty hlabel _ _,
        fieldOr_statusObject_of_not_has hempty hlabel _ _⟩
  · refine ⟨firmwareUpdateStatusOf J (J.fromString payload), rfl, fun sessionId before =>
      ⟨?_, ?_, ?_⟩⟩
    · rw [queriedFirmwareUpdateStatus_eq hempty, hsame]
    · intro hlabel
      rw [upgradeSessionId_queriedFirmwareUpdateStatus hempty,
        upgradeSessionId_firmwareUpdateStatusOf hempty, hsame]
      exact fieldOr_statusObject_of_has hempty hlabel _ _ _
    · intro hlabel
      rw [upgradeSessionId_queriedFirmwareUpdateStatus hempty,
        upgradeSessionId_firmwareUpdateStatusOf hempty, hsame]
      exact ⟨fieldOr_statusObject_of_not_has hempty hlabel _ _,
        fieldOr_statusObject_of_not_has hempty hlabel _ _⟩

/-- The text of an object whose only label is `netType`, with the number 2. -/
def netTypeOnly : String := "\x7b\"netType\":2\x7d"

/-- An object without `status`: the event takes the type of the network from its top
level, the query from its argument, and they agree on the rest. -/
theorem views_agree_topLevel :
    ∃ told, notify treeJson .rcuStatus netTypeOnly [4] = [(4, .onStatus told)] ∧
      told = { queriedNetStatus treeJson 7 netTypeOnly
        ⟨true, 3, .failed, .failed, [9], []⟩ with netType := 2 } ∧
      (queriedNetStatus treeJson 7 netTypeOnly ⟨true, 3, .failed, .failed, [9], []⟩).netType =
        7 := by
  have hsame : treeJson.fromString netTypeOnly = treeJson.fromString netTypeOnly := rfl
  obtain ⟨hstatus, -⟩ := views_agree (fun _ => rfl) hsame [4]
  obtain ⟨told, hcalls, htold⟩ := hstatus .rcuStatus rfl
  obtain ⟨heq, -, hdefault⟩ := htold 7 ⟨true, 3, .failed, .failed, [9], []⟩
  obtain ⟨htop, hquery⟩ := hdefault (by decide +kernel)
  have htwo : told.netType = 2 := htop.trans (by decide +kernel)
  exact ⟨told, hcalls, htwo ▸ heq, hquery⟩

end RemoteControl
