import RemoteControl.Methods

/-!
# What the outputs held before

A method is given its output parameters by the caller, with whatever they hold.
`Request.LeavesNothing` says that nothing of it is there when the method returns:
two calls that differ only in it leave the same outputs.

All methods but one are the same program whatever the outputs hold
(`Request.run_congr`), since each branch assigns every field. When its call fails,
`GetLastKeypressSource` assigns the success flag alone.
-/

namespace RemoteControl

open Interaction

/-- A call of a method that talks to ctrlm, with its inputs. -/
inductive Request where
  | startPairing (timeout : Option UInt32) (screenBindEnable scanEnable : Option Bool)
      (macAddressList : List String)
  | stopPairing (screenBindDisable scanDisable : Option Bool)
  | getNetStatus (netType : UInt32)
  | getIRDBManufacturers (avDevType : Option AVDevType) (manufacturer : String)
  | getIRDBModels (avDevType : Option AVDevType) (manufacturer : Option String) (model : String)
  | getIRCodesByAutoLookup
  | getIRCodesByNames (avDevType : Option AVDevType) (manufacturer model : Option String)
  | setIRCode (remoteId : UInt32) (avDevType : AVDevType) (code : String)
  | clearIRCodes (remoteId : UInt32)
  | getLastKeypressSource
  | configureWakeupKeys (wakeupConfig : WakeupConfig) (customKeys : Option String)
  | initializeIRDB
  | findMyRemote (level : Option FindMyRemoteLevel)
  | factoryReset
  | unpair (macAddressList : List String)
  | startFirmwareUpdate (macAddress fileName fileType : String) (percentIncrement : UInt32)
  | cancelFirmwareUpdate (sessionId : String)
  | statusFirmwareUpdate (sessionId : String)
  deriving DecidableEq

namespace Request

/-- The parameters of the method that go in and out. -/
abbrev InOuts : Request → Type
  | getIRDBManufacturers .. => Option AVDevType
  | getIRDBModels .. => Option AVDevType × Option String
  | getIRCodesByNames .. => Option AVDevType × Option String × Option String
  | _ => Unit

/-- The output parameters of the method. -/
abbrev Outs : Request → Type
  | getNetStatus _ => GetNetStatusResult
  | getIRDBManufacturers .. => ManufacturersOuts
  | getIRDBModels .. => ModelsOuts
  | getIRCodesByAutoLookup => AutoLookupOuts
  | getIRCodesByNames .. => CodesOuts
  | getLastKeypressSource => GetLastKeypressSourceResponse
  | startFirmwareUpdate .. => StartFirmwareUpdateOuts
  | statusFirmwareUpdate _ => StatusFirmwareUpdateResponse
  | _ => SuccessResult

/-- The method, called with these inputs. -/
def run (J : JsonLib) : (r : Request) → r.Outs → CtrlmM (Returned r.InOuts r.Outs)
  | .startPairing timeout screenBindEnable scanEnable macAddressList, out =>
    RemoteControl.startPairing J timeout screenBindEnable scanEnable macAddressList out
  | .stopPairing screenBindDisable scanDisable, out =>
    RemoteControl.stopPairing J screenBindDisable scanDisable out
  | .getNetStatus netType, out => RemoteControl.getNetStatus J netType out
  | .getIRDBManufacturers avDevType manufacturer, out =>
    RemoteControl.getIRDBManufacturers J avDevType manufacturer out
  | .getIRDBModels avDevType manufacturer model, out =>
    RemoteControl.getIRDBModels J avDevType manufacturer model out
  | .getIRCodesByAutoLookup, out => RemoteControl.getIRCodesByAutoLookup J out
  | .getIRCodesByNames avDevType manufacturer model, out =>
    RemoteControl.getIRCodesByNames J avDevType manufacturer model out
  | .setIRCode remoteId avDevType code, out =>
    RemoteControl.setIRCode J remoteId avDevType code out
  | .clearIRCodes remoteId, out => RemoteControl.clearIRCodes J remoteId out
  | .getLastKeypressSource, out => RemoteControl.getLastKeypressSource J out
  | .configureWakeupKeys wakeupConfig customKeys, out =>
    RemoteControl.configureWakeupKeys J wakeupConfig customKeys out
  | .initializeIRDB, out => RemoteControl.initializeIRDB J out
  | .findMyRemote level, out => RemoteControl.findMyRemote J level out
  | .factoryReset, out => RemoteControl.factoryReset J out
  | .unpair macAddressList, out => RemoteControl.unpair J macAddressList out
  | .startFirmwareUpdate macAddress fileName fileType percentIncrement, out =>
    RemoteControl.startFirmwareUpdate J macAddress fileName fileType percentIncrement out
  | .cancelFirmwareUpdate sessionId, out => RemoteControl.cancelFirmwareUpdate J sessionId out
  | .statusFirmwareUpdate sessionId, out => RemoteControl.statusFirmwareUpdate J sessionId out

variable (J : JsonLib)

/-- The outputs when the method has returned. -/
def outsAfter (r : Request) (w : Outcome) (before : r.Outs) : r.Outs :=
  ((r.run J before).eval w.answer).outs

/-- Nothing the outputs held before the call is there after it. -/
def LeavesNothing (r : Request) (w : Outcome) : Prop :=
  ∀ before before' : r.Outs, r.outsAfter J w before = r.outsAfter J w before'

/-- A method other than `GetLastKeypressSource` does the same whatever its outputs
hold. -/
theorem run_congr {r : Request} (h : r ≠ .getLastKeypressSource) (before before' : r.Outs) :
    r.run J before = r.run J before' := by
  -- every field is assigned on every path, so `before` does not occur in the program
  cases r with
  | getLastKeypressSource => exact absurd rfl h
  | findMyRemote level =>
    cases level with
    | none => rfl
    | some level => rfl
  | getIRDBManufacturers avDevType manufacturer =>
    cases avDevType with
    | none => rfl
    | some type => rfl
  | _ => rfl

/-- A failed `GetLastKeypressSource` keeps everything but the success flag. -/
theorem keypress_of_failed {w : Outcome} (h : w.Failed)
    (before : GetLastKeypressSourceResponse) :
    outsAfter J .getLastKeypressSource w before = { before with success := false } := by
  show Returned.outs (Prog.eval w.answer (RemoteControl.getLastKeypressSource J before)) = _
  rw [RemoteControl.getLastKeypressSource, Outcome.eval_exchange, if_pos h, eval_finish]

/-- After a reply its outputs are what the reply says. -/
theorem keypress_of_replied {w : Outcome} (h : ¬ w.Failed)
    (before before' : GetLastKeypressSourceResponse) :
    outsAfter J .getLastKeypressSource w before =
      outsAfter J .getLastKeypressSource w before' := by
  show Returned.outs (Prog.eval w.answer (RemoteControl.getLastKeypressSource J before)) =
    Returned.outs (Prog.eval w.answer (RemoteControl.getLastKeypressSource J before'))
  rw [RemoteControl.getLastKeypressSource, RemoteControl.getLastKeypressSource,
    Outcome.eval_exchange, Outcome.eval_exchange, if_neg h, if_neg h, eval_finish]

/-- A response that says a key was pressed at this time, and nothing else. -/
def pressedAt (timestamp : UInt64) : GetLastKeypressSourceResponse :=
  ⟨0, timestamp, "", "", 0, false, 0, false⟩

/-- A failed `GetLastKeypressSource` hands back the time it was given. -/
theorem not_leavesNothing_of_failed {w : Outcome} (h : w.Failed) :
    ¬ LeavesNothing J .getLastKeypressSource w := by
  intro hnothing
  have heq := hnothing (pressedAt 0) (pressedAt 1)
  rw [keypress_of_failed J h, keypress_of_failed J h] at heq
  have htime : (0 : UInt64) = 1 := congrArg GetLastKeypressSourceResponse.timestamp heq
  exact absurd htime (by decide)

/-- **No leftovers**: whatever the method, its arguments and the outcome of the
call, nothing the outputs held before is there afterwards — unless the method is
`GetLastKeypressSource` and the call fails. -/
theorem leavesNothing_iff (r : Request) (w : Outcome) :
    r.LeavesNothing J w ↔ ¬ (r = .getLastKeypressSource ∧ w.Failed) := by
  constructor
  · rintro hnothing ⟨rfl, hfailed⟩
    exact not_leavesNothing_of_failed J hfailed hnothing
  · intro hcases before before'
    by_cases hr : r = .getLastKeypressSource
    · subst hr
      apply keypress_of_replied
      exact fun hfailed => hcases ⟨rfl, hfailed⟩
    · unfold outsAfter
      rw [run_congr J hr before before']

/-- The bus is not up, and the client gets back the time of an earlier key press. -/
theorem keypress_leftover :
    ¬ LeavesNothing treeJson .getLastKeypressSource ⟨true, .ipccoreFail, ""⟩ := by
  intro hnothing
  have heq := hnothing (pressedAt 1770000000) (pressedAt 0)
  have htime : (1770000000 : UInt64) = 0 := congrArg GetLastKeypressSourceResponse.timestamp heq
  exact absurd htime (by decide)

end Request

end RemoteControl
