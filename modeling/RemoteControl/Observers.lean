import Mathlib.Algebra.BigOperators.Group.List.Basic
import Mathlib.Algebra.Order.BigOperators.Group.List
import Mathlib.Logic.Function.Basic
import RemoteControl.Roster
import RemoteControl.Runs

/-!
# Observers: registration, dispatch and the references they hold

`RemoteControlImplementation` keeps the clients that want events in
`_notifications`, a vector of COM pointers guarded by `_adminLock`. Each event is
delivered by taking a snapshot of that vector (`ObserverSnapshot`, one `AddRef`
per entry), calling every entry **outside** the lock, and then releasing every
entry (`ReleaseObserverSnapshot`).

* The bottom layer (`register` … `releaseObservers`) is the code of the critical
  sections, on pointers: `none` is `nullptr`, and going through it sets
  `crashed`.
* `step` interleaves the sections with any number of dispatches. A dispatch is
  data: its snapshot and how far it has come. `Register` and `Unregister` may
  come from anywhere, also from inside a running callback.
-/

namespace RemoteControl

open Runs

/-- `Core::hresult`, as far as the plugin looks at it. -/
inductive HResult where
  /-- `ERROR_NONE` -/
  | errorNone
  /-- `ERROR_GENERAL` -/
  | errorGeneral
  /-- `ERROR_BAD_REQUEST` -/
  | errorBadRequest
  /-- `ERROR_RPC_CALL_FAILED` -/
  | errorRpcCallFailed
  /-- any other code a proxy may hand back -/
  | other (code : ℕ)
  deriving DecidableEq, Repr

/-- The three kinds of events, one per `Notify*` function and `On*` callback. -/
inductive EventKind where
  /-- `NotifyStatus`, `OnStatus` -/
  | status
  /-- `NotifyValidation`, `OnValidation` -/
  | validation
  /-- `NotifyFirmwareUpdateProgress`, `OnFirmwareUpdateProgress` -/
  | firmwareUpdateProgress
  deriving DecidableEq, Repr

/-- One event on its way to the observers: the vector `observers` of a `Notify*`
function, and where its two loops are. -/
structure Dispatch (ν : Type) where
  /-- which `On*` is called -/
  kind : EventKind
  /-- the snapshot, as it was taken -/
  observers : List (Option ν)
  /-- how many callbacks have been entered -/
  called : ℕ := 0
  /-- the last of them is still running -/
  inCallback : Bool := false
  /-- how many entries have been released -/
  released : ℕ := 0
  deriving DecidableEq

/-- The entries a dispatch has still to release. -/
def Dispatch.unreleased {ν : Type} (D : Dispatch ν) : List (Option ν) :=
  D.observers.drop D.released

/-- A dispatch is over when every entry is called and released. -/
def Dispatch.finished {ν : Type} (D : Dispatch ν) : Prop :=
  D.called = D.observers.length ∧ D.inCallback = false ∧ D.released = D.observers.length

instance {ν : Type} (D : Dispatch ν) : Decidable D.finished :=
  inferInstanceAs (Decidable (_ ∧ _ ∧ _))

/-- The part of the implementation that concerns its observers. -/
structure Observers (ν : Type) where
  /-- `_notifications` -/
  notifications : List (Option ν)
  /-- the references the implementation holds: `AddRef`s minus `Release`s -/
  refs : ν → ℤ
  /-- every dispatch so far, oldest first -/
  dispatches : List (Dispatch ν)
  /-- a null pointer was gone through -/
  crashed : Bool
  /-- the destructor has released the observers -/
  destroyed : Bool

namespace Observers

variable {ν : Type}

/-- A fresh implementation: nobody registered. -/
def fresh : Observers ν :=
  ⟨[], fun _ => 0, [], false, false⟩

variable [DecidableEq ν]

/-- `notification->AddRef()`. -/
def addRef (s : Observers ν) : Option ν → Observers ν
  | some n => { s with refs := Function.update s.refs n (s.refs n + 1) }
  | none => { s with crashed := true }

/-- `notification->Release()`. -/
def releaseRef (s : Observers ν) : Option ν → Observers ν
  | some n => { s with refs := Function.update s.refs n (s.refs n - 1) }
  | none => { s with crashed := true }

/-- `Register(notification)`. -/
def register (s : Observers ν) (notification : Option ν) : HResult × Observers ν :=
  if notification = none then (.errorBadRequest, s)
  else if notification ∈ s.notifications then (.errorNone, s)
  else
    let s := s.addRef notification
    (.errorNone, { s with notifications := s.notifications ++ [notification] })

/-- `Unregister(notification)`. -/
def unregister (s : Observers ν) (notification : Option ν) : HResult × Observers ν :=
  if notification = none then (.errorBadRequest, s)
  else if notification ∈ s.notifications then
    let s := s.releaseRef notification
    (.errorNone, { s with notifications := s.notifications.erase notification })
  else (.errorNone, s)

/-- `ObserverSnapshot()`: copy the vector, taking a reference on each entry. -/
def observerSnapshot (s : Observers ν) : List (Option ν) × Observers ν :=
  s.notifications.foldl (fun (observers, s) n => (observers ++ [n], s.addRef n)) ([], s)

/-- The critical section of the destructor: release whoever is still registered. -/
def releaseObservers (s : Observers ν) : Observers ν :=
  let s := s.notifications.foldl (fun s n => if n ≠ none then s.releaseRef n else s) s
  { s with notifications := [] }

/-! ## The interleaving -/

/-- Who calls `Register` or `Unregister`: some client, or an observer from inside
the callback that dispatch `d` is making. -/
inductive Caller where
  /-- a client thread -/
  | client
  /-- the callback dispatch `d` is in -/
  | callback (d : ℕ)
  deriving DecidableEq

/-- The steps that can interleave. A dispatch is named by its position in
`dispatches`. -/
inductive Action (ν : Type) where
  /-- a call of `Register` -/
  | register (caller : Caller) (notification : Option ν)
  /-- a call of `Unregister` -/
  | unregister (caller : Caller) (notification : Option ν)
  /-- a `Notify*` function takes its snapshot -/
  | snapshot (kind : EventKind)
  /-- dispatch `d` enters the callback of its next entry -/
  | enterCallback (d : ℕ) (notification : Option ν)
  /-- the callback dispatch `d` is in returns -/
  | leaveCallback (d : ℕ)
  /-- dispatch `d` releases its next entry -/
  | release (d : ℕ)
  /-- the destructor's critical section -/
  | destructor
  deriving DecidableEq

/-- A nested call needs the callback it is made from to be running. -/
def mayCall (s : Observers ν) : Caller → Bool
  | .client => true
  | .callback d =>
    match s.dispatches[d]? with
    | some D => D.inCallback
    | none => false

/-- Replace dispatch `d`. -/
def setDispatch (s : Observers ν) (d : ℕ) (D : Dispatch ν) : Observers ν :=
  { s with dispatches := s.dispatches.set d D }

/-- Calling through a pointer. -/
def goThrough (s : Observers ν) (notification : Option ν) : Observers ν :=
  if notification = none then { s with crashed := true } else s

/-- One step; `none` when it is not enabled. No member function is entered on a
destroyed object, but a dispatch that has its snapshot goes on. -/
def step (s : Observers ν) : Action ν → Option (Observers ν)
  | .register caller n =>
    if !s.destroyed && s.mayCall caller then some (s.register n).2 else none
  | .unregister caller n =>
    if !s.destroyed && s.mayCall caller then some (s.unregister n).2 else none
  | .snapshot kind =>
    if s.destroyed then none
    else
      let (observers, s) := s.observerSnapshot
      some { s with dispatches := s.dispatches ++ [{ kind, observers }] }
  | .enterCallback d n =>
    match s.dispatches[d]? with
    | none => none
    | some D =>
      if D.inCallback = false ∧ D.observers[D.called]? = some n then
        some ((s.goThrough n).setDispatch d { D with called := D.called + 1, inCallback := true })
      else none
  | .leaveCallback d =>
    match s.dispatches[d]? with
    | none => none
    | some D =>
      if D.inCallback then some (s.setDispatch d { D with inCallback := false }) else none
  | .release d =>
    match s.dispatches[d]? with
    | none => none
    | some D =>
      if D.inCallback = false ∧ D.called = D.observers.length then
        match D.observers[D.released]? with
        | some n => some ((s.releaseRef n).setDispatch d { D with released := D.released + 1 })
        | none => none
      else none
  | .destructor =>
    if s.destroyed then none else some { s.releaseObservers with destroyed := true }

/-- The step relation of the interleaving. -/
def Steps (s : Observers ν) (a : Action ν) (t : Observers ν) : Prop :=
  s.step a = some t

/-- `step` as the moves of a schedule. -/
def advance (s : Observers ν) (a : Action ν) : Option (Action ν × Observers ν) :=
  (s.step a).map fun t => (a, t)

theorem steps_of_advance {s t : Observers ν} {a b : Action ν}
    (h : s.advance a = some (b, t)) : Steps s b t := by
  obtain ⟨t', hstep, heq⟩ := Option.map_eq_some_iff.mp h
  obtain ⟨rfl, rfl⟩ := Prod.mk.inj heq
  exact hstep

end Observers

end RemoteControl
