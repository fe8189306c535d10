import Mathlib.Data.List.Basic
import RemoteControl.References
import RemoteControl.Reduction

/-!
# Sections: the observer functions, statement by statement

`Observers` takes what `Register`, `Unregister` and `ObserverSnapshot` do under
`_adminLock` as one step. Here they are programs for a thread that may be stopped
between any two statements: the lock is an operation, `std::find` and the loops
walk through `_notifications` element by element, and an iterator is a position
that the vector may or may not have when it is gone through.

* `Op`, `machine` — the statements; a position that is not there, like a null
  pointer, sets `crashed`.
* `register` … `notify` — the functions. A callback answers with the calls of
  `Register` and `Unregister` the observer makes before it returns.
* `level_body` — they keep to the discipline of the lock.
* `threads` — any number of client calls and of events, each on a thread of its own.
-/

namespace RemoteControl

open Interaction Locks Runs

/-- What the threads share. -/
structure Shared (ν : Type) where
  /-- `_notifications` -/
  notifications : List (Option ν)
  /-- the references the implementation holds: `AddRef`s minus `Release`s -/
  refs : ν → ℤ
  /-- a null pointer or a position outside the vector was gone through -/
  crashed : Bool

/-- A call of a client, or of an observer from inside a callback. -/
inductive ClientCall (ν : Type) where
  /-- `Register` -/
  | register (notification : Option ν)
  /-- `Unregister` -/
  | unregister (notification : Option ν)
  deriving DecidableEq

/-- What starts a thread. -/
inductive Entry (ν : Type) where
  /-- a client calls -/
  | client (call : ClientCall ν)
  /-- the bus delivers an event -/
  | event (kind : EventKind)
  deriving DecidableEq

/-- The critical sections of `_adminLock`, by the function they belong to. -/
inductive LockedPart (ν : Type) where
  /-- the section of `Register` -/
  | register (notification : Option ν)
  /-- the section of `Unregister` -/
  | unregister (notification : Option ν)
  /-- the section of `ObserverSnapshot` -/
  | snapshot (kind : EventKind)
  deriving DecidableEq

namespace Shared

variable {ν : Type}

/-- A fresh implementation: nobody registered. -/
def fresh : Shared ν :=
  ⟨[], fun _ => 0, false⟩

variable [DecidableEq ν]

/-- `notification->AddRef()`. -/
def addRef (k : Shared ν) : Option ν → Shared ν
  | some n => { k with refs := Function.update k.refs n (k.refs n + 1) }
  | none => { k with crashed := true }

/-- `notification->Release()`. -/
def releaseRef (k : Shared ν) : Option ν → Shared ν
  | some n => { k with refs := Function.update k.refs n (k.refs n - 1) }
  | none => { k with crashed := true }

/-- Calling through a pointer. -/
def goThrough (k : Shared ν) (notification : Option ν) : Shared ν :=
  if notification = none then { k with crashed := true } else k

/-- Going to position `it`, which should be there. -/
def goTo (k : Shared ν) (it : ℕ) : Shared ν :=
  if it < k.notifications.length then k else { k with crashed := true }

end Shared

/-- The part of the abstract state that the threads share. -/
def Observers.shared {ν : Type} (s : Observers ν) : Shared ν :=
  ⟨s.notifications, s.refs, s.crashed⟩

namespace Threaded

/-- The statements that touch what is shared. -/
inductive Op (ν : Type) where
  /-- `_adminLock.Lock()` -/
  | lock
  /-- `_adminLock.Unlock()`, with the section it ends, which nothing but the trace reads -/
  | unlock (part : LockedPart ν)
  /-- `_notifications.end()` -/
  | last
  /-- `*it` -/
  | deref (it : ℕ)
  /-- `_notifications.push_back(notification)` -/
  | pushBack (notification : Option ν)
  /-- `_notifications.erase(it)` -/
  | erase (it : ℕ)
  /-- `notification->AddRef()` -/
  | addRef (notification : Option ν)
  /-- `notification->Release()` -/
  | release (notification : Option ν)
  /-- `notification->On…(…)` is entered -/
  | enterCallback (kind : EventKind) (notification : Option ν)
  /-- it returns -/
  | leaveCallback
  deriving DecidableEq

/-- What they answer; a callback, with what the observer calls meanwhile. -/
def Op.Answer {ν : Type} : Op ν → Type
  | last => ℕ
  | .deref _ => Option ν
  | enterCallback _ _ => List (ClientCall ν)
  | _ => Unit

/-- What they have to do with `_adminLock`. Observers are called outside it. -/
def access {ν : Type} : Op ν → Access
  | .lock => .acquire
  | .unlock _ => .release
  | .last => .guarded
  | .deref _ => .guarded
  | .pushBack _ => .guarded
  | .erase _ => .guarded
  | .addRef _ => .free
  | .release _ => .free
  | .enterCallback _ _ => .outside
  | .leaveCallback => .outside

/-- A function, statement by statement. -/
abbrev Code (ν α : Type) : Type := Prog (Op ν) Op.Answer α

variable {ν : Type} [DecidableEq ν]

/-- What a statement does. -/
def next (k : Shared ν) : (o : Op ν) → o.Answer → Shared ν
  | .deref it, _ => k.goTo it
  | .pushBack n, _ => { k with notifications := k.notifications ++ [n] }
  | .erase it, _ => { k.goTo it with notifications := k.notifications.eraseIdx it }
  | .addRef n, _ => k.addRef n
  | .release n, _ => k.releaseRef n
  | .enterCallback _ n, _ => k.goThrough n
  | _, _ => k

/-- What it may answer. Nothing is known of what is read from outside the vector. -/
def may (k : Shared ν) : (o : Op ν) → o.Answer → Prop
  | .last, x => x = k.notifications.length
  | .deref it, x => ∀ n ∈ k.notifications[it]?, x = n
  | _, _ => True

instance (k : Shared ν) : (o : Op ν) → (x : o.Answer) → Decidable (may k o x)
  | .last, x => Nat.decEq x k.notifications.length
  | .deref it, (x : Option ν) => inferInstanceAs (Decidable (∀ n ∈ k.notifications[it]?, x = n))
  | .lock, _ | .unlock _, _ | .pushBack _, _ | .erase _, _ | .addRef _, _ | .release _, _
  | .enterCallback _ _, _ | .leaveCallback, _ => .isTrue trivial

/-- What the statements mean. -/
abbrev machine : Machine (Op ν) Op.Answer (Shared ν) := ⟨may, next⟩

/-! ## The functions -/

/-- One statement. -/
abbrev perform (o : Op ν) : Code ν o.Answer := Prog.perform o

/-- `std::find` from `it` on, over `n` elements: the position, or where it stopped. -/
def find (notification : Option ν) : ℕ → ℕ → Code ν ℕ
  | 0, it => pure it
  | n + 1, it => do
    let current : Option ν ← perform (.deref it)
    if current = notification then pure it else find notification n (it + 1)

/-- What `Register` does under the lock. -/
def insert (notification : Option ν) : Code ν Unit := do
  let last : ℕ ← perform .last
  let it ← find notification last 0
  if it = last then
    let _ ← perform (.addRef notification)
    perform (.pushBack notification)
  else pure ()

/-- What `Unregister` does under the lock. -/
def remove (notification : Option ν) : Code ν Unit := do
  let last : ℕ ← perform .last
  let it ← find notification last 0
  if it ≠ last then
    let current : Option ν ← perform (.deref it)
    let _ ← perform (.release current)
    perform (.erase it)
  else pure ()

/-- The loop of `ObserverSnapshot`, over `n` elements from `it` on. -/
def copy : ℕ → ℕ → List (Option ν) → Code ν (List (Option ν))
  | 0, _, observers => pure observers
  | n + 1, it, observers => do
    let notification : Option ν ← perform (.deref it)
    let _ ← perform (.addRef notification)
    copy n (it + 1) (observers ++ [notification])

/-- Between `_adminLock.Lock()` and `_adminLock.Unlock()`. -/
def locked {α : Type} (part : LockedPart ν) (p : Code ν α) : Code ν α := do
  let _ ← perform .lock
  let a ← p
  let _ ← perform (.unlock part)
  pure a

/-- `Register(notification)`. -/
def register (notification : Option ν) : Code ν HResult :=
  if notification = none then pure .errorBadRequest
  else do
    locked (.register notification) (insert notification)
    pure .errorNone

/-- `Unregister(notification)`. -/
def unregister (notification : Option ν) : Code ν HResult :=
  if notification = none then pure .errorBadRequest
  else do
    locked (.unregister notification) (remove notification)
    pure .errorNone

/-- `ObserverSnapshot()`, in the `Notify*` function for `kind`. -/
def observerSnapshot (kind : EventKind) : Code ν (List (Option ν)) :=
  locked (.snapshot kind) do
    let last : ℕ ← perform .last
    copy last 0 []

/-- `ReleaseObserverSnapshot(observers)`. -/
def releaseObserverSnapshot : List (Option ν) → Code ν Unit
  | [] => pure ()
  | notification :: rest => do
    let _ ← perform (.release notification)
    releaseObserverSnapshot rest

/-- One call, whatever it returns. -/
def call : ClientCall ν → Code ν HResult
  | .register n => register n
  | .unregister n => unregister n

/-- What an observer calls from inside a callback, one after the other. -/
def callBack : List (ClientCall ν) → Code ν Unit
  | [] => pure ()
  | c :: rest => do
    let _ ← call c
    callBack rest

/-- The loop of a `Notify*` function over its snapshot. -/
def callObservers (kind : EventKind) : List (Option ν) → Code ν Unit
  | [] => pure ()
  | notification :: rest => do
    let calls : List (ClientCall ν) ← perform (.enterCallback kind notification)
    callBack calls
    let _ ← perform .leaveCallback
    callObservers kind rest

/-- The `Notify*` function for `kind`, from `ObserverSnapshot` on. -/
def notify (kind : EventKind) : Code ν Unit := do
  let observers ← observerSnapshot kind
  callObservers kind observers
  releaseObserverSnapshot observers

/-- What a thread runs; `Notify*` returns nothing. -/
def body : Entry ν → Code ν (Option HResult)
  | .client c => do
    let result ← call c
    pure (some result)
  | .event kind => do
    notify kind
    pure none

/-! ## The discipline -/

theorem level_find (n : Option ν) : ∀ rest it, Level access true (find n rest it)
  | 0, it => .pure it
  | rest + 1, it =>
    (Level.perform rfl rfl).bind fun _ => .ite (fun _ => .pure it)
      fun _ => level_find n rest (it + 1)

theorem level_insert (n : Option ν) : Level access true (insert n) :=
  (Level.perform rfl rfl).bind fun last => (level_find n last 0).bind fun _ =>
    .ite (fun _ => (Level.perform rfl rfl).bind fun _ => .perform rfl rfl) fun _ => .pure ()

theorem level_remove (n : Option ν) : Level access true (remove n) :=
  (Level.perform rfl rfl).bind fun last => (level_find n last 0).bind fun _ =>
    .ite (fun _ => (Level.perform rfl rfl).bind fun _ => (Level.perform rfl rfl).bind fun _ =>
      .perform rfl rfl) fun _ => .pure ()

omit [DecidableEq ν] in
theorem level_copy :
    ∀ rest it (observers : List (Option ν)), Level access true (copy rest it observers)
  | 0, _, observers => .pure observers
  | rest + 1, it, _ =>
    (Level.perform rfl rfl).bind fun _ => (Level.perform rfl rfl).bind fun _ =>
      level_copy rest (it + 1) _

omit [DecidableEq ν] in
/-- A section is entered and left without the lock. -/
theorem level_locked {α : Type} (part : LockedPart ν) {p : Code ν α}
    (hp : Level access true p) : Level access false (locked part p) := by
  refine ⟨rfl, fun _ _ => (Machine.wlp_bind p _ _ _).mpr (Machine.wlp_post hp ?_)⟩
  rintro a _ rfl
  exact ⟨rfl, fun _ _ => rfl⟩

theorem level_call : ∀ c : ClientCall ν, Level access false (call c)
  | .register n =>
    .ite (fun _ => .pure _) fun _ => (level_locked _ (level_insert n)).bind fun _ => .pure _
  | .unregister n =>
    .ite (fun _ => .pure _) fun _ => (level_locked _ (level_remove n)).bind fun _ => .pure _

theorem level_callBack : ∀ calls : List (ClientCall ν), Level access false (callBack calls)
  | [] => .pure ()
  | c :: rest => (level_call c).bind fun _ => level_callBack rest

theorem level_callObservers (kind : EventKind) :
    ∀ observers : List (Option ν), Level access false (callObservers kind observers)
  | [] => .pure ()
  | _ :: rest =>
    (Level.perform rfl rfl).bind fun calls => (level_callBack calls).bind fun _ =>
      (Level.perform rfl rfl).bind fun _ => level_callObservers kind rest

omit [DecidableEq ν] in
theorem level_releaseObserverSnapshot :
    ∀ l : List (Option ν), Level access false (releaseObserverSnapshot l)
  | [] => .pure ()
  | _ :: rest => (Level.perform rfl rfl).bind fun _ => level_releaseObserverSnapshot rest

/-- **The discipline**: no function takes the lock twice, leaves it taken, looks at the
vector without it or calls an observer under it. -/
theorem level_body : ∀ e : Entry ν, Level access false (body e)
  | .client c => (level_call c).bind fun _ => .pure _
  | .event kind => by
    have hsnapshot : Level access false (observerSnapshot (ν := ν) kind) :=
      level_locked _ ((Level.perform rfl rfl).bind fun last => level_copy last 0 [])
    exact (hsnapshot.bind fun observers => (level_callObservers kind observers).bind fun _ =>
      level_releaseObserverSnapshot observers).bind fun _ => .pure _

/-! ## What commutes -/

/-- What a statement does to the vector. -/
def vector (l : List (Option ν)) : Op ν → List (Option ν)
  | .pushBack n => l ++ [n]
  | .erase it => l.eraseIdx it
  | _ => l

/-- What it does to the references on `m`. -/
def delta (m : ν) : Op ν → ℤ
  | .addRef n => if n = some m then 1 else 0
  | .release n => if n = some m then -1 else 0
  | _ => 0

/-- Whether it goes through what is not there. -/
def astray (l : List (Option ν)) : Op ν → Bool
  | .deref it => decide (l.length ≤ it)
  | .erase it => decide (l.length ≤ it)
  | .addRef n => n.isNone
  | .release n => n.isNone
  | .enterCallback _ n => n.isNone
  | _ => false

omit [DecidableEq ν] in
theorem goTo_eq (k : Shared ν) (it : ℕ) :
    k.goTo it = { k with crashed := k.crashed || decide (k.notifications.length ≤ it) } := by
  by_cases h : it < k.notifications.length
  · simp [Shared.goTo, h, Nat.not_le.mpr h]
  · simp [Shared.goTo, h, Nat.not_lt.mp h]

/-- The three effects of a statement do not look at each other. -/
theorem next_eq (k : Shared ν) (o : Op ν) (x : o.Answer) :
    next k o x = ⟨vector k.notifications o, fun m => k.refs m + delta m o,
      k.crashed || astray k.notifications o⟩ := by
  cases o with
  | addRef n =>
    rcases n with _ | n
    · simp [next, Shared.addRef, vector, delta, astray]
    · simp only [next, Shared.addRef, vector, delta, astray, Option.some.injEq]
      congr 1
      · funext m
        by_cases hm : m = n
        · simp [hm]
        · simp [hm, Ne.symm hm]
      · simp
  | release n =>
    rcases n with _ | n
    · simp [next, Shared.releaseRef, vector, delta, astray]
    · simp only [next, Shared.releaseRef, vector, delta, astray, Option.some.injEq]
      congr 1
      · funext m
        by_cases hm : m = n
        · simp [hm, sub_eq_add_neg]
        · simp [hm, Ne.symm hm]
      · simp
  | enterCallback kind n =>
    rcases n with _ | n <;> simp [next, Shared.goThrough, vector, delta, astray]
  | deref it => simp [next, goTo_eq, vector, delta, astray]
  | erase it => simp [next, goTo_eq, vector, delta, astray]
  | _ => simp [next, vector, delta, astray]

omit [DecidableEq ν] in
/-- What needs no lock neither changes the vector nor looks at it. -/
theorem unlocked_spec {o : Op ν} (h : access o = .free ∨ access o = .outside) :
    (∀ l, vector l o = l) ∧ (∀ l l', astray l o = astray l' o) ∧ ∀ k x, may k o x := by
  cases o <;> simp [access, vector, astray, may] at h ⊢

omit [DecidableEq ν] in
/-- What a statement may answer depends on the vector alone. -/
theorem may_congr {k k' : Shared ν} (h : k.notifications = k'.notifications) {o : Op ν}
    {x : o.Answer} (hx : may k o x) : may k' o x := by
  cases o <;> simp only [may, h] at hx ⊢ <;> exact hx

/-- The threads around `_adminLock`. -/
abbrev threads : System (Entry ν) (Op ν) Op.Answer (Option HResult) (Shared ν) where
  machine := machine
  access := access
  body := body
  disciplined := level_body
  may_before := fun ho _ _ _ => (unlocked_spec ho).2.2 _ _
  may_after := fun {k o x e y} ho _ hy _ => by
    refine may_congr ?_ hy
    change k.notifications = (next k o x).notifications
    rw [next_eq, (unlocked_spec ho).1]
  next_comm := fun {k o x e y} ho _ => by
    change next (next k e y) o x = next (next k o x) e y
    obtain ⟨hvector, hastray, -⟩ := unlocked_spec ho
    simp only [next_eq, hvector, hastray _ k.notifications]
    congr 1
    · funext m
      rw [add_right_comm]
    · rw [Bool.or_right_comm]

/-- The answers of the statements, and of a callback that makes `calls`. -/
def answer (calls : List (ClientCall ν)) (k : Shared ν) : (o : Op ν) → o.Answer
  | .last => k.notifications.length
  | .deref it => (k.notifications[it]?).getD none
  | .enterCallback _ _ => calls
  | .lock => ()
  | .unlock _ => ()
  | .pushBack _ => ()
  | .erase _ => ()
  | .addRef _ => ()
  | .release _ => ()
  | .leaveCallback => ()

end Threaded

end RemoteControl
