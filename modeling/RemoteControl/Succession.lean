import Mathlib.Logic.Function.Basic
import RemoteControl.Restoration
import RemoteControl.Registration

/-!
# Succession: several instances in one process

`RemoteControl::Deinitialize` goes on when the implementation it releases still has
references, so the next activation may construct a second instance before the first
is destroyed. The instances share the static `_instance`, the registrations of
`remoteEventHandler` and the bus connection; each acts on them from its own counters
only.

* `ProcessStep` — constructions, `Configure` calls and destructions, in any order.
* `ConfigureRun.withdraws` — what a `Configure` takes away from the others: nothing,
  unless it fails after it has got hold of something.
* `newest_served` — as long as no older instance is destroyed, or fails that way, the
  newest one is served.
* `newest_cut_off` — destroying an older one cuts the newest off.
-/

namespace RemoteControl

open Interaction Runs

/-! ## The process -/

/-- One `RemoteControlImplementation` that has not been destroyed. -/
structure Object where
  /-- its members -/
  members : Members
  /-- the references it took on shells -/
  shells : Ledger Shell
  /-- its `Configure` returned `ERROR_NONE` -/
  configured : Bool

/-- What the instances of a process share, and who they are. -/
structure Process where
  /-- the instances that are alive -/
  objects : ImplId → Option Object
  /-- how many have been constructed: they are numbered in that order -/
  constructed : ℕ
  /-- the static `_instance` -/
  theInstance : Option ImplId
  /-- the bus, and everything said to it -/
  bus : Bus
  /-- how much had been said when the newest instance was configured -/
  mark : ℕ

namespace Process

/-- No instance yet. -/
def start (bus : Bus) : Process := ⟨fun _ => none, 0, none, bus, 0⟩

/-- What the instance `o` sees of the process. -/
def view (P : Process) (o : Object) : ImplState :=
  ⟨o.members, P.theInstance, P.bus, o.shells, false, false⟩

/-- The most recently constructed instance. -/
def IsNewest (P : Process) (self : ImplId) : Prop := P.constructed = self + 1

/-- The process after the constructor has left `s`. -/
def afterConstruct (P : Process) (s : ImplState) : Process where
  objects := Function.update P.objects P.constructed (some ⟨s.members, s.shells, false⟩)
  constructed := P.constructed + 1
  theInstance := s.theInstance
  bus := s.bus
  mark := P.mark

/-- The process after `Configure` of `self` has returned `r` and left `s`. -/
def afterConfigure (P : Process) (self : ImplId) (r : HResult) (s : ImplState) : Process where
  objects := Function.update P.objects self
    (some ⟨s.members, s.shells, decide (r = .errorNone)⟩)
  constructed := P.constructed
  theInstance := s.theInstance
  bus := s.bus
  mark := if P.constructed = self + 1 then s.bus.log.length else P.mark

/-- The process after the destructor of `self` has left `s`. -/
def afterDestroy (P : Process) (self : ImplId) (s : ImplState) : Process where
  objects := Function.update P.objects self none
  constructed := P.constructed
  theInstance := s.theInstance
  bus := s.bus
  mark := P.mark

theorem objects_afterConstruct (P : Process) (s : ImplState) (i : ImplId) :
    (P.afterConstruct s).objects i =
      if i = P.constructed then some ⟨s.members, s.shells, false⟩ else P.objects i :=
  Function.update_apply ..

theorem objects_afterConfigure (P : Process) (self : ImplId) (r : HResult) (s : ImplState)
    (i : ImplId) : (P.afterConfigure self r s).objects i =
      if i = self then some ⟨s.members, s.shells, decide (r = .errorNone)⟩ else P.objects i :=
  Function.update_apply ..

theorem objects_afterDestroy (P : Process) (self : ImplId) (s : ImplState) (i : ImplId) :
    (P.afterDestroy self s).objects i = if i = self then none else P.objects i :=
  Function.update_apply ..

/-- The instance a ctrlm event arriving now is handed to: `remoteEventHandler` runs if
it is registered, and passes on to `_instance`. -/
def receiver (P : Process) (event : RcuEvent) : Option ImplId :=
  if event ∈ P.bus.handlers then P.theInstance else none

end Process

/-- What happens to the instances, with what was said to the bus. -/
inductive ProcessEvent where
  /-- an instance is constructed -/
  | construct (self : ImplId)
  /-- `Configure` of an instance returns -/
  | configure (self : ImplId) (r : HResult) (said : List BusEvent)
  /-- an instance is destroyed -/
  | destroy (self : ImplId)
  deriving DecidableEq

/-- One construction, `Configure` call or destruction, on any answers of the bus. -/
inductive ProcessStep : Process → ProcessEvent → Process → Prop where
  /-- the next instance; its members were never set before -/
  | construct {P : Process} {m : Members} {s : ImplState} :
      (implMachine fun _ => True).Exec (constructor P.constructed)
        ⟨m, P.theInstance, P.bus, .blank, false, false⟩ () s →
      ProcessStep P (.construct P.constructed)
        (P.afterConstruct s)
  /-- `Configure`, called only while `_service` is null -/
  | configure {P : Process} {self : ImplId} {o : Object} {service : Shell} {r : HResult}
      {s : ImplState} : P.objects self = some o → o.members.service = none →
      (implMachine fun _ => True).Exec (configure service) (P.view o) r s →
      ProcessStep P (.configure self r (s.bus.log.drop P.bus.log.length))
        (P.afterConfigure self r s)
  /-- the destructor -/
  | destroy {P : Process} {self : ImplId} {o : Object} {s : ImplState} :
      P.objects self = some o →
      (implMachine fun _ => True).Exec destructor (P.view o) () s →
      ProcessStep P (.destroy self) (P.afterDestroy self s)

/-! ## What is taken away -/

/-- The calls that take something away from everybody in the process. -/
def BusEvent.withdraws : BusEvent → Bool
  | .disconnect _ => true
  | .term _ => true
  | .removeEventHandler _ _ => true
  | _ => false

theorem BusEvent.withdraws_of_connects {e : BusEvent} (h : e.connects = true) :
    e.withdraws = false := by
  cases e with
  | init _ => rfl
  | connect _ => rfl
  | isConnected _ => rfl
  | _ => cases h

/-- Without removals, whatever is registered stays registered. -/
theorem Bus.handlers_after_subset {l : List BusEvent} (h : ∀ e ∈ l, e.withdraws = false) :
    ∀ b : Bus, b.handlers ⊆ (b.after l).handlers := by
  induction l with
  | nil => exact fun b => List.Subset.refl _
  | cons e l ih =>
    intro b
    obtain ⟨he, hl⟩ := List.forall_mem_cons.mp h
    refine List.Subset.trans ?_ (ih hl (b.next e))
    cases e with
    | init res => cases res <;> exact List.Subset.refl _
    | connect res => cases res <;> exact List.Subset.refl _
    | isConnected v => exact List.Subset.refl _
    | registerEventHandler event res =>
      cases res with
      | success =>
        by_cases hmem : event ∈ b.handlers
        · simp [Bus.next, Bus.effect, hmem]
        · simp [Bus.next, Bus.effect, hmem]
      | _ => exact List.Subset.refl _
    | _ => cases he

/-- A registration that goes through registers all it was asked for. -/
theorem RegisterRun.registers {m m' : Members} {es : List RcuEvent} {l : List BusEvent}
    {r : Bool} (h : RegisterRun m es r m' l) (hr : r = true) :
    (∀ e ∈ l, e.withdraws = false) ∧ ∀ b : Bus, es ⊆ (b.after l).handlers := by
  induction h with
  | done => exact ⟨nofun, fun _ => List.nil_subset _⟩
  | @accepted m m' event es r l _ ih =>
    obtain ⟨hno, hreg⟩ := ih hr
    refine ⟨List.forall_mem_cons.mpr ⟨rfl, hno⟩, fun b => List.cons_subset.mpr ⟨?_, hreg _⟩⟩
    apply Bus.handlers_after_subset hno _
    by_cases hmem : event ∈ b.handlers
    · simp [Bus.next, Bus.effect, hmem]
    · simp [Bus.next, Bus.effect, hmem]
  | refused _ _ => cases hr

theorem InitRun.opening_keeps {v : ℤ} {r : Bool} {l : List BusEvent} (h : InitRun r l) :
    ∀ e ∈ .isConnected v :: l, e.withdraws = false :=
  List.forall_mem_cons.mpr ⟨rfl, fun e he => BusEvent.withdraws_of_connects (h.connects e he)⟩

theorem InitializeRun.registers {m m' : Members} {l : List BusEvent}
    (h : InitializeRun m true m' l) :
    (∀ e ∈ l, e.withdraws = false) ∧ ∀ b : Bus, registrationOrder ⊆ (b.after l).handlers := by
  cases h with
  | registered hinit hrun =>
    obtain ⟨hno, hreg⟩ := hrun.registers rfl
    refine ⟨fun e he => ?_, fun b => ?_⟩
    · rcases List.mem_append.mp he with he | he
      · exact hinit.opening_keeps e he
      · exact hno e he
    · rw [Bus.after_append]
      exact hreg _

/-- A successful `Configure` takes nothing away and registers everything. -/
theorem ConfigureRun.registers {m m' : Members} {l : List BusEvent}
    (h : ConfigureRun m .errorNone m' l) :
    (∀ e ∈ l, e.withdraws = false) ∧ ∀ b : Bus, registrationOrder ⊆ (b.after l).handlers := by
  cases h with
  | configured hrun =>
    obtain ⟨hno, hreg⟩ := hrun.registers
    refine ⟨fun e he => ?_, fun b => ?_⟩
    · rcases List.mem_append.mp he with he | he
      · exact hno e he
      · obtain rfl := List.mem_singleton.mp he
        rfl
    · rw [Bus.after_append]
      exact hreg b

/-- A `Configure` that got hold of nothing: no registration was accepted, and if any
was tried, the process was connected already. -/
def Harmless (said : List BusEvent) : Prop :=
  (∀ event, .registerEventHandler event .success ∉ said) ∧
    (said.head? = some (.isConnected 1) ∨ ∀ event res, .registerEventHandler event res ∉ said)

/-- The first registration decides: if it is not accepted, the rollback finds nothing
to take away. -/
theorem RegisterRun.harmless {m m' : Members} {r : Bool} {l : List BusEvent}
    (h : RegisterRun m registrationOrder r m' l) (hzero : m.handlersRegistered = 0)
    (hshared : m.hasOwnProcess = false) (hno : ∀ event, .registerEventHandler event .success ∉ l) :
    ∀ e ∈ l, e.withdraws = false := by
  cases h with
  | accepted _ => exact absurd (List.mem_cons_self ..) (hno .rcuStatus)
  | refused _ hrun =>
    cases hrun with
    | shared _ hl =>
      rw [Members.removals, hzero] at hl
      cases hl with
      | nil =>
        intro e he
        obtain rfl := List.mem_singleton.mp he
        rfl
    | own hown _ => exact absurd (hown.symm.trans hshared) (by simp)

theorem RegisterRun.tries {m m' : Members} {r : Bool} {l : List BusEvent}
    (h : RegisterRun m registrationOrder r m' l) :
    ∃ event res, .registerEventHandler event res ∈ l ∧ (r = true → res = .success) := by
  cases h with
  | accepted _ => exact ⟨_, _, List.mem_cons_self .., fun _ => rfl⟩
  | refused _ _ => exact ⟨_, _, List.mem_cons_self .., nofun⟩

/-- **A failing `Configure` that got hold of nothing takes nothing away.** -/
theorem ConfigureRun.harmless {m m' : Members} {r : HResult} {l : List BusEvent}
    (h : ConfigureRun m r m' l) (hr : r ≠ .errorNone) (hzero : m.handlersRegistered = 0)
    (hl : Harmless l) : ∀ e ∈ l, e.withdraws = false := by
  obtain ⟨hno, htried⟩ := hl
  cases h with
  | notInitialised hrun =>
    cases hrun with
    | failed hinit => exact hinit.opening_keeps
    | @registered v li lr _ m' hinit hrun =>
      obtain ⟨event, res, hmem, -⟩ := hrun.tries
      have hv : v = 1 := by
        rcases htried with hhead | hnone
        · exact BusEvent.isConnected.inj (Option.some.inj hhead)
        · exact absurd (List.mem_append_right _ hmem) (hnone event res)
      have hrest := hrun.harmless hzero (by simp [hv]) fun event hmem =>
        hno event (List.mem_append_right _ hmem)
      exact fun e he => (List.mem_append.mp he).elim (hinit.opening_keeps e) (hrest e)
  | notConnected hrun _ _ =>
    cases hrun with
    | registered _ hrun =>
      -- all registrations were accepted
      obtain ⟨event, res, hmem, hok⟩ := hrun.tries
      obtain rfl := hok rfl
      exact absurd (List.mem_append_left _ (List.mem_append_right _ hmem)) (hno event)
  | configured _ => exact absurd rfl hr

/-! ## The order that keeps the newest instance served -/

namespace Process

/-- The newest instance is alive. -/
def NewestAlive (P : Process) : Prop :=
  ∃ i o, P.IsNewest i ∧ P.objects i = some o

/-- The newest instance is alive, and its `Configure` returned `ERROR_NONE`. -/
def NewestConfigured (P : Process) : Prop :=
  ∃ i o, P.IsNewest i ∧ P.objects i = some o ∧ o.configured = true

/-- While the newest instance is alive, no older one is destroyed; and once it is
configured, no older one fails in `Configure` after it has got hold of something. -/
def Orderly (P : Process) : ProcessEvent → Prop
  | .construct _ => True
  | .configure self r said =>
    P.NewestConfigured → P.IsNewest self ∨ r = .errorNone ∨ Harmless said
  | .destroy self => P.NewestAlive → P.IsNewest self

/-- If the newest instance is alive and configured, then `_instance` points to it, all
five events are registered and come to it, and nothing has taken the connection down
since. -/
def NewestServed (P : Process) : Prop :=
  ∀ i o, P.IsNewest i → P.objects i = some o → o.configured = true →
    P.theInstance = some i ∧
    (∀ event ∈ registrationOrder, event ∈ P.bus.handlers ∧ P.receiver event = some i) ∧
    ∀ e ∈ P.bus.log.drop P.mark, (∀ res, e ≠ .disconnect res) ∧ ∀ res, e ≠ .term res

/-- The invariant behind it. -/
structure Tidy (P : Process) : Prop where
  /-- instances are numbered in order of construction -/
  fresh : ∀ i, P.constructed ≤ i → P.objects i = none
  /-- every instance is between two calls -/
  rested : ∀ i o, P.objects i = some o → o.members.handlersRegistered ≤ 5 ∧
    (o.members.service = none → o.members.handlersRegistered = 0)
  /-- the newest instance is the one pointed to -/
  pointer : ∀ i o, P.IsNewest i → P.objects i = some o → P.theInstance = some i
  /-- the mark lies in the past -/
  marked : P.mark ≤ P.bus.log.length
  /-- since the newest instance was configured, nothing has been taken away -/
  served : ∀ i o, P.IsNewest i → P.objects i = some o → o.configured = true →
    registrationOrder ⊆ P.bus.handlers ∧ ∀ e ∈ P.bus.log.drop P.mark, e.withdraws = false

theorem Tidy.newestServed {P : Process} (h : P.Tidy) : P.NewestServed := by
  intro i o hnew ho hconf
  obtain ⟨hhandlers, hsince⟩ := h.served i o hnew ho hconf
  have hpointer := h.pointer i o hnew ho
  refine ⟨hpointer, fun event he => ⟨hhandlers he, ?_⟩, fun e he => ⟨?_, ?_⟩⟩
  · rw [receiver, if_pos (hhandlers he), hpointer]
  · rintro res rfl
    exact absurd (hsince _ he) nofun
  · rintro res rfl
    exact absurd (hsince _ he) nofun

theorem tidy_start (bus : Bus) : (start bus).Tidy :=
  ⟨fun _ _ => rfl, nofun, nofun, Nat.zero_le _, nofun⟩

theorem IsNewest.unique {P : Process} {i j : ImplId} (hi : P.IsNewest i) (hj : P.IsNewest j) :
    i = j :=
  Nat.succ.inj (hi.symm.trans hj)

/-- The mark stays in the past when more is said. -/
theorem Tidy.marked_of_log {P : Process} {b : Bus} {l : List BusEvent} (h : P.Tidy)
    (hlog : b.log = P.bus.log ++ l) : P.mark ≤ b.log.length := by
  have hmark := h.marked
  rw [hlog, List.length_append]
  omega

/-- While the newest instance is configured, an orderly `Configure` of another one takes
nothing away. -/
theorem Orderly.keeps {P : Process} {self i : ImplId} {o : Object} {m m' : Members} {r : HResult}
    {l : List BusEvent} (h : P.Orderly (.configure self r l)) (hnew : P.IsNewest i)
    (ho : P.objects i = some o) (hconf : o.configured = true) (hi : i ≠ self)
    (hrun : ConfigureRun m r m' l) (hzero : m.handlersRegistered = 0) :
    ∀ e ∈ l, e.withdraws = false := by
  have hsuccess : r = .errorNone → ∀ e ∈ l, e.withdraws = false := by
    rintro rfl
    exact hrun.registers.1
  rcases h ⟨i, o, hnew, ho, hconf⟩ with hself | hr | hharmless
  · exact absurd (hnew.unique hself) hi
  · exact hsuccess hr
  · by_cases hr : r = .errorNone
    · exact hsuccess hr
    · exact hrun.harmless hr hzero hharmless

theorem Tidy.construct {P : Process} {m : Members} {s : ImplState} (h : P.Tidy)
    (hexec : (implMachine fun _ => True).Exec (constructor P.constructed)
      ⟨m, P.theInstance, P.bus, .blank, false, false⟩ () s) :
    (P.afterConstruct s).Tidy := by
  obtain rfl : s = ⟨.constructed, some P.constructed, P.bus, .blank, false, false⟩ := by
    refine hexec.sound (G := fun _ _ => True) (Q := fun _ s => s = _) ?_
    simp [constructor]
  refine ⟨fun i hi => ?_, fun i o ho => ?_, fun i o hnew _ => ?_, h.marked,
    fun i o hnew ho hconf => ?_⟩
  · have hi : P.constructed + 1 ≤ i := hi
    have hne : i ≠ P.constructed := by omega
    rw [objects_afterConstruct, if_neg hne]
    exact h.fresh i (by omega)
  · rw [objects_afterConstruct] at ho
    by_cases hi : i = P.constructed
    · rw [if_pos hi] at ho
      obtain rfl := Option.some.inj ho
      exact ⟨Nat.zero_le 5, fun _ => rfl⟩
    · rw [if_neg hi] at ho
      exact h.rested i o ho
  · obtain rfl : P.constructed = i := Nat.succ.inj hnew
    rfl
  · have hi : i = P.constructed := (Nat.succ.inj hnew).symm
    rw [objects_afterConstruct, if_pos hi] at ho
    obtain rfl := Option.some.inj ho
    cases hconf

theorem Tidy.configure {P : Process} {self : ImplId} {o : Object} {service : Shell} {r : HResult}
    {s : ImplState} (h : P.Tidy) (ho : P.objects self = some o)
    (hservice : o.members.service = none)
    (hexec : (implMachine fun _ => True).Exec (configure service) (P.view o) r s)
    (ha : P.Orderly (.configure self r (s.bus.log.drop P.bus.log.length))) :
    (P.afterConfigure self r s).Tidy := by
  obtain ⟨hle, hzero⟩ := h.rested self o ho
  obtain ⟨m, l, hrun, -, hs, -⟩ := hexec.sound
    (wlp_configure admits_true hle (hzero hservice) fun _ _ _ => ⟨trivial, hle⟩)
  have hbus : s.bus = P.bus.after l := by rw [hs]; rfl
  have hmembers : s.members = m := by rw [hs]; rfl
  have hinstance : s.theInstance = P.theInstance := by rw [hs]; rfl
  have hlog : s.bus.log = P.bus.log ++ l := by rw [hbus, Bus.log_after]
  have hself : (P.afterConfigure self r s).objects self =
      some ⟨s.members, s.shells, decide (r = .errorNone)⟩ := by
    rw [objects_afterConfigure, if_pos rfl]
  have hothers : ∀ i, i ≠ self → (P.afterConfigure self r s).objects i = P.objects i :=
    fun i hi => by rw [objects_afterConfigure, if_neg hi]
  refine ⟨fun i hi => ?_, fun i o' ho' => ?_, fun i o' hnew ho' => ?_, ?_,
    fun i o' hnew ho' hconf => ?_⟩
  · have hne : i ≠ self := by
      rintro rfl
      exact absurd (ho.symm.trans (h.fresh i hi)) nofun
    exact (hothers i hne).trans (h.fresh i hi)
  · by_cases hi : i = self
    · subst hi
      obtain rfl := Option.some.inj (hself.symm.trans ho')
      rcases hrun.outcome (b := ⟨false, false, [], []⟩) (hzero hservice) rfl with
        ⟨-, hserving, hcount, -⟩ | ⟨-, rfl, -⟩
      · exact ⟨by rw [hmembers, hcount], fun hnone => by
          rw [hmembers, hserving] at hnone
          cases hnone⟩
      · rw [hmembers]
        exact ⟨Nat.zero_le 5, fun _ => rfl⟩
    · exact h.rested i o' ((hothers i hi).symm.trans ho')
  · apply hinstance.trans
    by_cases hi : i = self
    · subst hi
      exact h.pointer i o hnew ho
    · exact h.pointer i o' hnew ((hothers i hi).symm.trans ho')
  · by_cases hnew : P.constructed = self + 1
    · rw [afterConfigure, if_pos hnew]
    · rw [afterConfigure, if_neg hnew]
      exact h.marked_of_log hlog
  · have hnew : P.IsNewest i := hnew
    by_cases hi : i = self
    -- the newest instance itself: it has just registered everything
    · subst hi
      obtain rfl := Option.some.inj (hself.symm.trans ho')
      obtain rfl : r = .errorNone := by simpa using hconf
      refine ⟨?_, fun e he => ?_⟩
      · rw [show (P.afterConfigure i .errorNone s).bus = P.bus.after l from hbus]
        exact hrun.registers.2 P.bus
      · rw [afterConfigure, if_pos (show P.constructed = i + 1 from hnew), List.drop_length] at he
        cases he
    -- an older one: it takes nothing away
    · have ho'' := (hothers i hi).symm.trans ho'
      have hsaid : s.bus.log.drop P.bus.log.length = l := by rw [hlog, List.drop_left]
      have hkeeps : ∀ e ∈ l, e.withdraws = false :=
        Orderly.keeps (hsaid ▸ ha) hnew ho'' hconf hi hrun (hzero hservice)
      obtain ⟨hhandlers, hsince⟩ := h.served i o' hnew ho'' hconf
      have hold : P.constructed ≠ self + 1 := fun hold => hi (hnew.unique hold)
      refine ⟨?_, fun e he => ?_⟩
      · rw [show (P.afterConfigure self r s).bus = P.bus.after l from hbus]
        exact List.Subset.trans hhandlers (Bus.handlers_after_subset hkeeps P.bus)
      · rw [afterConfigure, if_neg hold, hlog, List.drop_append_of_le_length h.marked] at he
        exact (List.mem_append.mp he).elim (hsince e) (hkeeps e)

theorem Tidy.destroy {P : Process} {self : ImplId} {o : Object} {s : ImplState} (h : P.Tidy)
    (ho : P.objects self = some o)
    (hexec : (implMachine fun _ => True).Exec destructor (P.view o) () s)
    (ha : P.Orderly (.destroy self)) : (P.afterDestroy self s).Tidy := by
  obtain ⟨l, -, -, hs⟩ := hexec.sound (wlp_destructor admits_true.quiet trivial
    (admits_true.tearing _ (h.rested self o ho).1) fun _ _ => trivial)
  have hlog : s.bus.log = P.bus.log ++ l := by
    rw [hs]
    exact Bus.log_after P.bus l
  have hobjects : ∀ i o', (P.afterDestroy self s).objects i = some o' →
      i ≠ self ∧ P.objects i = some o' := by
    intro i o' ho'
    rw [objects_afterDestroy] at ho'
    by_cases hi : i = self
    · rw [if_pos hi] at ho'
      cases ho'
    · rw [if_neg hi] at ho'
      exact ⟨hi, ho'⟩
  -- no newest instance is left
  have hnone : ∀ i o', P.IsNewest i → (P.afterDestroy self s).objects i = some o' → False := by
    intro i o' hnew ho'
    obtain ⟨hi, ho''⟩ := hobjects i o' ho'
    exact hi (hnew.unique (ha ⟨i, o', hnew, ho''⟩))
  refine ⟨fun i hi => ?_, fun i o' ho' => ?_, fun i o' hnew ho' => (hnone i o' hnew ho').elim, ?_,
    fun i o' hnew ho' _ => (hnone i o' hnew ho').elim⟩
  · have hne : i ≠ self := by
      rintro rfl
      exact absurd (ho.symm.trans (h.fresh i hi)) nofun
    rw [objects_afterDestroy, if_neg hne]
    exact h.fresh i hi
  · exact h.rested i o' (hobjects i o' ho').2
  · exact h.marked_of_log hlog

/-- **One step.** -/
theorem Tidy.step {P Q : Process} {a : ProcessEvent} (h : P.Tidy) (ha : P.Orderly a)
    (hstep : ProcessStep P a Q) : Q.Tidy := by
  cases hstep with
  | construct hexec => exact h.construct hexec
  | configure ho hservice hexec => exact h.configure ho hservice hexec ha
  | destroy ho hexec => exact h.destroy ho hexec ha

end Process

open Process in
/-- **Succession.** In every run of constructions, `Configure` calls and destructions
whose steps are all orderly, the newest instance is served in every state. -/
theorem newest_served {bus : Bus} {P : Process} {tr : List (Process × ProcessEvent)}
    (h : Run ProcessStep (start bus) tr P) (horderly : ∀ p ∈ tr, Orderly p.1 p.2) :
    P.NewestServed ∧ ∀ p ∈ tr, p.1.NewestServed := by
  obtain ⟨hend, hall⟩ := Run.guarded (C := Orderly) (I := Tidy)
    (fun _ _ _ hs ha hstep => hs.step ha hstep) h (tidy_start bus) horderly
  exact ⟨hend.newestServed, fun p hp => (hall p hp).newestServed⟩

/-! ## Schedules -/

/-- What is done next to the instances. -/
inductive ProcessMove where
  /-- construct one -/
  | construct
  /-- call `Configure` of one -/
  | configure (self : ImplId) (service : Shell)
  /-- destroy one -/
  | destroy (self : ImplId)
  deriving DecidableEq

/-- Play a program on a given bus. -/
def playOn {α : Type} (reply : Bus → (c : BusCall) → c.Answer) (p : ImplM α) (s : ImplState) :
    α × ImplState :=
  (implMachine fun _ => True).play (replying reply) p s

theorem exec_playOn {α : Type} (reply : Bus → (c : BusCall) → c.Answer) (p : ImplM α)
    (s : ImplState) : (implMachine fun _ => True).Exec p s (playOn reply p s).1
      (playOn reply p s).2 :=
  (implMachine fun _ => True).exec_play (may_replying fun _ _ => trivial) p s

/-- Carry out one move on a given bus. -/
def Process.advance (reply : Bus → (c : BusCall) → c.Answer) (P : Process) :
    ProcessMove → Option (ProcessEvent × Process)
  | .construct =>
    let (_, s) := playOn reply (constructor P.constructed)
      ⟨.constructed, P.theInstance, P.bus, .blank, false, false⟩
    some (.construct P.constructed, P.afterConstruct s)
  | .configure self service =>
    match P.objects self with
    | some o =>
      if o.members.service = none then
        let (r, s) := playOn reply (RemoteControl.configure service) (P.view o)
        some (.configure self r (s.bus.log.drop P.bus.log.length), P.afterConfigure self r s)
      else none
    | none => none
  | .destroy self =>
    match P.objects self with
    | some o =>
      let (_, s) := playOn reply destructor (P.view o)
      some (.destroy self, P.afterDestroy self s)
    | none => none

theorem Process.step_of_advance {reply : Bus → (c : BusCall) → c.Answer} {P Q : Process}
    {m : ProcessMove} {a : ProcessEvent} (h : P.advance reply m = some (a, Q)) :
    ProcessStep P a Q := by
  cases m with
  | construct =>
    obtain ⟨rfl, rfl⟩ := Prod.mk.inj (Option.some.inj h)
    exact .construct (exec_playOn reply _ _)
  | configure self service =>
    simp only [advance] at h
    rcases ho : P.objects self with _ | o <;> rw [ho] at h
    · cases h
    · simp only [Option.ite_none_right_eq_some, Option.some.injEq, Prod.mk.injEq] at h
      obtain ⟨hservice, rfl, rfl⟩ := h
      exact .configure ho hservice (exec_playOn reply _ _)
  | destroy self =>
    simp only [advance] at h
    rcases ho : P.objects self with _ | o <;> rw [ho] at h
    · cases h
    · simp only [Option.some.injEq, Prod.mk.injEq] at h
      obtain ⟨rfl, rfl⟩ := h
      exact .destroy ho (exec_playOn reply _ _)

theorem Process.run_of_follow {reply : Bus → (c : BusCall) → c.Answer} {P Q : Process}
    {ms : List ProcessMove} {tr : List (Process × ProcessEvent)}
    (h : follow (Process.advance reply) P ms = some (tr, Q)) : Run ProcessStep P tr Q := by
  refine Run.of_follow (fun _ _ _ _ hm => ?_) h
  exact step_of_advance hm

/-- Two instances whose lifetimes overlap. -/
def overlap : List ProcessMove := [.construct, .configure 0 7, .construct, .configure 1 7]

/-- As long as the older one stays, the newest one is served. -/
theorem newest_served_overlap :
    ∃ tr P, follow (Process.advance obliging) (.start .blank) overlap = some (tr, P) ∧
      P.receiver .validationStatus = some 1 := by
  obtain ⟨⟨tr, P⟩, hfollow⟩ : ∃ p, follow (Process.advance obliging) (.start .blank) overlap =
      some p := ⟨_, rfl⟩
  have horderly : ∀ p ∈ tr, p.1.Orderly p.2 := by
    obtain ⟨rfl, -⟩ := Prod.mk.inj (Option.some.inj hfollow)
    rintro p hp
    simp only [List.mem_cons, List.not_mem_nil, or_false] at hp
    rcases hp with rfl | rfl | rfl | rfl
    · trivial
    · exact fun _ => .inl rfl
    · trivial
    · exact fun _ => .inl rfl
  obtain ⟨hserved, -⟩ := newest_served (Process.run_of_follow hfollow) horderly
  refine ⟨tr, P, hfollow, ?_⟩
  obtain ⟨-, rfl⟩ := Prod.mk.inj (Option.some.inj hfollow)
  exact ((hserved 1 _ rfl rfl rfl).2.1 .validationStatus (by decide)).2

/-- The predecessor goes only after its successor is configured. -/
def lateDestruction : List ProcessMove := overlap ++ [.destroy 0]

/-- Then the newest instance is alive and configured, but `_instance` is null, nothing is
registered and the connection has been taken down. -/
theorem newest_cut_off :
    ∃ tr P o, Run ProcessStep (.start .blank) tr P ∧ P.IsNewest 1 ∧ P.objects 1 = some o ∧
      o.configured = true ∧ P.theInstance = none ∧ P.bus.handlers = [] ∧
      .disconnect .success ∈ P.bus.log.drop P.mark := by
  obtain ⟨⟨tr, P⟩, hfollow⟩ : ∃ p, follow (Process.advance obliging) (.start .blank)
      lateDestruction = some p := ⟨_, rfl⟩
  have hrun := Process.run_of_follow hfollow
  obtain ⟨-, rfl⟩ := Prod.mk.inj (Option.some.inj hfollow)
  refine ⟨tr, _, _, hrun, rfl, rfl, rfl, rfl, rfl, ?_⟩
  decide

end RemoteControl
