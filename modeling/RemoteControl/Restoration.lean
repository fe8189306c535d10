import RemoteControl.Lifecycle

/-!
# Restoration: is the bus left as it was found?

`Configure` may initialise and connect the IARM bus; a failing `Configure`, and
otherwise the destructor, is meant to take down exactly what was brought up. The
code decides by one flag, `_hasOwnProcess`, which is set from **two connection
checks**, not from what the bus was asked to do.

* `Keeps`, `Closes` — what a part of the dialogue does to the two facts `Bus.up`.
* `LifetimeRun.closes` — the dialogue of a whole life is a connecting part, which
  ends in a verdict, and the rest, which acts on that verdict alone.
* `bus_restored_iff` — the bus is restored exactly when the verdict fits.
-/

namespace RemoteControl

open Interaction

/-- What can be up on the bus: the initialisation and the connection. -/
def Bus.up (b : Bus) : Bool × Bool := (b.inited, b.connected)

/-- The bus library keeps its word when it is told to go down. -/
def BusEvent.goesDown : BusEvent → Prop
  | .disconnect res => res = .success
  | .term res => res = .success
  | _ => True

/-- Configure, and if that succeeds, some time later the destructor. -/
def lifetime (service : Shell) : ImplM HResult := do
  let result ← configure service
  if result = .errorNone then
    destructor
  return result

/-! ## The parts of the dialogue -/

/-- This part of the dialogue leaves the bus as it is. -/
def Keeps (l : List BusEvent) : Prop := ∀ b : Bus, (b.after l).up = b.up

/-- This part takes the bus down if `own`, and otherwise leaves it as it is. -/
def Closes (own : Bool) (l : List BusEvent) : Prop :=
  ∀ b : Bus, (b.after l).up = if own then (false, false) else b.up

theorem Keeps.append {l l' : List BusEvent} (h : Keeps l) (h' : Keeps l') : Keeps (l ++ l') :=
  fun b => by rw [Bus.after_append, h', h]

theorem Keeps.closes {own : Bool} {l l' : List BusEvent} (h : Keeps l) (h' : Closes own l') :
    Closes own (l ++ l') :=
  fun b => by rw [Bus.after_append, h', h]

theorem keeps_isConnected (v : ℤ) : Keeps [.isConnected v] := fun _ => rfl

theorem keeps_registerEventHandler (event : RcuEvent) (res : IarmResult) :
    Keeps [.registerEventHandler event res] := by
  intro b
  cases res with
  | success => by_cases h : event ∈ b.handlers <;> simp [Bus.next, Bus.effect, Bus.up, h]
  | _ => rfl

theorem RemoveRun.keeps {es : List RcuEvent} {l : List BusEvent} (h : RemoveRun es l) :
    Keeps l := by
  induction h with
  | nil => exact fun _ => rfl
  | cons _ ih => exact Keeps.append (l := [_]) (fun _ => rfl) ih

theorem DeinitRun.closes {m : Members} {l : List BusEvent} (h : DeinitRun m l)
    (hl : ∀ e ∈ l, e.goesDown) : Closes m.hasOwnProcess l := by
  cases h with
  | shared hshared hrun =>
    rw [hshared]
    exact hrun.keeps
  | @own l res res' hown hrun =>
    obtain rfl : res = .success := hl (.disconnect res) (by simp)
    obtain rfl : res' = .success := hl (.term res') (by simp)
    rw [hown]
    exact hrun.keeps.closes fun _ => rfl

/-- The registrations keep the bus up, or close it according to the flag. -/
theorem RegisterRun.up {m m' : Members} {es : List RcuEvent} {r : Bool} {l : List BusEvent}
    (h : RegisterRun m es r m' l) (hl : ∀ e ∈ l, e.goesDown) :
    (r = true → Keeps l ∧ m'.hasOwnProcess = m.hasOwnProcess) ∧
      (r = false → Closes m.hasOwnProcess l) := by
  induction h with
  | done => exact ⟨fun _ => ⟨fun _ => rfl, rfl⟩, nofun⟩
  | @accepted m m' event es r l _ ih =>
    obtain ⟨htrue, hfalse⟩ := ih fun e he => hl e (List.mem_cons_of_mem _ he)
    have hhead := keeps_registerEventHandler event .success
    exact ⟨fun hr => ⟨hhead.append (htrue hr).1, (htrue hr).2⟩,
      fun hr => hhead.closes (hfalse hr)⟩
  | @refused m event es res l _ hrun =>
    exact ⟨nofun, fun _ => (keeps_registerEventHandler event res).closes
      (hrun.closes fun e he => hl e (List.mem_cons_of_mem _ he))⟩

/-! ## The verdict -/

/-- The opening of a dialogue: what is said before the first registration. -/
def opening (l : List BusEvent) : List BusEvent := l.takeWhile BusEvent.connects

/-- The condition under which the bus `b` survives a life with the dialogue `l`.
`InitializeIARM` takes the process for its own when its first check finds no
connection and a later check of the opening does; then there must have been
nothing up before. Otherwise nothing is ever taken down, and then nothing may have
been brought up. -/
def Restorable (b : Bus) (l : List BusEvent) : Prop :=
  if (checks (opening l)).head? ≠ some 1 ∧ 1 ∈ (checks (opening l)).tail then
    b.up = (false, false)
  else
    (.init .success ∈ opening l → b.inited = true) ∧
      (.connect .success ∈ opening l → b.connected = true)

instance (b : Bus) (l : List BusEvent) : Decidable (Restorable b l) :=
  inferInstanceAs (Decidable (ite _ _ _))

/-- What connecting brings up. -/
theorem up_after_connects {l : List BusEvent} (h : ∀ e ∈ l, e.connects = true) : ∀ b : Bus,
    ((b.after l).inited = true ↔ b.inited = true ∨ .init .success ∈ l) ∧
      ((b.after l).connected = true ↔ b.connected = true ∨ .connect .success ∈ l) := by
  induction l with
  | nil => simp
  | cons e l ih =>
    intro b
    obtain ⟨he, hl⟩ := List.forall_mem_cons.mp h
    obtain ⟨hinited, hconnected⟩ := ih hl (b.next e)
    rw [Bus.after_cons, hinited, hconnected]
    cases e with
    | init res => cases res <;> simp [Bus.next, Bus.effect]
    | connect res => cases res <;> simp [Bus.next, Bus.effect]
    | isConnected v => simp [Bus.next, Bus.effect]
    | _ => cases he

/-- The rest of a dialogue begins with a registration. -/
def Registers (l : List BusEvent) : Prop :=
  ∃ event res rest, l = .registerEventHandler event res :: rest

/-- A dialogue of `InitializeIARM` is an opening, which ends in the verdict `own`,
and a rest that acts on it. -/
inductive Opened (own : Bool) (l rest : List BusEvent) : Prop where
  /-- `l` is what `InitializeIARM` and `init` say before the first registration -/
  | mk {v : ℤ} {li : List BusEvent} {r : Bool} : InitRun r li → own = (r && !decide (v = 1)) →
      l = .isConnected v :: li ++ rest → (rest = [] ∨ Registers rest) → Opened own l rest

theorem InitializeRun.opened {m m' : Members} {r : Bool} {l : List BusEvent}
    (h : InitializeRun m r m' l) (hl : ∀ e ∈ l, e.goesDown) :
    ∃ own rest, Opened own l rest ∧ (r = true → Registers rest ∧ Keeps rest ∧
      m'.hasOwnProcess = own) ∧ (r = false → Closes own rest) := by
  cases h with
  | @failed v li hinit =>
    exact ⟨false, [], .mk hinit rfl (List.append_nil _).symm (.inl rfl), nofun,
      fun _ _ => rfl⟩
  | @registered v li rest r m' hinit hrun =>
    obtain ⟨htrue, hfalse⟩ := hrun.up fun e he => hl e (List.mem_append_right _ he)
    have hreg : Registers rest := by
      cases hrun with
      | accepted _ => exact ⟨_, _, _, rfl⟩
      | refused _ _ => exact ⟨_, _, _, rfl⟩
    exact ⟨!decide (v = 1), rest, .mk hinit rfl rfl (.inr hreg),
      fun hr => ⟨hreg, (htrue hr).1, (htrue hr).2⟩, hfalse⟩

theorem Opened.append {own : Bool} {l rest l' : List BusEvent} (h : Opened own l rest)
    (hreg : Registers rest) : Opened own (l ++ l') (rest ++ l') := by
  obtain ⟨hinit, hown, rfl, -⟩ := h
  obtain ⟨event, res, more, rfl⟩ := hreg
  exact .mk hinit hown (List.append_assoc _ _ _) (.inr ⟨event, res, more ++ l', rfl⟩)

/-- What is said in a whole life. -/
inductive LifetimeRun (m : Members) : HResult → List BusEvent → Prop where
  /-- `Configure` fails -/
  | failed {m' : Members} {l : List BusEvent} : ConfigureRun m .errorGeneral m' l →
      LifetimeRun m .errorGeneral l
  /-- it succeeds, and the destructor runs -/
  | ended {m' : Members} {l l' : List BusEvent} : ConfigureRun m .errorNone m' l →
      DeinitRun m' l' → LifetimeRun m .errorNone (l ++ l')

/-- **The shape of a life**: an opening with its verdict, and a rest that closes the
bus according to the verdict. -/
theorem LifetimeRun.closes {m : Members} {r : HResult} {l : List BusEvent}
    (h : LifetimeRun m r l) (hl : ∀ e ∈ l, e.goesDown) :
    ∃ own rest, Opened own l rest ∧ Closes own rest := by
  cases h with
  | failed hconf =>
    cases hconf with
    | notInitialised hrun =>
      obtain ⟨own, rest, hopen, -, hfalse⟩ := hrun.opened hl
      exact ⟨own, rest, hopen, hfalse rfl⟩
    | @notConnected m' l l' v hrun hv hdeinit =>
      obtain ⟨own, rest, hopen, htrue, -⟩ := hrun.opened fun e he =>
        hl e (List.mem_append_left _ he)
      obtain ⟨hreg, hkeeps, rfl⟩ := htrue rfl
      refine ⟨_, _, hopen.append hreg, hkeeps.closes ?_⟩
      exact (keeps_isConnected v).closes (hdeinit.closes fun e he =>
        hl e (List.mem_append_right _ (List.mem_cons_of_mem _ he)))
  | @ended m' l l' hconf hdeinit =>
    cases hconf with
    | @configured m' l hrun =>
      obtain ⟨own, rest, hopen, htrue, -⟩ := hrun.opened fun e he =>
        hl e (List.mem_append_left _ (List.mem_append_left _ he))
      obtain ⟨hreg, hkeeps, rfl⟩ := htrue rfl
      rw [List.append_assoc] at hl ⊢
      refine ⟨_, _, hopen.append hreg, hkeeps.closes ?_⟩
      exact (keeps_isConnected 1).closes (hdeinit.closes fun e he =>
        hl e (List.mem_append_right _ (List.mem_append_right _ he)))

/-- The verdict decides: after the rest, the bus is as before exactly when the opening
was `Restorable`. -/
theorem Opened.restored_iff {own : Bool} {l rest : List BusEvent} {b : Bus}
    (h : Opened own l rest) (hcloses : Closes own rest) :
    (b.after l).up = b.up ↔ Restorable b l := by
  obtain ⟨hinit, hown, rfl, hrest⟩ := h
  rename_i v li r
  have hconnects : ∀ e ∈ .isConnected v :: li, e.connects = true :=
    List.forall_mem_cons.mpr ⟨rfl, hinit.connects⟩
  have hopening : opening (.isConnected v :: li ++ rest) = .isConnected v :: li := by
    rw [opening, List.takeWhile_append_of_pos hconnects]
    rcases hrest with rfl | ⟨event, res, more, rfl⟩
    · exact List.append_nil _
    · exact List.append_nil _
  have hverdict : own = true ↔
      (checks (.isConnected v :: li)).head? ≠ some 1 ∧
        1 ∈ (checks (.isConnected v :: li)).tail := by
    rw [show checks (.isConnected v :: li) = v :: checks li from rfl, List.head?_cons,
      List.tail_cons, ← hinit.verdict, hown]
    simp [and_comm]
  obtain ⟨hinited, hconnected⟩ := up_after_connects hconnects b
  rw [Restorable, hopening, Bus.after_append, hcloses]
  by_cases h : own = true
  · rw [if_pos h, if_pos (hverdict.mp h), eq_comm]
  · rw [if_neg h, if_neg fun hv => h (hverdict.mpr hv)]
    refine (Prod.mk.injEq _ _ _ _).to_iff.trans (and_congr ?_ ?_)
    · rw [Bool.eq_iff_iff, hinited, or_iff_left_iff_imp]
    · rw [Bool.eq_iff_iff, hconnected, or_iff_left_iff_imp]

/-! ## The theorem -/

theorem wlp_lifetime {answers : BusEvent → Prop} {s : ImplState} {service : Shell}
    (hs : s.members.handlersRegistered = 0) :
    (implMachine answers).wlp (fun _ _ => True) (lifetime service)
      (fun r s' => ∃ l, LifetimeRun (s.members.serving (some service)) r l ∧
        (∀ e ∈ l, answers e) ∧ s'.bus = s.bus.after l) s := by
  simp only [lifetime, Machine.wlp_bind]
  have hle : s.members.handlersRegistered ≤ 5 := hs ▸ Nat.zero_le 5
  refine Machine.wlp_post (wlp_configure admits_true hle hs fun _ _ _ => ⟨trivial, hle⟩) ?_
  rintro r s' ⟨m, l, hrun, hans, rfl, hbound⟩
  by_cases hr : r = .errorNone
  · subst hr
    simp only [if_true, Machine.wlp_bind, Machine.wlp_pure]
    refine Machine.wlp_post (wlp_destructor admits_true.quiet trivial
      (admits_true.tearing _ (hbound rfl)) fun _ _ => trivial) ?_
    rintro - s' ⟨l', hl', hans', rfl⟩
    refine ⟨l ++ l', .ended hrun hl', fun e he => (List.mem_append.mp he).elim (hans e) (hans' e),
      ?_⟩
    exact (Bus.after_append s.bus l l').symm
  · simp only [if_neg hr, Machine.wlp_pure]
    refine ⟨l, ?_, hans, rfl⟩
    cases hrun with
    | notInitialised h => exact .failed (.notInitialised h)
    | notConnected h hv hl => exact .failed (.notConnected h hv hl)
    | configured _ => exact absurd rfl hr

/-- **Restoration.** A life of an unconfigured instance, on a bus that goes down when
it is told to, leaves initialisation and connection as they were exactly when
`Restorable` holds of the bus before and the dialogue. -/
theorem bus_restored_iff {s s' : ImplState} {service : Shell} {r : HResult}
    (hs : s.members = .constructed)
    (h : (implMachine BusEvent.goesDown).Exec (lifetime service) s r s') :
    s'.bus.up = s.bus.up ↔ Restorable s.bus (s'.bus.log.drop s.bus.log.length) := by
  obtain ⟨l, hlife, hl, hbus⟩ := h.sound (wlp_lifetime (by rw [hs]; rfl))
  obtain ⟨own, rest, hopen, hcloses⟩ := hlife.closes hl
  have hlog : s'.bus.log.drop s.bus.log.length = l := by
    rw [hbus, Bus.log_after, List.drop_left]
  rw [hlog, hbus]
  exact hopen.restored_iff hcloses

/-- A bus that does what it is asked. -/
def obliging (b : Bus) : (c : BusCall) → c.Answer
  | .init => if b.inited then .invalidState else .success
  | .connect => if b.connected then .invalidState else .success
  | .isConnected => if b.connected then (1 : ℤ) else (0 : ℤ)
  | .disconnect => .success
  | .term => .success
  | .registerEventHandler _ => .success
  | .removeEventHandler _ => .success

/-- On that bus, when nothing is up before, a life leaves nothing up. -/
theorem bus_restored_iff_obliging :
    ∃ s s' : ImplState, s.bus.up = (false, false) ∧
      (implMachine BusEvent.goesDown).Exec (lifetime 1) s .errorNone s' ∧
      .connect .success ∈ s'.bus.log ∧ s'.bus.up = (false, false) := by
  have hmay : ∀ s o, (implMachine BusEvent.goesDown).may s o (replying obliging s o) :=
    may_replying fun _ c => by cases c <;> trivial
  have hexec := (implMachine BusEvent.goesDown).exec_play hmay (lifetime 1)
    (.new 0 ⟨false, false, [], []⟩)
  refine ⟨_, _, rfl, hexec, ?_, (bus_restored_iff rfl hexec).mpr ?_⟩
  · decide
  · decide

/-- A bus that can be initialised but not connected. -/
def connectFails (_ : Bus) : (c : BusCall) → c.Answer
  | .init => .success
  | .connect => .ipccoreFail
  | .isConnected => (0 : ℤ)
  | .disconnect => .success
  | .term => .success
  | .registerEventHandler _ => .success
  | .removeEventHandler _ => .success

/-- On that bus `Configure` fails after 21 attempts, and leaves the bus initialised. -/
theorem bus_left_initialised :
    ∃ s s' : ImplState, s.members = .constructed ∧ s.bus.up = (false, false) ∧
      (implMachine BusEvent.goesDown).Exec (configure 1) s .errorGeneral s' ∧
      s'.bus.up = (true, false) := by
  have hmay : ∀ s o, (implMachine BusEvent.goesDown).may s o (replying connectFails s o) :=
    may_replying fun _ c => by cases c <;> trivial
  have hexec := (implMachine BusEvent.goesDown).exec_play hmay (configure 1)
    (.new 0 ⟨false, false, [], []⟩)
  exact ⟨_, _, rfl, rfl, hexec, rfl⟩

end RemoteControl
