import RemoteControl.Dialogue

/-!
# Lifecycles: what `Configure` and the destructor do

The spec lemmas of the two entry points, over those of the parts.

* `RegisterRun`, `InitializeRun`, `ConfigureRun` — exactly the sequences of answered
  calls with which registration, `InitializeIARM` and `Configure` end in a given
  result and given members.
* `Admits G J` — what a side condition `G` and an invariant `J` of the states between
  bus calls have to satisfy, so that the lemmas apply. The registrations are where
  `J` earns its keep: it has to survive an accepted registration only together
  with the counter that records it.
* `wlp_configure`, `wlp_destructor` — the two entry points do nothing else.
-/

namespace RemoteControl

open Interaction

/-! ## The dialogues -/

/-- The registrations of a list of events from members `m`: the result, the members
and the dialogue they end with. -/
inductive RegisterRun : Members → List RcuEvent → Bool → Members → List BusEvent → Prop where
  /-- all are registered -/
  | done {m : Members} : RegisterRun m [] true m []
  /-- one is accepted -/
  | accepted {m m' : Members} {event : RcuEvent} {es : List RcuEvent} {r : Bool}
      {l : List BusEvent} : RegisterRun m.counted es r m' l →
      RegisterRun m (event :: es) r m' (.registerEventHandler event .success :: l)
  /-- one is refused, and all is rolled back -/
  | refused {m : Members} {event : RcuEvent} {es : List RcuEvent} {res : IarmResult}
      {l : List BusEvent} : res ≠ .success → DeinitRun m l →
      RegisterRun m (event :: es) false m.cleared (.registerEventHandler event res :: l)

/-- `InitializeIARM` from members `m`. -/
inductive InitializeRun (m : Members) : Bool → Members → List BusEvent → Prop where
  /-- `Utils::IARM::init` fails -/
  | failed {v : ℤ} {l : List BusEvent} : InitRun false l →
      InitializeRun m false (m.owning false) (.isConnected v :: l)
  /-- it succeeds, and the handlers are registered or rolled back -/
  | registered {v : ℤ} {l l' : List BusEvent} {r : Bool} {m' : Members} : InitRun true l →
      RegisterRun (m.owning !decide (v = 1)) registrationOrder r m' l' →
      InitializeRun m r m' (.isConnected v :: l ++ l')

/-- `Configure` from members `m`, which hold the service already. -/
inductive ConfigureRun (m : Members) : HResult → Members → List BusEvent → Prop where
  /-- `InitializeIARM` fails -/
  | notInitialised {m' : Members} {l : List BusEvent} : InitializeRun m false m' l →
      ConfigureRun m .errorGeneral (m'.serving none) l
  /-- the final check fails -/
  | notConnected {m' : Members} {l l' : List BusEvent} {v : ℤ} : InitializeRun m true m' l →
      v ≠ 1 → DeinitRun m' l' →
      ConfigureRun m .errorGeneral (m'.cleared.serving none) (l ++ .isConnected v :: l')
  /-- everything succeeds -/
  | configured {m' : Members} {l : List BusEvent} : InitializeRun m true m' l →
      ConfigureRun m .errorNone m' (l ++ [.isConnected 1])

/-! ## The rules -/

/-- The state after an accepted registration that has been counted. -/
def ImplState.counted (s : ImplState) (event : RcuEvent) : ImplState :=
  s.became s.members.counted [.registerEventHandler event .success]

/-- The invariant `J` of the states between bus calls supports the side condition
`G`. -/
structure Admits (G : ImplState → ImplOp → Prop) (J : ImplState → Prop) : Prop where
  /-- the side condition is about the bus -/
  quiet : ∀ s o, o.Quiet s → G s o
  /-- connecting is allowed -/
  asks : ∀ s, J s → G s (.bus .init) ∧ G s (.bus .connect) ∧ G s (.bus .isConnected)
  /-- connecting keeps the invariant -/
  connects : ∀ s e, J s → e.connects = true → J (s.after [e])
  /-- the next registration is allowed, and if counted keeps the invariant -/
  accepted : ∀ s e, J s → registrationOrder[s.members.handlersRegistered]? = some e →
    G s (.bus (.registerEventHandler e)) ∧ J (s.counted e)
  /-- a refused registration keeps the invariant -/
  refused : ∀ s e res, J s → res ≠ .success → J (s.after [.registerEventHandler e res])
  /-- tearing down is allowed -/
  tearing : ∀ s, J s → Tearing G s

section Rules

variable {answers : BusEvent → Prop} {G : ImplState → ImplOp → Prop} {J : ImplState → Prop}

theorem Admits.connects_all (h : Admits G J) : ∀ (l : List BusEvent) (s : ImplState), J s →
    (∀ e ∈ l, e.connects = true) → J (s.after l) := by
  intro l
  induction l with
  | nil => exact fun s hs _ => hs
  | cons e l ih =>
    intro s hs hl
    obtain ⟨he, hl⟩ := List.forall_mem_cons.mp hl
    rw [← List.singleton_append, ← ImplState.after_append]
    exact ih _ (h.connects s e hs he) hl

theorem Admits.connecting (h : Admits G J) {s : ImplState} (hs : J s) : Connecting G s where
  init := fun l hl => (h.asks _ (h.connects_all l s hs hl)).1
  connect := fun l hl => (h.asks _ (h.connects_all l s hs hl)).2.1
  isConnected := fun l hl => (h.asks _ (h.connects_all l s hs hl)).2.2
  usleep := fun _ _ => h.quiet _ _ trivial

/-- Without a side condition nothing is needed but the range of the counter. -/
theorem admits_true : Admits (fun _ _ => True) fun s => s.members.handlersRegistered ≤ 5 where
  quiet := fun _ _ _ => trivial
  asks := fun _ _ => ⟨trivial, trivial, trivial⟩
  connects := fun _ _ hs _ => hs
  accepted := fun _ _ _ he => ⟨trivial, (List.getElem?_eq_some_iff.mp he).1⟩
  refused := fun _ _ _ hs _ => hs
  tearing := fun _ hs => ⟨hs, fun _ _ _ _ _ _ => trivial, fun _ _ _ => trivial,
    fun _ _ _ _ => trivial⟩

/-- **Registration**: from the event the counter points at, to the end or to the
rollback. -/
theorem wlp_registerHandlers (h : Admits G J) : ∀ (es : List RcuEvent) (s : ImplState),
    es = registrationOrder.drop s.members.handlersRegistered → J s →
    (implMachine answers).wlp G (registerHandlers es)
      (fun r s' => ∃ m l, RegisterRun s.members es r m l ∧ (∀ e ∈ l, answers e) ∧
        s' = s.became m l ∧ (r = true → J s')) s := by
  intro es
  induction es with
  | nil => exact fun s _ hs => ⟨_, [], .done, by simp, rfl, fun _ => hs⟩
  | cons event es ih =>
    intro s hes hs
    have hnext : registrationOrder[s.members.handlersRegistered]? = some event := by
      rw [← List.head?_drop, ← hes, List.head?_cons]
    obtain ⟨hG, hcounted⟩ := h.accepted s event hs hnext
    simp only [registerHandlers, Machine.wlp_bind, wlp_iarmBusRegisterEventHandler]
    refine ⟨hG, fun res hres => ?_⟩
    by_cases hok : res = .success
    · subst hok
      simp only [if_true, Machine.wlp_bind, wlp_load, wlp_store]
      refine ⟨h.quiet _ _ trivial, h.quiet _ _ id, ?_⟩
      refine Machine.wlp_post (ih (s.counted event) ?_ hcounted) ?_
      · rw [show (s.counted event).members.handlersRegistered =
          s.members.handlersRegistered + 1 from rfl, ← List.tail_drop, ← hes, List.tail_cons]
      · rintro r s' ⟨m, l, hrun, hans, rfl, hJ⟩
        exact ⟨m, _, .accepted hrun, List.forall_mem_cons.mpr ⟨hres, hans⟩,
          s.became_became _ m [_] l, hJ⟩
    · simp only [if_neg hok, Machine.wlp_bind, Machine.wlp_pure]
      refine Machine.wlp_post (wlp_deinitializeIARM h.quiet
        (h.tearing _ (h.refused s event res hs hok))) ?_
      rintro - s' ⟨l, hl, hans, rfl⟩
      exact ⟨_, _, .refused hok hl, List.forall_mem_cons.mpr ⟨hres, hans⟩,
        s.after_became _ [_] l, by simp⟩

/-- **`InitializeIARM`.** Raising `_hasOwnProcess` has to be allowed after a
successful `init`. -/
theorem wlp_initializeIARM (h : Admits G J) {s : ImplState} (hs : J s)
    (hzero : s.members.handlersRegistered = 0)
    (hraise : ∀ v l, InitRun true l →
      G (s.after (.isConnected v :: l)) (.store (s.members.owning !decide (v = 1))) ∧
      J (s.became (s.members.owning !decide (v = 1)) (.isConnected v :: l))) :
    (implMachine answers).wlp G initializeIARM
      (fun r s' => ∃ m l, InitializeRun s.members r m l ∧ (∀ e ∈ l, answers e) ∧
        s' = s.became m l ∧ (r = true → J s')) s := by
  simp only [initializeIARM, Machine.wlp_bind, wlp_isConnected]
  refine ⟨(h.asks s hs).2.2, fun v hv => ?_⟩
  have hs' : J (s.after [.isConnected v]) := h.connects s _ hs rfl
  apply Machine.wlp_post (wlp_init (h.connecting hs'))
  rintro r s' ⟨l, hl, hans, rfl⟩
  rw [ImplState.after_append, List.singleton_append]
  have hall : ∀ e ∈ .isConnected v :: l, answers e := List.forall_mem_cons.mpr ⟨hv, hans⟩
  rcases r with _ | _
  · simp only [Bool.false_eq_true, if_false, Machine.wlp_bind, wlp_load, wlp_store,
      Machine.wlp_pure]
    exact ⟨h.quiet _ _ trivial, h.quiet _ _ (by simp [ImplOp.Quiet, Members.owning]), _, _,
      .failed hl, hall, rfl, by simp⟩
  · obtain ⟨hG, hJ⟩ := hraise v l hl
    simp only [if_true, Machine.wlp_bind, wlp_load, wlp_store, ImplState.members_after]
    refine ⟨h.quiet _ _ trivial, hG, ?_⟩
    refine Machine.wlp_post (wlp_registerHandlers h registrationOrder
      (s.became (s.members.owning !decide (v = 1)) (.isConnected v :: l)) ?_ hJ) ?_
    · simp [hzero]
    · rintro r s' ⟨m, l', hrun, hans', rfl, hJ'⟩
      refine ⟨m, _, .registered hl hrun, ?_, s.became_became _ m _ l', hJ'⟩
      exact fun e he => (List.mem_append.mp he).elim (hall e) (hans' e)

/-- The state after `_service->Release(); _service = nullptr;`. -/
def ImplState.dropped (s : ImplState) (service : Shell) : ImplState :=
  { s with members := s.members.serving none, shells := s.shells.give service }

theorem wlp_dropService {s : ImplState} {service : Shell} (hq : ∀ s o, o.Quiet s → G s o)
    (hs : s.members.service = some service) {Q : Unit → ImplState → Prop}
    (hQ : Q () (s.dropped service)) : (implMachine answers).wlp G dropService Q s := by
  have hnext : s.next .serviceRelease () = { s with shells := s.shells.give service } := by
    simp only [ImplState.next, hs]
  simp only [dropService, Machine.wlp_bind, wlp_serviceRelease, wlp_load, wlp_store, hnext]
  exact ⟨hq _ _ trivial, hq _ _ trivial, hq _ _ id, hQ⟩

/-- Neither `InitializeIARM` nor its parts touch `_service`. -/
theorem RegisterRun.service {m m' : Members} {es : List RcuEvent} {r : Bool}
    {l : List BusEvent} (h : RegisterRun m es r m' l) : m'.service = m.service := by
  induction h with
  | done => rfl
  | accepted _ ih => exact ih
  | refused _ _ => rfl

theorem InitializeRun.service {m m' : Members} {r : Bool} {l : List BusEvent}
    (h : InitializeRun m r m' l) : m'.service = m.service := by
  cases h with
  | failed _ => rfl
  | registered _ h => exact h.service

/-- The members and the shells when `InitializeIARM` is called. -/
def ImplState.serving (s : ImplState) (service : Shell) : ImplState :=
  { s with members := s.members.serving (some service), shells := s.shells.take service }

/-- The shells after a `Configure` that returned `r`. -/
def shellsAfter (shells : Ledger Shell) (service : Shell) : HResult → Ledger Shell
  | .errorNone => shells.take service
  | _ => (shells.take service).give service

/-- **`Configure`.** -/
theorem wlp_configure (h : Admits G J) {s : ImplState} {service : Shell}
    (hs : J (s.serving service)) (hzero : s.members.handlersRegistered = 0)
    (hraise : ∀ v l, InitRun true l →
      G ((s.serving service).after (.isConnected v :: l))
        (.store ((s.members.serving (some service)).owning !decide (v = 1))) ∧
      J ((s.serving service).became ((s.members.serving (some service)).owning !decide (v = 1))
        (.isConnected v :: l))) :
    (implMachine answers).wlp G (configure service)
      (fun r s' => ∃ m l, ConfigureRun (s.members.serving (some service)) r m l ∧
        (∀ e ∈ l, answers e) ∧
        s' = { s.became m l with shells := shellsAfter s.shells service r } ∧
        (r = .errorNone → J s')) s := by
  simp only [configure, Machine.wlp_bind, wlp_load, wlp_store, wlp_serviceAddRef]
  refine ⟨h.quiet _ _ trivial, h.quiet _ _ id, h.quiet _ _ trivial, ?_⟩
  apply Machine.wlp_post (wlp_initializeIARM h (s := s.serving service) hs hzero hraise)
  rintro r s' ⟨m, l, hrun, hans, rfl, hJ⟩
  have hservice : m.service = some service := hrun.service
  rcases r with _ | _
  · simp only [if_true, Machine.wlp_bind, Machine.wlp_pure]
    exact wlp_dropService h.quiet hservice ⟨_, l, .notInitialised hrun, hans, rfl, by simp⟩
  · simp only [Bool.true_eq_false, if_false, Machine.wlp_bind, wlp_isConnected]
    refine ⟨(h.asks _ (hJ rfl)).2.2, fun v hv => ?_⟩
    have hall : ∀ e ∈ l ++ [.isConnected v], answers e := fun e he =>
      (List.mem_append.mp he).elim (hans e) fun he => List.mem_singleton.mp he ▸ hv
    have hJ' := h.connects _ (.isConnected v) (hJ rfl) rfl
    rw [ImplState.became_after] at hJ' ⊢
    by_cases hv1 : v = 1
    · subst hv1
      simp only [decide_true, Bool.true_eq_false, if_false, Machine.wlp_pure]
      exact ⟨m, _, .configured hrun, hall, rfl, fun _ => hJ'⟩
    · simp only [hv1, decide_false, if_true, Machine.wlp_bind, Machine.wlp_pure]
      apply Machine.wlp_post (wlp_deinitializeIARM h.quiet (h.tearing _ hJ'))
      rintro - s' ⟨l', hl', hans', rfl⟩
      rw [ImplState.became_became, List.append_assoc, List.singleton_append]
      refine wlp_dropService h.quiet hservice
        ⟨_, _, .notConnected hrun hv1 hl', ?_, rfl, by simp⟩
      rw [List.append_cons]
      exact fun e he => (List.mem_append.mp he).elim (hall e) (hans' e)

/-- The shells after the destructor. -/
def shellsDestroyed (shells : Ledger Shell) : Option Shell → Ledger Shell
  | some service => shells.give service
  | none => shells

/-- What the destructor has left when it is through, after the dialogue `l`. -/
def ImplState.released (s : ImplState) (l : List BusEvent) : ImplState :=
  { s with
    members := s.members.cleared.serving none, theInstance := none, bus := s.bus.after l,
    shells := shellsDestroyed s.shells s.members.service }

/-- **The destructor.** -/
theorem wlp_destructor {s : ImplState} (hq : ∀ s o, o.Quiet s → G s o)
    (hset : G s (.setInstance none)) (h : Tearing G { s with theInstance := none })
    (hend : ∀ l, DeinitRun s.members l → G (s.released l) .endOfLifetime) :
    (implMachine answers).wlp G destructor
      (fun _ s' => ∃ l, DeinitRun s.members l ∧ (∀ e ∈ l, answers e) ∧
        s' = { s.released l with ended := true }) s := by
  simp only [destructor, Machine.wlp_bind, wlp_setInstance]
  refine ⟨hset, ?_⟩
  apply Machine.wlp_post (wlp_deinitializeIARM hq h)
  rintro - s' ⟨l, hl, hans, rfl⟩
  simp only [wlp_releaseObservers, wlp_load]
  refine ⟨hq _ _ trivial, hq _ _ trivial, ?_⟩
  by_cases hservice : s.members.service = none
  · have hnone : s.members.cleared.service = none := hservice
    have hlast : ({ s with theInstance := none } : ImplState).became s.members.cleared l =
        s.released l := by
      simp only [ImplState.became, ImplState.released, shellsDestroyed, hservice]
      rw [show s.members.cleared.serving none = s.members.cleared from
        Members.serving_of_eq hnone]
    have hgone : (s.released l).members.service = none := rfl
    simp only [hlast, hgone, ne_eq, not_true_eq_false, if_false, wlp_endOfLifetime]
    exact ⟨hend l hl, l, hl, hans, rfl⟩
  · obtain ⟨service, hsome⟩ := Option.ne_none_iff_exists'.mp hservice
    have hsome' : s.members.cleared.service = some service := hsome
    have hlast : (({ s with theInstance := none } : ImplState).became s.members.cleared l).dropped
        service = s.released l := by
      simp only [ImplState.became, ImplState.dropped, ImplState.released, shellsDestroyed, hsome]
    simp only [ImplState.members_became, hsome', ne_eq, reduceCtorEq, not_false_eq_true, if_true,
      Machine.wlp_bind]
    refine wlp_dropService (s := ({ s with theInstance := none } : ImplState).became
      s.members.cleared l) hq hsome' ?_
    rw [hlast, wlp_endOfLifetime]
    exact ⟨hend l hl, l, hl, hans, rfl⟩

end Rules

end RemoteControl
