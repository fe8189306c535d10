import RemoteControl.Registration

/-!
# Ownership: whose connection is torn down

The bus connection belongs to the whole process. An instance disconnects if
`_hasOwnProcess` is set, and that flag says only that a check found no connection
and a later one did; who connected in between, it does not say.

* `shared` — one instance on a bus that other users initialise and connect, too,
  at any time.
* `wlp_ownership` — what the code does on its own: the flag is raised only by a call
  that is `Confirmed`, and `Disconnect` is called only while it is up.
* `own_connection_only` — if no such confirmation is owed to somebody else's
  connection, the instance only ever tears down its own.
* `foreign_connection_torn_down` — otherwise it may not.
-/

namespace RemoteControl

open Interaction Runs

/-! ## The shared bus -/

/-- Who made a connection. -/
inductive Party where
  /-- the instance, by its own `IARM_Bus_Connect` -/
  | own
  /-- another user in the process -/
  | other (id : ℕ)
  deriving DecidableEq

/-- The bus of the process. -/
structure SharedBus where
  /-- somebody has initialised it -/
  inited : Bool
  /-- the connection that exists, and who made it -/
  connection : Option Party
  deriving DecidableEq

/-- What the other users do. -/
inductive OtherUse where
  /-- `IARM_Bus_Init` -/
  | init
  /-- `IARM_Bus_Connect`, by user `id` -/
  | connect (id : ℕ)
  deriving DecidableEq

namespace SharedBus

/-- A call can be answered with success, or a connection reported, only if the bus
is in the state for it. -/
def Permits (t : SharedBus) : BusEvent → Prop
  | .init res => res = .success → t.inited = false
  | .connect res => res = .success → t.connection = none
  | .isConnected v => v = 1 → t.connection ≠ none
  | _ => True

instance (t : SharedBus) : (e : BusEvent) → Decidable (t.Permits e)
  | .init _ => inferInstanceAs (Decidable (_ → _))
  | .connect _ => inferInstanceAs (Decidable (_ → _))
  | .isConnected _ => inferInstanceAs (Decidable (_ → _))
  | .disconnect _ => .isTrue trivial
  | .term _ => .isTrue trivial
  | .registerEventHandler _ _ => .isTrue trivial
  | .removeEventHandler _ _ => .isTrue trivial

/-- The effect of an answered call of the instance. -/
def next (t : SharedBus) : BusEvent → SharedBus
  | .init .success => { t with inited := true }
  | .connect .success => { t with connection := some .own }
  | .disconnect .success => { t with connection := none }
  | .term .success => { t with inited := false }
  | _ => t

/-- A step of another user, if it succeeds. -/
def use (t : SharedBus) : OtherUse → Option SharedBus
  | .init => if t.inited then none else some { t with inited := true }
  | .connect id =>
    if t.connection = none then some { t with connection := some (.other id) } else none

end SharedBus

/-- The answer an operation of the instance gets from the bus, if it is a call. -/
def ImplOp.busEvent? : (o : ImplOp) → o.Answer → Option BusEvent
  | .bus c, x => some (c.answered x)
  | _, _ => none

/-- One instance on the bus it shares with others. -/
abbrev shared : Setting LifeCall ImplOp ImplOp.Answer (Option HResult) ImplState SharedBus
    OtherUse where
  machine := implMachine fun _ => True
  body := LifeCall.body
  ready := fun s _ c => c.ready s
  allow := fun _ t o x => ∀ e ∈ o.busEvent? x, t.Permits e
  react := fun _ t o x => (o.busEvent? x).elim t t.next
  env := fun _ t a => t.use a

/-! ## What the code does on its own -/

/-- What the call entered from `entry` has said to the bus so far. -/
def ImplState.since (s entry : ImplState) : List BusEvent :=
  s.bus.log.drop entry.bus.log.length

theorem ImplState.since_of_log {s entry : ImplState} {l : List BusEvent}
    (h : s.bus.log = entry.bus.log ++ l) : s.since entry = l := by
  rw [ImplState.since, h, List.drop_left]

/-- A check that finds no connection. -/
def BusEvent.findsNone : BusEvent → Bool
  | .isConnected v => v ≠ 1
  | _ => false

/-- The call entered from `entry` began by finding no connection. -/
abbrev ImplState.BeganApart (s entry : ImplState) : Prop :=
  (s.since entry).head?.any BusEvent.findsNone = true

/-- It has just found one after all. -/
def ImplState.Confirmed (s entry : ImplState) : Prop :=
  s.BeganApart entry ∧ (s.since entry).getLast? = some (.isConnected 1)

/-- The last thing said to the bus was not a part of taking it down. -/
def ImplState.Standing (s : ImplState) : Prop :=
  ∀ res, s.bus.log.getLast? ≠ some (.disconnect res) ∧ s.bus.log.getLast? ≠ some (.term res)

/-- The side condition of a call entered from `entry`. -/
def OnlyIfConfirmed (entry s : ImplState) : ImplOp → Prop
  | .bus .term =>
    s.members.hasOwnProcess = true ∧ ∃ res, s.bus.log.getLast? = some (.disconnect res)
  | .bus .disconnect => s.members.hasOwnProcess = true ∧ s.Standing
  | .bus _ => s.members.hasOwnProcess = true → s.Standing
  | .store m =>
    m.hasOwnProcess = true → s.members.hasOwnProcess = true ∨ s.Confirmed entry
  | _ => True

/-- The invariant between bus calls. -/
structure ImplState.Upright (s : ImplState) : Prop where
  /-- the counter is in range -/
  bounded : s.members.handlersRegistered ≤ 5
  /-- while the flag is up, nothing has been taken down -/
  standing : s.members.hasOwnProcess = true → s.Standing

theorem Bus.getLast?_log_after_snoc (b : Bus) (l : List BusEvent) (e : BusEvent) :
    (b.after (l ++ [e])).log.getLast? = some e := by
  rw [Bus.log_after, ← List.append_assoc, List.getLast?_concat]

/-- Any other answer than one to `Disconnect` or `Term` leaves the bus standing. -/
theorem ImplState.standing_of_last {s : ImplState} {l : List BusEvent} {e : BusEvent}
    (hlog : s.bus.log = l ++ [e]) (hd : ∀ res, e ≠ .disconnect res) (ht : ∀ res, e ≠ .term res) :
    s.Standing := by
  intro res
  rw [hlog, List.getLast?_concat]
  exact ⟨fun h => hd res (Option.some.inj h), fun h => ht res (Option.some.inj h)⟩

theorem RemoveRun.standing {es : List RcuEvent} {l : List BusEvent} (h : RemoveRun es l)
    {s s' : ImplState} (hs : s.Standing) (hlog : s'.bus.log = s.bus.log ++ l) : s'.Standing := by
  have hall : ∀ e ∈ l, ∃ event res, e = .removeEventHandler event res := by
    clear hlog
    induction h with
    | nil => nofun
    | cons _ ih => exact List.forall_mem_cons.mpr ⟨⟨_, _, rfl⟩, ih⟩
  rcases List.eq_nil_or_concat l with rfl | ⟨l', e, rfl⟩
  · rw [List.append_nil] at hlog
    rw [ImplState.Standing, hlog]
    exact hs
  · obtain ⟨event, res, rfl⟩ := hall e (by simp)
    rw [List.concat_eq_append, ← List.append_assoc] at hlog
    exact ImplState.standing_of_last hlog nofun nofun

theorem upright_tearing {entry s : ImplState} (h : s.Upright) :
    Tearing (OnlyIfConfirmed entry) s where
  bounded := h.bounded
  remove := fun _ _ _ l _ hl hown => hl.standing (h.standing hown) (Bus.log_after s.bus l)
  disconnect := fun hown l hl => ⟨hown, hl.standing (h.standing hown) (Bus.log_after s.bus l)⟩
  term := fun hown l res _ => ⟨hown, res, Bus.getLast?_log_after_snoc s.bus l _⟩

theorem admits_onlyIfConfirmed (entry : ImplState) :
    Admits (OnlyIfConfirmed entry) ImplState.Upright where
  quiet := by
    intro s o ho
    cases o with
    | bus c => exact ho.elim
    | store m => exact fun hm => .inl (ho hm)
    | _ => trivial
  asks := fun s hs => ⟨hs.standing, hs.standing, hs.standing⟩
  connects := by
    intro s e hs he
    refine ⟨hs.bounded, fun _ => ImplState.standing_of_last rfl ?_ ?_⟩
    · rintro res rfl
      cases he
    · rintro res rfl
      cases he
  accepted := fun s e hs he => ⟨hs.standing, (List.getElem?_eq_some_iff.mp he).1,
    fun _ => ImplState.standing_of_last rfl nofun nofun⟩
  refused := fun s e res hs _ =>
    ⟨hs.bounded, fun _ => ImplState.standing_of_last rfl nofun nofun⟩
  tearing := fun s hs => upright_tearing hs

/-- Between two calls: in order, and as constructed unless it serves somebody. -/
def ImplState.Rested (s : ImplState) : Prop :=
  s.Upright ∧ (s.members.service = none → s.members = .constructed)

/-- **What the code does on its own**: every call keeps the side condition. -/
theorem wlp_ownership (c : LifeCall) {s : ImplState} (hs : s.Rested) (hready : c.ready s) :
    (implMachine fun _ => True).wlp (OnlyIfConfirmed s) c.body
      (fun _ s' => True ∧ s'.Rested) s := by
  obtain ⟨hup, hfresh⟩ := hs
  have hconstructed : ∀ s' : ImplState, s'.members = .constructed → s'.Rested := fun s' h =>
    ⟨⟨by rw [h]; exact Nat.zero_le 5, by simp [h, Members.constructed]⟩, fun _ => h⟩
  cases c with
  | configure service =>
    have hmembers := hfresh hready.1
    have hzero : s.members.handlersRegistered = 0 := by rw [hmembers]; rfl
    simp only [LifeCall.body, Machine.wlp_bind, Machine.wlp_pure]
    refine Machine.wlp_post (wlp_configure (admits_onlyIfConfirmed s)
      ⟨hup.bounded, hup.standing⟩ hzero ?_) ?_
    · intro v l hl
      obtain ⟨l', rfl⟩ := hl.ends
      rw [← List.cons_append]
      have hlog := Bus.log_after s.bus (.isConnected v :: l' ++ [.isConnected 1])
      refine ⟨fun hraised => .inr ?_, hup.bounded, fun _ => ?_⟩
      · have hv : v ≠ 1 := by simpa using hraised
        have hsince : ((s.serving service).after
            (.isConnected v :: l' ++ [.isConnected 1])).since s =
            .isConnected v :: l' ++ [.isConnected 1] := ImplState.since_of_log hlog
        refine ⟨?_, ?_⟩
        · rw [ImplState.BeganApart, hsince]
          simpa [BusEvent.findsNone] using hv
        · rw [hsince, List.getLast?_concat]
      · rw [← List.append_assoc] at hlog
        exact ImplState.standing_of_last (e := .isConnected 1) hlog (by simp) (by simp)
    · rintro r s' ⟨m, l, hrun, -, rfl, hJ⟩
      have houtcome := hrun.outcome (b := ⟨false, false, [], []⟩) hzero rfl
      rcases houtcome with ⟨rfl, hservice, -, -⟩ | ⟨rfl, rfl, -⟩
      · exact ⟨trivial, hJ rfl, fun h => absurd (h.symm.trans hservice) (by simp)⟩
      · exact ⟨trivial, hconstructed _ rfl⟩
  | destroy =>
    simp only [LifeCall.body, Machine.wlp_bind, Machine.wlp_pure]
    refine Machine.wlp_post (wlp_destructor (admits_onlyIfConfirmed s).quiet trivial
      (upright_tearing ⟨hup.bounded, hup.standing⟩) fun _ _ => trivial) ?_
    rintro - s' ⟨l, -, -, rfl⟩
    exact ⟨trivial, hconstructed _ rfl⟩

/-! ## What the others can do to it -/

/-- The configurations of `shared`. -/
abbrev SharedConf : Type := Conf LifeCall ImplOp ImplOp.Answer (Option HResult) ImplState SharedBus

/-- The actions of `shared`. -/
abbrev SharedAct : Type := Act LifeCall ImplOp ImplOp.Answer (Option HResult) OtherUse

/-- An answered `Disconnect`. -/
def BusEvent.isDisconnect : BusEvent → Bool
  | .disconnect _ => true
  | _ => false

/-- The answer of a connection check. -/
def check? : SharedAct → Option ℤ
  | .own (.bus .isConnected) v => some v
  | _ => none

/-- Somebody else connects. -/
def othersConnect : SharedAct → Bool
  | .other (.connect _) => true
  | _ => false

/-- No connection of somebody else gets under the instance in this step: a check that
confirms a call that began apart finds the instance's own connection, and nobody
connects between its `Disconnect` and its `Term`. -/
def Unmixed (s : SharedConf) (a : SharedAct) : Prop :=
  (∀ entry ∈ s.ctrl.entry?, ∀ v ∈ check? a, v = 1 → s.core.BeganApart entry →
    s.rest.connection = some .own) ∧
  (othersConnect a = true → s.core.bus.log.getLast?.any BusEvent.isDisconnect = false)

instance (s : SharedConf) (a : SharedAct) : Decidable (Unmixed s a) :=
  inferInstanceAs (Decidable (_ ∧ _))

/-- The connection is the instance's own whenever the instance relies on it. -/
structure Sound (s : SharedConf) : Prop where
  /-- while the flag is up -/
  raised : s.core.members.hasOwnProcess = true → s.core.Standing →
    s.rest.connection = some .own
  /-- when a call has just been confirmed -/
  confirmed : ∀ c entry p, s.ctrl = .busy c entry p → s.core.Confirmed entry →
    s.rest.connection = some .own
  /-- between `Disconnect` and `Term` there is no connection of anybody else -/
  leaving : ∀ res, s.core.bus.log.getLast? = some (.disconnect res) →
    ∀ id, s.rest.connection ≠ some (.other id)

/-- Only a check can confirm a call, and only one that began apart before. -/
theorem ImplState.Confirmed.of_snoc {s s' entry : ImplState} {e : BusEvent}
    (h : s'.Confirmed entry) (hlog : s'.bus.log = s.bus.log ++ [e]) :
    e = .isConnected 1 ∧ s.BeganApart entry := by
  obtain ⟨hbegan, hlast⟩ := h
  rw [ImplState.since, hlog] at hlast
  rw [ImplState.BeganApart, ImplState.since, hlog] at hbegan
  rcases Nat.lt_trichotomy entry.bus.log.length s.bus.log.length with hlt | heq | hgt
  · rw [List.drop_append_of_le_length hlt.le] at hlast hbegan
    rw [List.getLast?_concat] at hlast
    refine ⟨Option.some.inj hlast, ?_⟩
    rw [ImplState.BeganApart, ImplState.since]
    rcases hdrop : s.bus.log.drop entry.bus.log.length with _ | ⟨first, more⟩
    · exact absurd (List.drop_eq_nil_iff.mp hdrop) (by omega)
    · rw [hdrop, List.cons_append] at hbegan
      exact hbegan
  -- the check would be the first thing the call said
  · rw [heq, List.drop_left] at hlast hbegan
    obtain rfl : e = .isConnected 1 := by simpa using hlast
    cases hbegan
  · rw [List.drop_eq_nil_of_le (by simp; omega)] at hlast
    cases hlast

/-- A connection of the instance stays its own, unless it disconnects. -/
theorem SharedBus.connection_next {t : SharedBus} {e : BusEvent}
    (h : t.connection = some .own) (hd : ∀ res, e ≠ .disconnect res) :
    (t.next e).connection = some .own := by
  cases e with
  | init res => cases res <;> exact h
  | connect res => cases res <;> first | exact h | rfl
  | disconnect res => exact absurd rfl (hd res)
  | term res => cases res <;> exact h
  | _ => exact h

/-- The invariant looks at the members, the dialogue and the connection alone. -/
theorem Sound.congr {ctrl ctrl' : Ctrl LifeCall ImplOp ImplOp.Answer (Option HResult) ImplState}
    {k k' : ImplState} {t : SharedBus} (h : Sound ⟨ctrl, k, t⟩) (hmembers : k'.members = k.members)
    (hbus : k'.bus = k.bus)
    (hctrl : ∀ c e p, ctrl' = .busy c e p → ∃ p', ctrl = .busy c e p') :
    Sound ⟨ctrl', k', t⟩ := by
  have hsince : ∀ entry, k'.since entry = k.since entry := fun entry => by
    rw [ImplState.since, ImplState.since, hbus]
  refine ⟨fun hown hstanding => ?_, fun c e p heq hconf => ?_, fun res hres => ?_⟩
  · exact h.raised (hmembers ▸ hown) fun res => hbus ▸ hstanding res
  · obtain ⟨p', heq'⟩ := hctrl c e p heq
    rw [ImplState.Confirmed, ImplState.BeganApart, hsince] at hconf
    exact h.confirmed c e p' heq' hconf
  · exact h.leaving res (hbus ▸ hres)

theorem Sound.step {s t : SharedConf} {a : SharedAct} (h : Sound s)
    (hcore : shared.CoreOk (fun _ entry => OnlyIfConfirmed entry) (fun _ _ _ _ => True)
      ImplState.Rested s) (ha : Unmixed s a) (hstep : shared.Step s a t) : Sound t := by
  cases hstep with
  | @enter c k t hready =>
    refine ⟨h.raised, ?_, h.leaving⟩
    rintro _ _ _ heq ⟨hbegan, -⟩
    cases heq
    rw [ImplState.BeganApart, ImplState.since, List.drop_length] at hbegan
    cases hbegan
  | @own c entry k t o f x hmay hallow =>
    have hG : OnlyIfConfirmed entry k o := hcore.1
    cases o with
    | bus call =>
      have hlast : (k.bus.next (call.answered x)).log.getLast? = some (call.answered x) :=
        List.getLast?_concat
      refine ⟨fun hown hstanding => ?_, fun c' e' p heq hconf => ?_, fun res hres id => ?_⟩
      · have hbefore : k.Standing := by
          cases call with
          | term => exact absurd hlast (hstanding x).2
          | disconnect => exact hG.2
          | _ => exact hG hown
        exact SharedBus.connection_next (h.raised hown hbefore) fun res he =>
          (hstanding res).1 (hlast.trans (congrArg some he))
      · cases heq
        obtain ⟨he, hbegan⟩ := hconf.of_snoc (s := k) rfl
        cases call with
        | isConnected => exact ha.1 entry rfl x rfl (BusEvent.isConnected.inj he) hbegan
        | _ => cases he
      · have hres' : call.answered x = .disconnect res := Option.some.inj (hlast.symm.trans hres)
        cases call with
        | disconnect =>
          have hown : t.connection = some .own := h.raised hG.1 hG.2
          cases x with
          | success => nofun
          | _ => exact fun hid => absurd (hown.symm.trans hid) nofun
        | _ => cases hres'
    | store m =>
      refine ⟨fun hm hstanding => ?_, fun _ _ _ heq => ?_, h.leaving⟩
      · rcases hG hm with hown | hconf
        · exact h.raised hown hstanding
        · exact h.confirmed _ _ _ rfl hconf
      · cases heq
        exact h.confirmed _ _ _ rfl
    | _ =>
      obtain ⟨hmembers, hbus⟩ := k.next_frame x nofun nofun
      refine h.congr hmembers hbus fun c' e' p heq => ?_
      cases heq
      exact ⟨_, rfl⟩
  | leave => exact ⟨h.raised, nofun, h.leaving⟩
  | @other ctrl k t t' a henv =>
    cases a with
    | init =>
      obtain ⟨-, rfl⟩ : t.inited = false ∧ { t with inited := true } = t' := by
        simpa [shared, SharedBus.use] using henv
      exact ⟨h.raised, h.confirmed, h.leaving⟩
    | connect id =>
      obtain ⟨hnone, -⟩ : t.connection = none ∧ { t with connection := some (.other id) } = t' := by
        simpa [shared, SharedBus.use] using henv
      -- somebody else can connect only where the instance relies on nothing
      refine ⟨fun hown hstanding => ?_, fun c entry p hctrl hconf => ?_, fun res hres => ?_⟩
      · exact absurd ((h.raised hown hstanding).symm.trans hnone) nofun
      · exact absurd ((h.confirmed c entry p hctrl hconf).symm.trans hnone) nofun
      · have ha : k.bus.log.getLast?.any BusEvent.isDisconnect = false := ha.2 rfl
        rw [hres] at ha
        cases ha

/-! ## The theorem -/

/-- **Ownership.** In every run in which no connection of somebody else gets under the
instance, it calls `Disconnect` only on its own connection, and `Term` only while
nobody else has one. -/
theorem own_connection_only {self : ImplId} {t : SharedBus} {conf : SharedConf}
    {tr : List (SharedConf × SharedAct)} (h : shared.RunOf ⟨.idle, .new self .blank, t⟩ tr conf)
    (hunmixed : ∀ p ∈ tr, Unmixed p.1 p.2) :
    (∀ s x, (s, .own (.bus .disconnect) x) ∈ tr → s.rest.connection = some .own) ∧
      (∀ s x, (s, .own (.bus .term) x) ∈ tr → ∀ id, s.rest.connection ≠ some (.other id)) := by
  have hrested : (ImplState.new self .blank).Rested := ⟨⟨Nat.zero_le 5, nofun⟩, fun _ => rfl⟩
  obtain ⟨-, hall⟩ := Run.guarded (C := Unmixed)
    (I := fun s => shared.CoreOk (fun _ entry => OnlyIfConfirmed entry) (fun _ _ _ _ => True)
      ImplState.Rested s ∧ Sound s)
    (fun s a t hs ha hstep =>
      ⟨Setting.core_step (fun c k _ hk hready => wlp_ownership c hk hready) hs.1 hstep,
        hs.2.step hs.1 ha hstep⟩)
    h ⟨hrested, nofun, nofun, nofun⟩ hunmixed
  have hcore : ∀ p ∈ tr, shared.CoreOk (fun _ entry => OnlyIfConfirmed entry)
      (fun _ _ _ _ => True) ImplState.Rested p.1 := fun p hp => (hall p hp).1
  refine ⟨fun s x hmem => ?_, fun s x hmem => ?_⟩
  · obtain ⟨_, _, _, -, hown, hstanding⟩ := Setting.own_ok h hcore hmem
    exact (hall _ hmem).2.raised hown hstanding
  · obtain ⟨_, _, _, -, -, res, hlast⟩ := Setting.own_ok h hcore hmem
    exact (hall _ hmem).2.leaving res hlast

/-- A bus that lets the instance connect and then refuses every handler. -/
def refusesHandlers (b : Bus) : (c : BusCall) → c.Answer
  | .init => .invalidState
  | .connect => .success
  | .isConnected => if b.connected then (1 : ℤ) else (0 : ℤ)
  | .disconnect => .success
  | .term => .success
  | .registerEventHandler _ => .oom
  | .removeEventHandler _ => .success

/-- Another user initialises the bus, the instance connects it, and is refused. -/
def refusedAlone : List (Move LifeCall ImplOp ImplOp.Answer ImplState OtherUse) :=
  [.other .init, .enter (.configure 7)] ++
    List.replicate 20 (.answer (replying refusesHandlers)) ++ [.leave]

/-- There the rollback disconnects, and the connection is the instance's own. -/
theorem own_connection_only_refused :
    ∃ tr conf, follow shared.advance ⟨.idle, .new 0 .blank, ⟨false, none⟩⟩ refusedAlone =
        some (tr, conf) ∧
      ∃ s x, (s, .own (.bus .disconnect) x) ∈ tr ∧ s.rest.connection = some .own := by
  obtain ⟨⟨tr, conf⟩, hfollow⟩ : ∃ p, follow shared.advance ⟨.idle, .new 0 .blank, ⟨false, none⟩⟩
      refusedAlone = some p := ⟨_, rfl⟩
  have hunmixed : ∀ p ∈ tr, Unmixed p.1 p.2 := by
    obtain ⟨rfl, -⟩ := Prod.mk.inj (Option.some.inj hfollow)
    decide
  have hmem : ∃ s x, (s, .own (.bus .disconnect) x) ∈ tr := by
    obtain ⟨rfl, -⟩ := Prod.mk.inj (Option.some.inj hfollow)
    exact ⟨_, _, List.mem_of_getElem? (i := 15) rfl⟩
  obtain ⟨s, x, hmem⟩ := hmem
  exact ⟨tr, conf, hfollow, s, x, hmem,
    (own_connection_only (shared.run_of_follow hfollow) hunmixed).1 s x hmem⟩

/-- A bus that reports a connection from the second check on. -/
def connectsMeanwhile (b : Bus) : (c : BusCall) → c.Answer
  | .init => .invalidState
  | .connect => .invalidState
  | .isConnected => if b.log = [] then (0 : ℤ) else (1 : ℤ)
  | .disconnect => .success
  | .term => .success
  | .registerEventHandler _ => .oom
  | .removeEventHandler _ => .success

/-- User `9` connects between the check of `InitializeIARM` and that of `init`. -/
def overtaken : List (Move LifeCall ImplOp ImplOp.Answer ImplState OtherUse) :=
  [.other .init, .enter (.configure 7)] ++
    List.replicate 4 (.answer (replying connectsMeanwhile)) ++ [.other (.connect 9)] ++
    List.replicate 13 (.answer (replying connectsMeanwhile)) ++ [.leave]

/-- There the rollback disconnects user `9`. -/
theorem foreign_connection_torn_down :
    ∃ tr conf s x, shared.RunOf ⟨.idle, .new 0 .blank, ⟨false, none⟩⟩ tr conf ∧
      (s, .own (.bus .disconnect) x) ∈ tr ∧ s.rest.connection = some (.other 9) := by
  obtain ⟨⟨tr, conf⟩, hfollow⟩ : ∃ p, follow shared.advance ⟨.idle, .new 0 .blank, ⟨false, none⟩⟩
      overtaken = some p := ⟨_, rfl⟩
  have hrun := shared.run_of_follow hfollow
  obtain ⟨rfl, -⟩ := Prod.mk.inj (Option.some.inj hfollow)
  exact ⟨_, _, _, _, hrun, List.mem_of_getElem? (i := 13) rfl, rfl⟩

end RemoteControl
