import RemoteControl.Grounding
import RemoteControl.Holdings
import RemoteControl.Succession

/-!
# Residence: the plugin and the instances it makes, in one process

`Holdings` says what the plugin and its implementations hold, `Succession` what the
instances of a process do to each other. Here the two are put together: `Root` constructs
an instance, `Configure` runs on it, and its destructor runs when the last reference is
given back, by the plugin or by somebody else who got hold of one.

* `residing` — the calls of the plugin over a process, on a bus that answers as it likes.
* `Joint` — an instance is alive as long as somebody holds it, it is the only one, and its
  `Configure` has run exactly when the plugin thinks so.
* `resident_served` — so the two agree between any two calls, if whoever else holds an
  instance lets go of it before the next `Root`.
-/

namespace RemoteControl

open Interaction Runs

/-! ## The process behind the plugin -/

/-- The process that hosts the instances. -/
structure Host where
  /-- the instances -/
  process : Process
  /-- the references that others hold on each of them -/
  others : ImplId → ℕ
  /-- an instance was used that is not there -/
  dangling : Bool

/-- What others do. -/
inductive HostStep where
  /-- somebody else gets a reference on an instance -/
  | retain (i : ImplId)
  /-- and gives it back -/
  | drop (i : ImplId)
  deriving DecidableEq

namespace Host

/-- A process without instances. -/
def start (bus : Bus) : Host := ⟨.start bus, fun _ => 0, false⟩

/-- Go through a pointer to instance `i`. -/
def go (t : Host) (i : ImplId) (f : Object → Process) : Host :=
  match t.process.objects i with
  | some o => { t with process := f o }
  | none => { t with dangling := true }

/-- An operation on instance `i` that leaves it as it is. -/
def touch (t : Host) : Option ImplId → Host
  | some i => t.go i fun _ => t.process
  | none => t

section

variable (reply : Bus → (c : BusCall) → c.Answer)

/-- `Root` makes an instance. -/
def construct (t : Host) : Host :=
  { t with
    process := t.process.afterConstruct
      (playOn reply (constructor t.process.constructed)
        ⟨.constructed, t.process.theInstance, t.process.bus, .blank, false, false⟩).2 }

/-- What `Configure(service)` of the instance `o` comes to. -/
def configuring (t : Host) (service : Shell) (o : Object) : HResult × ImplState :=
  playOn reply (RemoteControl.configure service) (t.process.view o)

/-- `Configure(service)` of instance `i`. -/
def configure (t : Host) (i : ImplId) (service : Shell) : Host :=
  t.go i fun o =>
    let (r, s) := t.configuring reply service o
    t.process.afterConfigure i r s

/-- A reference on instance `i` has been given back, and the plugin holds `held`: with the
last reference the instance goes. -/
def release (t : Host) (held : ℕ) (i : ImplId) : Host :=
  if held + t.others i = 0 then
    t.go i fun o => t.process.afterDestroy i (playOn reply destructor (t.process.view o)).2
  else t.touch (some i)

/-- The operations of the plugin on the instances. -/
def react (k : PluginState) (t : Host) : (o : PluginOp) → o.Answer → Host
  | .root _ _, (some _, _) => t.construct reply
  | .queryConfiguration, _ => t.touch k.members.implementation
  | .configure, _ =>
    match k.members.configure, k.members.service with
    | some i, some service => t.configure reply i service
    | _, _ => t
  | .registerNotification, _ => t.touch k.members.implementation
  | .act .unregisterNotification, _ => t.touch k.members.implementation
  | .act .implementationRelease, _ =>
    match k.members.implementation with
    | some i => t.release reply ((k.give (.implementation i)).refs i) i
    | none => t
  | .act .configureRelease, _ =>
    match k.members.configure with
    | some i => t.release reply ((k.give (.configure i)).refs i) i
    | none => t
  | _, _ => t

/-- The answers that come from the process: who is new, and what `Configure` returns. -/
def allow (k : PluginState) (t : Host) : (o : PluginOp) → o.Answer → Prop
  | .root _ _, (some i, _) => i = t.process.constructed
  | .configure, r => ∀ i ∈ k.members.configure, ∀ service ∈ k.members.service,
      ∀ o ∈ t.process.objects i, r = (t.configuring reply service o).1
  | _, _ => True

/-- What others can do: get a reference on an instance that is there, and give it back. -/
def env (k : PluginState) (t : Host) : HostStep → Option Host
  | .retain i =>
    if (t.process.objects i).isSome then
      some { t with others := Function.update t.others i (t.others i + 1) }
    else none
  | .drop i =>
    if t.others i = 0 then none
    else
      let t := { t with others := Function.update t.others i (t.others i - 1) }
      some (t.release reply (k.refs i) i)

end

end Host

/-- The calls of the plugin over the process. -/
abbrev residing (reply : Bus → (c : BusCall) → c.Answer) :
    Setting PluginCall PluginOp PluginOp.Answer (Option String) PluginState Host HostStep where
  machine := pluginMachine
  body := PluginCall.body
  ready := fun k _ c => c.ready k
  allow := Host.allow reply
  react := Host.react reply
  env := Host.env reply

/-- The configurations of `residing`. -/
abbrev ResidingConf : Type :=
  Conf PluginCall PluginOp PluginOp.Answer (Option String) PluginState Host

/-- The actions of `residing`. -/
abbrev ResidingAct : Type := Act PluginCall PluginOp PluginOp.Answer (Option String) HostStep

/-! ## What a call leaves of an instance -/

namespace Process

/-- The state of the instance `o` between two of its calls. -/
def Resting (P : Process) (o : Object) : Option Shell → Prop
  | none => (P.view o).Unconfigured
  | some service => (P.view o).Configured service

theorem Resting.inOrder {P : Process} {o : Object} {service : Option Shell}
    (h : P.Resting o service) : (P.view o).Prefix := by
  cases service with
  | none =>
    have h : (P.view o).Unconfigured := h
    exact ⟨by rw [h.members]; decide, by rw [h.members, h.handlers]; rfl⟩
  | some service =>
    have h : (P.view o).Configured service := h
    exact ⟨h.counter.le, by rw [h.counter, h.handlers]; rfl⟩

/-- The constructor. -/
theorem playOn_constructor (reply : Bus → (c : BusCall) → c.Answer) (P : Process) (i : ImplId) :
    (playOn reply (constructor i)
      ⟨.constructed, P.theInstance, P.bus, .blank, false, false⟩).2 = .new i P.bus := by
  refine (exec_playOn reply _ _).sound (G := fun _ _ => True) (Q := fun _ s => s = _) ?_
  simp [constructor, ImplState.new]

/-- `Configure` of an instance that is not configured. -/
theorem playOn_configure (reply : Bus → (c : BusCall) → c.Answer) {P : Process} {o : Object}
    (h : P.Resting o none) (service : Shell) {r : HResult} {s : ImplState}
    (hplay : playOn reply (configure service) (P.view o) = (r, s)) :
    s.theInstance = P.theInstance ∧
      (r = .errorNone ∧ s.Configured service ∨ r ≠ .errorNone ∧ s.Unconfigured) := by
  have hun : (P.view o).Unconfigured := h
  have hzero : (P.view o).members.handlersRegistered = 0 := by rw [hun.members]; rfl
  have hexec : (implMachine fun _ => True).Exec (configure service) (P.view o) r s := by
    have hexec := exec_playOn reply (configure service) (P.view o)
    rwa [hplay] at hexec
  obtain ⟨m, l, hrun, -, rfl, -⟩ := hexec.sound
    (wlp_configure admits_true (hzero ▸ Nat.zero_le 5) hzero fun _ _ _ =>
      ⟨trivial, hzero ▸ Nat.zero_le 5⟩)
  refine ⟨rfl, ?_⟩
  rcases hrun.outcome hzero hun.handlers with
    ⟨rfl, hservice, hcount, hhandlers⟩ | ⟨rfl, rfl, hhandlers⟩
  · exact .inl ⟨rfl, hservice, hcount, hhandlers, hun.shells.take service⟩
  · exact .inr ⟨by simp, rfl, hhandlers, (hun.shells.take service).give⟩

/-- The destructor of an instance between two calls. -/
theorem playOn_destructor (reply : Bus → (c : BusCall) → c.Answer) {P : Process} {o : Object}
    {service : Option Shell} (h : P.Resting o service) :
    (playOn reply destructor (P.view o)).2.theInstance = none ∧
      (playOn reply destructor (P.view o)).2.bus.handlers = [] ∧
      (playOn reply destructor (P.view o)).2.shells.Balanced := by
  obtain ⟨l, hl, -, hs⟩ := (exec_playOn reply destructor (P.view o)).sound
    (wlp_destructor admits_true.quiet trivial (admits_true.tearing _ h.inOrder.bounded)
      fun _ _ => trivial)
  rw [hs]
  refine ⟨rfl, hl.handlers h.inOrder.handlers, ?_⟩
  cases service with
  | none =>
    have h : (P.view o).Unconfigured := h
    simp only [ImplState.released, h.members]
    exact h.shells
  | some service =>
    have h : (P.view o).Configured service := h
    simp only [ImplState.released, h.serving]
    exact h.shells.give

end Process

/-! ## The invariant -/

/-- The plugin and the process agree: an instance is there as long as somebody holds a
reference on it, it is the newest and the one pointed to, and it is configured for the
shell that the plugin has configured it for. -/
structure Joint (k : PluginState) (t : Host) : Prop where
  /-- nothing was used that is not there -/
  sound : t.dangling = false
  /-- who is held is there -/
  alive : ∀ i, (∃ o, t.process.objects i = some o) ↔ 0 < k.refs i + t.others i
  /-- who is there -/
  only : ∀ i o, t.process.objects i = some o → t.process.IsNewest i ∧
    t.process.theInstance = some i ∧ ∃ service, t.process.Resting o service ∧
      ∀ s, (i, s) ∈ k.configured ↔ service = some s
  /-- if nobody is there, nothing of anybody is left -/
  gone : (∀ i, t.process.objects i = none) →
    t.process.theInstance = none ∧ t.process.bus.handlers = []

theorem joint_start {b : Bus} (hb : b.handlers = []) : Joint .fresh (.start b) where
  sound := rfl
  alive i := by simp [Host.start, Process.start, PluginState.refs, PluginState.fresh, Ledger.blank]
  only _ _ h := by simp [Host.start, Process.start] at h
  gone _ := ⟨rfl, hb⟩

namespace Joint

variable {reply : Bus → (c : BusCall) → c.Answer} {k k' : PluginState} {t t' : Host} {i : ImplId}

/-- Only the references and the configurations count. -/
theorem congr (h : Joint k t) (hsame : k.SameObjects k') : Joint k' t :=
  ⟨h.sound, fun i => by rw [hsame.refs i]; exact h.alive i,
    by rw [hsame.configured]; exact h.only, h.gone⟩

/-- Who is held can be used. -/
theorem go (h : Joint k t) (hi : 0 < k.refs i + t.others i) :
    ∃ o, t.process.objects i = some o ∧ ∀ f, t.go i f = { t with process := f o } := by
  obtain ⟨o, ho⟩ := (h.alive i).mpr hi
  exact ⟨o, ho, fun f => by rw [Host.go, ho]⟩

theorem touch (h : Joint k t) (hi : 0 < k.refs i + t.others i) : t.touch (some i) = t := by
  obtain ⟨o, -, hgo⟩ := h.go hi
  exact hgo _

/-- There is never more than one instance. -/
theorem unique (h : Joint k t) {j : ImplId} {o o' : Object} (hi : t.process.objects i = some o)
    (hj : t.process.objects j = some o') : i = j :=
  (h.only i o hi).1.unique (h.only j o' hj).1

/-- **A reference is given back**, by the plugin or by somebody else. -/
theorem release (h : Joint k t) (hprocess : t'.process = t.process)
    (hdangling : t'.dangling = t.dangling)
    (hothers : ∀ j, j ≠ i → k'.refs j + t'.others j = k.refs j + t.others j)
    (hi : k'.refs i + t'.others i + 1 = k.refs i + t.others i)
    (hconf : k'.configured = k.configured) : Joint k' (t'.release reply (k'.refs i) i) := by
  obtain ⟨o, ho, -⟩ := h.go (i := i) (by omega)
  have hgo : ∀ f, t'.go i f = { t' with process := f o } := fun f => by
    rw [Host.go, hprocess, ho]
  obtain ⟨-, -, service, hresting, -⟩ := h.only i o ho
  rw [Host.release]
  split
  -- it was the last one, and with it the instance goes
  · rename_i hzero
    obtain ⟨hinstance, hhandlers, -⟩ := Process.playOn_destructor reply hresting
    rw [hgo, hprocess]
    have hnone : ∀ j, (t.process.afterDestroy i
        (playOn reply destructor (t.process.view o)).2).objects j = none := by
      intro j
      rw [Process.objects_afterDestroy]
      by_cases hj : j = i
      · rw [if_pos hj]
      · rw [if_neg hj]
        rcases hget : t.process.objects j with _ | o'
        · rfl
        · exact absurd (h.unique hget ho) hj
    refine ⟨hdangling.trans h.sound, fun j => ?_, fun j o' ho' => ?_,
      fun _ => ⟨hinstance, hhandlers⟩⟩
    · have hzero' : k'.refs j + t'.others j = 0 := by
        by_cases hj : j = i
        · rw [hj, hzero]
        · rw [hothers j hj]
          have hdead : ¬ 0 < k.refs j + t.others j := fun hpos => by
            obtain ⟨o', ho'⟩ := (h.alive j).mpr hpos
            exact hj (h.unique ho' ho)
          omega
      rw [hzero', hnone j]
      simp
    · rw [hnone j] at ho'
      cases ho'
  · rename_i hmore
    have htouch : t'.touch (some i) = t' := hgo _
    rw [htouch]
    refine ⟨hdangling.trans h.sound, fun j => ?_, ?_, ?_⟩
    · rw [hprocess, h.alive j]
      by_cases hj : j = i
      · subst hj
        omega
      · rw [hothers j hj]
    · rw [hprocess, hconf]
      exact h.only
    · rw [hprocess]
      exact h.gone

/-- **`Root`** makes an instance, if nobody holds one. -/
theorem construct (h : Joint k t) (hrefs : ∀ i, k.refs i + t.others i = 0)
    (hnew : k'.refs t.process.constructed = 1)
    (hsame : ∀ i, i ≠ t.process.constructed → k'.refs i = k.refs i)
    (hconf : k'.configured = k.configured)
    (hfresh : ∀ s, (t.process.constructed, s) ∉ k.configured) :
    Joint k' (t.construct reply) := by
  have hnone : ∀ i, t.process.objects i = none := by
    intro i
    rcases hget : t.process.objects i with _ | o
    · rfl
    · have hpos := (h.alive i).mp ⟨o, hget⟩
      rw [hrefs i] at hpos
      exact absurd hpos (Nat.lt_irrefl 0)
  have hobjects : ∀ i, (t.construct reply).process.objects i =
      if i = t.process.constructed then some ⟨.constructed, .blank, false⟩ else none := by
    intro i
    rw [Host.construct, Process.playOn_constructor, Process.objects_afterConstruct, hnone]
    rfl
  refine ⟨h.sound, fun i => ?_, fun i o ho => ?_, fun hgone => ?_⟩
  · have hothers : t.others i = 0 := Nat.eq_zero_of_add_eq_zero_left (hrefs i)
    rw [hobjects, show (t.construct reply).others = t.others from rfl, hothers]
    by_cases hi : i = t.process.constructed
    · rw [if_pos hi, hi, hnew]
      simp
    · have hzero : k.refs i = 0 := Nat.eq_zero_of_add_eq_zero_right (hrefs i)
      rw [if_neg hi, hsame i hi, hzero]
      simp
  · rw [hobjects] at ho
    obtain ⟨rfl, hobject⟩ := Option.ite_none_right_eq_some.mp ho
    obtain rfl := Option.some.inj hobject
    refine ⟨rfl, ?_, none, ?_, fun s => ?_⟩
    · rw [Host.construct, Process.playOn_constructor]
      rfl
    · rw [Host.construct, Process.playOn_constructor]
      exact ⟨rfl, (h.gone hnone).2, Ledger.blank_balanced⟩
    · rw [hconf]
      simp [hfresh s]
  · have hself := hgone t.process.constructed
    rw [hobjects, if_pos rfl] at hself
    cases hself

/-- **`Configure`** of the instance the plugin holds. -/
theorem configure (h : Joint k t) (hi : 0 < k.refs i + t.others i) {service : Shell}
    {r : HResult} (hfresh : ∀ s, (i, s) ∉ k.configured)
    (hr : ∀ o ∈ t.process.objects i, r = (t.configuring reply service o).1) :
    Joint (k.configuredFor i service r) (t.configure reply i service) := by
  obtain ⟨o, ho, hgo⟩ := h.go hi
  obtain ⟨hnewest, hinstance, service?, hresting, hservice⟩ := h.only i o ho
  obtain rfl : service? = none := by
    rcases service? with _ | s
    · rfl
    · exact absurd ((hservice s).mpr rfl) (hfresh s)
  obtain ⟨hinstance', hleaves⟩ := Process.playOn_configure reply hresting service
    (r := (t.configuring reply service o).1) (s := (t.configuring reply service o).2) rfl
  rw [← hr o ho] at hleaves
  have hprocess : (t.configure reply i service).process =
      t.process.afterConfigure i r (t.configuring reply service o).2 := by
    rw [Host.configure, hgo, hr o ho]
  have hrefs : ∀ j, (k.configuredFor i service r).refs j = k.refs j := by
    intro j
    rw [PluginState.configuredFor]
    split <;> rfl
  refine ⟨?_, fun j => ?_, fun j o' ho' => ?_, fun hgone => ?_⟩
  · rw [Host.configure, hgo]
    exact h.sound
  · rw [hprocess, Process.objects_afterConfigure, hrefs, Host.configure, hgo]
    by_cases hj : j = i
    · subst hj
      simp [hi]
    · rw [if_neg hj]
      exact h.alive j
  · rw [hprocess, Process.objects_afterConfigure] at ho'
    by_cases hj : j = i
    · subst hj
      rw [if_pos rfl] at ho'
      obtain rfl := Option.some.inj ho'
      rw [hprocess]
      refine ⟨hnewest, hinstance'.trans hinstance, ?_⟩
      rcases hleaves with ⟨rfl, hcon⟩ | ⟨hfailed, hun⟩
      · refine ⟨some service, ⟨hcon.serving, hcon.counter, hcon.handlers, hcon.shells⟩, fun s => ?_⟩
        simp [PluginState.configuredFor, hfresh s, eq_comm]
      · refine ⟨none, ⟨hun.members, hun.handlers, hun.shells⟩, fun s => ?_⟩
        simp [PluginState.configuredFor, hfailed, hfresh s]
    · rw [if_neg hj] at ho'
      exact absurd (h.unique ho' ho) hj
  · have hself := hgone i
    rw [hprocess, Process.objects_afterConfigure, if_pos rfl] at hself
    cases hself

/-- `QueryInterface` takes another reference on an instance that is there. -/
theorem query (h : Joint k t) (hi : 0 < k.refs i) (hle : k.ledger.given (.configure i) ≤
    k.ledger.taken (.configure i)) : Joint (k.take (.configure i)) t := by
  refine ⟨h.sound, fun j => ?_, h.only, h.gone⟩
  rw [h.alive j]
  by_cases hj : j = i
  · subst hj
    have hmore : 0 < (k.take (.configure j)).refs j := by
      simp only [PluginState.refs, PluginState.take, Ledger.taken_take, Ledger.given_take,
        Pi.add_apply, Pi.single_eq_same]
      omega
    omega
  · have hsame : (k.take (.configure i)).refs j = k.refs j := by
      simp [PluginState.refs, PluginState.take, hj]
    rw [hsame]

end Joint

/-- **An operation of the plugin.** -/
theorem Joint.own {reply : Bus → (c : BusCall) → c.Answer} {k : PluginState} {t : Host}
    {o : PluginOp} {x : o.Answer} (h : Joint k t) (hground : Grounded k o)
    (hmay : pluginMachine.may k o x) (hallow : Host.allow reply k t o x)
    (hprompt : ∀ waitTime className, o = .root waitTime className → ∀ i, t.others i = 0) :
    Joint (k.next o x) (t.react reply k o x) := by
  have htouch : ∀ i, k.ledger.given (.implementation i) < k.ledger.taken (.implementation i) →
      t.touch (some i) = t := by
    intro i hi
    refine h.touch ?_
    rw [PluginState.refs]
    omega
  cases o with
  | act a =>
    cases a with
    | unregisterNotification =>
      obtain ⟨i, hi, hlt⟩ := hground.implementation rfl
      simp only [Host.react, hi, htouch i hlt]
      exact h.congr (k.sameObjects_act _ (by simp) (by simp))
    | implementationRelease =>
      obtain ⟨i, hi, hlt⟩ := hground.implementation rfl
      simp only [Host.react, PluginState.next, PluginState.did, hi, PluginState.through_some]
      refine h.release rfl rfl (fun j hj => ?_) ?_ rfl
      · simp [PluginState.refs, PluginState.give, hj]
      · simp only [PluginState.refs, PluginState.give, Ledger.taken_give, Ledger.given_give,
          Pi.add_apply, Pi.single_eq_same, ne_eq, reduceCtorEq, not_false_eq_true,
          Pi.single_eq_of_ne]
        omega
    | configureRelease =>
      obtain ⟨i, hi, hlt⟩ := hground.interface rfl
      simp only [Host.react, PluginState.next, PluginState.did, hi, PluginState.through_some]
      refine h.release rfl rfl (fun j hj => ?_) ?_ rfl
      · simp [PluginState.refs, PluginState.give, hj]
      · simp only [PluginState.refs, PluginState.give, Ledger.taken_give, Ledger.given_give,
          Pi.add_apply, Pi.single_eq_same, ne_eq, reduceCtorEq, not_false_eq_true,
          Pi.single_eq_of_ne]
        omega
    | _ => exact h.congr (k.sameObjects_act _ (by simp) (by simp))
  | load => exact h
  | root waitTime className =>
    obtain ⟨hservice, hnothing, hmade⟩ := hground.root waitTime className rfl
    obtain ⟨service, hservice⟩ := Option.ne_none_iff_exists'.mp hservice
    obtain ⟨i?, c⟩ := x
    simp only [PluginState.next, hservice, PluginState.through_some]
    rcases i? with _ | i
    · exact h.congr ⟨fun _ => rfl, fun _ => rfl, rfl⟩
    · obtain rfl : i = t.process.constructed := hallow
      have htaken : k.ledger.taken (.implementation t.process.constructed) = 0 := hmay.1 _ rfl
      have hrefs : ∀ j, k.refs j = 0 := fun j => by
        rw [PluginState.refs, (hnothing j).1, (hnothing j).2]
        omega
      refine h.construct (fun j => ?_) ?_ (fun j hj => ?_) rfl fun s hs => hmade _ hs htaken
      · rw [hrefs j, hprompt waitTime className rfl j]
      · have hgiven := hnothing t.process.constructed
        simp only [PluginState.refs, PluginState.rooted, Ledger.taken_take, Ledger.given_take,
          Pi.add_apply, Pi.single_eq_same, ne_eq, reduceCtorEq, not_false_eq_true,
          Pi.single_eq_of_ne]
        omega
      · simp [PluginState.refs, PluginState.rooted, hj]
  | queryConfiguration =>
    obtain ⟨i, hi, hlt⟩ := hground.implementation rfl
    simp only [Host.react, PluginState.next, hi, PluginState.through_some, htouch i hlt]
    cases x with
    | false => exact h
    | true =>
      refine h.query ?_ (hground.query rfl i)
      rw [PluginState.refs]
      omega
  | configure =>
    obtain ⟨i, hi, hlt⟩ := hground.interface rfl
    obtain ⟨hservice, hfresh⟩ := hground.configure rfl
    obtain ⟨service, hservice⟩ := Option.ne_none_iff_exists'.mp hservice
    simp only [Host.react, PluginState.next, hi, hservice, PluginState.through_some]
    refine h.configure ?_ (hfresh i hi) (hallow i hi service hservice)
    rw [PluginState.refs]
    omega
  | registerNotification =>
    obtain ⟨i, hi, hlt⟩ := hground.implementation rfl
    simp only [Host.react, hi, htouch i hlt]
    refine h.congr (k.sameObjects_through _ fun j => ?_)
    rw [PluginState.registeredWith]
    split
    · exact k.sameObjects_take ⟨by simp, by simp⟩
    · exact k.sameObjects_refl
  | remoteConnection service =>
    refine h.congr ?_
    cases x with
    | false => exact k.sameObjects_refl
    | true =>
      have hsame := k.sameObjects_take (r := .connection k.members.connectionId) ⟨by simp, by simp⟩
      exact ⟨hsame.taken, hsame.refs, hsame.configured⟩

/-! ## The theorem -/

/-- What is known of the plugin at every moment. -/
abbrev ResidingCore (reply : Bus → (c : BusCall) → c.Answer) (s : ResidingConf) : Prop :=
  (residing reply).CoreOk (fun _ _ => Grounded) (fun c e => c.Done e) PluginState.Settled s

/-- Nobody else holds an instance when the plugin asks for a new one. -/
def Prompt (s : ResidingConf) : ResidingAct → Prop
  | .own (.root _ _) _ => ∀ i, s.rest.others i = 0
  | _ => True

/-- **One step.** -/
theorem Joint.step {reply : Bus → (c : BusCall) → c.Answer} {s t : ResidingConf} {a : ResidingAct}
    (h : Joint s.core s.rest) (hcore : ResidingCore reply s) (ha : Prompt s a)
    (hstep : (residing reply).Step s a t) : Joint t.core t.rest := by
  cases hstep with
  | enter _ => exact h
  | @own c e k t o f x hmay hallow =>
    refine h.own hcore.1 hmay hallow fun waitTime className ho => ?_
    subst ho
    exact ha
  | leave => exact h
  | @other ctrl k t t' a henv =>
    cases a with
    | retain i =>
      obtain ⟨hthere, henv⟩ := Option.ite_none_right_eq_some.mp henv
      obtain rfl := Option.some.inj henv
      refine ⟨h.sound, fun j => ?_, h.only, h.gone⟩
      by_cases hj : j = i
      · subst hj
        simp only [Function.update_self]
        exact ⟨fun _ => by omega, fun _ => Option.isSome_iff_exists.mp hthere⟩
      · simp only [Function.update_of_ne hj]
        exact h.alive j
    | drop i =>
      obtain ⟨hrefs, henv⟩ := Option.ite_none_left_eq_some.mp henv
      obtain rfl := Option.some.inj henv
      refine h.release rfl rfl (fun j hj => ?_) ?_ rfl
      · simp only [Function.update_of_ne hj]
      · simp only [Function.update_self]
        omega

theorem Joint.initialised {k : PluginState} {t : Host} {service : Shell} {i : ImplId}
    (h : Joint k t) (hinit : k.InitialisedWith service i) :
    (∃ o, t.process.objects i = some o ∧ (t.process.view o).Configured service) ∧
      (∀ j, j ≠ i → t.process.objects j = none) ∧
      ∀ event, t.process.receiver event = some i := by
  have hrefs : k.ledger.given (.implementation i) < k.ledger.taken (.implementation i) := by
    refine hinit.ledger.lt ?_
    rw [hinit.members]
    simp [PluginMembers.held]
  obtain ⟨o, ho, -⟩ := h.go (i := i) (by rw [PluginState.refs]; omega)
  obtain ⟨-, hinstance, service?, hresting, hservice⟩ := h.only i o ho
  obtain rfl := (hservice service).mp hinit.configured
  have hcon : (t.process.view o).Configured service := hresting
  refine ⟨⟨o, ho, hcon⟩, fun j hj => ?_, fun event => ?_⟩
  · rcases hget : t.process.objects j with _ | o'
    · rfl
    · exact absurd (h.unique hget ho) hj
  · have hmem : event ∈ t.process.bus.handlers := by
      rw [show t.process.bus.handlers = registrationOrder from hcon.handlers]
      cases event <;> decide
    rw [Process.receiver, if_pos hmem, hinstance]

theorem Joint.reset {k : PluginState} {t : Host} (h : Joint k t) (hreset : k.Reset)
    (hothers : ∀ i, t.others i = 0) : (∀ i, t.process.objects i = none) ∧
      t.process.theInstance = none ∧ t.process.bus.handlers = [] := by
  have hnone : ∀ i, t.process.objects i = none := by
    intro i
    rcases hget : t.process.objects i with _ | o
    · rfl
    · have hpos := (h.alive i).mp ⟨o, hget⟩
      have hledger : k.ledger.taken = k.ledger.given := hreset.ledger
      rw [hothers i, PluginState.refs, hledger] at hpos
      omega
  exact ⟨hnone, h.gone hnone⟩

/-- **The plugin and the process, between two calls.** In every run of `Initialize` and
`Deinitialize`, on whatever answers of the bus and whoever else takes references on the
instances, if these are given back before the plugin asks for the next instance: nothing is
used that is not there; and between two calls the plugin is initialised, with the only
instance there is, which is configured for the plugin's shell and to which every event
comes, or it is not, and if nobody else holds one, there is no instance, and nothing of any
is left on the bus. -/
theorem resident_served {reply : Bus → (c : BusCall) → c.Answer} {b : Bus} (hb : b.handlers = [])
    {conf : ResidingConf} {tr : List (ResidingConf × ResidingAct)}
    (h : (residing reply).RunOf ⟨.idle, .fresh, .start b⟩ tr conf)
    (hprompt : ∀ p ∈ tr, Prompt p.1 p.2) :
    ∀ s ∈ conf :: tr.map Prod.fst, s.rest.dangling = false ∧
      (s.ctrl = .idle →
        (∃ service i, s.core.InitialisedWith service i ∧
          (∃ o, s.rest.process.objects i = some o ∧
            (s.rest.process.view o).Configured service) ∧
          (∀ j, j ≠ i → s.rest.process.objects j = none) ∧
          ∀ event, s.rest.process.receiver event = some i) ∨
        (s.core.Reset ∧ ((∀ i, s.rest.others i = 0) →
          (∀ i, s.rest.process.objects i = none) ∧ s.rest.process.theInstance = none ∧
          s.rest.process.bus.handlers = []))) := by
  obtain ⟨hend, hall⟩ := Run.guarded (C := Prompt)
    (I := fun s => ResidingCore reply s ∧ Joint s.core s.rest)
    (fun s a t hs ha hstep =>
      ⟨Setting.core_step (fun c k _ hk hready => Plugin.grounded_pluginCall c hk hready) hs.1 hstep,
        hs.2.step hs.1 ha hstep⟩)
    h ⟨PluginState.settled_fresh, joint_start hb⟩ hprompt
  intro s hs
  obtain ⟨hcore, hjoint⟩ : ResidingCore reply s ∧ Joint s.core s.rest := by
    rcases List.mem_cons.mp hs with rfl | hs
    · exact hend
    · obtain ⟨p, hp, rfl⟩ := List.mem_map.mp hs
      exact hall p hp
  refine ⟨hjoint.sound, fun hidle => ?_⟩
  have hsettled : s.core.Settled := by
    rw [ResidingCore, Setting.CoreOk, hidle] at hcore
    exact hcore
  rcases hsettled.status with hreset | ⟨service, i, hinit⟩
  · exact .inr ⟨hreset, hjoint.reset hreset⟩
  · exact .inl ⟨service, i, hinit, hjoint.initialised hinit⟩

/-! ## A schedule -/

instance (reply : Bus → (c : BusCall) → c.Answer) (k : PluginState) (t : Host) :
    (o : PluginOp) → (x : o.Answer) → Decidable ((residing reply).allow k t o x)
  | .root _ _, (some i, _) => inferInstanceAs (Decidable (i = t.process.constructed))
  | .configure, r => inferInstanceAs (Decidable (∀ i ∈ k.members.configure,
      ∀ service ∈ k.members.service, ∀ o ∈ t.process.objects i,
        (r : HResult) = (t.configuring reply service o).1))
  | .root _ _, (none, _) | .act _, _ | .load, _ | .queryConfiguration, _
  | .registerNotification, _ | .remoteConnection _, _ => .isTrue trivial

/-- An `Initialize`, while which somebody else gets hold of the instance, a `Deinitialize`,
and a second `Initialize` after the instance has been let go of. -/
def lentInstance : List (Move PluginCall PluginOp PluginOp.Answer PluginState HostStep) :=
  .enter (.initializeFor 7) :: List.replicate 12 (.answer (hosted 0 5 .errorNone .errorNone)) ++
    [.leave, .other (.retain 0), .enter (.deinitializeFor 7)] ++
    List.replicate 17 (.answer (hosted 0 5 .errorNone .errorNone)) ++
    [.leave, .other (.drop 0), .enter (.initializeFor 7)] ++
    List.replicate 12 (.answer (hosted 1 6 .errorNone .errorNone)) ++ [.leave]

/-- The action asks for a new instance. -/
def asksRoot : ResidingAct → Bool
  | .own (.root _ _) _ => true
  | _ => false

theorem prompt_of_not_asks (s : ResidingConf) {a : ResidingAct} (ha : ¬ asksRoot a = true) :
    Prompt s a := by
  cases a with
  | own o x =>
    cases o with
    | root waitTime className => exact absurd rfl ha
    | _ => trivial
  | _ => trivial

/-- Then the events come to the second instance. -/
theorem resident_served_lentInstance :
    ∃ tr conf, follow (residing obliging).advance ⟨.idle, .fresh, .start .blank⟩ lentInstance =
        some (tr, conf) ∧ conf.rest.process.objects 0 = none ∧
      ∀ event, conf.rest.process.receiver event = some 1 := by
  obtain ⟨⟨tr, conf⟩, hfollow⟩ : ∃ p, follow (residing obliging).advance
      ⟨.idle, .fresh, .start .blank⟩ lentInstance = some p := ⟨_, rfl⟩
  have hroots : ∀ n < tr.length, (tr[n]?).any (fun p => asksRoot p.2) = true →
      n = 4 ∨ n = 39 := by
    obtain ⟨rfl, -⟩ := Prod.mk.inj (Option.some.inj hfollow)
    decide
  have hothers : ∀ n, n = 4 ∨ n = 39 → ∀ p, tr[n]? = some p → ∀ i, p.1.rest.others i = 0 := by
    obtain ⟨rfl, -⟩ := Prod.mk.inj (Option.some.inj hfollow)
    rintro n (rfl | rfl) p hp i
    · obtain rfl := Option.some.inj hp
      rfl
    · obtain rfl := Option.some.inj hp
      by_cases hi : i = 0
      · subst hi
        rfl
      · change Function.update (Function.update (fun _ => 0) 0 _) 0 _ i = 0
        rw [Function.update_of_ne hi, Function.update_of_ne hi]
  have hprompt : ∀ p ∈ tr, Prompt p.1 p.2 := by
    rintro ⟨s, a⟩ hp
    obtain ⟨n, hn⟩ := List.mem_iff_getElem?.mp hp
    by_cases ha : asksRoot a = true
    · have hroot := hroots n (List.getElem?_eq_some_iff.mp hn).1 (by rw [hn]; exact ha)
      have hzero := hothers n hroot _ hn
      cases a with
      | own o x =>
        cases o with
        | root waitTime className => exact hzero
        | _ => trivial
      | _ => trivial
    · exact prompt_of_not_asks s ha
  obtain ⟨-, hidle⟩ := resident_served rfl ((residing obliging).run_of_follow hfollow) hprompt conf
    (List.mem_cons_self ..)
  refine ⟨tr, conf, hfollow, ?_⟩
  have hctrl : conf.ctrl = .idle ∧ conf.core.members.implementation = some 1 := by
    obtain ⟨-, rfl⟩ := Prod.mk.inj (Option.some.inj hfollow)
    exact ⟨rfl, rfl⟩
  rcases hidle hctrl.1 with ⟨service, i, hinit, -, honly, hreceiver⟩ | ⟨hreset, -⟩
  · have hone : i = 1 := by
      have himpl := hctrl.2
      rw [hinit.members] at himpl
      exact Option.some.inj himpl
    subst hone
    exact ⟨honly 0 (by decide), hreceiver⟩
  · have himpl := hctrl.2
    rw [hreset.members] at himpl
    cases himpl

end RemoteControl
