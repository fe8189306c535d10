import RemoteControl.Delivery
import RemoteControl.Events

/-!
# Relay: the events of the bus, as the observers get them

`Events` says what one event becomes for a given list of observers, `Observers`
who is on the list and when each of them is called. Here the two are one system:
the bus delivers buffers, clients register and unregister, and the dispatches run
among them.

* `BusMessage.told` — what every observer is told of a message, if the handler lets
  it through.
* `Relay.step` — the interleaving, with the message of every dispatch kept beside it.
* `received`, `offered` — what an observer has got, and what was told while it was
  registered.
* `received_in_order` — whatever the interleaving, nothing is told twice and nothing that
  is not offered; and if the bus does not deliver a message before everybody has been
  called for the ones before, every observer gets what it is offered in that order.
-/

namespace RemoteControl

open Runs

variable (J : JsonLib) (ipc : CtrlmIpc) {ν : Type}

/-- What the bus hands to the event handler. -/
structure BusMessage where
  /-- the sender -/
  owner : String
  /-- the event, if the handler knows it -/
  eventId : Option RcuEvent
  /-- the buffer, if there is one -/
  data : Option EventBuffer
  deriving DecidableEq

namespace BusMessage

/-- The handler goes through the message on behalf of these observers. -/
def handled (m : BusMessage) (observers : List ν) : Handled ν :=
  iarmEventHandler J ipc m.owner m.eventId m.data observers

/-- What an observer is told of the message, if anything. -/
def told (m : BusMessage) : Option Notification :=
  ((m.handled J ipc [()]).calls.head?).map Prod.snd

/-- All observers are told the same. -/
theorem notify_told (event : RcuEvent) (payload : String) (observers : List ν) :
    notify J event payload observers = observers.map fun n =>
      (n, match event with
        | .rcuStatus => .onStatus (netStatusOf J (J.fromString payload))
        | .configurationComplete => .onStatus (netStatusOf J (J.fromString payload))
        | .rf4cePairingWindowTimeout => .onStatus (netStatusOf J (J.fromString payload))
        | .validationStatus => .onValidation (validationStatusOf J (J.fromString payload))
        | .firmwareUpdateProgress =>
          .onFirmwareUpdateProgress (firmwareUpdateStatusOf J (J.fromString payload))) := by
  cases event with
  | _ => rfl

/-- **The handler's calls** are what is told, once for every observer, in order. -/
theorem calls_handled (m : BusMessage) (observers : List ν) :
    (m.handled J ipc observers).calls =
      (m.told J ipc).elim [] fun x => observers.map fun n => (n, x) := by
  unfold told handled iarmEventHandler
  split
  · rfl
  · cases m.data with
    | none => rfl
    | some buffer =>
      dsimp only
      split
      · rfl
      · cases m.eventId with
        | none => rfl
        | some event =>
          dsimp only
          generalize readString ipc.payloadOffset _ = r
          obtain ⟨reads, payload⟩ := r
          cases payload with
          | none => rfl
          | some chars =>
            simp only [notify_told]
            rfl

end BusMessage

/-! ## The system -/

/-- The observers, and what every dispatch so far tells. -/
structure Relay (ν : Type) where
  /-- the implementation -/
  observers : Observers ν
  /-- what each of its dispatches tells -/
  told : List Notification

/-- What can happen. -/
inductive RelayAct (ν : Type) where
  /-- the bus delivers a message -/
  | deliver (m : BusMessage)
  /-- any other step than a snapshot -/
  | other (a : Observers.Action ν)

/-- The bus delivers a message. -/
def RelayAct.delivers : RelayAct ν → Bool
  | .deliver _ => true
  | .other _ => false

namespace Relay

/-- Nothing has happened yet. -/
def fresh : Relay ν := ⟨.fresh, []⟩

variable [DecidableEq ν]

/-- One step. A message that is turned away does nothing, one whose payload runs off the
memory ends everything, and any other one starts a dispatch of its kind. -/
def step (s : Relay ν) : RelayAct ν → Option (Relay ν)
  | .deliver m =>
    if (m.handled J ipc [()]).faulted then none
    else
      match m.told J ipc with
      | none => some s
      | some x => (s.observers.step (.snapshot x.kind)).map fun o => ⟨o, s.told ++ [x]⟩
  | .other (.snapshot _) => none
  | .other a => (s.observers.step a).map fun o => ⟨o, s.told⟩

/-- The step relation. -/
def Steps (s : Relay ν) (a : RelayAct ν) (t : Relay ν) : Prop :=
  s.step J ipc a = some t

/-- `step` as the moves of a schedule. -/
def advance (s : Relay ν) (a : RelayAct ν) : Option (RelayAct ν × Relay ν) :=
  (s.step J ipc a).map fun t => (a, t)

theorem steps_of_advance {s t : Relay ν} {a b : RelayAct ν}
    (h : s.advance J ipc a = some (b, t)) : Steps J ipc s b t := by
  obtain ⟨t', hstep, heq⟩ := Option.map_eq_some_iff.mp h
  obtain ⟨rfl, rfl⟩ := Prod.mk.inj heq
  exact hstep

/-- What one step does: a message that is not let through does nothing, one that is takes
a snapshot, and the other steps tell nothing new. -/
theorem steps_cases {s t : Relay ν} {a : RelayAct ν} (h : Steps J ipc s a t) :
    (∃ m, a = .deliver m ∧ m.told J ipc = none ∧ t = s) ∨
    (∃ m x o, a = .deliver m ∧ m.told J ipc = some x ∧
      s.observers.Steps (.snapshot x.kind) o ∧ t = ⟨o, s.told ++ [x]⟩) ∨
    ∃ b o, a = .other b ∧ (∀ kind, b ≠ .snapshot kind) ∧ s.observers.Steps b o ∧
      t = ⟨o, s.told⟩ := by
  cases a with
  | deliver m =>
    obtain ⟨-, h⟩ := Option.ite_none_left_eq_some.mp h
    rcases hm : m.told J ipc with _ | x <;> simp only [hm] at h
    · exact Or.inl ⟨m, rfl, hm, (Option.some.inj h).symm⟩
    · obtain ⟨o, ho, rfl⟩ := Option.map_eq_some_iff.mp h
      exact Or.inr (Or.inl ⟨m, x, o, rfl, hm, ho, rfl⟩)
  | other b =>
    refine Or.inr (Or.inr ?_)
    cases b with
    | snapshot kind => cases h
    | _ =>
      obtain ⟨o, ho, rfl⟩ := Option.map_eq_some_iff.mp h
      exact ⟨_, o, rfl, by simp, ho, rfl⟩

/-! ## What an observer gets -/

omit [DecidableEq ν] in
/-- Everybody has been called for every message so far. -/
def Through (s : Relay ν) : Prop :=
  ∀ D ∈ s.observers.dispatches, D.called = D.observers.length

/-- The bus delivers a message only when everybody has been called for the ones before. -/
def OneByOne (tr : List (Relay ν × RelayAct ν)) : Prop :=
  ∀ p ∈ tr, p.2.delivers = true → p.1.Through

instance (s : Relay ν) : Decidable s.Through :=
  inferInstanceAs (Decidable (∀ D ∈ s.observers.dispatches, _))

instance (tr : List (Relay ν × RelayAct ν)) : Decidable (OneByOne tr) :=
  inferInstanceAs (Decidable (∀ p ∈ tr, _ → p.1.Through))

/-- What a step tells `n`: what its callback is called with. -/
def gets (n : ν) (p : Relay ν × RelayAct ν) : Option Notification :=
  match p.2 with
  | .other (.enterCallback d m) => if m = some n then p.1.told[d]? else none
  | _ => none

/-- What a step offers `n`: what the message says, if `n` is registered. -/
def offer (n : ν) (p : Relay ν × RelayAct ν) : Option Notification :=
  match p.2 with
  | .deliver m => if p.1.observers.notifications.contains (some n) then m.told J ipc else none
  | _ => none

/-- What `n` has been told in a run, in the order of its callbacks. -/
def received (n : ν) (tr : List (Relay ν × RelayAct ν)) : List Notification :=
  tr.filterMap (gets n)

/-- What was told in a run while `n` was registered, in the order of the messages. -/
def offered (n : ν) (tr : List (Relay ν × RelayAct ν)) : List Notification :=
  tr.filterMap (offer J ipc n)

theorem received_snoc (n : ν) (tr : List (Relay ν × RelayAct ν)) (p : Relay ν × RelayAct ν) :
    received n (tr ++ [p]) = received n tr ++ (gets n p).toList := by
  rw [received, List.filterMap_append, ← received]
  cases h : gets n p <;> simp [h]

theorem offered_snoc (n : ν) (tr : List (Relay ν × RelayAct ν)) (p : Relay ν × RelayAct ν) :
    offered J ipc n (tr ++ [p]) = offered J ipc n tr ++ (offer J ipc n p).toList := by
  rw [offered, List.filterMap_append, ← offered]
  cases h : offer J ipc n p <;> simp [h]

/-! ## The dispatches' part in it -/

/-- The observers a dispatch has called. -/
def reached (D : Dispatch ν) : List (Option ν) := D.observers.take D.called

/-- What these dispatches tell `n`, if the part `f` of a snapshot is told. -/
def share (f : Dispatch ν → List (Option ν)) (n : ν) (ds : List (Dispatch ν))
    (told : List Notification) : List Notification :=
  (ds.zip told).filterMap fun p => if (f p.1).contains (some n) then some p.2 else none

/-- The share of dispatches one after the other. -/
theorem share_append {f : Dispatch ν → List (Option ν)} {n : ν} {ds ds' : List (Dispatch ν)}
    {told told' : List Notification} (h : ds.length = told.length) :
    share f n (ds ++ ds') (told ++ told') = share f n ds told ++ share f n ds' told' := by
  rw [share, List.zip_append h, List.filterMap_append]
  rfl

theorem share_singleton (f : Dispatch ν → List (Option ν)) (n : ν) (D : Dispatch ν)
    (x : Notification) : share f n [D] [x] = if some n ∈ f D then [x] else [] := by
  by_cases h : some n ∈ f D <;> simp [share, h]

/-- A list with one of its entries apart. -/
theorem eq_append_of_getElem? {α : Type} {l : List α} {d : ℕ} {a : α} (h : l[d]? = some a) :
    l = l.take d ++ ([a] ++ l.drop (d + 1)) := by
  obtain ⟨hlt, rfl⟩ := List.getElem?_eq_some_iff.mp h
  rw [List.singleton_append, ← List.drop_eq_getElem_cons hlt, List.take_append_drop]

/-- One dispatch apart from the others: what the others tell does not depend on it. -/
theorem share_set {f : Dispatch ν → List (Option ν)} {n : ν} {ds : List (Dispatch ν)} {d : ℕ}
    {D : Dispatch ν} {told : List Notification} {x : Notification} (hD : ds[d]? = some D)
    (hx : told[d]? = some x) :
    ∃ before after, (d + 1 = ds.length → after = []) ∧
      share f n ds told = before ++ ((if some n ∈ f D then [x] else []) ++ after) ∧
      ∀ D', share f n (ds.set d D') told =
        before ++ ((if some n ∈ f D' then [x] else []) ++ after) := by
  have hlt : d < ds.length := (List.getElem?_eq_some_iff.mp hD).1
  have hlt' : d < told.length := (List.getElem?_eq_some_iff.mp hx).1
  have hset : ∀ D', share f n (ds.set d D') told =
      share f n (ds.take d) (told.take d) ++
        ((if some n ∈ f D' then [x] else []) ++
          share f n (ds.drop (d + 1)) (told.drop (d + 1))) := by
    intro D'
    have hds : ds.set d D' = ds.take d ++ ([D'] ++ ds.drop (d + 1)) := by
      rw [List.set_eq_take_append_cons_drop, if_pos hlt, List.singleton_append]
    have hlen : (ds.take d).length = (told.take d).length := by
      rw [List.length_take_of_le hlt.le, List.length_take_of_le hlt'.le]
    rw [hds]
    nth_rewrite 1 [eq_append_of_getElem? hx]
    rw [share_append hlen, share_append rfl, share_singleton]
  refine ⟨_, _, fun hlast => ?_, ?_, hset⟩
  · rw [hlast, List.drop_length]
    rfl
  · have hself : ds.set d D = ds := by
      obtain ⟨_, rfl⟩ := List.getElem?_eq_some_iff.mp hD
      exact List.set_getElem_self _
    have heq := hset D
    rwa [hself] at heq

/-! ## One step -/

/-- What holds in every run: every dispatch has its message, and `n` is offered what the
snapshots with `n` on them are about. -/
structure Books (n : ν) (tr : List (Relay ν × RelayAct ν)) (s : Relay ν) : Prop where
  inv : s.observers.Inv
  length : s.observers.dispatches.length = s.told.length
  offered : offered J ipc n tr = share Dispatch.observers n s.observers.dispatches s.told

theorem books_fresh (n : ν) : Books J ipc n [] fresh where
  inv := Observers.inv_fresh
  length := rfl
  offered := rfl

/-- What one step does, dispatch by dispatch, as far as `n` is concerned. -/
inductive Turn (n : ν) (s : Relay ν) : RelayAct ν → Relay ν → Prop where
  /-- a message is let through: a dispatch that has reached nobody -/
  | opened {m : BusMessage} {x : Notification} {D : Dispatch ν} {t : Relay ν} :
      m.told J ipc = some x → D.called = 0 → D.observers = s.observers.notifications →
      t.told = s.told ++ [x] → t.observers.dispatches = s.observers.dispatches ++ [D] →
      Turn n s (.deliver m) t
  /-- a dispatch reaches `n` -/
  | called {d : ℕ} {D D' : Dispatch ν} {x : Notification} {t : Relay ν} :
      s.observers.dispatches[d]? = some D → s.told[d]? = some x → t.told = s.told →
      t.observers.dispatches = s.observers.dispatches.set d D' → D'.observers = D.observers →
      some n ∉ reached D → some n ∈ reached D' → D.called < D.observers.length →
      D.called ≤ D'.called → Turn n s (.other (.enterCallback d (some n))) t
  /-- a dispatch moves on, but not to `n` -/
  | moved {a : RelayAct ν} {d : ℕ} {D D' : Dispatch ν} {t : Relay ν} :
      gets n (s, a) = none → offer J ipc n (s, a) = none →
      s.observers.dispatches[d]? = some D → t.told = s.told →
      t.observers.dispatches = s.observers.dispatches.set d D' → D'.observers = D.observers →
      (some n ∈ reached D' ↔ some n ∈ reached D) → D.called ≤ D'.called → Turn n s a t
  /-- no dispatch moves -/
  | aside {a : RelayAct ν} {t : Relay ν} :
      gets n (s, a) = none → offer J ipc n (s, a) = none → t.told = s.told →
      t.observers.dispatches = s.observers.dispatches → Turn n s a t

/-- **Inversion**: every step is one of these turns. -/
theorem Books.turn {n : ν} {tr : List (Relay ν × RelayAct ν)} {s t : Relay ν}
    {a : RelayAct ν} (hs : Books J ipc n tr s) (h : Steps J ipc s a t) : Turn J ipc n s a t := by
  rcases Relay.steps_cases J ipc h with ⟨m, rfl, hm, rfl⟩ | ⟨m, x, o, rfl, hm, ho, rfl⟩ |
    ⟨b, o, rfl, hb, ho, rfl⟩
  · exact .aside rfl (by simp [offer, hm]) rfl rfl
  · have heff := hs.inv.effect_of_step ho
    cases heff with
    | taken _ => exact .opened hm rfl rfl rfl rfl
    | moved _ hmove => cases hmove
  · have heff := hs.inv.effect_of_step ho
    cases heff with
    | @moved b d D D' back hD hmove =>
      have hlt : d < s.told.length := hs.length ▸ (List.getElem?_eq_some_iff.mp hD).1
      cases hmove with
      | @enterCallback _ _ m hidle hn =>
        have hstep : reached { D with called := D.called + 1, inCallback := true } =
            reached D ++ [m] := by
          rw [reached, List.take_add_one, hn]
          rfl
        by_cases hm : m = some n
        · subst hm
          refine .called hD (List.getElem?_eq_getElem hlt) rfl rfl rfl ?_ ?_
            (List.getElem?_eq_some_iff.mp hn).1 (Nat.le_succ _)
          -- `n` is only once in the snapshot, so it has not been reached before
          · have hnodup : (reached D ++ [some n]).Nodup := hstep ▸
              (hs.inv.dispatches D (List.mem_of_getElem? hD)).nodup.sublist
                (List.take_sublist ..)
            exact fun hmem => (List.nodup_append.mp hnodup).2.2 _ hmem _
              (List.mem_singleton_self _) rfl
          · rw [hstep]
            exact List.mem_append_right _ (List.mem_singleton_self _)
        · refine .moved ?_ rfl hD rfl rfl rfl ?_ (Nat.le_succ _)
          · simp [gets, hm]
          · rw [hstep]
            simp [Ne.symm hm]
      | leaveCallback hin => exact .moved rfl rfl hD rfl rfl rfl Iff.rfl (le_refl _)
      | release hidle hall hn => exact .moved rfl rfl hD rfl rfl rfl Iff.rfl (le_refl _)
    | taken _ => exact absurd rfl (hb _)
    | _ => exact .aside rfl rfl rfl rfl

/-- The step lemma of the books. -/
theorem Books.step {n : ν} {tr : List (Relay ν × RelayAct ν)} {s t : Relay ν}
    {a : RelayAct ν} (hs : Books J ipc n tr s) (h : Steps J ipc s a t) :
    Books J ipc n (tr ++ [(s, a)]) t := by
  have hinv : t.observers.Inv := by
    rcases Relay.steps_cases J ipc h with ⟨_, rfl, _, rfl⟩ | ⟨_, _, _, rfl, _, ho, rfl⟩ |
      ⟨_, _, rfl, _, ho, rfl⟩
    · exact hs.inv
    · exact hs.inv.step ho
    · exact hs.inv.step ho
  -- who is offered what does not change while a dispatch moves on
  have hset : ∀ {d : ℕ} {D D' : Dispatch ν}, s.observers.dispatches[d]? = some D →
      D'.observers = D.observers →
      share Dispatch.observers n (s.observers.dispatches.set d D') s.told =
        share Dispatch.observers n s.observers.dispatches s.told := by
    intro d D D' hD hobs
    have hlt : d < s.told.length := hs.length ▸ (List.getElem?_eq_some_iff.mp hD).1
    obtain ⟨before, after, -, heq, hset⟩ :=
      share_set (f := Dispatch.observers) (n := n) hD (List.getElem?_eq_getElem hlt)
    rw [hset, heq, hobs]
  cases hs.turn J ipc h with
  | opened hm _ hobs htold hds =>
    refine ⟨hinv, by simp [hds, htold, hs.length], ?_⟩
    rw [offered_snoc, hs.offered, hds, htold, share_append hs.length, share_singleton, hobs]
    by_cases hn : some n ∈ s.observers.notifications <;> simp [offer, hn, hm]
  | called hD _ htold hds hobs _ _ _ _ =>
    refine ⟨hinv, by simp [hds, htold, hs.length], ?_⟩
    rw [offered_snoc, hs.offered, hds, htold, hset hD hobs]
    exact List.append_nil _
  | moved _ hoffer hD htold hds hobs _ _ =>
    refine ⟨hinv, by simp [hds, htold, hs.length], ?_⟩
    rw [offered_snoc, hs.offered, hds, htold, hset hD hobs, hoffer]
    exact List.append_nil _
  | aside _ hoffer htold hds =>
    refine ⟨hinv, by simp [hds, htold, hs.length], ?_⟩
    rw [offered_snoc, hs.offered, hds, htold, hoffer]
    exact List.append_nil _

omit [DecidableEq ν] in
/-- All dispatches but the last have called everybody. -/
def AllButLast (s : Relay ν) : Prop :=
  ∀ d D, s.observers.dispatches[d]? = some D → d + 1 < s.observers.dispatches.length →
    D.observers.length ≤ D.called

/-- What a step tells `n` is what it adds to the share of those reached: somewhere in it,
and at its end if the dispatch that moves is the last. -/
theorem Turn.reached {n : ν} {tr : List (Relay ν × RelayAct ν)} {s t : Relay ν}
    {a : RelayAct ν} (hs : Books J ipc n tr s) (h : Turn J ipc n s a t) :
    ∃ before after,
      share reached n s.observers.dispatches s.told = before ++ after ∧
      share reached n t.observers.dispatches t.told =
        before ++ ((gets n (s, a)).toList ++ after) ∧
      (AllButLast s → after = []) := by
  cases h with
  | @opened m x D _ hm hzero hobs htold hds =>
    refine ⟨_, [], (List.append_nil _).symm, ?_, fun _ => rfl⟩
    rw [hds, htold, share_append hs.length, share_singleton, Relay.reached, hzero]
    rfl
  | @called d D D' x _ hD hx htold hds hobs hnot hmem hlt _ =>
    obtain ⟨before, after, hlast, heq, hset⟩ := share_set (f := Relay.reached) (n := n) hD hx
    refine ⟨before, after, ?_, ?_, fun hthrough => hlast ?_⟩
    · rw [heq, if_neg hnot, List.nil_append]
    · rw [hds, htold, hset, if_pos hmem]
      simp [gets, hx]
    -- only the last dispatch is not through
    · by_contra hne
      have hd := (List.getElem?_eq_some_iff.mp hD).1
      have := hthrough d D hD (by omega)
      omega
  | @moved _ d D D' _ hgets _ hD htold hds _ hiff _ =>
    refine ⟨_, [], (List.append_nil _).symm, ?_, fun _ => rfl⟩
    have hlt : d < s.told.length := hs.length ▸ (List.getElem?_eq_some_iff.mp hD).1
    obtain ⟨before, after, -, heq, hset⟩ :=
      share_set (f := Relay.reached) (n := n) hD (List.getElem?_eq_getElem hlt)
    rw [hgets, hds, htold, hset, heq]
    simp only [hiff, Option.toList_none, List.append_nil]
  | aside hgets _ htold hds =>
    refine ⟨_, [], (List.append_nil _).symm, ?_, fun _ => rfl⟩
    rw [hgets, hds, htold]
    simp

/-- Whoever is told is told what is offered, and once everybody has been called, that is
all of it. -/
theorem share_reached (n : ν) (s : Relay ν) :
    (share reached n s.observers.dispatches s.told).Sublist
        (share Dispatch.observers n s.observers.dispatches s.told) ∧
      (s.Through → share reached n s.observers.dispatches s.told =
        share Dispatch.observers n s.observers.dispatches s.told) := by
  constructor
  · rw [share, share]
    induction s.observers.dispatches.zip s.told with
    | nil => exact List.Sublist.refl _
    | cons p ps ih =>
      by_cases hmem : some n ∈ reached p.1
      · have hobs : some n ∈ p.1.observers := List.mem_of_mem_take hmem
        simpa [hmem, hobs] using ih
      · by_cases hobs : some n ∈ p.1.observers
        · simpa [hmem, hobs] using ih.cons p.2
        · simpa [hmem, hobs] using ih
  · intro hthrough
    refine List.filterMap_congr fun p hp => ?_
    have hD := hthrough p.1 (List.of_mem_zip hp).1
    rw [reached, hD, List.take_length]

/-- If only the last dispatch is not through, at most one message is missing, the last. -/
theorem share_allButLast {n : ν} {s : Relay ν}
    (hlen : s.observers.dispatches.length = s.told.length) (h : AllButLast s) :
    ∃ missing, share Dispatch.observers n s.observers.dispatches s.told =
      share reached n s.observers.dispatches s.told ++ missing ∧ missing.length ≤ 1 := by
  rcases List.eq_nil_or_concat s.observers.dispatches with hnil | ⟨ds, D, hds⟩
  · exact ⟨[], by simp [hnil, share], Nat.zero_le _⟩
  · rcases List.eq_nil_or_concat s.told with hnil | ⟨told, x, htold⟩
    · rw [hds, hnil] at hlen
      simp at hlen
    · have hlen' : ds.length = told.length := by simpa [hds, htold] using hlen
      have hinit : share reached n ds told = share Dispatch.observers n ds told := by
        refine List.filterMap_congr fun p hp => ?_
        obtain ⟨d, hd⟩ := List.mem_iff_getElem?.mp (List.of_mem_zip hp).1
        have hlt := (List.getElem?_eq_some_iff.mp hd).1
        have hthrough := h d p.1
          (by rw [hds, List.concat_eq_append, List.getElem?_append_left hlt, hd])
          (by rw [hds]; simpa using hlt)
        rw [reached, List.take_of_length_le hthrough]
      rw [hds, htold]
      simp only [List.concat_eq_append, share_append hlen', share_singleton, hinit]
      by_cases hmem : some n ∈ reached D
      · have hobs : some n ∈ D.observers := List.mem_of_mem_take hmem
        exact ⟨[], by simp [hmem, hobs], Nat.zero_le _⟩
      · rw [if_neg hmem, List.append_nil]
        refine ⟨_, rfl, ?_⟩
        split <;> simp

/-- A dispatch that moves on keeps the order, and one that starts does so if everybody has
been called. -/
theorem Turn.allButLast {n : ν} {s t : Relay ν} {a : RelayAct ν} (h : Turn J ipc n s a t)
    (hs : AllButLast s) (hone : a.delivers = true → s.Through) : AllButLast t := by
  have hset : ∀ {d : ℕ} {D D' : Dispatch ν}, s.observers.dispatches[d]? = some D →
      t.observers.dispatches = s.observers.dispatches.set d D' → D'.observers = D.observers →
      D.called ≤ D'.called → AllButLast t := by
    intro d D D' hD hds hobs hle e E hE hlt
    rw [hds, List.length_set] at hlt
    rw [hds, List.getElem?_set] at hE
    split at hE
    · obtain rfl := ‹d = e›
      obtain ⟨-, hE⟩ := Option.ite_none_right_eq_some.mp hE
      obtain rfl := Option.some.inj hE
      exact hobs ▸ (hs d D hD hlt).trans hle
    · exact hs e E hE hlt
  cases h with
  | opened _ _ _ _ hds =>
    intro d D hD hlt
    rw [hds, List.length_append, List.length_singleton] at hlt
    rw [hds, List.getElem?_append_left (by omega)] at hD
    exact (hone rfl D (List.mem_of_getElem? hD)).ge
  | called hD _ _ hds hobs _ _ _ hle => exact hset hD hds hobs hle
  | moved _ _ hD _ hds hobs _ hle => exact hset hD hds hobs hle
  | aside _ _ _ hds =>
    intro d D hD hlt
    rw [hds] at hD hlt
    exact hs d D hD hlt

/-! ## Whole runs -/

/-- In every run, `n` is told what the dispatches have reached it with, in some order. -/
theorem received_perm {s : Relay ν} {tr : List (Relay ν × RelayAct ν)} (n : ν)
    (h : Run (Steps J ipc) fresh tr s) :
    Books J ipc n tr s ∧
      (received n tr).Perm (share reached n s.observers.dispatches s.told) := by
  induction h with
  | nil => exact ⟨books_fresh J ipc n, .nil⟩
  | @snoc s _ _ a _ hst ih =>
    obtain ⟨hs, hperm⟩ := ih
    refine ⟨hs.step J ipc hst, ?_⟩
    obtain ⟨before, after, heq, hnext, -⟩ := (hs.turn J ipc hst).reached J ipc hs
    rw [received_snoc, hnext]
    have happend := (heq ▸ hperm).append_right (gets n (s, a)).toList
    rw [List.append_assoc] at happend
    exact happend.trans (List.perm_append_comm.append_left before)

/-- If the bus delivers one message after the other, `n` is told in that order. -/
theorem received_eq {s : Relay ν} {tr : List (Relay ν × RelayAct ν)} (n : ν)
    (h : Run (Steps J ipc) fresh tr s) (hone : OneByOne tr) :
    AllButLast s ∧ received n tr = share reached n s.observers.dispatches s.told := by
  induction h with
  | nil => exact ⟨fun _ _ h => by simp [fresh, Observers.fresh] at h, rfl⟩
  | @snoc s t tr a hrun hst ih =>
    obtain ⟨hlast, heq⟩ := ih fun p hp => hone p (List.mem_append_left _ hp)
    have hs := (received_perm J ipc n hrun).1
    have hturn := hs.turn J ipc hst
    refine ⟨?_, ?_⟩
    · exact hturn.allButLast J ipc hlast
        (hone (s, a) (List.mem_append_right _ (List.mem_singleton_self _)))
    · obtain ⟨before, after, hnow, hnext, hafter⟩ := hturn.reached J ipc hs
      obtain rfl := hafter hlast
      rw [received_snoc, heq, hnow, hnext, List.append_nil, List.append_nil]

/-- What has arrived of what was sent: a part of it, each once; all of it when everybody has
been called; and in order, with at most the latest missing, if the messages came one by one. -/
structure Arrives (s : Relay ν) (tr : List (Relay ν × RelayAct ν))
    (sent got : List Notification) : Prop where
  /-- nothing else arrives, and nothing twice -/
  subperm : got.Subperm sent
  /-- in the end everything does -/
  perm : s.Through → got.Perm sent
  /-- and in order -/
  inOrder : OneByOne tr → ∃ missing, sent = got ++ missing ∧ missing.length ≤ 1 ∧
    (s.Through → missing = [])

theorem arrives {s : Relay ν} {tr : List (Relay ν × RelayAct ν)}
    (h : Run (Steps J ipc) fresh tr s) (n : ν) :
    Arrives s tr (offered J ipc n tr) (received n tr) := by
  obtain ⟨hs, hperm⟩ := received_perm J ipc n h
  obtain ⟨hsub, hall⟩ := share_reached n s
  rw [hs.offered]
  refine ⟨hperm.subperm.trans hsub.subperm, fun hthrough => hall hthrough ▸ hperm,
    fun hone => ?_⟩
  obtain ⟨hlast, heq⟩ := received_eq J ipc n h hone
  rw [heq]
  obtain ⟨missing, hmissing, hlen⟩ := share_allButLast hs.length hlast
  refine ⟨missing, hmissing, hlen, fun hthrough => ?_⟩
  rw [hall hthrough] at hmissing
  exact List.self_eq_append_right.mp hmissing

end Relay

open Relay in
/-- **From the bus to the observers.** Clients register and unregister, the bus delivers
messages and their dispatches run, in any interleaving. What an observer is told is, up to
the order, part of what the bus said while it was registered, each message once, and all of
it when every dispatch has called everybody. If moreover the bus delivers one message after
the other, the order is that of the messages, and only the latest can be missing. -/
theorem received_in_order [DecidableEq ν] {s : Relay ν} {tr : List (Relay ν × RelayAct ν)}
    (h : Run (Steps J ipc) fresh tr s) (n : ν) :
    (received n tr).Subperm (offered J ipc n tr) ∧
      (s.Through → (received n tr).Perm (offered J ipc n tr)) ∧
      (OneByOne tr → ∃ missing, offered J ipc n tr = received n tr ++ missing ∧
        missing.length ≤ 1 ∧ (s.Through → missing = [])) := by
  have harrives := arrives J ipc h n
  exact ⟨harrives.subperm, harrives.perm, harrives.inOrder⟩

/-- A validation event with this text behind a header of one byte. -/
def validationMessage (text : String) : BusMessage :=
  ⟨"Ctrlm", some .validationStatus, some ⟨[0] ++ bytes text ++ [0], []⟩⟩

/-- A key with the code 0 is pressed. -/
def keyZero : String := "\x7b\"status\":\x7b\"status\":\"PENDING\",\"key\":0\x7d\x7d"

/-- No key is pressed. -/
def noKey : String := "\x7b\"status\":\x7b\"status\":\"PENDING\"\x7d\x7d"

/-- An observer registers and gets one event; then the next one arrives. -/
def twoEvents : List (RelayAct ℕ) :=
  [.other (.register .client (some 4)), .deliver (validationMessage keyZero),
    .other (.enterCallback 0 (some 4)), .other (.leaveCallback 0),
    .deliver (validationMessage noKey)]

open Relay in
/-- In that run, the second event is still missing. -/
theorem received_in_order_two :
    ∃ (s : Relay ℕ) (tr : List (Relay ℕ × RelayAct ℕ)) (missing : List Notification),
      follow (advance treeJson ⟨"Ctrlm", 1⟩) fresh twoEvents = some (tr, s) ∧
      offered treeJson ⟨"Ctrlm", 1⟩ 4 tr = received 4 tr ++ missing ∧
      received 4 tr = [.onValidation ⟨.pending, [], some 0⟩] ∧
      missing = [.onValidation ⟨.pending, [], none⟩] := by
  have hall : (follow (advance treeJson ⟨"Ctrlm", 1⟩) fresh twoEvents).map
      (fun p => (received 4 p.1, offered treeJson ⟨"Ctrlm", 1⟩ 4 p.1, decide (OneByOne p.1))) =
      some ([.onValidation ⟨.pending, [], some 0⟩],
        [.onValidation ⟨.pending, [], some 0⟩, .onValidation ⟨.pending, [], none⟩], true) := by
    decide +kernel
  obtain ⟨⟨tr, s⟩, hs, hvalues⟩ := Option.map_eq_some_iff.mp hall
  obtain ⟨hreceived, hrest⟩ := Prod.mk.inj hvalues
  obtain ⟨hoffered, hone⟩ := Prod.mk.inj hrest
  have hrun : Run (Steps treeJson ⟨"Ctrlm", 1⟩) fresh tr s := by
    refine Run.of_follow (fun _ _ _ _ hm => ?_) hs
    exact steps_of_advance _ _ hm
  obtain ⟨-, -, hordered⟩ := received_in_order _ _ hrun 4
  obtain ⟨missing, hmissing, -, -⟩ := hordered (of_decide_eq_true hone)
  refine ⟨s, tr, missing, hs, hmissing, hreceived, ?_⟩
  rw [hoffered, hreceived] at hmissing
  exact (List.cons.inj hmissing).2.symm

end RemoteControl
