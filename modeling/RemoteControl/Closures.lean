import RemoteControl.Activation

/-!
# Closures: who is told that a connection is gone

`Deactivated` turns the closure of the plugin's own remote connection into a job that
deactivates the plugin. Two teardown paths close that connection themselves:
`Deinitialize` unregisters `_connectionNotification` **before** it terminates the
connection, the rollback of `Initialize` only afterwards.

* `closing` — the calls of the plugin among closures that are notified at any time
  while the notification is registered.
* `Concerned` — the closure is the plugin's business.
* `InRollback` — where a closure is mistaken for one.
* `deactivates_own_failures_iff` — it is nowhere else.
-/

namespace RemoteControl

open Interaction Runs

/-- The closure of a remote connection, notified by a shell. -/
inductive Closure where
  /-- connection `c` is closed -/
  | closed (service : Shell) (c : ConnectionId)
  deriving DecidableEq

/-- A `DEACTIVATED`/`FAILURE` job. -/
structure DeactivationJob where
  /-- the shell it is for -/
  service : Shell
  /-- the connection whose closure has led to it -/
  connection : ConnectionId
  deriving DecidableEq

/-- `Deactivated(connection)`: the job it submits. The reference it takes on the shell for
that is dropped right after. -/
def PluginState.deactivated (k : PluginState) (c : ConnectionId) : Option DeactivationJob :=
  if c = k.members.connectionId then
    match k.members.service with
    | some service => some ⟨service, c⟩
    | none => none
  else none

/-- `_connectionNotification` is registered with a shell. -/
def PluginState.Listening (k : PluginState) (service : Shell) : Prop :=
  k.ledger.given (.connectionNotification service) <
    k.ledger.taken (.connectionNotification service)

instance (k : PluginState) (service : Shell) : Decidable (k.Listening service) :=
  inferInstanceAs (Decidable (_ < _))

/-- The jobs after a closure. -/
def notifyClosure (k : PluginState) (jobs : List DeactivationJob) :
    Closure → Option (List DeactivationJob)
  | .closed service c =>
    if c ≠ 0 ∧ k.Listening service then some (jobs ++ (k.deactivated c).toList) else none

/-- The calls of the plugin among the closures. -/
abbrev closing : Setting PluginCall PluginOp PluginOp.Answer (Option String) PluginState
    (List DeactivationJob) Closure where
  machine := pluginMachine
  body := PluginCall.body
  ready := fun k _ c => c.ready k
  allow := fun _ _ _ _ => True
  react := fun _ jobs _ _ => jobs
  env := notifyClosure

/-- The configurations of `closing`. -/
abbrev ClosingConf : Type :=
  Conf PluginCall PluginOp PluginOp.Answer (Option String) PluginState (List DeactivationJob)

/-- The actions of `closing`. -/
abbrev ClosingAct : Type := Act PluginCall PluginOp PluginOp.Answer (Option String) Closure

/-- The plugin is initialised, or being initialised, on connection `c`: it is what the last
`Root` has made, and that was in the `Initialize` under way or in the last one. -/
def Concerned (s : ClosingConf) (c : ConnectionId) : Prop :=
  match s.ctrl with
  | .busy (.initializeFor _) e _ => s.core.roots = e.roots ++ [c]
  | _ => s.core.roots.getLast? = some c ∧ ∃ service, s.core.Initialised service

/-- `Initialize` is in its rollback, has terminated connection `c`, and `_connectionId` is
not cleared yet. -/
def InRollback (s : ClosingConf) (c : ConnectionId) : Prop :=
  ∃ service e o f, s.ctrl = .busy (.initializeFor service) e (.op o f) ∧
    (o = .act (.connectionRelease c) ∨
      (o = .act (.setConnectionId 0) ∧ s.core.terminated = e.terminated ++ [c]))

/-! ## Where the plugin is -/

theorem PluginState.deactivated_ne_none {k : PluginState} {c : ConnectionId} :
    k.deactivated c ≠ none ↔ c = k.members.connectionId ∧ k.members.service ≠ none := by
  rw [deactivated]
  by_cases hc : c = k.members.connectionId
  · rcases hs : k.members.service with _ | s <;> simp [hc]
  · simp [hc]

/-- A settled plugin submits jobs only for its connection. -/
theorem PluginState.Settled.deactivated {k : PluginState} {c : ConnectionId} (h : k.Settled)
    (hc : c ≠ 0) (hjob : k.deactivated c ≠ none) :
    (k.roots.getLast? = some c ∧ ∃ service, k.Initialised service) ∧ c ∉ k.terminated := by
  obtain ⟨rfl, hservice⟩ := deactivated_ne_none.mp hjob
  obtain ⟨hlast, hopen⟩ := h.current hservice
  refine ⟨⟨hlast, h.status.resolve_left fun hreset => hservice hreset.service_eq⟩, ?_⟩
  exact hopen.resolve_left hc

/-- **Outside the rollback's window** a job is for the plugin's own connection, which the
plugin has not terminated. -/
theorem concerned_of_job {s : ClosingConf} {service : Shell} {c : ConnectionId}
    (h : PluginCore closing s) (hc : c ≠ 0) (hlistening : s.core.Listening service)
    (hjob : s.core.deactivated c ≠ none) (hwindow : ¬ InRollback s c) :
    Concerned s c ∧ c ∉ s.core.terminated := by
  obtain ⟨ctrl, k, jobs⟩ := s
  have hsettled : k.Settled → (k.roots.getLast? = some c ∧ ∃ service, k.Initialised service) ∧
      c ∉ k.terminated := fun hk => hk.deactivated hc hjob
  rcases ctrl with _ | ⟨call, e, r | ⟨o, f⟩⟩
  · exact hsettled h
  · obtain ⟨hdone, hk⟩ : call.Done e r k ∧ k.Settled := h
    cases call with
    | initializeFor service =>
      refine ⟨?_, (hsettled hk).2⟩
      obtain ⟨rfl, hservice⟩ := PluginState.deactivated_ne_none.mp hjob
      obtain ⟨message, -, ⟨-, -, hroots⟩ | ⟨-, hreset⟩⟩ := hdone
      · exact hroots
      · exact absurd hreset.service_eq hservice
    | deinitializeFor service => exact hsettled hk
  · obtain ⟨houtline, he⟩ : call.Outline e k o ∧ e.Settled := h.1
    cases call with
    | initializeFor service =>
      have hlaunch : Launching service e k o := houtline
      obtain ⟨rfl, -⟩ := PluginState.deactivated_ne_none.mp hjob
      obtain ⟨hroots, hnew⟩ := hlaunch.current.resolve_left hc
      refine ⟨hroots, ?_⟩
      rcases hlaunch.terminated.resolve_left hc with hterm | ⟨hterm, hclosing⟩
      · rw [hterm]
        exact fun hmem => hnew (he.former _ hmem)
      -- after `Terminate` there are only the two operations of the window
      · exfalso
        apply hwindow
        refine ⟨service, e, o, f, rfl, ?_⟩
        cases o with
        | act a =>
          cases a with
          | connectionRelease c' =>
            obtain ⟨rfl, -⟩ := hlaunch.released c' rfl
            exact .inl rfl
          | setConnectionId c' =>
            rcases c' with _ | c'
            · exact .inr ⟨rfl, hterm⟩
            · exact hclosing.elim
          | _ => exact hclosing.elim
        | _ => exact hclosing.elim
    | deinitializeFor service' =>
      obtain rfl : k = e := Retiring.untouched houtline ⟨service, hlistening⟩
      exact hsettled he

/-- **In the window** there is a job for the connection the plugin has terminated. -/
theorem job_of_inRollback {s : ClosingConf} {c : ConnectionId} (h : PluginCore closing s)
    (hwindow : InRollback s c) : s.core.deactivated c ≠ none ∧ c ∈ s.core.terminated := by
  obtain ⟨ctrl, k, jobs⟩ := s
  obtain ⟨service, e, o, f, rfl, ho⟩ := hwindow
  obtain ⟨hlaunch, -⟩ : Launching service e k o ∧ e.Settled := h.1
  rw [PluginState.deactivated_ne_none]
  rcases ho with rfl | ⟨rfl, hterm⟩
  · obtain ⟨hc, hterm⟩ := hlaunch.released c rfl
    have hservice : k.members.service = some service := hlaunch.serving trivial
    refine ⟨⟨hc, by rw [hservice]; nofun⟩, ?_⟩
    rw [hterm]
    exact List.mem_append_right _ (List.mem_singleton_self c)
  · have hservice : k.members.service = some service := hlaunch.serving trivial
    have hterm : k.terminated = e.terminated ++ [c] := hterm
    refine ⟨⟨?_, by rw [hservice]; nofun⟩, ?_⟩
    · rcases hlaunch.cleared rfl with hnone | hone
      · rw [hnone] at hterm
        simp at hterm
      · exact List.singleton_inj.mp (List.append_cancel_left (hterm.symm.trans hone))
    · rw [hterm]
      exact List.mem_append_right _ (List.mem_singleton_self c)

/-! ## The theorem -/

/-- **Closures.** In every run of the plugin among closures: every job is for a connection
the plugin is initialised or being initialised on and has not terminated itself, if and
only if no closure of the terminated connection is notified in a rollback, between
`Terminate` and the clearing of `_connectionId`. -/
theorem deactivates_own_failures_iff {conf : ClosingConf} {tr : List (ClosingConf × ClosingAct)}
    (h : closing.RunOf ⟨.idle, .fresh, []⟩ tr conf) :
    (∀ s service c, (s, .other (.closed service c)) ∈ tr → s.core.deactivated c ≠ none →
        Concerned s c ∧ c ∉ s.core.terminated) ↔
      ∀ s service c, (s, .other (.closed service c)) ∈ tr → ¬ InRollback s c := by
  obtain ⟨-, hall⟩ := Setting.core_run (W := closing) (G := fun c e => c.Track e)
    (fun c k _ hk hready => wlp_track c hk hready) h PluginState.settled_fresh
  constructor
  · intro hjobs s service c hmem hwindow
    obtain ⟨hjob, hterm⟩ := job_of_inRollback (hall _ hmem) hwindow
    exact (hjobs s service c hmem hjob).2 hterm
  · intro hwindow s service c hmem hjob
    obtain ⟨t, hstep⟩ := h.step_of_mem hmem
    have henv : c ≠ 0 ∧ s.core.Listening service := by
      cases hstep with
      | other henv => exact (Option.ite_none_right_eq_some.mp henv).1
    exact concerned_of_job (hall _ hmem) henv.1 henv.2 hjob (hwindow s service c hmem)

/-- The plugin is initialised behind connection `5`, somebody else's connection closes, and
then its own. -/
def ownFailure : List (Move PluginCall PluginOp PluginOp.Answer PluginState Closure) :=
  [.enter (.initializeFor 7)] ++ List.replicate 12 (.answer (hosted 1 5 .errorNone .errorNone)) ++
    [.leave, .other (.closed 7 9), .other (.closed 7 5)]

/-- The closure is outside every call. -/
def betweenCalls (p : ClosingConf × ClosingAct) : Bool :=
  match p.2, p.1.ctrl with
  | .other _, .busy _ _ _ => false
  | _, _ => true

/-- There is one job, and it is for the plugin's own connection. -/
theorem deactivates_own_failures_iff_ownFailure :
    ∃ tr conf, follow closing.advance ⟨.idle, .fresh, []⟩ ownFailure = some (tr, conf) ∧
      conf.rest = [⟨7, 5⟩] ∧
      ∃ s, (s, .other (.closed 7 5)) ∈ tr ∧ Concerned s 5 ∧ 5 ∉ s.core.terminated := by
  obtain ⟨⟨tr, conf⟩, hfollow⟩ : ∃ p, follow closing.advance ⟨.idle, .fresh, []⟩ ownFailure =
      some p := ⟨_, rfl⟩
  have hbetween : ∀ p ∈ tr, betweenCalls p = true := by
    obtain ⟨rfl, -⟩ := Prod.mk.inj (Option.some.inj hfollow)
    decide
  have hclosed : ∃ s, (s, .other (.closed 7 5)) ∈ tr ∧ s.core.deactivated 5 ≠ none := by
    obtain ⟨rfl, -⟩ := Prod.mk.inj (Option.some.inj hfollow)
    exact ⟨_, List.mem_of_getElem? (i := 15) rfl, by decide⟩
  have hjobs : conf.rest = [⟨7, 5⟩] := by
    obtain ⟨-, rfl⟩ := Prod.mk.inj (Option.some.inj hfollow)
    rfl
  have hwindow : ∀ s service c, (s, .other (.closed service c)) ∈ tr → ¬ InRollback s c := by
    rintro s service c hmem ⟨service', e, o, f, hctrl, -⟩
    have hidle := hbetween _ hmem
    rw [betweenCalls, hctrl] at hidle
    cases hidle
  obtain ⟨s, hmem, hjob⟩ := hclosed
  exact ⟨tr, conf, hfollow, hjobs, s, hmem,
    (deactivates_own_failures_iff (closing.run_of_follow hfollow)).mpr hwindow s 7 5 hmem hjob⟩

/-- `Configure` fails, and the closure of the connection is notified right after the
rollback has terminated it. -/
def closedInRollback : List (Move PluginCall PluginOp PluginOp.Answer PluginState Closure) :=
  [.enter (.initializeFor 7)] ++
    List.replicate 19 (.answer (hosted 1 5 .errorGeneral .errorNone)) ++ [.other (.closed 7 5)]

/-- Then a job deactivates the plugin for a connection it has terminated itself. -/
theorem rollback_deactivates :
    ∃ tr conf s, closing.RunOf ⟨.idle, .fresh, []⟩ tr conf ∧
      (s, .other (.closed 7 5)) ∈ tr ∧ s.core.deactivated 5 = some ⟨7, 5⟩ ∧
      5 ∈ s.core.terminated ∧ conf.rest = [⟨7, 5⟩] := by
  obtain ⟨⟨tr, conf⟩, hfollow⟩ : ∃ p, follow closing.advance ⟨.idle, .fresh, []⟩
      closedInRollback = some p := ⟨_, rfl⟩
  have hrun := closing.run_of_follow hfollow
  obtain ⟨rfl, rfl⟩ := Prod.mk.inj (Option.some.inj hfollow)
  exact ⟨_, _, _, hrun, List.mem_of_getElem? (i := 20) rfl, rfl, by decide, rfl⟩

end RemoteControl
