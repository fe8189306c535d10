import RemoteControl.Accounts
import RemoteControl.Replies

/-!
# Proxy: the plugin in front of ctrlm

Every method of `IRemoteControl` that talks to ctrlm writes its arguments into a text, has
the bus carry it to ctrlm, and takes the text of the answer apart. Clients call such methods
at any time, on any number of threads; the bus may lose a request or an answer, and a
request whose caller has given up waiting may still be carried out later.

* `Service` — ctrlm, as the clients would like to see it: requests in, answers out.
* `Direct` — a call of a method, as one step of this service.
* `Conveyed`, `methods` — the methods as they are: programs over memory and the bus.
* `methods_linearize` — what the clients see of the methods is what they would see of the
  service.
-/

namespace RemoteControl

open Interaction Commitment Runs

/-! ## The service -/

/-- A call of a method: its arguments, and what its outputs hold before. -/
structure MethodCall where
  /-- the arguments -/
  request : Request
  /-- what the outputs hold -/
  before : request.Outs

/-- What it returns. -/
abbrev MethodCall.Result (c : MethodCall) : Type := Returned c.request.InOuts c.request.Outs

/-- What ctrlm does, whatever that is. -/
structure Service (σ : Type) where
  /-- its answer to a request, unless that is only that there was no success, and its state
  afterwards -/
  serve : (r : Request) → σ → Option (r.InOuts × r.Outs) × σ
  /-- what may become of its state without a request -/
  changes : σ → σ → Prop

/-- ctrlm, and what is on its way to it. -/
structure Ctrlm (σ : Type) where
  /-- its state -/
  state : σ
  /-- the requests it has got -/
  got : List Request
  /-- the requests it will get when nobody waits for the answer -/
  late : List Request

/-- ctrlm when it has got a request. -/
def Ctrlm.after {σ : Type} (k : Ctrlm σ) (S : Service σ) (r : Request) : Ctrlm σ :=
  { k with
    state := (S.serve r k.state).2
    got := k.got ++ [r] }

/-- What it does by itself. -/
inductive CtrlmEvent where
  /-- its state changes -/
  | changed
  /-- it gets a request for whose answer nobody waits -/
  | overtaken (r : Request)

/-- One of these. -/
inductive Service.Own {σ : Type} (S : Service σ) : Ctrlm σ → CtrlmEvent → Ctrlm σ → Prop where
  /-- its state changes -/
  | changed {k : Ctrlm σ} {state : σ} : S.changes k.state state →
      Own S k .changed { k with state := state }
  /-- it gets one of the requests -/
  | overtaken {k : Ctrlm σ} {pre post : List Request} {r : Request} :
      k.late = pre ++ r :: post →
      Own S k (.overtaken r) { k.after S r with late := pre ++ post }

/-- A call of a method as one step: ctrlm has not got the request, or has got it and the answer
is what the client returns with, or the client returns as if there was no answer. -/
inductive Service.Direct {σ : Type} (S : Service σ) (k : Ctrlm σ) (c : MethodCall) :
    c.Result → Ctrlm σ → Prop where
  /-- ctrlm does not get the request -/
  | undone : Direct S k c (c.request.failure c.before) k
  /-- it gets it later -/
  | late : c.request.accepted = true →
      Direct S k c (c.request.failure c.before) { k with late := k.late ++ [c.request] }
  /-- it gets it, but its answer is lost -/
  | unanswered : c.request.accepted = true →
      Direct S k c (c.request.failure c.before) (k.after S c.request)
  /-- it answers that there was no success -/
  | refused : c.request.accepted = true → (S.serve c.request k.state).1 = none →
      Direct S k c (c.request.refusal c.before) (k.after S c.request)
  /-- it answers -/
  | answered {inouts : c.request.InOuts} {outs : c.request.Outs} : c.request.accepted = true →
      (S.serve c.request k.state).1 = some (inouts, outs) →
      Direct S k c ⟨.errorNone, inouts, c.request.handedOut outs⟩ (k.after S c.request)

/-! ## The methods -/

section

variable {J : JsonLib} (N : J.Writing) {σ : Type} (S : Service σ)

/-- The request that ctrlm reads in a payload, up to the NUL. -/
def understood (J : JsonLib) (method : CtrlmCall) (payload : List Char) : Option Request :=
  Request.readBack J method (J.fromString (String.ofList (payload.takeWhile (· ≠ '\x00'))))

/-- What may become of a payload on the bus: the answer, and ctrlm after it. -/
inductive Conveyed (k : Ctrlm σ) (method : CtrlmCall) (payload : List Char) :
    IarmResult × String → Ctrlm σ → Prop where
  /-- it does not arrive -/
  | lost {res : IarmResult} {text : String} : res ≠ .success →
      Conveyed k method payload (res, text) k
  /-- ctrlm cannot read it -/
  | unreadable {x : IarmResult × String} : understood J method payload = none →
      Conveyed k method payload x k
  /-- it arrives when nobody waits any longer -/
  | late {r : Request} {res : IarmResult} {text : String} :
      understood J method payload = some r → res ≠ .success →
      Conveyed k method payload (res, text) { k with late := k.late ++ [r] }
  /-- it arrives, but not the answer -/
  | unanswered {r : Request} {res : IarmResult} {text : String} :
      understood J method payload = some r → res ≠ .success →
      Conveyed k method payload (res, text) (k.after S r)
  /-- ctrlm answers that there was no success -/
  | refused {r : Request} {text : String} : understood J method payload = some r →
      (S.serve r k.state).1 = none → J.fromString text = J.objectOf [Request.flag J false] →
      Conveyed k method payload (.success, text) (k.after S r)
  /-- it answers -/
  | answered {r : Request} {inouts : r.InOuts} {outs : r.Outs} {text : String} :
      understood J method payload = some r → (S.serve r k.state).1 = some (inouts, outs) →
      J.fromString text = r.reply N inouts outs →
      Conveyed k method payload (.success, text) (k.after S r)

/-- What an operation of a method does to ctrlm. -/
def conveys (k : Ctrlm σ) : (o : CtrlmOp) → o.Answer → Ctrlm σ → Prop
  | .busCall method payload, x, k' => Conveyed N S k method payload x k'
  | .busCallWithIPCTimeout method payload _, x, k' => Conveyed N S k method payload x k'
  | _, _, k' => k' = k

/-- The methods: of their operations, the bus calls touch ctrlm. -/
def methods : Clients MethodCall CtrlmOp CtrlmOp.Answer MethodCall.Result (Ctrlm σ) CtrlmEvent where
  body c := c.request.run J c.before
  touches o := o.sent?.isSome
  effect := conveys N S
  own := S.Own

end

/-! ## Each method touches ctrlm once -/

section

variable {J : JsonLib} {N : J.Writing} {σ : Type} {S : Service σ} {α : Type}

/-- Creating iterators touches nothing. -/
theorem settled_of_ops {w : Outcome} {p : CtrlmM α} {elements : List (List String)}
    (h : p.ops w.answer = elements.map CtrlmOp.createIterator) :
    (methods N S).Settled (p.eval w.answer) p := by
  induction p generalizing elements with
  | ret a => rfl
  | op o f ih =>
    cases elements with
    | nil => cases h
    | cons it elements =>
      obtain ⟨rfl, hrest⟩ := List.cons.inj h
      exact ⟨rfl, fun x => ih x hrest⟩

/-- The bus call is the touch. -/
theorem serves_busCall {one : Ctrlm σ → α → Ctrlm σ → Prop} {method : CtrlmCall}
    {payload : List Char} {timeoutMs : ℤ} {f : IarmResult × String → CtrlmM α}
    (h : ∀ k x k', Conveyed N S k method payload x k' →
      ∃ a, (methods N S).Settled a (f x) ∧ one k a k') :
    (methods N S).Serves one (busCall method payload timeoutMs >>= f) := by
  unfold busCall
  split
  · exact .touch rfl h
  · exact .touch rfl h

/-- The frame of the methods touches ctrlm once. -/
theorem serves_exchange {one : Ctrlm σ → α → Ctrlm σ → Prop} {method : CtrlmCall}
    {params : J.Object} {timeoutMs : ℤ} {failed : CtrlmM α} {replied : J.Object → CtrlmM α}
    {a : α} {b : J.Object → α} (hfailed : (methods N S).Settled a failed)
    (hreplied : ∀ reply, (methods N S).Settled (b reply) (replied reply))
    (hundone : ∀ k, one k a k)
    (hconveyed : ∀ k x k', Conveyed N S k method (copied (J.toString params)) x k' →
      one k (if x.1 ≠ .success then a else b (J.fromString x.2)) k') :
    (methods N S).Serves one (exchange J method params timeoutMs failed replied) := by
  unfold exchange iarmBusCall calloc
  refine .aside rfl fun allocated => ?_
  cases allocated with
  | false => exact hfailed.serves hundone
  | true =>
    show (methods N S).Serves one ((busCall _ _ _ >>= _) >>= _)
    rw [bind_assoc]
    refine serves_busCall fun k x k' hx => ⟨_, ?_, hconveyed k x k' hx⟩
    obtain ⟨res, text⟩ := x
    cases res with
    | success => exact ⟨rfl, fun _ => hreplied _⟩
    | _ => exact ⟨rfl, fun _ => hfailed⟩

/-- A method is one step, if each outcome of its call is. -/
theorem serves_run {r : Request} {before : r.Outs}
    {one : Ctrlm σ → Returned r.InOuts r.Outs → Ctrlm σ → Prop}
    (hundone : ∀ k, one k (r.failure before) k)
    (hconveyed : r.accepted = true → ∀ k res text k',
      Conveyed N S k r.method (copied (J.toString (r.params J))) (res, text) k' →
      one k ((r.run J before).eval (Outcome.answer ⟨true, res, text⟩)) k') :
    (methods N S).Serves one (r.run J before) := by
  let w : Outcome := ⟨false, .success, ""⟩
  rcases r.run_cases (J := J) w before with ⟨hrejected, n, hexit⟩ |
      ⟨haccepted, failed, replied, hrun, ⟨n, hfailed⟩, hreplied⟩
  · have hsettled := settled_of_ops (N := N) (S := S) hexit.ops
    rw [Request.eval_failed (.inl hrejected)] at hsettled
    exact hsettled.serves hundone
  · have hfailure : failed.eval w.answer = r.failure before := by
      rw [← Request.eval_failed (J := J) (w := w) (.inr (.inl rfl)), hrun, Outcome.eval_exchange,
        if_pos (.inl rfl)]
    have hsettled := settled_of_ops (N := N) (S := S) hfailed.ops
    have hsettled' : ∀ reply,
        (methods N S).Settled ((replied reply).eval w.answer) (replied reply) := fun reply => by
      obtain ⟨elements, hexit⟩ := hreplied reply
      exact settled_of_ops hexit.ops
    rw [hfailure] at hsettled
    rw [hrun]
    refine serves_exchange hsettled hsettled' hundone fun k x k' hx => ?_
    obtain ⟨res, text⟩ := x
    have hone := hconveyed haccepted k res text k' hx
    rw [hrun, Outcome.eval_exchange, hsettled.eval, (hsettled' _).eval] at hone
    by_cases hres : res = .success
    · subst hres
      exact hone
    · rw [if_pos (.inr hres)] at hone
      rw [if_pos hres]
      exact hone

/-- What ctrlm reads of a method's payload are the arguments. -/
def Legible (J : JsonLib) (r : Request) : Prop :=
  understood J r.method (copied (J.toString (r.params J))) = some r

/-- So it is when the text of the arguments stands for them and has no NUL in it. -/
theorem legible_of_round (hJ : J.Lawful) {r : Request} (haccepted : r.accepted = true)
    (hround : J.fromString (J.toString (r.params J)) = r.params J)
    (hnul : '\x00' ∉ (J.toString (r.params J)).toList) : Legible J r := by
  have hread : ((J.toString (r.params J)).toList ++ ['\x00']).takeWhile (· ≠ '\x00') =
      (J.toString (r.params J)).toList := by
    rw [List.takeWhile_append_of_pos]
    · exact List.append_nil _
    · exact fun c hc => decide_eq_true fun heq => hnul (heq ▸ hc)
  rw [Legible, understood, copied_eq, hread, String.ofList_toList, hround,
    Request.readBack_params hJ haccepted]

/-- **A method is a direct call**, with whatever comes of its request. -/
theorem serves_method (hJ : J.Lawful) (hI : J.Indexed) {c : MethodCall}
    (hlegible : c.request.accepted = true → Legible J c.request) :
    (methods N S).Serves (fun k r k' => S.Direct k c r k') (c.request.run J c.before) := by
  refine serves_run (fun k => .undone) fun haccepted k res text k' hx => ?_
  have hread := hlegible haccepted
  have hfailed : res ≠ .success → (c.request.run J c.before).eval
      (Outcome.answer ⟨true, res, text⟩) = c.request.failure c.before := fun hres =>
    Request.eval_failed (.inr (.inr hres)) c.before
  cases hx with
  | lost hres =>
    rw [hfailed hres]
    exact .undone
  | unreadable hnone => exact absurd (hnone.symm.trans hread) (by simp)
  | late hsome hres =>
    rw [hfailed hres]
    obtain rfl := Option.some.inj (hsome.symm.trans hread)
    exact .late haccepted
  | unanswered hsome hres =>
    rw [hfailed hres]
    obtain rfl := Option.some.inj (hsome.symm.trans hread)
    exact .unanswered haccepted
  | refused hsome hserve hobject =>
    obtain rfl := Option.some.inj (hsome.symm.trans hread)
    have hw : ¬ Outcome.Failed ⟨true, .success, text⟩ := Outcome.not_failed_replied text
    rw [Request.eval_refused hJ haccepted hw hobject]
    exact .refused haccepted hserve
  | answered hsome hserve hobject =>
    obtain rfl := Option.some.inj (hsome.symm.trans hread)
    have hw : ¬ Outcome.Failed ⟨true, .success, text⟩ := Outcome.not_failed_replied text
    rw [Request.eval_answered hJ hI N haccepted hw hobject]
    exact .answered haccepted hserve

end

/-! ## The theorem -/

/-- The clients `I` in the middle of their calls. -/
abbrev MethodConf (I σ : Type) : Type :=
  Conf I MethodCall CtrlmOp CtrlmOp.Answer MethodCall.Result (Ctrlm σ)

/-- What is seen of them. -/
abbrev MethodEvent (I : Type) : Type := Event I MethodCall MethodCall.Result CtrlmEvent

/-- The methods are an atomic object, on all requests that ctrlm can read. -/
theorem object_of_methods {J : JsonLib} (hJ : J.Lawful) (hI : J.Indexed) {N : J.Writing}
    {σ I : Type} [DecidableEq I] {S : Service σ} {k : Ctrlm σ} {s : MethodConf I σ}
    {tr : List (MethodConf I σ × Option (MethodEvent I))}
    (h : Run (methods N S).Step (Clients.start k) tr s)
    (hlegible : ∀ i c, Event.enter i c ∈ history tr → c.request.accepted = true →
      Legible J c.request) :
    ∃ otr t, Run (Object.Step (fun k c r k' => S.Direct k c r k') S.Own) (Object.start k) otr t ∧
      history otr = history tr ∧ (methods N S).Matches (fun k c r k' => S.Direct k c r k') s t :=
  Clients.atomic h fun i c henter => serves_method hJ hI (hlegible i c henter)

/-- The answer to a cancellation; the rest is refused. -/
def cancelled : (r : Request) → Option (r.InOuts × r.Outs)
  | .cancelFirmwareUpdate _ => some ((), ⟨true⟩)
  | _ => none

/-- A ctrlm that only cancels. -/
def canceller : Service Unit where
  serve r _ := (cancelled r, ())
  changes _ _ := False

/-- Numbers in the trees. -/
def treeWriting : treeJson.Writing := { treeNesting with
  ofInt64 := Json.number
  number_ofInt64 := fun _ => rfl }

/-- A reset whose answer does not come in time, -/
def reset : MethodCall := ⟨.factoryReset, ⟨true⟩⟩

/-- and a cancellation that is made meanwhile. -/
def cancellation : MethodCall := ⟨.cancelFirmwareUpdate "s", ⟨false⟩⟩

/-- The answer to that. -/
def confirmation : String := "\x7b\"success\":true\x7d"

/-- What is seen: the reset is carried out after the cancellation. -/
def overtaking : List (MethodEvent Bool) :=
  [.enter false reset, .enter true cancellation,
    .leave true cancellation ⟨.errorNone, (), ⟨true⟩⟩, .own (.overtaken .factoryReset),
    .leave false reset ⟨.errorNone, (), ⟨false⟩⟩]

theorem legible_reset : Legible treeJson reset.request := by
  refine legible_of_round treeJson_lawful rfl ?_ (by decide +kernel)
  exact Json.eq_of_sameFields (by decide +kernel)

theorem legible_cancellation : Legible treeJson cancellation.request := by
  refine legible_of_round treeJson_lawful rfl ?_ (by decide +kernel)
  exact Json.eq_of_sameFields (by decide +kernel)

/-- Both can be read. -/
theorem legible_overtaking {i : Bool} {c : MethodCall} (h : .enter i c ∈ overtaking) :
    Legible treeJson c.request := by
  have hcases : i = false ∧ c = reset ∨ i = true ∧ c = cancellation := by
    simpa [overtaking] using h
  rcases hcases with ⟨-, rfl⟩ | ⟨-, rfl⟩
  · exact legible_reset
  · exact legible_cancellation

/-- The clients take turns at the allocations, the bus calls and the releases. -/
theorem run_overtaking :
    ∃ (tr : List (MethodConf Bool Unit × Option (MethodEvent Bool))) (s : MethodConf Bool Unit),
      Run (methods treeWriting canceller).Step (Clients.start ⟨(), [], []⟩) tr s ∧
        history tr = overtaking ∧
        s.shared = ⟨(), [.cancelFirmwareUpdate "s", .factoryReset], []⟩ := by
  have hsuccess : successFlag treeJson (treeJson.fromString confirmation) = true := by
    decide +kernel
  have hlate : Conveyed treeWriting canceller ⟨(), [], []⟩ .factoryReset
      (copied (treeJson.toString (reset.request.params treeJson))) (.ipccoreFail, "")
      ⟨(), [], [.factoryReset]⟩ :=
    .late legible_reset (by decide)
  have hanswered : Conveyed treeWriting canceller ⟨(), [], [.factoryReset]⟩
      .cancelFirmwareUpdate (copied (treeJson.toString (cancellation.request.params treeJson)))
      (.success, confirmation) ⟨(), [.cancelFirmwareUpdate "s"], [.factoryReset]⟩ :=
    .answered legible_cancellation rfl (Json.eq_of_sameFields (by decide +kernel))
  have hovertaken : canceller.Own ⟨(), [.cancelFirmwareUpdate "s"], [.factoryReset]⟩
      (.overtaken .factoryReset) ⟨(), [.cancelFirmwareUpdate "s", .factoryReset], []⟩ :=
    @Service.Own.overtaken _ canceller _ [] [] _ rfl
  have h : Run (methods treeWriting canceller).Step (Clients.start (I := Bool) ⟨(), [], []⟩) [] _ :=
    .nil _
  have h := h.snoc (.enter (i := false) (c := reset) rfl)
  have h := h.snoc (.aside (i := false) (c := reset) (x := true) rfl rfl)
  have h := h.snoc (.enter (i := true) (c := cancellation) rfl)
  have h := h.snoc (.aside (i := true) (c := cancellation) (x := true) rfl rfl)
  have h := h.snoc (.touch (i := false) (c := reset) rfl rfl hlate)
  have h := h.snoc (.touch (i := true) (c := cancellation) rfl rfl hanswered)
  have h := h.snoc (.aside (i := true) (c := cancellation) (x := ()) rfl rfl)
  have h := h.snoc (.leave (i := true) (c := cancellation) rfl)
  have h := h.snoc (.own hovertaken)
  have h := h.snoc (.aside (i := false) (c := reset) (x := ()) rfl rfl)
  have h := h.snoc (.leave (i := false) (c := reset) rfl)
  refine ⟨_, _, h, ?_, rfl⟩
  rw [overtaking, ← hsuccess]
  rfl

namespace Request

/-- Without an answer there is no success. -/
theorem success_failure (r : Request) (before : r.Outs) :
    r.success (r.failure before).outs = false := by
  cases r with
  | _ => rfl

theorem success_refusal (r : Request) (before : r.Outs) :
    r.success (r.refusal before).outs = false := by
  cases r with
  | _ => rfl

end Request

section

variable {σ : Type} {S : Service σ}

theorem count_after (k : Ctrlm σ) (r request : Request) :
    (k.after S r).got.count request = k.got.count request + if r == request then 1 else 0 := by
  rw [Ctrlm.after, List.count_append, List.count_singleton]

/-- ctrlm gets the request of an accepted call, now or later, at most once. -/
theorem Service.Direct.count_le {k k' : Ctrlm σ} {c : MethodCall} {r : c.Result}
    (h : S.Direct k c r k') (request : Request) :
    (k'.got ++ k'.late).count request ≤ (k.got ++ k.late).count request +
      if c.request.accepted && c.request == request then 1 else 0 := by
  have hafter : c.request.accepted = true →
      ((k.after S c.request).got ++ (k.after S c.request).late).count request ≤
        (k.got ++ k.late).count request +
          if c.request.accepted && c.request == request then 1 else 0 := by
    intro haccepted
    have hlate : (k.after S c.request).late = k.late := rfl
    rw [List.count_append, List.count_append, count_after, hlate, haccepted, Bool.true_and]
    omega
  cases h with
  | undone => exact Nat.le_add_right ..
  | late haccepted =>
    simp only [List.count_append, List.count_singleton, haccepted, Bool.true_and]
    omega
  | unanswered haccepted => exact hafter haccepted
  | refused haccepted _ => exact hafter haccepted
  | answered haccepted _ => exact hafter haccepted

/-- And it has got it when the client is told of a success. -/
theorem Service.Direct.count_ge {k k' : Ctrlm σ} {c : MethodCall} {r : c.Result}
    (h : S.Direct k c r k') (request : Request) :
    (k.got.count request +
      if c.request.success r.outs && c.request == request then 1 else 0) ≤
        k'.got.count request := by
  cases h with
  | undone | late =>
    rw [Request.success_failure, Bool.false_and, if_neg Bool.false_ne_true]
    exact Nat.le_refl _
  | unanswered =>
    rw [Request.success_failure, Bool.false_and, if_neg Bool.false_ne_true, count_after]
    exact Nat.le_add_right ..
  | refused =>
    rw [Request.success_refusal, Bool.false_and, if_neg Bool.false_ne_true, count_after]
    exact Nat.le_add_right ..
  | @answered inouts outs =>
    rw [count_after]
    cases c.request.success (c.request.handedOut outs) with
    | false => exact Nat.le_add_right ..
    | true => exact Nat.le_refl _

/-- What ctrlm gets late was counted when it was sent. -/
theorem Service.Own.count {k k' : Ctrlm σ} {e : CtrlmEvent} (h : S.Own k e k')
    (request : Request) :
    (k'.got ++ k'.late).count request = (k.got ++ k.late).count request ∧
      k.got.count request ≤ k'.got.count request := by
  cases h with
  | changed _ => exact ⟨rfl, Nat.le_refl _⟩
  | overtaken hlate =>
    refine ⟨?_, ?_⟩
    · rw [hlate, Ctrlm.after]
      simp only [List.count_append, List.count_cons, List.count_nil]
      omega
    · rw [Ctrlm.after, List.count_append]
      exact Nat.le_add_right ..

end

/-- **At most once.** Of any request, ctrlm has got, and will still get, no more than the
clients have made calls with it that pass the checks; and as many as the calls that have
returned with a success. -/
theorem requests_accounted {J : JsonLib} (hJ : J.Lawful) (hI : J.Indexed) {N : J.Writing}
    {σ I : Type} [DecidableEq I] {S : Service σ} {k : Ctrlm σ} {s : MethodConf I σ}
    {tr : List (MethodConf I σ × Option (MethodEvent I))}
    (h : Run (methods N S).Step (Clients.start k) tr s)
    (hlegible : ∀ i c, Event.enter i c ∈ history tr → c.request.accepted = true →
      Legible J c.request) (request : Request) :
    (s.shared.got ++ s.shared.late).count request ≤ (k.got ++ k.late).count request +
        (Object.entered (history tr)).countP
          (fun c => c.request.accepted && c.request == request) ∧
      k.got.count request + (Object.returned (history tr)).countP
          (fun c => c.1.request.success c.2.outs && c.1.request == request) ≤
        s.shared.got.count request := by
  obtain ⟨otr, t, hrun, hhistory, hmatches⟩ := object_of_methods hJ hI h hlegible
  obtain ⟨str, before, behind, haccounts⟩ := Object.accounts hrun
  rw [← hhistory, ← hmatches.shared]
  constructor
  · refine haccounts.le (m := fun k => (k.got ++ k.late).count request) ?_ ?_
    · exact fun k c r k' hdirect => hdirect.count_le request
    · exact fun k e k' hown => (hown.count request).1.le
  · refine haccounts.ge (m := fun k => k.got.count request) ?_ ?_
    · exact fun k c r k' hdirect => hdirect.count_ge request
    · exact fun k e k' hown => (hown.count request).2

/-- The reset is carried out once, though its client was told that it failed. -/
theorem requests_accounted_overtaking :
    ∃ (tr : List (MethodConf Bool Unit × Option (MethodEvent Bool))) (s : MethodConf Bool Unit),
      Run (methods treeWriting canceller).Step (Clients.start ⟨(), [], []⟩) tr s ∧
      s.shared.got = [.cancelFirmwareUpdate "s", .factoryReset] ∧
      (s.shared.got ++ s.shared.late).count .factoryReset ≤ 1 ∧
      1 ≤ s.shared.got.count (.cancelFirmwareUpdate "s") := by
  obtain ⟨tr, s, h, hhistory, hshared⟩ := run_overtaking
  have hlegible : ∀ i c, Event.enter i c ∈ history tr → c.request.accepted = true →
      Legible treeJson c.request := fun i c henter _ => legible_overtaking (hhistory ▸ henter)
  have hreset := (requests_accounted treeJson_lawful treeJson_indexed h hlegible
    .factoryReset).1
  have hcancellation := (requests_accounted treeJson_lawful treeJson_indexed h hlegible
    (.cancelFirmwareUpdate "s")).2
  rw [hhistory] at hreset hcancellation
  exact ⟨tr, s, h, congrArg Ctrlm.got hshared, hreset, hcancellation⟩

end RemoteControl
