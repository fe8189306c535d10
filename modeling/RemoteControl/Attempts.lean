import RemoteControl.Dialogue

/-!
# Attempts: how `Utils::IARM::init` gets connected

The loop of `init` goes on by a flag and a counter. `initLoop` keeps both as the code
has them; `initAsWritten_eq` says that this is the `init` the rest of the development
uses, where an attempt returns the flag and the retries are counted down.

`init_tries` says what any sequence of answers makes of it: whether there are attempts
at all, how many, what each of them asks for, which is the last, and what is returned.
-/

namespace RemoteControl

open Interaction

/-! ## The loop as it is written -/

namespace IARM

/-- One try to get connected: `result` is written only when `Connect` went through. -/
def tryOnce (result : Bool) : ImplM Bool := do
  let res ← iarmBusInit
  if proceeds res then
    let res ← iarmBusConnect
    if proceeds res then
      isConnected
    else
      return result
  else
    return result

/-- The loop `do { … } while ((result == false) && (retryCount++ < 20))`. -/
def initLoop (result : Bool) (retryCount : ℕ) : ImplM Bool := do
  let result ← tryOnce result
  if result = false then
    usleep 100000
  if h : result = false ∧ retryCount < 20 then
    initLoop result (retryCount + 1)
  else
    return result
termination_by 20 - retryCount

/-- `Utils::IARM::init()`, with its variables. -/
def initAsWritten : ImplM Bool := do
  let result := false
  if ← isConnected then
    return true
  else
    initLoop result 0

theorem tryOnce_false : tryOnce false = connectOnce := rfl

/-- Entered with the flag down, the loop makes an attempt, and goes on if it failed and
retries are left. -/
theorem initLoop_eq (retryCount : ℕ) : initLoop false retryCount =
    attempt >>= fun result =>
      if result = false ∧ retryCount < 20 then initLoop result (retryCount + 1)
      else return result := by
  rw [initLoop, tryOnce_false, attempt]
  simp only [bind_assoc, dite_eq_ite]
  refine bind_congr fun result => ?_
  cases result with
  | false => rfl
  | true => rfl

/-- The counter counts up the retries that the model counts down. -/
theorem initLoop_false {n : ℕ} (hn : n ≤ 20) : initLoop false (20 - n) = attempts n := by
  induction n with
  | zero =>
    rw [initLoop_eq]
    simp only [Nat.sub_zero, Nat.lt_irrefl, and_false, if_false, bind_pure]
    rfl
  | succ n ih =>
    have hnext : 20 - (n + 1) + 1 = 20 - n := by omega
    have hlt : 20 - (n + 1) < 20 := by omega
    rw [initLoop_eq, attempts, hnext]
    refine bind_congr fun result => ?_
    cases result with
    | false =>
      rw [if_pos ⟨rfl, hlt⟩, ih (by omega)]
      rfl
    | true => rfl

/-- The model of `init` is `init` as it is written. -/
theorem initAsWritten_eq : initAsWritten = init := by
  rw [initAsWritten, init, initLoop_false (n := 20) (Nat.le_refl 20)]

end IARM

/-! ## What the attempts are -/

/-- An attempt: it begins with `Init`, asks for it once, and goes on to `Connect`, and from
there to the check, exactly after an answer that lets it. -/
structure IsAttempt (t : List BusEvent) : Prop where
  /-- there is one `Init`, the first thing asked -/
  init : ∃ res rest, t = .init res :: rest ∧ ∀ res', .init res' ∉ rest
  /-- `Connect` comes only after an `Init` that was answered well -/
  connect : ∀ res', .connect res' ∈ t → ∃ res, .init res ∈ t ∧ IARM.proceeds res = true
  /-- after such an `Init` it is what is asked next, and after any other one nothing is -/
  afterInit : ∀ res rest, t = .init res :: rest →
    if IARM.proceeds res = true then ∃ res' rest', rest = .connect res' :: rest' else rest = []
  /-- a `Connect` that was answered well is followed by the check, any other one by nothing -/
  afterConnect : ∀ res res' rest, t = .init res :: .connect res' :: rest →
    if IARM.proceeds res' = true then ∃ v, rest = [.isConnected v] else rest = []

/-- An attempt that gets through: its `Connect` was answered well, and the check that
follows reports a connection. -/
def GetsThrough (t : List BusEvent) : Prop :=
  ∃ pre res, t = pre ++ [.connect res, .isConnected 1] ∧ IARM.proceeds res = true

theorem AttemptRun.isAttempt {r : Bool} {t : List BusEvent} (h : AttemptRun r t) :
    IsAttempt t := by
  cases h with
  | initFailed hp =>
    refine ⟨⟨_, _, rfl, by simp⟩, by simp, ?_, by simp⟩
    rintro _ _ ⟨⟩
    rw [if_neg (by simp [hp])]
  | connectFailed hp hp' =>
    refine ⟨⟨_, _, rfl, by simp⟩, fun _ _ => ⟨_, by simp, hp⟩, ?_, ?_⟩
    · rintro _ _ ⟨⟩
      rw [if_pos hp]
      exact ⟨_, _, rfl⟩
    · rintro _ _ _ ⟨⟩
      rw [if_neg (by simp [hp'])]
  | checked hp hp' =>
    refine ⟨⟨_, _, rfl, by simp⟩, fun _ _ => ⟨_, by simp, hp⟩, ?_, ?_⟩
    · rintro _ _ ⟨⟩
      rw [if_pos hp]
      exact ⟨_, _, rfl⟩
    · rintro _ _ _ ⟨⟩
      rw [if_pos hp']
      exact ⟨_, rfl⟩

/-- The flag of an attempt says whether it gets through. -/
theorem AttemptRun.getsThrough_iff {r : Bool} {t : List BusEvent} (h : AttemptRun r t) :
    GetsThrough t ↔ r = true := by
  cases h with
  | initFailed _ =>
    refine ⟨?_, nofun⟩
    rintro ⟨pre, res, heq, -⟩
    have hlen := congrArg List.length heq
    simp at hlen
  | connectFailed _ hp' =>
    refine ⟨?_, nofun⟩
    rintro ⟨pre, res, heq, -⟩
    have hlast := congrArg List.getLast? heq
    simp at hlast
  | @checked res res' v _ hp' =>
    rw [decide_eq_true_iff]
    constructor
    · rintro ⟨pre, res, heq, -⟩
      have hlast := congrArg List.getLast? heq
      simpa using hlast
    · rintro rfl
      exact ⟨[.init res], res', rfl, hp'⟩

/-- What `init` makes of the answers `first`, to its first check, and those of its
attempts, when it returns `r`. -/
structure Tried (r : Bool) (first : ℤ) (tries : List (List BusEvent)) : Prop where
  /-- nothing is attempted when the first check reports a connection -/
  already : first = 1 → tries = []
  /-- otherwise there are between one and twenty-one attempts -/
  bounds : first ≠ 1 → 1 ≤ tries.length ∧ tries.length ≤ 21
  /-- each is an attempt -/
  isAttempt : ∀ t ∈ tries, IsAttempt t
  /-- an attempt that gets through is the last -/
  stops : ∀ pre t post, tries = pre ++ t :: post → GetsThrough t → post = []
  /-- it gives up only after twenty-one attempts none of which gets through -/
  givesUp : r = false → tries.length = 21 ∧ ∀ t ∈ tries, ¬ GetsThrough t
  /-- the flag is what the last check reported -/
  reports : r = true ↔ (checks (.isConnected first :: tries.flatten)).getLast? = some 1

/-- `init` returns what its last check finds. -/
theorem InitRun.reports {r : Bool} {l : List BusEvent} (h : InitRun r l) :
    r = true ↔ (checks l).getLast? = some 1 := by
  constructor
  · rintro rfl
    obtain ⟨l', rfl⟩ := h.ends
    rw [checks_append]
    exact List.getLast?_concat
  · exact fun hlast => h.verdict.mpr (List.mem_of_getLast? hlast)

/-- Every dialogue of `init` is of this kind. -/
theorem InitRun.tried {r : Bool} {l : List BusEvent} (h : InitRun r l) :
    ∃ first tries, l = .isConnected first :: tries.flatten ∧ Tried r first tries := by
  have hreports := h.reports
  cases h with
  | already =>
    refine ⟨1, [], rfl, fun _ => rfl, fun h => absurd rfl h, nofun, ?_, nofun, hreports⟩
    intro pre t post h
    simp at h
  | looped hv h =>
    obtain ⟨failed, last, rfl, hfailed, hlast, hle, hall⟩ := h.split
    have hno : ∀ t ∈ failed, ¬ GetsThrough t := fun t ht hthrough =>
      Bool.false_ne_true ((hfailed t ht).getsThrough_iff.mp hthrough)
    refine ⟨_, failed ++ [last], by simp, fun h => absurd h hv, fun _ => ?_, ?_, ?_, ?_, ?_⟩
    · simp only [List.length_append, List.length_singleton]
      omega
    · intro t ht
      rcases List.mem_append.mp ht with ht | ht
      · exact (hfailed t ht).isAttempt
      · obtain rfl := List.mem_singleton.mp ht
        exact hlast.isAttempt
    · intro pre t post heq hthrough
      rcases List.eq_nil_or_concat post with rfl | ⟨post', x, rfl⟩
      · rfl
      -- were it not the last, it would be among those that failed
      · have heq' : failed ++ [last] = (pre ++ t :: post') ++ [x] := by simpa using heq
        have hmem : t ∈ failed := by
          rw [(List.append_inj' heq' rfl).1]
          simp
        exact absurd hthrough (hno t hmem)
    · rintro rfl
      refine ⟨by simpa using hall rfl, fun t ht => ?_⟩
      rcases List.mem_append.mp ht with ht | ht
      · exact hno t ht
      · obtain rfl := List.mem_singleton.mp ht
        exact fun hthrough => Bool.false_ne_true (hlast.getsThrough_iff.mp hthrough)
    · rw [List.flatten_append, List.flatten_singleton]
      exact hreports

/-- Nothing is asked of anybody but the bus, so no side condition is needed. -/
theorem connecting_any (s : ImplState) : Connecting (fun _ _ => True) s where
  init := fun _ _ => trivial
  connect := fun _ _ => trivial
  isConnected := fun _ _ => trivial
  usleep := fun _ _ => trivial

/-- **`Utils::IARM::init` under any answers**: what it says to the bus, which may answer
anything at any time, is a first check and then attempts as `Tried` has them. -/
theorem init_tries {s s' : ImplState} {r : Bool}
    (h : (implMachine fun _ => True).Exec IARM.initAsWritten s r s') :
    ∃ first tries, s'.bus.log = s.bus.log ++ .isConnected first :: tries.flatten ∧
      Tried r first tries := by
  rw [IARM.initAsWritten_eq] at h
  obtain ⟨l, hrun, -, rfl⟩ := h.sound (wlp_init (connecting_any s))
  obtain ⟨first, tries, rfl, htried⟩ := hrun.tried
  exact ⟨first, tries, Bus.log_after s.bus _, htried⟩

/-- A bus that refuses the first `Init`. -/
def lateBus (b : Bus) : (c : BusCall) → c.Answer
  | .init => if b.log.length = 1 then .ipccoreFail else .success
  | .connect => .success
  | .isConnected => if b.connected then (1 : ℤ) else (0 : ℤ)
  | .disconnect => .success
  | .term => .success
  | .registerEventHandler _ => .success
  | .removeEventHandler _ => .success

/-- On that bus the second attempt gets through. -/
theorem init_tries_lateBus :
    ∃ s' : ImplState,
      (implMachine fun _ => True).Exec IARM.initAsWritten (.new 0 .blank) true s' ∧
      s'.bus.log = [.isConnected 0, .init .ipccoreFail, .init .success, .connect .success,
        .isConnected 1] ∧
      ∃ first tries, s'.bus.log = .isConnected first :: tries.flatten ∧
        Tried true first tries := by
  have hmay : ∀ s o, (implMachine fun _ => True).may s o (replying lateBus s o) :=
    may_replying fun _ _ => trivial
  obtain ⟨s', hexec, hlog⟩ : ∃ s', (implMachine fun _ => True).Exec IARM.init (.new 0 .blank)
      true s' ∧ s'.bus.log = [.isConnected 0, .init .ipccoreFail, .init .success,
        .connect .success, .isConnected 1] :=
    ⟨_, (implMachine fun _ => True).exec_play hmay IARM.init (.new 0 .blank), rfl⟩
  rw [← IARM.initAsWritten_eq] at hexec
  exact ⟨s', hexec, hlog, init_tries hexec⟩

end RemoteControl
