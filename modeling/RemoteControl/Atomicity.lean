import RemoteControl.Linearization

/-!
# Atomicity: what holds of the threads at every moment

The law of registration and dispatch is about whole sections. Here it is brought
down to threads that may be stopped between any two statements.

* `sections_linearize` — every run is a run of `Observers`, its sections in the
  order in which they unlock and its callbacks in the order in which they begin.
* `running`, `referenced_throughout` — while a thread is in a callback on an
  observer, the observer is referenced, wherever the other threads are.
* `never_stuck` — the lock is held where it must be and nowhere else, the threads
  can all finish, and then each registered observer has one reference.
-/

namespace RemoteControl

open Interaction Locks Runs

namespace Threaded

variable {ν : Type} [DecidableEq ν]

/-! ## Which callbacks are entered -/

/-- The configurations of `threads`. -/
abbrev ThreadConf (ν : Type) : Type :=
  Locks.Conf (Op ν) Op.Answer (Option HResult) (Shared ν)

/-- The steps of `threads`. -/
abbrev ThreadAct (ν : Type) : Type := Locks.Act (Entry ν) (Op ν) Op.Answer

/-- What thread `i` does outside the lock. -/
abbrev OutsideOp (ν : Type) : Type := ℕ × Answered (Op ν) Op.Answer

/-- What is done outside the lock in a run. -/
def outsideOps (tr : List (ThreadConf ν × ThreadAct ν)) : List (OutsideOp ν) :=
  (tr.map Prod.snd).filterMap (Act.outside access)

/-- The observers that are called, in the order in which they are. -/
def entered (l : List (OutsideOp ν)) : List (Option ν) :=
  l.filterMap fun e =>
    match e.2 with
    | ⟨.enterCallback _ n, _⟩ => some n
    | _ => none

/-- The same of the steps of `Observers`. -/
def enteredSteps (l : List (Observers.Action ν)) : List (Option ν) :=
  l.filterMap fun a =>
    match a with
    | .enterCallback _ n => some n
    | _ => none

/-- The observer thread `i` is in a callback on. -/
def running (i : ℕ) (l : List (OutsideOp ν)) : Option ν :=
  l.foldl (fun cur e =>
    if e.1 = i then
      match e.2 with
      | ⟨.enterCallback _ n, _⟩ => n
      | _ => none
    else cur) none

omit [DecidableEq ν] in
theorem running_snoc (i : ℕ) (l : List (OutsideOp ν)) (e : OutsideOp ν) :
    running i (l ++ [e]) =
      if e.1 = i then
        match e.2 with
        | ⟨.enterCallback _ n, _⟩ => n
        | _ => none
      else running i l := by
  rw [running, List.foldl_append]
  rfl

omit [DecidableEq ν] in
theorem entered_append (l l' : List (OutsideOp ν)) : entered (l ++ l') = entered l ++ entered l' :=
  List.filterMap_append ..

/-- Whether a block is only the start of a thread. -/
def isSpawn : BlockOf ν → Bool
  | .spawn _ => true
  | _ => false

/-! ## What the simulation also keeps -/

/-- A callback goes on until it returns. -/
theorem runsOn_step {s t : Observers ν} {a : Observers.Action ν} {d : ℕ} {n : ν} (hs : s.Inv)
    (hon : s.RunsOn d n) (h : s.Steps a t) (ha : a ≠ .leaveCallback d) : t.RunsOn d n := by
  obtain ⟨D, hD, hin, hn⟩ := hon
  rcases (hs.effect_of_step h).dispatch hD with hsame | ⟨D', back, hm, hset⟩
  · exact ⟨D, hsame, hin, hn⟩
  · cases hm with
    | enterCallback hidle _ => simp [hidle] at hin
    | leaveCallback _ => exact absurd rfl ha
    | release hidle _ _ => simp [hidle] at hin

/-- A callback that is entered runs. -/
theorem runsOn_enter {s t : Observers ν} {d : ℕ} {n : ν} (hs : s.Inv)
    (h : s.Steps (.enterCallback d (some n)) t) : t.RunsOn d n := by
  cases hs.effect_of_step h with
  | @moved _ _ D D' _ hD hm =>
    cases hm with
    | enterCallback hidle hn =>
      exact ⟨_, List.getElem?_set_self (List.getElem?_eq_some_iff.mp hD).1, rfl, hn⟩

/-- A callback that runs has not released its observer. -/
theorem one_le_outstanding {s : Observers ν} {d : ℕ} {n : ν} (hs : s.Inv) (h : s.RunsOn d n) :
    1 ≤ s.outstanding n := by
  obtain ⟨D, hget, hin, hn⟩ := h
  have hD := List.mem_of_getElem? hget
  have hmem : some n ∈ D.unreleased := by
    rw [Dispatch.unreleased, ((hs.dispatches D hD).inside hin).2, List.drop_zero]
    exact List.mem_of_getElem? hn
  calc 1 ≤ D.unreleased.count (some n) := List.count_pos_iff.mpr hmem
    _ ≤ s.outstanding n :=
      List.le_sum_of_mem (List.mem_map_of_mem (f := fun D => D.unreleased.count (some n)) hD)

/-- The threads that are in a callback, in `Observers`. -/
def RunsAs (N : Numbering) (s : Observers ν) (l : List (OutsideOp ν)) : Prop :=
  ∀ i n, running i l = some n → ∃ d, N.of i = some d ∧ s.RunsOn d n

omit [DecidableEq ν] in
/-- What a block is read as, by kind of block. -/
theorem read_spec {N : Numbering} {b : BlockOf ν} {a : Observers.Action ν}
    (h : (N.read b).2 = [a]) :
    (Block.outside access b = none ∧ enteredSteps [a] = [] ∧ (∀ d, a ≠ .leaveCallback d)) ∨
    ∃ i d o x, b = .single i o x ∧ Block.outside access b = some (i, ⟨o, x⟩) ∧ N.of i = some d ∧
      ((∃ kind n, o = .enterCallback kind n ∧ a = .enterCallback d n) ∨
        o = .leaveCallback ∧ a = .leaveCallback d) := by
  cases b with
  | spawn c => simp [Numbering.read] at h
  | critical i l =>
    refine Or.inl ⟨rfl, ?_⟩
    rw [Numbering.read] at h
    split at h
    · rename_i part _ _
      cases part <;> obtain rfl := List.singleton_inj.mp h <;> simp [enteredSteps]
    · cases h
  | single i o x =>
    rcases hN : N.of i with _ | d
    · simp [Numbering.read, hN] at h
    · cases o with
      | enterCallback kind n =>
        simp only [Numbering.read, hN, List.cons.injEq, and_true] at h
        exact Or.inr ⟨i, d, _, x, rfl, rfl, hN, Or.inl ⟨kind, n, rfl, h.symm⟩⟩
      | leaveCallback =>
        simp only [Numbering.read, hN, List.cons.injEq, and_true] at h
        exact Or.inr ⟨i, d, _, x, rfl, rfl, hN, Or.inr ⟨rfl, h.symm⟩⟩
      | release n =>
        simp only [Numbering.read, hN, List.cons.injEq, and_true] at h
        subst h
        exact Or.inl ⟨rfl, by simp [enteredSteps]⟩
      | _ => simp [Numbering.read, hN] at h

omit [DecidableEq ν] in
/-- The observer a block calls is the one its step calls. -/
theorem read_entered {N N' : Numbering} {b : BlockOf ν} {a : Observers.Action ν}
    (h : N.read b = (N', [a])) : enteredSteps [a] = entered (Block.outside access b).toList := by
  rcases read_spec (congrArg Prod.snd h) with ⟨hout, ha, -⟩ | ⟨i, d, o, x, rfl, hout, -, ho⟩
  · rw [hout, ha]
    rfl
  · rw [hout]
    rcases ho with ⟨kind, n, rfl, rfl⟩ | ⟨rfl, rfl⟩ <;> rfl

omit [DecidableEq ν] in
/-- A block that is read as a step starts no thread. -/
theorem read_isSpawn {N N' : Numbering} {b : BlockOf ν} {a : Observers.Action ν}
    (h : N.read b = (N', [a])) : isSpawn b = false := by
  cases b with
  | spawn e => simp [Numbering.read] at h
  | critical i l => rfl
  | single i o x => rfl

omit [DecidableEq ν] in
theorem outside_snoc (l : List (BlockOf ν)) (b : BlockOf ν) :
    (l ++ [b]).filterMap (Block.outside access) =
      l.filterMap (Block.outside access) ++ (Block.outside access b).toList := by
  rw [List.filterMap_append]
  cases hb : Block.outside access b <;> simp [hb]

/-- Callbacks begin and end in `Observers` as they do in the threads. -/
theorem RunsAs.step {N N' : Numbering} {s t : Observers ν} {l : List (OutsideOp ν)}
    {b : BlockOf ν} {a : Observers.Action ν} (hs : s.Inv) (h : RunsAs N s l)
    (hinj : ∀ i j d, N.of i = some d → N.of j = some d → i = j) (hst : s.Steps a t)
    (hread : N.read b = (N', [a])) (hext : N.Extends N') :
    RunsAs N' t (l ++ (Block.outside access b).toList) := by
  rcases read_spec (congrArg Prod.snd hread) with
    ⟨hout, -, hleave⟩ | ⟨i, d, o, x, rfl, hout, hd, ho⟩
  · intro j n hj
    rw [hout, Option.toList_none, List.append_nil] at hj
    obtain ⟨d, hd, hon⟩ := h j n hj
    exact ⟨d, hext j d hd, runsOn_step hs hon hst (hleave d)⟩
  · intro j n hj
    rw [hout, Option.toList_some, running_snoc] at hj
    by_cases hij : i = j
    · subst hij
      rw [if_pos rfl] at hj
      rcases ho with ⟨kind, m, rfl, rfl⟩ | ⟨rfl, rfl⟩
      · obtain rfl : m = some n := hj
        exact ⟨d, hext i d hd, runsOn_enter hs hst⟩
      · cases hj
    · rw [if_neg hij] at hj
      obtain ⟨e, he, hon⟩ := h j n hj
      refine ⟨e, hext j e he, runsOn_step hs hon hst ?_⟩
      rintro rfl
      rcases ho with ⟨_, _, -, ha⟩ | ⟨-, ha⟩
      · cases ha
      · cases ha
        exact hij (hinj i j d hd he)

/-- A run of blocks, and the run of `Observers` that is read off it. -/
structure Tracks (l : List (BlockOf ν)) (otr : List (Observers ν × Observers.Action ν))
    (P : Pool (Op ν) Op.Answer (Option HResult) (Shared ν)) (s : Observers ν) : Prop where
  run : Run Observers.Steps .fresh otr s
  read : otr.map Prod.snd = (transcript l).2
  mirrors : Mirrors (transcript l).1 P s
  length : (transcript l).2.length = l.countP (!isSpawn ·)
  entered : enteredSteps (transcript l).2 = entered (l.filterMap (Block.outside access))
  runsAs : RunsAs (transcript l).1 s (l.filterMap (Block.outside access))

/-- **Run lemma**: there is one for every run of blocks. -/
theorem tracks_run {P : Pool (Op ν) Op.Answer (Option HResult) (Shared ν)}
    {btr : List (Pool (Op ν) Op.Answer (Option HResult) (Shared ν) × BlockOf ν)}
    (h : threads.BlockRunOf ⟨[], .fresh⟩ btr P) : ∃ otr s, Tracks (btr.map Prod.snd) otr P s := by
  induction h with
  | nil => exact ⟨[], .fresh, Run.nil _, rfl, mirrors_start, rfl, rfl, fun _ _ h => by cases h⟩
  | @snoc P P' btr b hrun hst ih =>
    obtain ⟨otr, s, ht⟩ := ih
    have hs := Observers.inv_fresh.run ht.run
    rw [List.map_append, List.map_cons, List.map_nil]
    generalize btr.map Prod.snd = l at ht
    rcases ht.mirrors.step hs hst with ⟨e, rfl, hm⟩ | ⟨N', a, s', hstep, hread, hext, hm⟩
    -- a thread is started
    · refine ⟨otr, s, ht.run, ?_, ?_, ?_, ?_, ?_⟩ <;>
        simp only [transcript_snoc, transcribe, Numbering.read, List.append_nil, outside_snoc,
          Block.outside, Option.toList_none]
      · exact ht.read
      · exact hm
      · simpa [isSpawn] using ht.length
      · exact ht.entered
      · exact ht.runsAs
    -- a step of `Observers`
    · refine ⟨otr ++ [(s, a)], s', ht.run.snoc hstep, ?_, ?_, ?_, ?_, ?_⟩ <;>
        simp only [transcript_snoc, transcribe, hread]
      · rw [List.map_append, ht.read]
        rfl
      · exact hm
      · simp [ht.length, read_isSpawn hread]
      · rw [outside_snoc, entered_append, ← ht.entered, ← read_entered hread]
        exact List.filterMap_append ..
      · rw [outside_snoc]
        exact ht.runsAs.step hs ht.mirrors.inj hstep hread hext

/-! ## The theorems -/

/-- What a run of threads amounts to: the blocks in it, and the run of `Observers` that
is read off them. -/
theorem tracks_of_run {c : ThreadConf ν} {tr : List (ThreadConf ν × ThreadAct ν)}
    (h : threads.RunOf (System.start .fresh) tr c) :
    ∃ otr P s, Tracks (condense access (tr.map Prod.snd)).done otr P s ∧
      threads.Ahead c P (condense access (tr.map Prod.snd)).pending := by
  obtain ⟨btr, P, hblocks, hdone, hahead⟩ :=
    System.reduction (System.orderly_start Shared.fresh) rfl h
  obtain ⟨otr, s, ht⟩ := tracks_run hblocks
  exact ⟨otr, P, s, hdone ▸ ht, hahead⟩

/-- When nobody holds the lock, no section is open. -/
theorem ahead_of_free {c : ThreadConf ν}
    {P : Pool (Op ν) Op.Answer (Option HResult) (Shared ν)}
    {pending : Option (ℕ × List (Answered (Op ν) Op.Answer))}
    (h : threads.Ahead c P pending) (hfree : c.holder = none) :
    c = ⟨P.threads, none, P.shared⟩ := by
  rcases pending with _ | ⟨i, l⟩
  · exact h
  · obtain ⟨_, _, _, _, _, _, hholder⟩ := h
    rw [hfree] at hholder
    cases hholder

/-- In the open section, if there is one, the middle holds. -/
theorem mid_of_ahead {c : ThreadConf ν} {P : Pool (Op ν) Op.Answer (Option HResult) (Shared ν)}
    {N : Numbering} {s : Observers ν} {pending : Option (ℕ × List (Answered (Op ν) Op.Answer))}
    (hs : s.Inv) (hm : Mirrors N P s) (h : threads.Ahead c P pending) :
    Mid s.shared c.shared := by
  rcases pending with _ | ⟨i, l⟩
  · rw [h, hm.shared]
    exact mid_start hs
  · obtain ⟨p, q, hget, hl, hpart, -, -⟩ := h
    have henters := hm.enters hs hget hl hpart
    rw [hm.shared] at hpart
    cases henters with
    | client _ hc => exact (section_call hs hc _).mid hl hpart
    | event _ => exact (section_snapshot hs _ _).mid hl hpart
    | observer _ _ _ hc _ => exact (section_call hs hc _).mid hl hpart

/-- **Sections are atomic.** Every run of the threads, stopped wherever it may be, is a run
of `Observers`:

1. its steps are those read off the run, one for every section that is over and for
   every operation outside the sections;
2. they only get more as the run goes on, so what was over before something else began
   comes before it;
3. the observers are called in the same order;
4. when nobody holds the lock, the vector, the references and the verdict are the same. -/
theorem sections_linearize {c : ThreadConf ν} {tr : List (ThreadConf ν × ThreadAct ν)}
    (h : threads.RunOf (System.start .fresh) tr c) :
    let blocks := (condense access (tr.map Prod.snd)).done
    ∃ otr s, Run Observers.Steps .fresh otr s ∧
      (otr.map Prod.snd = (transcript blocks).2 ∧
        (transcript blocks).2.length = blocks.countP (!isSpawn ·)) ∧
      (∀ pre post, tr.map Prod.snd = pre ++ post →
        (transcript (condense access pre).done).2 <+: (transcript blocks).2) ∧
      enteredSteps (otr.map Prod.snd) = entered (outsideOps tr) ∧
      (c.holder = none → c.shared = s.shared) := by
  obtain ⟨otr, P, s, ht, hahead⟩ := tracks_of_run h
  refine ⟨otr, s, ht.run, ⟨ht.read, ht.length⟩, fun pre post hsplit => ?_, ?_, fun hfree => ?_⟩
  · obtain ⟨more, hmore⟩ := condense_extends access pre post
    rw [hsplit, hmore]
    exact transcript_extends _ more
  · rw [ht.read, ht.entered, outsideOps]
    exact congrArg entered
      (System.condense_outside (System.orderly_start Shared.fresh) rfl h)
  · rw [ahead_of_free hahead hfree, ht.mirrors.shared]

/-- `n` statements of thread `i`; a callback among them makes `calls`. -/
def go (i n : ℕ) (calls : List (ClientCall ℕ)) :
    List (System.Move (Entry ℕ) (Op ℕ) Op.Answer (Shared ℕ)) :=
  List.replicate n (.run i (answer calls))

/-- A callback on observer `1` returns, and its reference is released, while thread `2` is
registering observer `2` and has taken a reference on it already. -/
def overlapping : List (System.Move (Entry ℕ) (Op ℕ) Op.Answer (Shared ℕ)) :=
  .spawn (.client (.register (some 1))) :: go 0 5 [] ++ .spawn (.event .status) :: go 1 6 [] ++
    .spawn (.client (.register (some 2))) :: go 2 4 [] ++ go 1 2 [] ++ go 2 2 []

/-- The second registration comes last: its section is the last to unlock. -/
theorem sections_linearize_overlapping :
    ∃ tr c, follow threads.advance (System.start .fresh) overlapping = some (tr, c) ∧
      c.shared.notifications = [some 1, some 2] ∧
      ∃ otr s, Run Observers.Steps .fresh otr s ∧ c.shared = s.shared ∧
        otr.map Prod.snd = [.register .client (some 1), .snapshot .status,
          .enterCallback 0 (some 1), .leaveCallback 0, .release 0,
          .register .client (some 2)] := by
  obtain ⟨⟨tr, c⟩, hfollow⟩ :
      ∃ p, follow threads.advance (System.start .fresh) overlapping = some p := ⟨_, rfl⟩
  obtain ⟨otr, s, hrun, ⟨hread, -⟩, -, -, hfree⟩ :=
    sections_linearize (System.run_of_follow threads hfollow)
  refine ⟨tr, c, hfollow, ?_⟩
  obtain ⟨rfl, rfl⟩ := Prod.mk.inj (Option.some.inj hfollow)
  exact ⟨rfl, otr, s, hrun, hfree rfl, hread⟩

/-- **References, at every moment.** Wherever the threads are, also in the middle of a
section: nothing was gone through that is not there, no observer has been released more
often than referenced, and while a thread is in a callback on an observer, the
implementation holds a reference on it. -/
theorem referenced_throughout {c : ThreadConf ν} {tr : List (ThreadConf ν × ThreadAct ν)}
    (h : threads.RunOf (System.start .fresh) tr c) :
    c.shared.crashed = false ∧ (∀ n, 0 ≤ c.shared.refs n) ∧
      ∀ i n, running i (outsideOps tr) = some n → 1 ≤ c.shared.refs n := by
  obtain ⟨otr, P, s, ht, hahead⟩ := tracks_of_run h
  have hs := Observers.inv_fresh.run ht.run
  have hmid := mid_of_ahead hs ht.mirrors hahead
  have hrefs : ∀ n, (s.outstanding n : ℤ) ≤ c.shared.refs n := fun n => by
    have hle := hmid.refs n
    have hbooks := hs.refs n
    simp only [Observers.shared] at hle
    omega
  refine ⟨hmid.alive, fun n => (Int.natCast_nonneg _).trans (hrefs n), fun i n hi => ?_⟩
  have hout : _ = outsideOps tr :=
    System.condense_outside (System.orderly_start Shared.fresh) rfl h
  obtain ⟨d, -, hon⟩ := ht.runsAs i n (by rwa [← hout] at hi)
  exact (Nat.cast_le.mpr (one_le_outstanding hs hon)).trans (hrefs n)

/-- Observer `1` unregisters itself from inside its callback, and is stopped after
`Release` and before `erase`. -/
def interrupted : List (System.Move (Entry ℕ) (Op ℕ) Op.Answer (Shared ℕ)) :=
  .spawn (.client (.register (some 1))) :: go 0 5 [] ++ .spawn (.event .status) :: go 1 5 [] ++
    go 1 1 [.unregister (some 1)] ++ go 1 5 []

/-- The snapshot's reference is the last one, and it is there. -/
theorem referenced_throughout_interrupted :
    ∃ tr c, follow threads.advance (System.start .fresh) interrupted = some (tr, c) ∧
      c.holder = some 1 ∧ c.shared.notifications = [some 1] ∧
      running 1 (outsideOps tr) = some 1 ∧ 1 ≤ c.shared.refs 1 := by
  obtain ⟨⟨tr, c⟩, hfollow⟩ :
      ∃ p, follow threads.advance (System.start .fresh) interrupted = some p := ⟨_, rfl⟩
  have hrunning : running 1 (outsideOps tr) = some 1 := by
    obtain ⟨rfl, -⟩ := Prod.mk.inj (Option.some.inj hfollow)
    rfl
  have hrefs := (referenced_throughout (System.run_of_follow threads hfollow)).2.2 1 1 hrunning
  refine ⟨tr, c, hfollow, ?_⟩
  obtain ⟨rfl, rfl⟩ := Prod.mk.inj (Option.some.inj hfollow)
  exact ⟨rfl, rfl, hrunning, hrefs⟩

/-! ## No deadlock -/

omit [DecidableEq ν] in
/-- Every statement has an answer. -/
theorem may_total (k : Shared ν) (o : Op ν) : ∃ x, may k o x := by
  cases o with
  | last => exact ⟨k.notifications.length, rfl⟩
  | deref it =>
    refine ⟨(k.notifications[it]?).getD none, fun n hn => ?_⟩
    rw [Option.mem_def.mp hn, Option.getD_some]
  | enterCallback kind n => exact ⟨[], trivial⟩
  | _ => exact ⟨(), trivial⟩

/-- When every thread is done, so is every dispatch. -/
theorem finished_of_ended {N : Numbering}
    {P : Pool (Op ν) Op.Answer (Option HResult) (Shared ν)} {s : Observers ν} (hs : s.Inv)
    (h : Mirrors N P s) (hended : ∀ p ∈ P.threads, System.Ended p) :
    ∀ D ∈ s.dispatches, D.finished := by
  intro D hD
  obtain ⟨d, hget⟩ := List.getElem?_of_mem hD
  have hlt := (List.getElem?_eq_some_iff.mp hget).1
  obtain ⟨i, hi⟩ := h.owned d (h.count ▸ hlt)
  obtain ⟨p, hthread⟩ : ∃ p, P.threads[i]? = some p :=
    ⟨_, List.getElem?_eq_getElem (h.range i d hi).1⟩
  obtain ⟨r, hr⟩ := hended _ (List.mem_of_getElem? hthread)
  have hplace := h.place i _ hthread
  simp only [Place, hi] at hplace
  obtain ⟨D', hget', hstage⟩ := hplace
  obtain rfl := Option.some.inj (hget'.symm.trans hget)
  have hnext := hstage.next (hs.dispatches D' hD)
  cases hnext with
  | ended hfin => exact hfin
  | enter _ _ _ => cases hr
  | leave _ _ => cases hr
  | @call _ c rest _ hc _ =>
    obtain ⟨f, hf⟩ := call_head hc fun _ => withinCallback D' rest
    cases hf.symm.trans hr
  | release _ _ _ _ => cases hr

/-- When every dispatch is over, the references left are the registrations. -/
theorem refs_of_finished {s : Observers ν} (hs : s.Inv) (hfin : ∀ D ∈ s.dispatches, D.finished)
    (n : ν) : s.refs n = if some n ∈ s.notifications then 1 else 0 := by
  have hout : s.outstanding n = 0 := by
    refine List.sum_eq_zero fun c hc => ?_
    obtain ⟨D, hD, rfl⟩ := List.mem_map.mp hc
    rw [Dispatch.unreleased, (hfin D hD).2.2, List.drop_length, List.count_nil]
  rw [hs.refs n, hout, Nat.cast_zero, add_zero]
  by_cases hn : some n ∈ s.notifications
  · rw [if_pos hn, List.count_eq_one_of_mem hs.nodup hn, Nat.cast_one]
  · rw [if_neg hn, List.count_eq_zero.mpr hn, Nat.cast_zero]

/-- **The lock.** In every run the vector is only touched by the thread that holds
`_adminLock`, and observers are only called by threads that do not. From everywhere the
threads that are there can all finish, whatever else is waiting, and when they have, the
lock is free and exactly the registered observers are referenced, once each. -/
theorem never_stuck {c : ThreadConf ν} {tr : List (ThreadConf ν × ThreadAct ν)}
    (h : threads.RunOf (System.start .fresh) tr c) :
    (∀ s i o x, (s, .perform i o x) ∈ tr →
      (access o = .guarded → s.holder = some i) ∧ (access o = .outside → s.holder ≠ some i)) ∧
    ∃ tr' c', threads.RunOf c tr' c' ∧ c'.holder = none ∧
      (∀ p ∈ c'.threads, System.Ended p) ∧ (∀ e ∈ tr', ∃ i o x, e.2 = .perform i o x) ∧
      c'.shared.notifications.Nodup ∧
      ∀ n, c'.shared.refs n = if some n ∈ c'.shared.notifications then 1 else 0 := by
  have hstart := System.orderly_start (W := threads) (Shared.fresh (ν := ν))
  refine ⟨fun s i o x hmem => hstart.exclusion h hmem, ?_⟩
  obtain ⟨tr', c', hrun, hfree, hended, hown⟩ :=
    System.can_finish may_total (hstart.run h)
  obtain ⟨otr, P, s, ht, hahead⟩ := tracks_of_run (h.append hrun)
  have hs := Observers.inv_fresh.run ht.run
  have hsame := ahead_of_free hahead hfree
  have hshared : c'.shared = s.shared := by rw [hsame, ht.mirrors.shared]
  have hended' : ∀ p ∈ P.threads, System.Ended p := by rwa [hsame] at hended
  refine ⟨tr', c', hrun, hfree, hended, hown, ?_⟩
  rw [hshared]
  exact ⟨hs.nodup, refs_of_finished hs (finished_of_ended hs ht.mirrors hended')⟩

/-- From the middle of `Unregister` everything can still be finished. -/
theorem never_stuck_interrupted :
    ∃ tr c, follow threads.advance (System.start .fresh) interrupted = some (tr, c) ∧
      c.holder = some 1 ∧ ∃ tr' c', threads.RunOf c tr' c' ∧ c'.holder = none ∧
        ∀ n, c'.shared.refs n = if some n ∈ c'.shared.notifications then 1 else 0 := by
  obtain ⟨⟨tr, c⟩, hfollow⟩ :
      ∃ p, follow threads.advance (System.start .fresh) interrupted = some p := ⟨_, rfl⟩
  obtain ⟨-, tr', c', hrun, hfree, -, -, -, hrefs⟩ :=
    never_stuck (System.run_of_follow threads hfollow)
  refine ⟨tr, c, hfollow, ?_, tr', c', hrun, hfree, hrefs⟩
  obtain ⟨rfl, rfl⟩ := Prod.mk.inj (Option.some.inj hfollow)
  rfl

end Threaded

end RemoteControl
