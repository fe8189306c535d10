import RemoteControl.Locks

/-!
# Reduction: critical sections as single steps

Between two operations of a critical section the other threads may do what does
not need the lock. All of that commutes to the left, so every run of
`System.Step`, where a section can be interrupted anywhere, is a run of
`System.BlockStep`, where it cannot, as far as the sections are closed.

`condense` reads the blocks off a run from left to right: a section counts when
it gives the lock back, everything else when it happens. Longer runs have longer
lists of blocks, so the order of two things one of which was over before the
other began is never changed.
-/

namespace Locks

open Runs Interaction

variable {C O : Type} {A : O → Type} {R K α : Type}

/-! ## Blocks -/

/-- What a run consists of when critical sections are whole. -/
inductive Block (C O : Type) (A : O → Type) : Type where
  /-- a thread was started -/
  | spawn (c : C) : Block C O A
  /-- thread `i` performed an operation outside any section -/
  | single (i : ℕ) (o : O) (x : A o) : Block C O A
  /-- thread `i` went through a critical section -/
  | critical (i : ℕ) (l : List (Answered O A)) : Block C O A

/-- A run, as far as it is read: the blocks that are complete, and the section that
is still open, with the thread that is in it. -/
structure Condensed (C O : Type) (A : O → Type) : Type where
  /-- the complete blocks -/
  done : List (Block C O A)
  /-- the open section -/
  pending : Option (ℕ × List (Answered O A))

/-- Read one more step. -/
def absorb (access : O → Access) (b : Condensed C O A) : Act C O A → Condensed C O A
  | .spawn c => { b with done := b.done ++ [.spawn c] }
  | .perform i o x =>
    match b.pending with
    | none =>
      if access o = .acquire then { b with pending := some (i, [⟨o, x⟩]) }
      else { b with done := b.done ++ [.single i o x] }
    | some (j, l) =>
      if i = j then
        if access o = .release then ⟨b.done ++ [.critical j (l ++ [⟨o, x⟩])], none⟩
        else { b with pending := some (j, l ++ [⟨o, x⟩]) }
      else { b with done := b.done ++ [.single i o x] }

section Absorb

variable {access : O → Access} {d : List (Block C O A)} {i j : ℕ} {l : List (Answered O A)}
  {o : O} {x : A o}

/-- A section begins. -/
theorem absorb_first (h : access o = .acquire) :
    absorb access (⟨d, none⟩ : Condensed C O A) (.perform i o x) = ⟨d, some (i, [⟨o, x⟩])⟩ :=
  if_pos h

/-- An operation while nobody is inside a section. -/
theorem absorb_alone (h : access o ≠ .acquire) :
    absorb access (⟨d, none⟩ : Condensed C O A) (.perform i o x) =
      ⟨d ++ [.single i o x], none⟩ :=
  if_neg h

/-- The open section is over. -/
theorem absorb_last (h : access o = .release) :
    absorb access (⟨d, some (i, l)⟩ : Condensed C O A) (.perform i o x) =
      ⟨d ++ [.critical i (l ++ [⟨o, x⟩])], none⟩ :=
  (if_pos rfl).trans (if_pos h)

/-- The open section goes on. -/
theorem absorb_inside (h : access o ≠ .release) :
    absorb access (⟨d, some (i, l)⟩ : Condensed C O A) (.perform i o x) =
      ⟨d, some (i, l ++ [⟨o, x⟩])⟩ :=
  (if_pos rfl).trans (if_neg h)

/-- Another thread moves while the section is open. -/
theorem absorb_beside (h : i ≠ j) :
    absorb access (⟨d, some (j, l)⟩ : Condensed C O A) (.perform i o x) =
      ⟨d ++ [.single i o x], some (j, l)⟩ :=
  if_neg h

/-- What is read stays read. -/
theorem absorb_extends (access : O → Access) (b : Condensed C O A) (a : Act C O A) :
    ∃ more, (absorb access b a).done = b.done ++ more := by
  obtain ⟨done, pending⟩ := b
  cases a with
  | spawn s => exact ⟨_, rfl⟩
  | perform i o x =>
    rcases pending with _ | ⟨j, l⟩
    · by_cases hacc : access o = .acquire
      · rw [absorb_first hacc]
        exact ⟨[], (List.append_nil _).symm⟩
      · rw [absorb_alone hacc]
        exact ⟨_, rfl⟩
    · by_cases hij : i = j
      · subst hij
        by_cases hrel : access o = .release
        · rw [absorb_last hrel]
          exact ⟨_, rfl⟩
        · rw [absorb_inside hrel]
          exact ⟨[], (List.append_nil _).symm⟩
      · rw [absorb_beside hij]
        exact ⟨_, rfl⟩

end Absorb

/-- The blocks of a run. -/
def condense (access : O → Access) (l : List (Act C O A)) : Condensed C O A :=
  l.foldl (absorb access) ⟨[], none⟩

theorem condense_snoc (access : O → Access) (l : List (Act C O A)) (a : Act C O A) :
    condense access (l ++ [a]) = absorb access (condense access l) a := by
  rw [condense, List.foldl_append]
  rfl

/-- The blocks of the beginning of a run are the beginning of its blocks. -/
theorem condense_extends (access : O → Access) (l l' : List (Act C O A)) :
    ∃ more, (condense access (l ++ l')).done = (condense access l).done ++ more := by
  induction l' using List.reverseRecOn with
  | nil => exact ⟨[], by rw [List.append_nil, List.append_nil]⟩
  | append_singleton rest a ih =>
    obtain ⟨more, hmore⟩ := ih
    obtain ⟨more', hmore'⟩ := absorb_extends access (condense access (l ++ rest)) a
    refine ⟨more ++ more', ?_⟩
    rw [← List.append_assoc, condense_snoc, hmore', hmore, List.append_assoc]

/-- A section that has begun and is not over: it starts with taking the lock and has
not given it back. -/
structure Underway (access : O → Access) (l : List (Answered O A)) : Prop where
  first : ∃ e rest, l = e :: rest ∧ access e.1 = .acquire
  inside : ∀ e ∈ l, access e.1 ≠ .release

theorem Underway.single {access : O → Access} {o : O} (x : A o) (h : access o = .acquire) :
    Underway access [(⟨o, x⟩ : Answered O A)] where
  first := ⟨_, [], rfl, h⟩
  inside := fun e he => by
    obtain rfl := List.mem_singleton.mp he
    rw [h]
    exact Access.noConfusion

theorem Underway.snoc {access : O → Access} {l : List (Answered O A)} (hl : Underway access l)
    {o : O} (x : A o) (h : access o ≠ .release) : Underway access (l ++ [⟨o, x⟩]) where
  first := by
    obtain ⟨e, rest, rfl, he⟩ := hl.first
    exact ⟨e, rest ++ [⟨o, x⟩], rfl, he⟩
  inside := fun e he => by
    rcases List.mem_append.mp he with he | he
    · exact hl.inside e he
    · obtain rfl := List.mem_singleton.mp he
      exact h

/-- A program that is inside a section began with taking the lock. -/
theorem Underway.head {access : O → Access} {M : Machine O A K} {p q : Prog O A α} {k k' : K}
    {l : List (Answered O A)} (hl : Underway access l) (h : Partway M p k l q k') :
    ∃ o f, p = .op o f ∧ access o = .acquire := by
  obtain ⟨e, rest, rfl, he⟩ := hl.first
  rcases h.head with ⟨hnil, -⟩ | ⟨e', rest', f, hcons, rfl⟩
  · cases hnil
  · obtain ⟨rfl, -⟩ := List.cons.inj hcons
    exact ⟨_, f, rfl, he⟩

/-- An operation that must be done outside, by thread `i`. -/
def outsideOp (access : O → Access) (i : ℕ) (o : O) (x : A o) : Option (ℕ × Answered O A) :=
  if access o = .outside then some (i, ⟨o, x⟩) else none

/-- What a step does outside. -/
def Act.outside (access : O → Access) : Act C O A → Option (ℕ × Answered O A)
  | .spawn _ => none
  | .perform i o x => outsideOp access i o x

/-- What a block does outside. -/
def Block.outside (access : O → Access) : Block C O A → Option (ℕ × Answered O A)
  | .single i o x => outsideOp access i o x
  | _ => none

/-- Threads and what they share, when nobody is inside a section. -/
structure Pool (O : Type) (A : O → Type) (R K : Type) : Type where
  /-- what every thread has still to run -/
  threads : List (Prog O A R)
  /-- the shared state -/
  shared : K

namespace System

variable (W : System C O A R K)

/-- One block: one more thread, one operation outside any section, or one whole
section. -/
inductive BlockStep : Pool O A R K → Block C O A → Pool O A R K → Prop where
  /-- start a thread -/
  | spawn {ts : List (Prog O A R)} {k : K} (c : C) :
      BlockStep ⟨ts, k⟩ (.spawn c) ⟨ts ++ [W.body c], k⟩
  /-- an operation that does not need the lock -/
  | single {ts : List (Prog O A R)} {k : K} {i : ℕ} {o : O} {f : A o → Prog O A R} {x : A o} :
      ts[i]? = some (.op o f) → W.access o = .free ∨ W.access o = .outside →
      W.machine.may k o x →
      BlockStep ⟨ts, k⟩ (.single i o x) ⟨ts.set i (f x), W.machine.next k o x⟩
  /-- a section, from taking the lock to giving it back -/
  | critical {ts : List (Prog O A R)} {k k' : K} {i : ℕ} {p : Prog O A R}
      {l : List (Answered O A)} {o : O} {f : A o → Prog O A R} {x : A o} :
      ts[i]? = some p → Underway W.access l → Partway W.machine p k l (.op o f) k' →
      W.access o = .release → W.machine.may k' o x →
      BlockStep ⟨ts, k⟩ (.critical i (l ++ [⟨o, x⟩])) ⟨ts.set i (f x), W.machine.next k' o x⟩

/-- The runs made of blocks. -/
abbrev BlockRunOf : Pool O A R K → List (Pool O A R K × Block C O A) → Pool O A R K → Prop :=
  Run W.BlockStep

/-- How the configuration differs from one without an open section: the holder has
gone `l` into its own. -/
def Ahead (c : Conf O A R K) (P : Pool O A R K) : Option (ℕ × List (Answered O A)) → Prop
  | none => c = ⟨P.threads, none, P.shared⟩
  | some (i, l) => ∃ p q, P.threads[i]? = some p ∧ Underway W.access l ∧
      Partway W.machine p P.shared l q c.shared ∧
      c.threads = P.threads.set i q ∧ c.holder = some i

variable {W}

/-! ## The reduction -/

/-- **Moving left**: what another thread does without the lock could as well have
happened before the section began. -/
theorem move_left {p q : Prog O A α} {k k' : K} {l : List (Answered O A)} {o : O} {x : A o}
    (ho : W.access o = .free ∨ W.access o = .outside)
    (h : Partway W.machine p k l q k') (hl : ∀ e ∈ l, W.access e.1 ≠ .release)
    (hx : W.machine.may k' o x) :
    W.machine.may k o x ∧
      Partway W.machine p (W.machine.next k o x) l q (W.machine.next k' o x) := by
  induction h with
  | refl => exact ⟨hx, .refl⟩
  | @snoc k' l e f y _ hmay ih =>
    have hne : W.access e ≠ .release :=
      hl ⟨e, y⟩ (List.mem_append_right _ (List.mem_singleton_self _))
    obtain ⟨hk, hpart⟩ := ih (fun e he => hl e (List.mem_append_left _ he))
      (W.may_before ho hne hmay hx)
    refine ⟨hk, ?_⟩
    rw [W.next_comm ho hne]
    exact hpart.snoc (W.may_after ho hne hmay hx)

/-- A thread that does not hold the lock does only what needs none, or takes it. -/
theorem Orderly.other {c : Conf O A R K} (hc : W.Orderly c) {i : ℕ} {o : O}
    {f : A o → Prog O A R} (hget : c.threads[i]? = some (.op o f)) (hi : c.holder ≠ some i)
    (hne : W.access o ≠ .acquire) : W.access o = .free ∨ W.access o = .outside := by
  have hperm := hc.permitted hget
  rw [decide_eq_false hi] at hperm
  cases hacc : W.access o with
  | acquire => exact absurd hacc hne
  | release => simp [hacc, Access.permitted] at hperm
  | guarded => simp [hacc, Access.permitted] at hperm
  | free => exact Or.inl rfl
  | outside => exact Or.inr rfl

/-- Who holds the lock does not change with an operation that needs none. -/
theorem holder_unchanged {a : Access} (h : a ≠ .acquire) (h' : a ≠ .release) (i : ℕ)
    (holder : Option ℕ) : a.holder i holder = holder := by
  cases a with
  | acquire => exact absurd rfl h
  | release => exact absurd rfl h'
  | guarded => rfl
  | free => rfl
  | outside => rfl

/-- **Reduction, one step.** A step either completes a block or leads on into the open
section. -/
theorem reduce_step {c c' : Conf O A R K} {a : Act C O A} {P : Pool O A R K}
    {b : Condensed C O A} (hc : W.Orderly c) (h : W.Step c a c') (hP : W.Ahead c P b.pending) :
    ∃ btr P', W.BlockRunOf P btr P' ∧
      (absorb W.access b a).done = b.done ++ btr.map Prod.snd ∧
      W.Ahead c' P' (absorb W.access b a).pending := by
  obtain ⟨done, pending⟩ := b
  obtain ⟨ts₀, k₀⟩ := P
  cases h with
  | @spawn ts h k s =>
    refine ⟨_, _, Run.single (.spawn s), rfl, ?_⟩
    rcases pending with _ | ⟨i, l⟩
    · cases hP
      rfl
    · obtain ⟨p, q, hget, hop, hpart, hts, hh⟩ := hP
      obtain rfl : ts = ts₀.set i q := hts
      have hlt := (List.getElem?_eq_some_iff.mp hget).1
      exact ⟨p, q, by rw [List.getElem?_append_left hlt]; exact hget, hop, hpart,
        (List.set_append_left _ _ hlt).symm, hh⟩
  | @perform ts h k i o f x hget hfree hmay =>
    rcases pending with _ | ⟨j, l⟩
    -- nobody is inside a section
    · cases hP
      by_cases hacc : W.access o = .acquire
      · rw [absorb_first hacc]
        refine ⟨[], _, Run.nil _, (List.append_nil _).symm, .op o f, f x, hget, .single x hacc,
          ?_, rfl, by rw [hacc]; rfl⟩
        exact Partway.snoc (l := []) .refl hmay
      · have hout := hc.other hget (by simp) hacc
        have hrel : W.access o ≠ .release := by rcases hout with h | h <;> simp [h]
        rw [absorb_alone hacc]
        refine ⟨_, _, Run.single (.single hget hout hmay), rfl, ?_⟩
        rw [Ahead, holder_unchanged hacc hrel]
    · obtain ⟨p, q, hp, hop, hpart, hts, hh⟩ := hP
      obtain rfl : ts = ts₀.set j q := hts
      obtain rfl : h = some j := hh
      have hlt := (List.getElem?_eq_some_iff.mp hp).1
      have hacc : W.access o ≠ .acquire := fun hacc => by simpa using hfree hacc
      by_cases hij : i = j
      -- the section goes on, or is over
      · subst hij
        rw [List.getElem?_set_self hlt] at hget
        obtain rfl := Option.some.inj hget
        by_cases hrel : W.access o = .release
        · rw [absorb_last hrel]
          refine ⟨_, _, Run.single (.critical hp hop hpart hrel hmay), rfl, ?_⟩
          rw [Ahead, List.set_set, hrel]
          rfl
        · rw [absorb_inside hrel]
          refine ⟨[], _, Run.nil _, (List.append_nil _).symm, p, f x, hp, hop.snoc x hrel,
            hpart.snoc hmay, List.set_set _ .., ?_⟩
          rw [holder_unchanged hacc hrel]
      -- somebody else moves: to the front of the section
      · have hout := hc.other hget (by simpa using Ne.symm hij) hacc
        have hrel : W.access o ≠ .release := by rcases hout with h | h <;> simp [h]
        obtain ⟨hmay₀, hpart₀⟩ := move_left hout hpart hop.inside hmay
        rw [List.getElem?_set_ne (Ne.symm hij)] at hget
        rw [absorb_beside hij]
        refine ⟨_, _, Run.single (.single hget hout hmay₀), rfl, p, q, ?_, hop, hpart₀,
          List.set_comm _ _ (Ne.symm hij), ?_⟩
        · rw [List.getElem?_set_ne hij]
          exact hp
        · rw [holder_unchanged hacc hrel]

/-- **Reduction.** Every run, interrupted wherever it may be, is a run of the blocks
that `condense` reads off it; what the two differ by is the section that is open. -/
theorem reduction {c c' : Conf O A R K} {tr : List (Conf O A R K × Act C O A)}
    (hc : W.Orderly c) (hfree : c.holder = none) (h : W.RunOf c tr c') :
    ∃ btr P, W.BlockRunOf ⟨c.threads, c.shared⟩ btr P ∧
      (condense W.access (tr.map Prod.snd)).done = btr.map Prod.snd ∧
      W.Ahead c' P (condense W.access (tr.map Prod.snd)).pending := by
  induction h with
  | nil =>
    obtain ⟨ts, h, k⟩ := c
    obtain rfl : h = none := hfree
    exact ⟨[], _, Run.nil _, rfl, rfl⟩
  | @snoc c₁ c₂ tr a hrun hst ih =>
    obtain ⟨btr, P, hblocks, hdone, hahead⟩ := ih
    obtain ⟨btr', P', hblocks', hdone', hahead'⟩ := reduce_step (hc.run hrun) hst hahead
    rw [List.map_append, List.map_cons, List.map_nil, condense_snoc]
    refine ⟨btr ++ btr', P', hblocks.append hblocks', ?_, hahead'⟩
    rw [hdone', hdone, List.map_append]

/-! ### What is done outside -/

/-- **The order outside is kept**: what is done outside the lock is in the blocks of a run
exactly as it is in the run. -/
theorem condense_outside {c c' : Conf O A R K} {tr : List (Conf O A R K × Act C O A)}
    (hc : W.Orderly c) (hfree : c.holder = none) (h : W.RunOf c tr c') :
    (condense W.access (tr.map Prod.snd)).done.filterMap (Block.outside W.access) =
      (tr.map Prod.snd).filterMap (Act.outside W.access) := by
  induction h with
  | nil => rfl
  | @snoc c₁ c₂ tr a hrun hst ih =>
    obtain ⟨_, P, _, _, hahead⟩ := reduction hc hfree hrun
    rw [List.map_append, List.map_cons, List.map_nil, condense_snoc, List.filterMap_append, ← ih]
    generalize condense W.access (tr.map Prod.snd) = b at hahead ⊢
    obtain ⟨done, pending⟩ := b
    cases hst with
    | spawn s => exact List.filterMap_append ..
    | @perform ts h k i o f x hget hlock hmay =>
      rcases pending with _ | ⟨j, l⟩
      · by_cases hacc : W.access o = .acquire
        · rw [absorb_first hacc]
          simp [Act.outside, outsideOp, hacc]
        · rw [absorb_alone hacc, List.filterMap_append]
          rfl
      · by_cases hij : i = j
        -- the holder does nothing of the kind
        · subst hij
          have hne : W.access o ≠ .outside := by
            obtain ⟨_, _, _, _, _, _, hholder⟩ := hahead
            have hperm := (hc.run hrun).permitted hget
            intro hout
            rw [hout, decide_eq_true hholder] at hperm
            cases hperm
          by_cases hrel : W.access o = .release
          · rw [absorb_last hrel, List.filterMap_append]
            simp [Act.outside, outsideOp, Block.outside, hne]
          · rw [absorb_inside hrel]
            simp [Act.outside, outsideOp, hne]
        · rw [absorb_beside hij, List.filterMap_append]
          rfl

/-! ### Schedules -/

/-- A move of a schedule. -/
inductive Move (C O : Type) (A : O → Type) (K : Type) : Type where
  /-- start a thread -/
  | spawn (c : C) : Move C O A K
  /-- let thread `i` perform its next operation, with this answer -/
  | run (i : ℕ) (ans : K → (o : O) → A o) : Move C O A K

section Schedules

variable (W) [∀ k o x, Decidable (W.machine.may k o x)]

/-- Carry out one move, if it is possible. -/
def advance (c : Conf O A R K) : Move C O A K → Option (Act C O A × Conf O A R K)
  | .spawn s => some (.spawn s, { c with threads := c.threads ++ [W.body s] })
  | .run i ans =>
    match c.threads[i]? with
    | some (.op o f) =>
      let x := ans c.shared o
      if (W.access o = .acquire → c.holder = none) ∧ W.machine.may c.shared o x then
        some (.perform i o x, ⟨c.threads.set i (f x), (W.access o).holder i c.holder,
          W.machine.next c.shared o x⟩)
      else none
    | _ => none

/-- What a schedule leads to is a run. -/
theorem run_of_follow {ms : List (Move C O A K)} {c c' : Conf O A R K}
    {tr : List (Conf O A R K × Act C O A)} (h : follow W.advance c ms = some (tr, c')) :
    W.RunOf c tr c' := by
  refine Run.of_follow (fun c m a c' hm => ?_) h
  cases m with
  | spawn s =>
    obtain ⟨rfl, rfl⟩ := Prod.mk.inj (Option.some.inj hm)
    exact .spawn s
  | run i ans =>
    rw [advance] at hm
    rcases hget : c.threads[i]? with _ | r | ⟨o, f⟩ <;> simp only [hget] at hm
    · cases hm
    · cases hm
    · obtain ⟨⟨hfree, hmay⟩, heq⟩ := Option.ite_none_right_eq_some.mp hm
      obtain ⟨rfl, rfl⟩ := Prod.mk.inj (Option.some.inj heq)
      exact .perform hget hfree hmay

end Schedules

end System

end Locks
