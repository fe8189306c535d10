import Mathlib.Data.List.Induction

/-!
# Runs of a labelled transition system

The vocabulary in which statements about "any interleaving" are made. A transition
system is just its step relation `step : S → L → S → Prop`; nothing here knows
what a state or a label is.

* `Run step s tr t` — the finite runs, with the trace `tr` of every step taken:
  the state the step was taken **from** and its label. Keeping the pre-state in
  the trace is what lets a theorem speak of "every step of the run".
* `Run.invariant`, `Run.guarded` — the two induction rules. The second one is
  for laws that hold only along runs whose every step meets a condition: it
  returns the invariant at the end *and* at every state the run passed through.
* `follow` — schedules of moves for a partial step *function*, so that a concrete
  one can be evaluated and turned into a `Run` (`Run.of_follow`).
-/

namespace Runs

universe u v

variable {S : Type u} {L : Type v}

/-- The finite runs of `step`, with the steps taken: each entry of the trace is
the state a step was taken from and the label of the step. -/
inductive Run (step : S → L → S → Prop) : S → List (S × L) → S → Prop where
  /-- the empty run -/
  | nil (s : S) : Run step s [] s
  /-- one more step at the end -/
  | snoc {s t u : S} {tr : List (S × L)} {l : L} :
      Run step s tr t → step t l u → Run step s (tr ++ [(t, l)]) u

namespace Run

variable {step : S → L → S → Prop}

/-- A single step is a run. -/
theorem single {s t : S} {l : L} (h : step s l t) : Run step s [(s, l)] t :=
  snoc (nil s) h

/-- Runs compose. -/
theorem append {s t u : S} {tr tr' : List (S × L)} (h : Run step s tr t)
    (h' : Run step t tr' u) : Run step s (tr ++ tr') u := by
  induction h' with
  | nil => rwa [List.append_nil]
  | snoc _ hl ih =>
    rw [← List.append_assoc]
    exact snoc ih hl

/-- A run over a composed trace passes through a state between the two halves. -/
theorem split {s u : S} {tr tr' : List (S × L)} (h : Run step s (tr ++ tr') u) :
    ∃ t, Run step s tr t ∧ Run step t tr' u := by
  induction tr' using List.reverseRecOn generalizing u with
  | nil =>
    rw [List.append_nil] at h
    exact ⟨u, h, nil u⟩
  | append_singleton rest x ih =>
    rw [← List.append_assoc] at h
    generalize hall : tr ++ rest ++ [x] = all at h
    cases h with
    | nil => simp at hall
    | snoc h hl =>
      obtain ⟨hinit, hlast⟩ := List.append_inj' hall rfl
      obtain rfl := List.singleton_inj.mp hlast
      rw [← hinit] at h
      obtain ⟨t, h₁, h₂⟩ := ih h
      exact ⟨t, h₁, snoc h₂ hl⟩

/-- Inversion at an entry of the trace: the run reaches its pre-state, takes the
step, and goes on. -/
theorem at_entry {s u t : S} {l : L} {pre post : List (S × L)}
    (h : Run step s (pre ++ (t, l) :: post) u) :
    ∃ t', Run step s pre t ∧ step t l t' ∧ Run step t' post u := by
  rw [show pre ++ (t, l) :: post = pre ++ [(t, l)] ++ post by simp] at h
  obtain ⟨t', h₁, h₂⟩ := split h
  generalize hall : pre ++ [(t, l)] = all at h₁
  cases h₁ with
  | nil => simp at hall
  | snoc h₁ hl =>
    obtain ⟨rfl, hlast⟩ := List.append_inj' hall rfl
    obtain ⟨rfl, rfl⟩ := Prod.mk.inj (List.singleton_inj.mp hlast)
    exact ⟨t', h₁, hl, h₂⟩

/-- Every entry of the trace is a step that was taken. -/
theorem step_of_mem {s u t : S} {l : L} {tr : List (S × L)} (h : Run step s tr u)
    (hmem : (t, l) ∈ tr) : ∃ t', step t l t' := by
  obtain ⟨pre, post, rfl⟩ := List.append_of_mem hmem
  obtain ⟨t', -, hstep, -⟩ := h.at_entry
  exact ⟨t', hstep⟩

/-- A run passes through the state it starts from. -/
theorem start_mem {s u : S} {tr : List (S × L)} (h : Run step s tr u) :
    s ∈ u :: tr.map Prod.fst := by
  induction h with
  | nil => exact List.mem_singleton_self _
  | @snoc t u tr l _ _ ih =>
    rw [List.map_append]
    rcases List.mem_cons.mp ih with rfl | hmem
    · exact List.mem_cons_of_mem _ (List.mem_append_right _ (List.mem_singleton_self _))
    · exact List.mem_cons_of_mem _ (List.mem_append_left _ hmem)

/-- A run passes through a state after every step it takes. -/
theorem after_mem {s u t : S} {l : L} {tr : List (S × L)} (h : Run step s tr u)
    (hmem : (t, l) ∈ tr) : ∃ t', step t l t' ∧ t' ∈ u :: tr.map Prod.fst := by
  obtain ⟨pre, post, rfl⟩ := List.append_of_mem hmem
  obtain ⟨t', -, hstep, hpost⟩ := h.at_entry
  refine ⟨t', hstep, ?_⟩
  rcases List.mem_cons.mp hpost.start_mem with rfl | hmem
  · exact List.mem_cons_self ..
  · rw [List.map_append, List.map_cons]
    exact List.mem_cons_of_mem _ (List.mem_append_right _ (List.mem_cons_of_mem _ hmem))

/-- **Invariant rule**: what every step keeps, every run keeps. -/
theorem invariant {I : S → Prop} {s t : S} {tr : List (S × L)}
    (hstep : ∀ s l t, I s → step s l t → I t) (h : Run step s tr t) (hs : I s) : I t := by
  induction h with
  | nil => exact hs
  | snoc _ hl ih => exact hstep _ _ _ ih hl

/-- **Guarded invariant rule**: if steps that meet the condition `C` keep `I`,
then along a run all of whose steps meet `C`, the invariant holds at the end and
at every state a step was taken from. -/
theorem guarded {I : S → Prop} {C : S → L → Prop} {s t : S} {tr : List (S × L)}
    (hstep : ∀ s l t, I s → C s l → step s l t → I t) (h : Run step s tr t) (hs : I s)
    (hC : ∀ p ∈ tr, C p.1 p.2) : I t ∧ ∀ p ∈ tr, I p.1 := by
  induction h with
  | nil => exact ⟨hs, fun _ hp => absurd hp List.not_mem_nil⟩
  | snoc _ hl ih =>
    obtain ⟨ht, hbefore⟩ := ih fun p hp => hC p (List.mem_append_left _ hp)
    have hlast := hC _ (List.mem_append_right _ (List.mem_singleton_self _))
    refine ⟨hstep _ _ _ ht hlast hl, fun p hp => ?_⟩
    rcases List.mem_append.mp hp with hp | hp
    · exact hbefore p hp
    · obtain rfl := List.mem_singleton.mp hp
      exact ht

/-- The unguarded rule at every state passed through. -/
theorem always {I : S → Prop} {s t : S} {tr : List (S × L)}
    (hstep : ∀ s l t, I s → step s l t → I t) (h : Run step s tr t) (hs : I s) :
    I t ∧ ∀ p ∈ tr, I p.1 :=
  guarded (C := fun _ _ => True) (fun s l t hs _ => hstep s l t hs) h hs fun _ _ => trivial

end Run

/-! ## Schedules -/

variable {M : Type*}

/-- Follow a schedule of moves, where a move that is possible says what happens and
where it leads: the trace and the last state, if every move is possible. -/
def follow (next : S → M → Option (L × S)) : S → List M → Option (List (S × L) × S)
  | s, [] => some ([], s)
  | s, m :: ms =>
    match next s m with
    | none => none
    | some (l, t) => (follow next t ms).map fun (tr, u) => ((s, l) :: tr, u)

/-- A schedule that can be followed is a run. -/
theorem Run.of_follow {step : S → L → S → Prop} {next : S → M → Option (L × S)}
    (hnext : ∀ s m l t, next s m = some (l, t) → step s l t) :
    ∀ {ms : List M} {s u : S} {tr : List (S × L)},
      follow next s ms = some (tr, u) → Run step s tr u := by
  intro ms
  induction ms with
  | nil =>
    intro s u tr h
    obtain ⟨rfl, rfl⟩ := Prod.mk.inj (Option.some.inj h)
    exact Run.nil s
  | cons m ms ih =>
    intro s u tr h
    rw [follow] at h
    rcases hm : next s m with _ | ⟨l, t⟩ <;> rw [hm] at h
    · cases h
    · obtain ⟨⟨rest, last⟩, hrest, heq⟩ := Option.map_eq_some_iff.mp h
      obtain ⟨rfl, rfl⟩ := Prod.mk.inj heq
      exact (Run.single (hnext _ _ _ _ hm)).append (ih hrest)

end Runs
