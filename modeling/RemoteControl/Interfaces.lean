import RemoteControl.Runs
import RemoteControl.Ledger
import RemoteControl.Retries

/-!
# References to interfaces of other plugins

`PluginInterfaceRef` holds a reference to an interface, and is to release it when it
is destroyed. It cannot be copied, only moved. The shell beside the interface is never
released, nor is a reference on it taken.

* `PluginInterfaceBuilder.createInterface` — how an object gets the interface it holds.
* `RefObjects.step` — what a program does to any number of these objects.
* `RefObjects.Owned` — every reference that was acquired and is not yet released is owned
  by one of them.
* `owned_iff` — that holds throughout a program exactly when it never assigns to an
  object that holds a reference: the assignment forgets it.
-/

namespace RemoteControl

open Runs

/-- `PluginInterfaceRef<INTERFACE>`, with pointers to interfaces `ι` and to shells `σ`. -/
structure PluginInterfaceRef (ι σ : Type) where
  /-- `_interface` -/
  interface : Option ι
  /-- `_service` -/
  service : Option σ
  deriving DecidableEq

namespace PluginInterfaceRef

variable {ι σ : Type}

/-- `PluginInterfaceRef()`. -/
def default : PluginInterfaceRef ι σ := ⟨none, none⟩

/-- `PluginInterfaceRef(interface, controller)`. -/
def construct (interface : Option ι) (controller : Option σ) : PluginInterfaceRef ι σ :=
  ⟨interface, controller⟩

/-- `PluginInterfaceRef(PluginInterfaceRef&& other)`: the new object, and what is left of
`other`. -/
def moveConstruct (other : PluginInterfaceRef ι σ) :
    PluginInterfaceRef ι σ × PluginInterfaceRef ι σ :=
  (⟨other.interface, other.service⟩, { other with interface := none })

/-- `operator=(PluginInterfaceRef&& other)` on another object than `other`: the object,
and what is left of `other`. -/
def moveAssign (this other : PluginInterfaceRef ι σ) :
    PluginInterfaceRef ι σ × PluginInterfaceRef ι σ :=
  ({ this with interface := other.interface }, { other with interface := none })

/-- `Reset()`: the object, and the interface that is released. -/
def reset (this : PluginInterfaceRef ι σ) : PluginInterfaceRef ι σ × Option ι :=
  match this.interface with
  | some interface => ({ this with interface := none }, some interface)
  | none => (this, none)

/-- `Reset` releases what the object holds. -/
@[simp] theorem reset_released (this : PluginInterfaceRef ι σ) :
    this.reset.2 = this.interface := by
  unfold reset
  split <;> simp [*]

/-- It leaves the object empty. -/
@[simp] theorem reset_interface (this : PluginInterfaceRef ι σ) :
    this.reset.1.interface = none := by
  unfold reset
  split <;> simp [*]

end PluginInterfaceRef

/-! ## Programs -/

/-- A statement of a program. Objects are named by the order in which they were
constructed. -/
inductive RefStmt (ι σ : Type) where
  /-- `PluginInterfaceRef<INTERFACE> x;` -/
  | default
  /-- construction from an interface that was just acquired, or from null -/
  | construct (interface : Option ι) (controller : Option σ)
  /-- construction from `std::move(other)` -/
  | moveConstruct (other : ℕ)
  /-- `this = std::move(other)` -/
  | moveAssign (this other : ℕ)
  /-- `this.Reset()` -/
  | reset (this : ℕ)
  /-- the end of the lifetime of an object -/
  | destroy (this : ℕ)
  deriving DecidableEq

/-- `PluginInterfaceBuilder::createInterface()` where `n` objects were constructed so far:
the interface it creates goes to a temporary object, which is moved into the one returned. -/
def PluginInterfaceBuilder.createInterface {ι σ : Type} (builder : PluginInterfaceBuilder σ)
    (queryInterfaceByCallsign : σ → String → ℕ → Option ι) (n : ℕ) : List (RefStmt ι σ) :=
  [.construct (RemoteControl.createInterface builder queryInterfaceByCallsign).1 builder.service,
    .moveConstruct n, .destroy n]

/-- The objects, and the references that were acquired and released. -/
structure RefObjects (ι σ : Type) where
  /-- the objects in the order of their construction; those that are gone are `none` -/
  objects : List (Option (PluginInterfaceRef ι σ))
  /-- how often each interface was acquired and released -/
  ledger : Ledger ι

namespace RefObjects

variable {ι σ : Type} [DecidableEq ι]

/-- Nothing yet. -/
def fresh : RefObjects ι σ := ⟨[], .blank⟩

/-- An object that is alive. -/
def get (s : RefObjects ι σ) (x : ℕ) : Option (PluginInterfaceRef ι σ) := (s.objects[x]?).join

/-- One more object. -/
def push (s : RefObjects ι σ) (o : PluginInterfaceRef ι σ) : RefObjects ι σ :=
  { s with objects := s.objects ++ [some o] }

/-- An object in another state, or gone. -/
def put (s : RefObjects ι σ) (x : ℕ) (o : Option (PluginInterfaceRef ι σ)) : RefObjects ι σ :=
  { s with objects := s.objects.set x o }

/-- An interface was acquired, if it is one. -/
def acquired (s : RefObjects ι σ) : Option ι → RefObjects ι σ
  | some interface => { s with ledger := s.ledger.take interface }
  | none => s

/-- `interface->Release()`, if it is one. -/
def released (s : RefObjects ι σ) : Option ι → RefObjects ι σ
  | some interface => { s with ledger := s.ledger.give interface }
  | none => s

/-- One statement; `none` if it uses an object that is not alive. -/
def step (s : RefObjects ι σ) : RefStmt ι σ → Option (RefObjects ι σ)
  | .default => some (s.push .default)
  | .construct interface controller =>
    some ((s.acquired interface).push (.construct interface controller))
  | .moveConstruct other => do
    let o ← s.get other
    let (this, rest) := o.moveConstruct
    return (s.put other (some rest)).push this
  | .moveAssign this other => do
    let t ← s.get this
    let o ← s.get other
    if this ≠ other then
      -- what `this` held is not released
      let (assigned, rest) := t.moveAssign o
      return (s.put this (some assigned)).put other (some rest)
    else return s
  | .reset this => do
    let t ← s.get this
    let (rest, interface) := t.reset
    return (s.released interface).put this (some rest)
  | .destroy this => do
    let t ← s.get this
    let (_, interface) := t.reset
    return (s.released interface).put this none

/-- One statement, as a relation. -/
def Steps (s : RefObjects ι σ) (stmt : RefStmt ι σ) (t : RefObjects ι σ) : Prop :=
  s.step stmt = some t

/-- One statement, with itself as its label. -/
def advance (s : RefObjects ι σ) (stmt : RefStmt ι σ) : Option (RefStmt ι σ × RefObjects ι σ) :=
  (s.step stmt).map (stmt, ·)

/-- A list of statements that can be followed is a program. -/
theorem run_of_follow {s t : RefObjects ι σ} {stmts : List (RefStmt ι σ)}
    {tr : List (RefObjects ι σ × RefStmt ι σ)} (h : follow advance s stmts = some (tr, t)) :
    Run Steps s tr t := by
  refine Run.of_follow (fun _ _ _ _ hm => ?_) h
  obtain ⟨u, hu, heq⟩ := Option.map_eq_some_iff.mp hm
  obtain ⟨rfl, rfl⟩ := Prod.mk.inj heq
  exact hu

/-! ## Owners -/

/-- The object is alive and holds this interface. -/
def holds (interface : ι) : Option (PluginInterfaceRef ι σ) → Bool
  | some o => o.interface = some interface
  | none => false

/-- The objects that hold the interface. -/
def owners (s : RefObjects ι σ) (interface : ι) : ℕ := s.objects.countP (holds interface)

/-- Of every interface, as many references are acquired and not released as there are
objects that hold it: each is owned by exactly one. -/
def Owned (s : RefObjects ι σ) : Prop :=
  ∀ interface, s.ledger.taken interface = s.ledger.given interface + s.owners interface

/-- Every object is gone. -/
def AllDestroyed (s : RefObjects ι σ) : Prop := ∀ o ∈ s.objects, o = none

/-- The statement assigns to an object that holds a reference. -/
def Overwrites (s : RefObjects ι σ) : RefStmt ι σ → Prop
  | .moveAssign this other => this ≠ other ∧ ∃ t, s.get this = some t ∧ t.interface ≠ none
  | _ => False

instance [DecidableEq σ] (s : RefObjects ι σ) : Decidable s.AllDestroyed :=
  inferInstanceAs (Decidable (∀ o ∈ s.objects, o = none))

instance (s : RefObjects ι σ) : DecidablePred s.Overwrites
  | .moveAssign this other =>
    inferInstanceAs (Decidable (this ≠ other ∧ ∃ t ∈ s.get this, t.interface ≠ none))
  | .default | .construct .. | .moveConstruct .. | .reset .. | .destroy .. =>
    inferInstanceAs (Decidable False)

/-- The references to the interface that the statement forgets. -/
def forgotten (s : RefObjects ι σ) (interface : ι) : RefStmt ι σ → ℕ
  | .moveAssign this other => if this ≠ other ∧ holds interface (s.get this) then 1 else 0
  | _ => 0

omit [DecidableEq ι] in
theorem get_eq_some {s : RefObjects ι σ} {x : ℕ} {o : PluginInterfaceRef ι σ} :
    s.get x = some o ↔ s.objects[x]? = some (some o) := by
  rw [get, Option.join_eq_some_iff]

/-- The interface, if it is one, counted as one reference to `interface`. -/
def asOne (interface : ι) (held : Option ι) : ℕ := if held = some interface then 1 else 0

@[simp] theorem asOne_none (i : ι) : asOne i none = 0 := rfl

@[simp] theorem if_holds_some (i : ι) (o : PluginInterfaceRef ι σ) :
    (if holds i (some o) then 1 else 0) = asOne i o.interface := by
  simp [holds, asOne]

/-! ### What the parts of a statement do to the counts -/

theorem taken_acquired (s : RefObjects ι σ) (held : Option ι) (i : ι) :
    (s.acquired held).ledger.taken i = s.ledger.taken i + asOne i held := by
  cases held with
  | none => rfl
  | some j => simp [acquired, asOne, Pi.single_apply, eq_comm]

@[simp] theorem given_acquired (s : RefObjects ι σ) (held : Option ι) :
    (s.acquired held).ledger.given = s.ledger.given := by
  cases held <;> rfl

@[simp] theorem objects_acquired (s : RefObjects ι σ) (held : Option ι) :
    (s.acquired held).objects = s.objects := by
  cases held <;> rfl

@[simp] theorem taken_released (s : RefObjects ι σ) (held : Option ι) :
    (s.released held).ledger.taken = s.ledger.taken := by
  cases held <;> rfl

theorem given_released (s : RefObjects ι σ) (held : Option ι) (i : ι) :
    (s.released held).ledger.given i = s.ledger.given i + asOne i held := by
  cases held with
  | none => rfl
  | some j => simp [released, asOne, Pi.single_apply, eq_comm]

@[simp] theorem objects_released (s : RefObjects ι σ) (held : Option ι) :
    (s.released held).objects = s.objects := by
  cases held <;> rfl

omit [DecidableEq ι] in
@[simp] theorem ledger_push (s : RefObjects ι σ) (o : PluginInterfaceRef ι σ) :
    (s.push o).ledger = s.ledger := rfl

omit [DecidableEq ι] in
@[simp] theorem ledger_put (s : RefObjects ι σ) (x : ℕ) (o : Option (PluginInterfaceRef ι σ)) :
    (s.put x o).ledger = s.ledger := rfl

@[simp] theorem owners_acquired (s : RefObjects ι σ) (held : Option ι) (i : ι) :
    (s.acquired held).owners i = s.owners i := by
  rw [owners, objects_acquired, owners]

@[simp] theorem owners_released (s : RefObjects ι σ) (held : Option ι) (i : ι) :
    (s.released held).owners i = s.owners i := by
  rw [owners, objects_released, owners]

/-- One more object is one more owner of what it holds. -/
theorem owners_push (s : RefObjects ι σ) (o : PluginInterfaceRef ι σ) (i : ι) :
    (s.push o).owners i = s.owners i + asOne i o.interface := by
  rw [owners, push, List.countP_append, List.countP_singleton, if_holds_some, owners]

/-- An object in another state owns what it holds now, and no longer what it held. -/
theorem owners_put {s : RefObjects ι σ} {x : ℕ} {o : PluginInterfaceRef ι σ}
    (ho : s.get x = some o) (o' : Option (PluginInterfaceRef ι σ)) (i : ι) :
    (s.put x o').owners i + asOne i o.interface =
      s.owners i + if holds i o' then 1 else 0 := by
  obtain ⟨hx, hget⟩ := List.getElem?_eq_some_iff.mp (get_eq_some.mp ho)
  have hset := List.countP_set (p := holds i) (a := o') hx
  have hle : (if holds i s.objects[x] then 1 else 0) ≤ s.objects.countP (holds i) :=
    List.boole_getElem_le_countP hx
  rw [hget, if_holds_some] at hset hle
  rw [owners, put, hset, owners]
  omega

omit [DecidableEq ι] in
/-- The other objects stay as they are. -/
theorem get_put_ne {s : RefObjects ι σ} {x y : ℕ} (h : x ≠ y)
    (o : Option (PluginInterfaceRef ι σ)) : (s.put x o).get y = s.get y := by
  rw [get, put, List.getElem?_set_ne h, get]

/-! ### What a statement does to them -/

/-- Releasing what an object holds, and leaving it empty or destroying it. -/
theorem balance_reset {s : RefObjects ι σ} {x : ℕ} {o : PluginInterfaceRef ι σ}
    {o' : Option (PluginInterfaceRef ι σ)} {i : ι} (ho : s.get x = some o)
    (hempty : (if holds i o' then 1 else 0) = 0) :
    ((s.released o.reset.2).put x o').ledger.taken i + s.ledger.given i + s.owners i =
      s.ledger.taken i + ((s.released o.reset.2).put x o').ledger.given i +
        ((s.released o.reset.2).put x o').owners i := by
  have hreleased : (s.released o.reset.2).get x = some o := by
    rw [get, objects_released, ← ho, get]
  have howners := owners_put hreleased o' i
  have hgiven := given_released s o.reset.2 i
  rw [owners_released, hempty] at howners
  rw [PluginInterfaceRef.reset_released] at hgiven howners ⊢
  simp only [ledger_put, taken_released]
  omega

/-- An assignment moves what the one object holds, and forgets what the other one held. -/
theorem balance_moveAssign {s : RefObjects ι σ} {this other : ℕ}
    {o₁ o₂ : PluginInterfaceRef ι σ} {i : ι} (ho₁ : s.get this = some o₁)
    (ho₂ : s.get other = some o₂) (hne : this ≠ other) :
    let t := (s.put this (some (o₁.moveAssign o₂).1)).put other (some (o₁.moveAssign o₂).2)
    t.ledger.taken i + s.ledger.given i + s.owners i =
      s.ledger.taken i + t.ledger.given i + t.owners i +
        s.forgotten i (.moveAssign this other) := by
  have hassigned := owners_put ho₁ (some (o₁.moveAssign o₂).1) i
  have hother : (s.put this (some (o₁.moveAssign o₂).1)).get other = some o₂ := by
    rw [get_put_ne hne, ho₂]
  have hrest := owners_put hother (some (o₁.moveAssign o₂).2) i
  rw [if_holds_some] at hassigned hrest
  have hforgotten : s.forgotten i (.moveAssign this other) = asOne i o₁.interface := by
    simp only [forgotten, ho₁, hne, ne_eq, not_false_eq_true, true_and, if_holds_some]
  simp only [ledger_put, hforgotten]
  simp only [PluginInterfaceRef.moveAssign, asOne_none] at hassigned hrest ⊢
  omega

/-- A statement takes, releases and moves references, and forgets those it overwrites. -/
theorem balance_of_step {s t : RefObjects ι σ} {stmt : RefStmt ι σ}
    (h : s.step stmt = some t) (i : ι) :
    t.ledger.taken i + s.ledger.given i + s.owners i =
      s.ledger.taken i + t.ledger.given i + t.owners i + s.forgotten i stmt := by
  cases stmt with
  | default =>
    obtain rfl := Option.some.inj h
    have howners := owners_push s .default i
    rw [ledger_push]
    simp only [PluginInterfaceRef.default, asOne_none] at howners
    simp only [forgotten, PluginInterfaceRef.default]
    omega
  | construct interface controller =>
    obtain rfl := Option.some.inj h
    have howners := owners_push (s.acquired interface) (.construct interface controller) i
    have htaken := taken_acquired s interface i
    rw [owners_acquired] at howners
    simp only [ledger_push, given_acquired, forgotten, htaken]
    simp only [PluginInterfaceRef.construct] at howners ⊢
    omega
  | moveConstruct other =>
    obtain ⟨o, ho, h⟩ := Option.bind_eq_some_iff.mp h
    obtain rfl := Option.some.inj h
    have hrest := owners_put ho (some o.moveConstruct.2) i
    have howners := owners_push (s.put other (some o.moveConstruct.2)) o.moveConstruct.1 i
    rw [if_holds_some] at hrest
    simp only [ledger_push, ledger_put, forgotten]
    simp only [PluginInterfaceRef.moveConstruct, asOne_none] at hrest howners ⊢
    omega
  | moveAssign this other =>
    obtain ⟨o₁, ho₁, h⟩ := Option.bind_eq_some_iff.mp h
    obtain ⟨o₂, ho₂, h⟩ := Option.bind_eq_some_iff.mp h
    by_cases hne : this ≠ other
    · simp only [if_pos hne] at h
      obtain rfl := Option.some.inj h
      exact balance_moveAssign ho₁ ho₂ hne
    · simp only [if_neg hne] at h
      obtain rfl := Option.some.inj h
      simp only [forgotten, hne, false_and, if_false]
      omega
  | reset this =>
    obtain ⟨o, ho, h⟩ := Option.bind_eq_some_iff.mp h
    obtain rfl := Option.some.inj h
    have hempty : (if holds i (some o.reset.1) then 1 else 0) = 0 := by
      rw [if_holds_some, PluginInterfaceRef.reset_interface, asOne_none]
    exact balance_reset ho hempty
  | destroy this =>
    obtain ⟨o, ho, h⟩ := Option.bind_eq_some_iff.mp h
    obtain rfl := Option.some.inj h
    exact balance_reset ho rfl

/-- An object overwritten held something. -/
theorem overwrites_iff {s : RefObjects ι σ} {stmt : RefStmt ι σ} :
    s.Overwrites stmt ↔ ∃ i, s.forgotten i stmt ≠ 0 := by
  cases stmt with
  | moveAssign this other =>
    constructor
    · rintro ⟨hne, o, ho, hheld⟩
      obtain ⟨i, hi⟩ := Option.ne_none_iff_exists'.mp hheld
      refine ⟨i, ?_⟩
      simp [forgotten, hne, ho, holds, hi]
    · rintro ⟨i, hi⟩
      obtain ⟨⟨hne, hholds⟩, -⟩ := ite_ne_right_iff.mp hi
      rcases ho : s.get this with _ | o
      · rw [ho] at hholds
        cases hholds
      · rw [ho, holds, decide_eq_true_eq] at hholds
        exact ⟨hne, o, ho, by rw [hholds]; exact Option.some_ne_none i⟩
  | _ => simp [Overwrites, forgotten]

/-- Without overwriting, ownership is kept. -/
theorem Owned.of_step {s t : RefObjects ι σ} {stmt : RefStmt ι σ} (hs : s.Owned)
    (hkeep : ¬ s.Overwrites stmt) (h : s.Steps stmt t) : t.Owned := by
  intro i
  have hbalance := balance_of_step h i
  have hforgotten : s.forgotten i stmt = 0 := by
    by_contra hne
    exact hkeep (overwrites_iff.mpr ⟨i, hne⟩)
  have howned := hs i
  omega

/-- An overwritten reference has no owner any more. -/
theorem Owned.not_overwrites {s t : RefObjects ι σ} {stmt : RefStmt ι σ} (hs : s.Owned)
    (h : s.Steps stmt t) (ht : t.Owned) : ¬ s.Overwrites stmt := by
  intro hover
  obtain ⟨i, hi⟩ := overwrites_iff.mp hover
  have hbalance := balance_of_step h i
  have hbefore := hs i
  have hafter := ht i
  omega

theorem owned_fresh : (fresh : RefObjects ι σ).Owned := fun _ => rfl

/-- When the objects are gone, what was owned has been released. -/
theorem Owned.balanced {s : RefObjects ι σ} (hs : s.Owned) (hgone : s.AllDestroyed) :
    s.ledger.Balanced := by
  funext i
  have hnone : s.owners i = 0 := by
    rw [owners, List.countP_eq_zero]
    intro o ho
    rw [hgone o ho]
    exact Bool.false_ne_true
  rw [hs i, hnone, Nat.add_zero]

/-- Where one entry of a list meets a predicate, it has one position. -/
theorem existsUnique_of_countP {α : Type} {p : α → Bool} {l : List α} (h : l.countP p = 1) :
    ∃! x : ℕ, ∃ a, l[x]? = some a ∧ p a := by
  induction l with
  | nil => cases h
  | cons b l ih =>
    rw [List.countP_cons] at h
    by_cases hb : p b
    · rw [if_pos hb] at h
      have hnone : ∀ a ∈ l, ¬ p a := List.countP_eq_zero.mp (by omega)
      refine ⟨0, ⟨b, rfl, hb⟩, ?_⟩
      rintro (_ | y) ⟨a, ha, hpa⟩
      · rfl
      · exact absurd hpa (hnone a (List.mem_of_getElem? ha))
    · rw [if_neg hb] at h
      obtain ⟨x, hx, huniq⟩ := ih h
      refine ⟨x + 1, hx, ?_⟩
      rintro (_ | y) ⟨a, ha, hpa⟩
      · obtain rfl := Option.some.inj ha
        exact absurd hpa hb
      · rw [huniq y ⟨a, ha, hpa⟩]

/-- A reference that is not released has one owner, if it is the only one to its
interface. -/
theorem Owned.existsUnique {s : RefObjects ι σ} (hs : s.Owned) {i : ι}
    (hout : s.ledger.taken i = s.ledger.given i + 1) :
    ∃! x, ∃ o, s.get x = some o ∧ o.interface = some i := by
  have howners : s.owners i = 1 := by
    have howned := hs i
    omega
  obtain ⟨x, ⟨o, hx, ho⟩, huniq⟩ := existsUnique_of_countP howners
  rcases o with _ | o
  · cases ho
  refine ⟨x, ⟨o, get_eq_some.mpr hx, of_decide_eq_true ho⟩, ?_⟩
  rintro y ⟨o', ho', hi⟩
  exact huniq y ⟨some o', get_eq_some.mp ho', decide_eq_true hi⟩

end RefObjects

open RefObjects

/-- Along a program every reference that is not released is owned, and at its end all
are released, exactly if no assignment overwrites a reference. -/
theorem owned_iff {ι σ : Type} [DecidableEq ι] {s : RefObjects ι σ}
    {tr : List (RefObjects ι σ × RefStmt ι σ)} (h : Run Steps fresh tr s) :
    ((∀ t ∈ s :: tr.map Prod.fst, t.Owned) ∧ (s.AllDestroyed → s.ledger.Balanced)) ↔
      ∀ p ∈ tr, ¬ p.1.Overwrites p.2 := by
  constructor
  · rintro ⟨howned, -⟩ ⟨t, stmt⟩ hp
    obtain ⟨t', hstep, hafter⟩ := h.after_mem hp
    have ht : t.Owned := howned t (List.mem_cons_of_mem _ (List.mem_map_of_mem hp))
    exact ht.not_overwrites hstep (howned t' hafter)
  · intro hkeep
    obtain ⟨hs, hbefore⟩ := h.guarded
      (fun _ _ _ ht hkeep hstep => Owned.of_step ht hkeep hstep) owned_fresh hkeep
    refine ⟨fun t ht => ?_, hs.balanced⟩
    rcases List.mem_cons.mp ht with rfl | ht
    · exact hs
    · obtain ⟨p, hp, rfl⟩ := List.mem_map.mp ht
      exact hbefore p hp

/-- An assignment to an object that holds nothing, from an interface just created. -/
def assignEmpty : List (RefStmt ℕ ℕ) :=
  [.default] ++ PluginInterfaceBuilder.createInterface ⟨"org.rdk.RemoteControl", some 9, 2, 0⟩
      (fun _ _ count => if count = 0 then none else some 5) 1 ++
    [.moveAssign 0 2, .destroy 2, .reset 0, .destroy 0]

/-- There everything is released in the end. -/
theorem owned_iff_assignEmpty : ∃ tr s, follow advance fresh assignEmpty = some (tr, s) ∧
    s.AllDestroyed ∧ s.ledger.taken 5 = 1 ∧
      (∀ t ∈ s :: tr.map Prod.fst, t.Owned) ∧ (s.AllDestroyed → s.ledger.Balanced) := by
  have hstmts : assignEmpty = [.default, .construct (some 5) (some 9), .moveConstruct 1,
      .destroy 1, .moveAssign 0 2, .destroy 2, .reset 0, .destroy 0] := by
    simp [assignEmpty, PluginInterfaceBuilder.createInterface, createInterface, retry]
  rw [hstmts]
  obtain ⟨⟨tr, s⟩, hfollow⟩ : ∃ p, follow advance (fresh : RefObjects ℕ ℕ) [.default,
      .construct (some 5) (some 9), .moveConstruct 1, .destroy 1, .moveAssign 0 2, .destroy 2,
      .reset 0, .destroy 0] = some p := ⟨_, rfl⟩
  have hrun := run_of_follow hfollow
  obtain ⟨hgone, htaken, hkeep⟩ : s.AllDestroyed ∧ s.ledger.taken 5 = 1 ∧
      ∀ p ∈ tr, ¬ p.1.Overwrites p.2 := by
    obtain ⟨rfl, rfl⟩ := Prod.mk.inj (Option.some.inj hfollow)
    exact ⟨by decide, rfl, by decide⟩
  exact ⟨tr, s, hfollow, hgone, htaken, (owned_iff hrun).mpr hkeep⟩

/-- An assignment to an object that holds an interface. -/
def assignFull : List (RefStmt ℕ ℕ) :=
  [.construct (some 1) (some 9), .construct (some 2) (some 9), .moveAssign 0 1, .destroy 1,
    .destroy 0]

/-- There interface `1` is never released: not even after the end of both objects. -/
theorem assignFull_leaks : ∃ tr s, follow advance fresh assignFull = some (tr, s) ∧
    Run Steps fresh tr s ∧ s.AllDestroyed ∧ s.ledger.taken 1 = 1 ∧ s.ledger.given 1 = 0 ∧
    ¬ ((∀ t ∈ s :: tr.map Prod.fst, t.Owned) ∧ (s.AllDestroyed → s.ledger.Balanced)) := by
  obtain ⟨⟨tr, s⟩, hfollow⟩ : ∃ p, follow advance fresh assignFull = some p := ⟨_, rfl⟩
  obtain ⟨hgone, htaken, hgiven⟩ : s.AllDestroyed ∧ s.ledger.taken 1 = 1 ∧
      s.ledger.given 1 = 0 := by
    obtain ⟨-, rfl⟩ := Prod.mk.inj (Option.some.inj hfollow)
    exact ⟨by decide, rfl, rfl⟩
  refine ⟨tr, s, hfollow, run_of_follow hfollow, hgone, htaken, hgiven, ?_⟩
  rintro ⟨-, hbalanced⟩
  have heq := congrFun (hbalanced hgone) 1
  omega

end RemoteControl
