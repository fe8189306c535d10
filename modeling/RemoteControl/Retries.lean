import Mathlib.Algebra.Group.Int.Defs
import Mathlib.Tactic.Common

/-!
# The retries of `createInterface`, and the pauses between them

How long `createInterface` waits before it asks again comes from `withRetryIntervalMS`, in
milliseconds. It is kept as a `uint32_t`, and multiplied by 1000 as one.

* `createInterface` — the interface, with the queries and the pauses.
* `retry_result`, `retry_queries`, `retry_follows` — what the loop returns, which queries it
  makes, and where it pauses.
* `createInterface_waits_iff` — the pauses have the right length if the interval is less
  than 4294968 milliseconds; if it is not, only where there are no pauses.
-/

namespace RemoteControl

/-- `PluginInterfaceBuilder<INTERFACE>`, with pointers to shells `σ`. -/
structure PluginInterfaceBuilder (σ : Type) where
  /-- `_callsign` -/
  callsign : String
  /-- `_service` -/
  service : Option σ
  /-- `_retry_count` -/
  retryCount : ℤ
  /-- `_retry_interval` -/
  retryInterval : UInt32

/-- What `createInterface` does that can be seen from outside. -/
inductive RetryEvent (ι : Type) where
  /-- `QueryInterfaceByCallsign`, with its answer -/
  | query (answer : Option ι)
  /-- `usleep(usec)` -/
  | usleep (usec : UInt32)
  deriving DecidableEq

variable {ι σ : Type}

namespace PluginInterfaceBuilder

/-- `PluginInterfaceBuilder(callsign)`. -/
def construct (callsign : String) : PluginInterfaceBuilder σ := ⟨callsign, none, 0, 0⟩

/-- `withIShell(service)`. -/
def withIShell (builder : PluginInterfaceBuilder σ) (service : Option σ) :
    PluginInterfaceBuilder σ :=
  { builder with service := service }

/-- `withRetryIntervalMS(retryInterval)`: the `int` becomes a `uint32_t`. -/
def withRetryIntervalMS (builder : PluginInterfaceBuilder σ) (retryInterval : Int32) :
    PluginInterfaceBuilder σ :=
  { builder with retryInterval := retryInterval.toUInt32 }

/-- `withRetryCount(retryCount)`. -/
def withRetryCount (builder : PluginInterfaceBuilder σ) (retryCount : Int32) :
    PluginInterfaceBuilder σ :=
  { builder with retryCount := retryCount.toInt }

end PluginInterfaceBuilder

/-- The loop of `createInterface` from the given `count` on. An `int` is enough for `count`:
it passes `retryCount` by at most the first query. -/
def retry (queryInterface : ℕ → Option ι) (retryCount : ℤ) (retryInterval : UInt32)
    (count : ℕ) : Option ι × List (RetryEvent ι) :=
  match queryInterface count with
  | some interface => (some interface, [.query (some interface)])
  | none =>
    let failed := [.query none, .usleep (retryInterval * 1000)]
    if count + 1 < retryCount then
      let next := retry queryInterface retryCount retryInterval (count + 1)
      (next.1, failed ++ next.2)
    else (none, failed)
termination_by (retryCount - count).toNat

/-- `createInterface(builder)`: what it returns, and what it does for that. -/
def createInterface (builder : PluginInterfaceBuilder σ)
    (queryInterfaceByCallsign : σ → String → ℕ → Option ι) : Option ι × List (RetryEvent ι) :=
  match builder.service with
  | none => (none, [])
  | some controller =>
    retry (queryInterfaceByCallsign controller builder.callsign) builder.retryCount
      builder.retryInterval 0

/-! ## What the loop does -/

/-- How many queries there are from `count` on if none is answered with an interface. -/
def queriesLeft (retryCount : ℤ) (count : ℕ) : ℕ := (max 1 (retryCount - count)).toNat

theorem queriesLeft_of_lt {retryCount : ℤ} {count : ℕ} (h : count + 1 < retryCount) :
    queriesLeft retryCount count = queriesLeft retryCount (count + 1) + 1 := by
  rw [queriesLeft, queriesLeft]
  omega

theorem queriesLeft_of_ge {retryCount : ℤ} {count : ℕ} (h : ¬ count + 1 < retryCount) :
    queriesLeft retryCount count = 1 := by
  rw [queriesLeft]
  omega

/-- The answers that the loop may ask for from `count` on. -/
def answersLeft (queryInterface : ℕ → Option ι) (retryCount : ℤ) (count : ℕ) :
    List (Option ι) :=
  (List.range (queriesLeft retryCount count)).map fun j => queryInterface (count + j)

theorem answersLeft_of_lt {queryInterface : ℕ → Option ι} {retryCount : ℤ} {count : ℕ}
    (h : count + 1 < retryCount) : answersLeft queryInterface retryCount count =
      queryInterface count :: answersLeft queryInterface retryCount (count + 1) := by
  rw [answersLeft, answersLeft, queriesLeft_of_lt h, List.range_succ_eq_map, List.map_cons,
    List.map_map]
  congr 2
  funext j
  rw [Function.comp_apply, Nat.add_right_comm, Nat.add_assoc]

theorem answersLeft_of_ge {queryInterface : ℕ → Option ι} {retryCount : ℤ} {count : ℕ}
    (h : ¬ count + 1 < retryCount) : answersLeft queryInterface retryCount count =
      [queryInterface count] := by
  rw [answersLeft, queriesLeft_of_ge h]
  rfl

/-- The first answer is always asked for. -/
theorem answersLeft_eq_cons (queryInterface : ℕ → Option ι) (retryCount : ℤ) (count : ℕ) :
    ∃ rest, answersLeft queryInterface retryCount count = queryInterface count :: rest := by
  by_cases h : count + 1 < retryCount
  · exact ⟨_, answersLeft_of_lt h⟩
  · exact ⟨_, answersLeft_of_ge h⟩

/-- The loop returns the first interface among the answers it may ask for. -/
theorem retry_result (queryInterface : ℕ → Option ι) (retryCount : ℤ) (retryInterval : UInt32)
    (count : ℕ) : (retry queryInterface retryCount retryInterval count).1 =
      (answersLeft queryInterface retryCount count).findSome? id := by
  fun_induction retry queryInterface retryCount retryInterval count with
  | case1 count interface h =>
    obtain ⟨rest, hrest⟩ := answersLeft_eq_cons queryInterface retryCount count
    rw [hrest, h]
    rfl
  | case2 count h failed hlt next ih =>
    rw [answersLeft_of_lt hlt, h]
    exact ih
  | case3 count h failed hge =>
    rw [answersLeft_of_ge hge, h]
    rfl

/-- The answers to the queries among some events. -/
def queries (log : List (RetryEvent ι)) : List (Option ι) :=
  log.filterMap fun
    | .query answer => some answer
    | .usleep _ => none

/-- The answers up to the first interface, with it. -/
def upToFirst (answers : List (Option ι)) : List (Option ι) :=
  answers.takeWhile Option.isNone ++ (answers.find? Option.isSome).toList

/-- The loop asks for the answers up to the first interface, one after the other. -/
theorem retry_queries (queryInterface : ℕ → Option ι) (retryCount : ℤ) (retryInterval : UInt32)
    (count : ℕ) : queries (retry queryInterface retryCount retryInterval count).2 =
      upToFirst (answersLeft queryInterface retryCount count) := by
  fun_induction retry queryInterface retryCount retryInterval count with
  | case1 count interface h =>
    obtain ⟨rest, hrest⟩ := answersLeft_eq_cons queryInterface retryCount count
    rw [hrest, h]
    rfl
  | case2 count h failed hlt next ih =>
    rw [answersLeft_of_lt hlt, h]
    exact congrArg (none :: ·) ih
  | case3 count h failed hge =>
    rw [answersLeft_of_ge hge, h]
    rfl

/-- Every event is followed by what `P` says of it. -/
def Follows (P : RetryEvent ι → List (RetryEvent ι) → Prop) : List (RetryEvent ι) → Prop
  | [] => True
  | e :: after => P e after ∧ Follows P after

/-- What follows an event when the pauses are to have `usec` microseconds: nothing after an
interface was found, a pause after a query that failed, and no other one after a pause. -/
def GoesOn (usec : ℤ) : RetryEvent ι → List (RetryEvent ι) → Prop
  | .query (some _), after => after = []
  | .query none, after => ∃ pause rest, after = .usleep pause :: rest ∧ (pause.toNat : ℤ) = usec
  | .usleep _, after => ∀ pause rest, after ≠ .usleep pause :: rest

/-- It begins with a query. -/
theorem retry_head (queryInterface : ℕ → Option ι) (retryCount : ℤ) (retryInterval : UInt32)
    (count : ℕ) : ∃ rest, (retry queryInterface retryCount retryInterval count).2 =
      .query (queryInterface count) :: rest := by
  fun_cases retry queryInterface retryCount retryInterval count with
  | case1 interface h => rw [h]; exact ⟨_, rfl⟩
  | case2 h failed hlt next => rw [h]; exact ⟨_, rfl⟩
  | case3 h failed hge => rw [h]; exact ⟨_, rfl⟩

/-- The events of the loop follow one another as they should, with the pauses it makes. -/
theorem retry_follows (queryInterface : ℕ → Option ι) (retryCount : ℤ) (retryInterval : UInt32)
    (count : ℕ) : Follows (GoesOn (retryInterval * 1000).toNat)
      (retry queryInterface retryCount retryInterval count).2 := by
  fun_induction retry queryInterface retryCount retryInterval count with
  | case1 count interface h => exact ⟨rfl, trivial⟩
  | case2 count h failed hlt next ih =>
    obtain ⟨rest, hrest⟩ := retry_head queryInterface retryCount retryInterval (count + 1)
    refine ⟨⟨_, _, rfl, rfl⟩, fun pause rest' heq => ?_, ih⟩
    cases hrest.symm.trans heq
  | case3 count h failed hge => exact ⟨⟨_, _, rfl, rfl⟩, nofun, trivial⟩

/-! ## What `createInterface` does -/

/-- What is expected of `createInterface` when it may ask for `answers` and is to wait
`usec` microseconds after a query that failed. -/
structure RetriesRight (answers : List (Option ι)) (usec : ℤ)
    (out : Option ι × List (RetryEvent ι)) : Prop where
  /-- the first interface is returned -/
  result : out.1 = answers.findSome? id
  /-- nothing is asked for behind it -/
  queries : queries out.2 = upToFirst answers
  /-- the pauses are where they should be, and of that length -/
  pauses : Follows (GoesOn usec) out.2

/-- The number of microseconds, as the code computes it. -/
theorem toNat_usec {retryInterval : Int32} (h : 0 ≤ retryInterval) :
    ((retryInterval.toUInt32 * 1000).toNat : ℤ) = retryInterval.toInt * 1000 % 2 ^ 32 := by
  have hnonneg : 0 ≤ retryInterval.toInt := Int32.le_iff_toInt_le.mp h
  have hnat : (retryInterval.toUInt32.toNat : ℤ) = retryInterval.toInt := by
    rw [Int32.toNat_toUInt32_of_le h, Int32.toNatClampNeg, Int.toNat_of_nonneg hnonneg]
  rw [UInt32.toNat_mul, Int.natCast_emod, Int.natCast_mul, hnat]
  rfl

/-- **`createInterface` with retries**: it does what is expected of it unless the interval in
microseconds is too large for 32 bits, and then only if the first query is answered with an
interface. -/
theorem createInterface_waits_iff (builder : PluginInterfaceBuilder σ) {controller : σ}
    (hcontroller : builder.service = some controller) (retryCount : Int32)
    {retryInterval : Int32} (hinterval : 0 ≤ retryInterval)
    (queryInterfaceByCallsign : σ → String → ℕ → Option ι) :
    RetriesRight
        ((List.range (max 1 retryCount.toInt).toNat).map
          (queryInterfaceByCallsign controller builder.callsign))
        (retryInterval.toInt * 1000)
        (createInterface ((builder.withRetryIntervalMS retryInterval).withRetryCount retryCount)
          queryInterfaceByCallsign) ↔
      retryInterval.toInt * 1000 < 2 ^ 32 ∨
        (queryInterfaceByCallsign controller builder.callsign 0).isSome := by
  have hnonneg : 0 ≤ retryInterval.toInt := Int32.le_iff_toInt_le.mp hinterval
  have husec := toNat_usec hinterval
  simp only [createInterface, PluginInterfaceBuilder.withRetryCount,
    PluginInterfaceBuilder.withRetryIntervalMS, hcontroller]
  generalize queryInterfaceByCallsign controller builder.callsign = answer
  obtain ⟨rest, hlog⟩ := retry_head answer retryCount.toInt retryInterval.toUInt32 0
  have hfollows := retry_follows answer retryCount.toInt retryInterval.toUInt32 0
  have hanswers : answersLeft answer retryCount.toInt 0 =
      (List.range (max 1 retryCount.toInt).toNat).map answer := by
    simp [answersLeft, queriesLeft]
  constructor
  · rintro ⟨-, -, hpauses⟩
    rcases hfirst : answer 0 with _ | interface
    · -- the first pause is what is expected, and what the code makes it
      rw [hlog, hfirst] at hpauses hfollows
      obtain ⟨⟨pause, after, hafter, hexpected⟩, -⟩ := hpauses
      obtain ⟨⟨pause', after', hafter', hmade⟩, -⟩ := hfollows
      obtain ⟨hsame, -⟩ := List.cons.inj (hafter.symm.trans hafter')
      obtain rfl := RetryEvent.usleep.inj hsame
      have hlt := pause.toNat_lt
      exact .inl (by omega)
    · exact .inr rfl
  · intro h
    refine ⟨?_, ?_, ?_⟩
    · rw [← hanswers]
      exact retry_result answer _ _ 0
    · rw [← hanswers]
      exact retry_queries answer _ _ 0
    · rcases h with hfits | hfound
      · rwa [husec, Int.emod_eq_of_lt (by omega) hfits] at hfollows
      · obtain ⟨interface, hfirst⟩ := Option.isSome_iff_exists.mp hfound
        rw [retry, hfirst]
        exact ⟨rfl, trivial⟩

/-- A builder for the shell `()`. -/
def shellBuilder : PluginInterfaceBuilder Unit :=
  (PluginInterfaceBuilder.construct "org.rdk.RemoteControl").withIShell (some ())

/-- With pauses of half a second, a third query that is answered with an interface. -/
theorem createInterface_waits_iff_third :
    RetriesRight [none, none, some 7] (500 * 1000)
      (createInterface ((shellBuilder.withRetryIntervalMS 500).withRetryCount 3)
        fun _ _ count => if count = 2 then some 7 else none) := by
  have hinterval : (0 : Int32) ≤ 500 := by decide
  exact (createInterface_waits_iff shellBuilder rfl 3 hinterval
    fun _ _ count => if count = 2 then some 7 else none).mpr (.inl (by decide))

/-- After 4294968 milliseconds it is to ask again; it does so after 704 microseconds. -/
theorem createInterface_wraps :
    let out := createInterface ((shellBuilder.withRetryIntervalMS 4294968).withRetryCount 2)
      fun _ _ count => if count = 1 then some 7 else none
    out = (some 7, [.query none, .usleep 704, .query (some 7)]) ∧
      ¬ RetriesRight [none, some 7] (4294968 * 1000) out := by
  intro out
  have hout : out = (some 7, [.query none, .usleep 704, .query (some 7)]) := by
    simp [out, createInterface, shellBuilder, PluginInterfaceBuilder.construct,
      PluginInterfaceBuilder.withIShell, PluginInterfaceBuilder.withRetryIntervalMS,
      PluginInterfaceBuilder.withRetryCount, retry]
    rfl
  refine ⟨hout, ?_⟩
  rintro ⟨-, -, hpauses⟩
  rw [hout] at hpauses
  obtain ⟨⟨pause, after, hafter, hexpected⟩, -⟩ := hpauses
  obtain ⟨hpause, -⟩ := List.cons.inj hafter
  obtain rfl := RetryEvent.usleep.inj hpause
  exact absurd hexpected (by decide)

end RemoteControl
