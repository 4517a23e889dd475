import Mathlib.Algebra.Group.Int.Defs
import Mathlib.Algebra.GroupWithZero.Nat
import RiscAssembly.Source.Error

/-!
Computations that may fail, read backwards: one that succeeded went through all of its
steps, and these equivalences name the value that each step had. One that failed did so at
one of its steps, so it fails only with what the steps may fail with.
-/

namespace RiscAssembly

variable {Cause Value Result : Type}

@[simp]
theorem bind_ok_iff (first : Except Cause Value) (next : Value → Except Cause Result)
    (result : Result) :
    first >>= next = .ok result ↔ ∃ value, first = .ok value ∧ next value = .ok result := by
  cases first with
  | error cause => simp [bind, Except.bind]
  | ok value => simp [bind, Except.bind]

theorem ok_bind (value : Value) (next : Value → Except Cause Result) :
    (.ok value >>= next) = next value := rfl

@[simp]
theorem pure_ok_iff (value result : Value) :
    (pure value : Except Cause Value) = .ok result ↔ value = result := by
  simp [pure, Except.pure]

@[simp]
theorem onLine_ok_iff (line : Nat) (outcome : Except SourceError Value) (value : Value) :
    onLine line outcome = .ok value ↔ outcome = .ok value := by
  cases outcome <;> simp [onLine]

@[simp]
theorem asSource_ok_iff (outcome : Except InstructionError Value) (value : Value) :
    asSource outcome = .ok value ↔ outcome = .ok value := by
  cases outcome <;> simp [asSource]

theorem bind_error_iff (first : Except Cause Value) (next : Value → Except Cause Result)
    (cause : Cause) :
    first >>= next = .error cause ↔
      first = .error cause ∨ ∃ value, first = .ok value ∧ next value = .error cause := by
  cases first with
  | error other => simp [bind, Except.bind]
  | ok value => simp [bind, Except.bind]

theorem onLine_error_iff (line : Nat) (outcome : Except SourceError Value)
    (found : LocatedError) :
    onLine line outcome = .error found ↔
      ∃ cause, outcome = .error cause ∧ found = ⟨line, cause⟩ := by
  cases outcome with
  | error cause => simp [onLine, eq_comm]
  | ok value => simp [onLine]

theorem toOption_some_iff (outcome : Except Cause Value) (value : Value) :
    outcome.toOption = some value ↔ outcome = .ok value := by
  cases outcome with
  | error cause => simp [Except.toOption]
  | ok found => simp [Except.toOption]

theorem mapError_error_iff {Report : Type} (report : Cause → Report)
    (outcome : Except Cause Value) (reported : Report) :
    outcome.mapError report = .error reported ↔
      ∃ cause, outcome = .error cause ∧ report cause = reported := by
  cases outcome with
  | error cause =>
      change Except.error (report cause) = .error reported ↔ _
      simp
  | ok value =>
      change Except.ok value = .error reported ↔ _
      simp

theorem mapM_ok_mem (step : Value → Except Cause Result) (values : List Value)
    (results : List Result) (all : values.mapM step = .ok results) :
    ∀ value ∈ values, ∃ result, step value = .ok result := by
  induction values generalizing results with
  | nil =>
      intro value member
      cases member
  | cons first rest ih =>
      simp only [List.mapM_cons, bind_ok_iff, pure_ok_iff] at all
      obtain ⟨result, head, tail, later, -⟩ := all
      intro value member
      rcases List.mem_cons.mp member with rfl | inRest
      · exact ⟨result, head⟩
      · exact ih tail later value inRest

theorem mapM_ok_of_mem (step : Value → Except Cause Result) (values : List Value)
    (each : ∀ value ∈ values, ∃ result, step value = .ok result) :
    ∃ results, values.mapM step = .ok results := by
  induction values with
  | nil => exact ⟨[], rfl⟩
  | cons first rest ih =>
      obtain ⟨result, head⟩ := each first List.mem_cons_self
      obtain ⟨tail, later⟩ := ih fun value member => each value (List.mem_cons_of_mem first member)
      simp only [List.mapM_cons, bind_ok_iff, pure_ok_iff]
      exact ⟨_, result, head, tail, later, rfl⟩

/-- A run in steps follows another one through the images of its states. -/
theorem foldlM_ok_iff {State Image Item : Type} (image : State → Image)
    (step : State → Item → Option State) (follow : Image → Item → Except Cause Image)
    (items : List Item)
    (each : ∀ item ∈ items, ∀ state result, follow (image state) item = .ok result ↔
      ∃ next, step state item = some next ∧ result = image next)
    (state : State) (result : Image) :
    items.foldlM follow (image state) = .ok result ↔
      ∃ last, items.foldlM step state = some last ∧ result = image last := by
  induction items generalizing state with
  | nil => simp [pure, Except.pure, eq_comm]
  | cons item rest ih =>
      have first := each item List.mem_cons_self state
      have later := ih fun other member => each other (List.mem_cons_of_mem item member)
      simp only [List.foldlM_cons, bind_ok_iff, Option.bind_eq_bind, Option.bind_eq_some_iff, first]
      constructor
      · rintro ⟨_, ⟨next, taken, rfl⟩, rest⟩
        obtain ⟨last, reached, same⟩ := (later next).mp rest
        exact ⟨last, ⟨next, taken, reached⟩, same⟩
      · rintro ⟨last, ⟨next, taken, reached⟩, same⟩
        exact ⟨_, ⟨next, taken, rfl⟩, (later next).mpr ⟨last, reached, same⟩⟩

/-! What a computation may fail with. -/

def FailsWithin (allowed : Cause → Prop) (outcome : Except Cause Value) : Prop :=
  ∀ cause, outcome = .error cause → allowed cause

theorem failsWithin_ok (allowed : Cause → Prop) (value : Value) :
    FailsWithin allowed (.ok value : Except Cause Value) := by
  intro cause failed
  cases failed

theorem failsWithin_error (allowed : Cause → Prop) (cause : Cause) (permitted : allowed cause) :
    FailsWithin allowed (.error cause : Except Cause Value) := by
  intro other failed
  cases failed
  exact permitted

theorem FailsWithin.bind {allowed : Cause → Prop} {first : Except Cause Value}
    {next : Value → Except Cause Result} (start : FailsWithin allowed first)
    (rest : ∀ value, first = .ok value → FailsWithin allowed (next value)) :
    FailsWithin allowed (first >>= next) := by
  cases first with
  | error cause => exact failsWithin_error allowed cause (start cause rfl)
  | ok value => exact rest value rfl

theorem failsWithin_foldlM {State Item : Type} (allowed : Cause → Prop)
    (step : State → Item → Except Cause State) (items : List Item)
    (each : ∀ item ∈ items, ∀ state, FailsWithin allowed (step state item)) (state : State) :
    FailsWithin allowed (items.foldlM step state) := by
  induction items generalizing state with
  | nil => exact failsWithin_ok allowed state
  | cons item rest ih =>
      rw [List.foldlM_cons]
      refine (each item List.mem_cons_self state).bind fun next _ => ?_
      exact ih (fun other member => each other (List.mem_cons_of_mem item member)) next

end RiscAssembly
