import Mathlib.Data.List.Forall2
import RiscAssembly.Program.Assemble
import RiscAssembly.Proofs.Outcome

/-!
Two computations side by side. They agree if both succeed with values that belong together,
or both fail with causes that do. Steps that agree one after the other make computations
that agree, so that a comparison of two runs goes through a program step by step.
-/

namespace RiscAssembly

variable {Cause Left Right NextLeft NextRight : Type}

inductive Agree (SameCause : Cause → Cause → Prop) (Same : Left → Right → Prop) :
    Except Cause Left → Except Cause Right → Prop
  | ok {left : Left} {right : Right} (same : Same left right) :
      Agree SameCause Same (.ok left) (.ok right)
  | error {left right : Cause} (same : SameCause left right) :
      Agree SameCause Same (.error left) (.error right)

namespace Agree

variable {SameCause : Cause → Cause → Prop} {Same : Left → Right → Prop}
variable {SameNext : NextLeft → NextRight → Prop}
variable {left : Except Cause Left} {right : Except Cause Right}

theorem bind {next : Left → Except Cause NextLeft} {other : Right → Except Cause NextRight}
    (first : Agree SameCause Same left right)
    (second : ∀ l r, Same l r → Agree SameCause SameNext (next l) (other r)) :
    Agree SameCause SameNext (left >>= next) (right >>= other) := by
  cases first with
  | ok same => exact second _ _ same
  | error same => exact .error same

theorem imp {Weaker : Left → Right → Prop} (agree : Agree SameCause Same left right)
    (weaken : ∀ l r, left = .ok l → right = .ok r → Same l r → Weaker l r) :
    Agree SameCause Weaker left right := by
  cases agree with
  | ok same => exact .ok (weaken _ _ rfl rfl same)
  | error same => exact .error same

theorem imp_cause {WeakerCause : Cause → Cause → Prop} (agree : Agree SameCause Same left right)
    (weaken : ∀ l r, SameCause l r → WeakerCause l r) : Agree WeakerCause Same left right := by
  cases agree with
  | ok same => exact .ok same
  | error same => exact .error (weaken _ _ same)

theorem mapError {Report : Type} (report : Cause → Report)
    (agree : Agree SameCause Same left right) :
    Agree (fun l r => ∃ found counterpart, SameCause found counterpart ∧
      l = report found ∧ r = report counterpart) Same
      (left.mapError report) (right.mapError report) := by
  cases agree with
  | ok same => exact .ok same
  | error same => exact .error ⟨_, _, same, rfl, rfl⟩

/-- A computation agrees with itself. -/
theorem refl {Same : Left → Left → Prop} (outcome : Except Cause Left)
    (causes : ∀ cause, SameCause cause cause) (values : ∀ value, Same value value) :
    Agree SameCause Same outcome outcome := by
  cases outcome with
  | ok value => exact .ok (values value)
  | error cause => exact .error (causes cause)

end Agree

/-- Two runs over lists whose members belong together. -/
theorem agree_mapM {Item Other : Type} {SameItem : Item → Other → Prop}
    {SameCause : Cause → Cause → Prop} {Same : Left → Right → Prop}
    {step : Item → Except Cause Left} {other : Other → Except Cause Right}
    (each : ∀ item counterpart, SameItem item counterpart →
      Agree SameCause Same (step item) (other counterpart))
    {items : List Item} {others : List Other} (same : List.Forall₂ SameItem items others) :
    Agree SameCause (List.Forall₂ Same) (items.mapM step) (others.mapM other) := by
  induction same with
  | nil => exact .ok .nil
  | cons head _ ih =>
      rw [List.mapM_cons, List.mapM_cons]
      refine (each _ _ head).bind fun l r first => ih.bind fun ls rs rest => ?_
      exact .ok (.cons first rest)

theorem agree_foldlM {Item Other : Type} {SameItem : Item → Other → Prop}
    {SameCause : Cause → Cause → Prop} {Same : Left → Right → Prop}
    {step : Left → Item → Except Cause Left} {other : Right → Other → Except Cause Right}
    (each : ∀ item counterpart left right, SameItem item counterpart → Same left right →
      Agree SameCause Same (step left item) (other right counterpart))
    {items : List Item} {others : List Other} (same : List.Forall₂ SameItem items others)
    {left : Left} {right : Right} (start : Same left right) :
    Agree SameCause Same (items.foldlM step left) (others.foldlM other right) := by
  induction same generalizing left right with
  | nil => exact .ok start
  | cons head _ ih =>
      rw [List.foldlM_cons, List.foldlM_cons]
      exact (each _ _ _ _ head start).bind fun _ _ next => ih next

/-- Assembling is its two stages, with the file put to whatever error they have. -/
theorem assemble_eq_stages (path source : Text) (base : UInt64) :
    assemble path source base =
      (Sections.ofSource source >>= fun sections => assembleSections sections base).mapError
        (LocatedError.inFile path) := by
  unfold assemble
  cases Sections.ofSource source with
  | error found => rfl
  | ok sections =>
      dsimp only [bind, Except.bind]
      cases assembleSections sections base with
      | error found => rfl
      | ok program => rfl

/-- Two runs of the assembler agree as far as their stages do. -/
theorem assemble_agree {SameCause : LocatedError → LocatedError → Prop}
    {Same : Program → Program → Prop} (path source other : Text) (base otherBase : UInt64)
    (agree : Agree SameCause Same
      (Sections.ofSource source >>= fun sections => assembleSections sections base)
      (Sections.ofSource other >>= fun sections => assembleSections sections otherBase)) :
    Agree (fun left right => ∃ found counterpart, SameCause found counterpart ∧
        left = found.inFile path ∧ right = counterpart.inFile path) Same
      (assemble path source base) (assemble path other otherBase) := by
  rw [assemble_eq_stages, assemble_eq_stages]
  exact agree.mapError (LocatedError.inFile path)

end RiscAssembly
