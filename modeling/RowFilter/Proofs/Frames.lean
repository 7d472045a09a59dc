import RowFilter.Proofs.Accounts

/-!
# What the steps of a compilation leave alone

* `Compiling.Blind`: the step neither looks at the table of folded conditions nor
  changes it.  All steps but the folding of siblings and the reading of a folded
  condition are blind.
* `Compiling.Keeps plan`: from a state with this plan the step returns to it.
  Queries of their own have plans of their own, so a condition keeps the plan as
  soon as the path that it starts from is settled.
-/

namespace RowFilter
namespace Compiling

open Sql (Expr)

variable {α β : Type}

/-- The step neither looks at the folded conditions nor changes them. -/
def Blind (x : Compiling α) : Prop :=
  ∀ (p : Progress) (folded : List (Nat × Option Expr)),
    x.run { p with folded := folded } = ((x.run p).1, { (x.run p).2 with folded := folded })

theorem blind_pure
    (a : α) :
    Blind (pure a) := by
  intro p folded
  rfl

theorem blind_fail
    (e : QueryError) :
    Blind (Attempt.fail e : Compiling α) := by
  intro p folded
  rfl

theorem blind_ofExcept
    (result : Except QueryError α) :
    Blind (Attempt.ofExcept result) := by
  intro p folded
  rfl

theorem blind_label
    (step : Attempt Labels α) :
    Blind (label step) := by
  intro p folded
  rfl

theorem blind_locate
    (schema : Schema) (path : List Segment) :
    Blind (locate schema path) := by
  intro p folded
  rfl

theorem Blind.bind
    {x : Compiling α} {f : α → Compiling β}
    (hx : Blind x) (hf : ∀ a, Blind (f a)) :
    Blind (x >>= f) := by
  intro p folded
  rw [Attempt.run_bind, Attempt.run_bind, hx p folded]
  cases hrun : x.run p with
  | mk result q =>
      cases result with
      | ok a =>
          exact hf a q folded
      | error e =>
          rfl

theorem Blind.inQuery
    {step : Compiling α}
    (h : Blind step) (collection qualifier : String) :
    Blind (inQuery collection qualifier step) := by
  intro p folded
  have hstep := h (p.inside collection qualifier) folded
  have hinside : ({ p with folded := folded } : Progress).inside collection qualifier =
      { p.inside collection qualifier with folded := folded } :=
    rfl
  simp only [Compiling.inQuery, hinside, hstep]

/-- A blind step leaves the table of folded conditions as it was. -/
theorem Blind.folded_eq
    {x : Compiling α}
    (h : Blind x) (p : Progress) :
    (x.run p).2.folded = p.folded := by
  have hsame := h p p.folded
  have hrun : x.run p = ((x.run p).1, { (x.run p).2 with folded := p.folded }) := hsame
  rw [hrun]

/-- From a state with this plan the step returns to it. -/
def Keeps (plan : JoinPlan) (x : Compiling α) : Prop :=
  ∀ p : Progress, p.plan = plan → (x.run p).2.plan = plan

theorem Keeps.bind
    {plan : JoinPlan} {x : Compiling α} {f : α → Compiling β}
    (hx : Keeps plan x) (hf : ∀ a, Keeps plan (f a)) :
    Keeps plan (x >>= f) := by
  intro p hp
  have hq := hx p hp
  rw [Attempt.run_bind]
  cases hrun : x.run p with
  | mk result q =>
      rw [hrun] at hq
      cases result with
      | ok a =>
          exact hf a q hq
      | error e =>
          exact hq

theorem keeps_locate
    {schema : Schema} {plan : JoinPlan} {path : List Segment} {destination : Destination}
    (h : plan.destination? schema path = some destination) :
    Keeps plan (locate schema path) := by
  intro p hp
  subst hp
  rw [run_locate h]

/-- The step gives out labels and does nothing else to the state. -/
structure LabelsOnly (x : Compiling α) : Prop where
  blind : Blind x
  keeps : ∀ plan, Keeps plan x

theorem LabelsOnly.bind
    {x : Compiling α} {f : α → Compiling β}
    (hx : LabelsOnly x) (hf : ∀ a, LabelsOnly (f a)) :
    LabelsOnly (x >>= f) where
  blind := hx.blind.bind fun a => (hf a).blind
  keeps plan := (hx.keeps plan).bind fun a => (hf a).keeps plan

theorem labelsOnly_pure
    (a : α) :
    LabelsOnly (pure a) :=
  ⟨blind_pure a, fun _ _ hp => hp⟩

theorem labelsOnly_fail
    (e : QueryError) :
    LabelsOnly (Attempt.fail e : Compiling α) :=
  ⟨blind_fail e, fun _ _ hp => hp⟩

theorem labelsOnly_ofExcept
    (result : Except QueryError α) :
    LabelsOnly (Attempt.ofExcept result) :=
  ⟨blind_ofExcept result, fun _ _ hp => hp⟩

theorem labelsOnly_label
    (step : Attempt Labels α) :
    LabelsOnly (label step) :=
  ⟨blind_label step, fun _ _ hp => hp⟩

theorem labelsOnly_enter
    (schema : Schema) (probe : Probe) {step : Compiling α}
    (h : Blind step) :
    LabelsOnly (probe.enter schema step) := by
  unfold Probe.enter
  refine (labelsOnly_ofExcept _).bind fun _ => ?_
  refine (labelsOnly_label _).bind fun label => ?_
  refine LabelsOnly.bind ⟨h.inQuery _ _, fun _ _ hp => hp⟩ fun _ => ?_
  exact labelsOnly_pure _

theorem labelsOnly_countCondition
    (link : Link) (schema : Schema) (place : Place) (relation : Relation) (c : Comparison)
    (operand : Json) :
    LabelsOnly (link.countCondition schema place relation c operand) := by
  unfold Link.countCondition
  refine (labelsOnly_ofExcept _).bind fun _ => ?_
  refine (labelsOnly_ofExcept _).bind fun _ => ?_
  refine (labelsOnly_label _).bind fun _ => ?_
  refine (labelsOnly_ofExcept _).bind fun _ => ?_
  exact labelsOnly_pure _

theorem labelsOnly_arrivalCondition
    (schema : Schema) (id : Nat) (c : Comparison) (operand : Json) (destination : Destination) :
    LabelsOnly (arrivalCondition schema id c operand destination) := by
  cases destination with
  | column place relation =>
      exact labelsOnly_ofExcept _
  | json place rest =>
      cases rest with
      | nil =>
          exact labelsOnly_ofExcept _
      | cons s rest =>
          exact (labelsOnly_ofExcept _).bind fun _ => labelsOnly_label _
  | toMany place relation scope rest =>
      exact (labelsOnly_ofExcept _).bind fun link =>
        labelsOnly_countCondition link schema place relation c operand

/-- The step follows a path and gives out labels, and does nothing else to the
state: if the path is settled, the plan stays as it is. -/
structure FollowsOnly (schema : Schema) (path : List Segment) (x : Compiling α) : Prop where
  blind : Blind x
  keeps : ∀ {plan : JoinPlan} {destination : Destination},
    plan.destination? schema path = some destination → Keeps plan x

theorem followsOnly_locate
    {schema : Schema} {path : List Segment} {f : Destination → Compiling α}
    (hf : ∀ destination, LabelsOnly (f destination)) :
    FollowsOnly schema path (locate schema path >>= f) where
  blind := (blind_locate schema path).bind fun destination => (hf destination).blind
  keeps h := (keeps_locate h).bind fun destination => (hf destination).keeps _

theorem followsOnly_comparisonAccount
    (schema : Schema) (id : Nat) (c : Comparison) (operand : Json) :
    ∀ (limit : Nat) (path : List Segment),
      FollowsOnly schema path (comparisonAccount schema id c operand limit path) := by
  intro limit
  induction limit with
  | zero =>
      intro path
      exact ⟨blind_fail _, fun _ => (labelsOnly_fail _).keeps _⟩
  | succ limit ih =>
      intro path
      rw [comparisonAccount]
      refine followsOnly_locate fun destination => ?_
      split
      · refine (labelsOnly_ofExcept _).bind fun link => ?_
        refine (labelsOnly_enter schema link.probe ?_).bind fun _ => labelsOnly_pure _
        exact (blind_locate _ _).bind fun _ => (ih _).blind
      · exact (labelsOnly_arrivalCondition _ _ _ _ _).bind fun _ => labelsOnly_pure _

theorem followsOnly_quantifierProbe
    (schema : Schema) (field : Segment) (q : Quantifier) :
    FollowsOnly schema [field] (quantifierProbe schema field q) := by
  unfold quantifierProbe
  refine followsOnly_locate fun destination => ?_
  split
  · refine (labelsOnly_ofExcept _).bind fun _ => ?_
    refine (labelsOnly_ofExcept _).bind fun _ => ?_
    exact labelsOnly_pure _
  · refine (labelsOnly_ofExcept _).bind fun _ => ?_
    split
    · exact labelsOnly_fail _
    · refine (labelsOnly_ofExcept _).bind fun _ => ?_
      refine (labelsOnly_ofExcept _).bind fun _ => ?_
      exact labelsOnly_pure _

mutual

theorem blind_planJoins
    (s : Setting) :
    ∀ filter : Filter, Blind (planJoins s filter)
  | .and children => by
      rw [planJoins]
      exact blind_planAllJoins s children
  | .or children => by
      rw [planJoins]
      split
      · exact blind_pure _
      · exact blind_planAllJoins s children
  | .compare _ path _ _ => by
      rw [planJoins]
      exact (blind_locate _ _).bind fun _ => blind_pure _
  | .quantify _ field _ _ => by
      rw [planJoins]
      exact (blind_locate _ _).bind fun _ => blind_pure _

theorem blind_planAllJoins
    (s : Setting) :
    ∀ filters : List Filter, Blind (planAllJoins s filters)
  | [] => by
      rw [planAllJoins]
      exact blind_pure _
  | child :: rest => by
      rw [planAllJoins]
      exact (blind_planJoins s child).bind fun _ => blind_planAllJoins s rest

end

end Compiling
end RowFilter
