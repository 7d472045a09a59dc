import RowFilter.Proofs.Frames

/-!
# Joins are planned beforehand

The joins of a filter are planned before its condition is built.  Building the condition
follows paths again, in the same query and in the queries inside it.  In the same query it
follows only paths that were followed before, so no join is added there, and what would
happen at a path that leads nowhere does not matter.

* `Guide`: a way of following the paths of one query, in place of the one that plans joins.
* `guidedCondition`: the condition of a filter, with its paths followed by a guide.
* `Compiling.SameFrom`: two steps that do the same from the states with a plan, and keep it.
* `planned_joins_suffice`: any guide will do that knows the paths with planned joins.
-/

namespace RowFilter

open Sql (Expr)

/-- A way of following the paths of a query. -/
abbrev Guide : Type :=
  List Segment → Compiling Destination

/-! ## Conditions with a guide -/

section Guided

variable (schema : Schema) (guide : Guide)

/-- `comparisonCondition` with a guide for its path.  The rest of a path behind a relation to
many rows belongs to another query and has no guide. -/
def guidedComparison (id : Nat) (c : Comparison) (operand : Json) :
    Nat → List Segment → Compiling (Option Expr)
  | 0, _ => .fail .emptyPath
  | limit + 1, path => do
      match ← guide path with
      | .column place relation => Attempt.ofExcept (place.condition relation c operand)
      | .json place [] => Attempt.ofExcept (place.condition none c operand)
      | .json place rest =>
          Attempt.ofExcept (checkJsonPath place.segment.name rest (.compare c))
          Compiling.label (place.documentTest id rest c operand).alone
      | .toMany place relation scope rest =>
          let link ← Attempt.ofExcept (Link.of schema place relation scope)
          if rest.isEmpty then
            link.countCondition schema place relation c operand
          else
            let rows ← link.select schema do
              let _ ← Compiling.locate schema rest
              comparisonCondition schema id c operand limit rest
            return some (.inQuery link.parentKey rows false)

/-- `quantifiedCondition` with a guide for its field. -/
def guidedQuantifier (field : Segment) (q : Quantifier) (step : Compiling (Option Expr)) :
    Compiling (Option Expr) := do
  let negated := q == .none
  match ← guide [field] with
  | .toMany place relation scope _ =>
      let link ← Attempt.ofExcept (Link.of schema place relation scope)
      Attempt.ofExcept (place.check (some relation) (.quantify q))
      let rows ← link.select schema step
      return some (.inQuery link.parentKey rows negated)
  | destination =>
      let place := destination.place
      Attempt.ofExcept (place.check destination.relation? (.quantify q))
      match destination.relation? with
      | none => .fail (.noRelation place.segment.name)
      | some relation =>
          let related ← Attempt.ofExcept relation.related
          let primary ← Attempt.ofExcept (schema.primaryKey related)
          let rows ← selectColumn schema related primary none step
          return some (.inQuery place.column rows negated)

/-- `testOf?` with a guide for its path. -/
def guidedTest? (id : Nat) (path : List Segment) (c : Comparison) (operand : Json) :
    Compiling (Option DocumentTest) := do
  if ((← Attempt.state).folded.lookup id).isSome then
    return none
  else
    match ← guide path with
    | .json place (s :: rest) =>
        Attempt.ofExcept (checkJsonPath place.segment.name (s :: rest) (.compare c))
        return some (place.documentTest id (s :: rest) c operand)
    | _ => return none

mutual

/-- `testsOf` with a guide for the paths. -/
def guidedTests : Filter → Compiling (List DocumentTest)
  | .and children => guidedTestsOfAll children
  | .or _ => return []
  | .compare id path c operand => return (← guidedTest? guide id path c operand).toList
  | .quantify _ _ _ _ => return []

/-- `testsOfAll` with a guide for the paths. -/
def guidedTestsOfAll : List Filter → Compiling (List DocumentTest)
  | [] => return []
  | child :: rest => do
      let tests ← guidedTests child
      let others ← guidedTestsOfAll rest
      return tests ++ others

end

/-- `foldSiblings` with a guide for the paths. -/
def guidedFolding (children : List Filter) : Compiling Unit := do
  let tests ← guidedTestsOfAll guide children
  foldGroups (DocumentTest.groups (tests.filter DocumentTest.endsInMember))

end Guided

mutual

/-- The condition of a filter, with a guide for the paths of its query.  The filter of a
quantified condition belongs to another query and has no guide. -/
def guidedCondition (s : Setting) (guide : Guide) : Filter → Compiling (Option Expr)
  | .and children => do
      guidedFolding guide children
      return Expr.group? .and (← guidedConditions s guide children)
  | .or children =>
      if children.any Filter.isMatchAll then
        return none
      else do
        return (← guidedAlternatives s guide children).bind (Expr.group? .or)
  | .compare id path c operand => do
      match (← Attempt.state).folded.lookup id with
      | some condition => return condition
      | none => guidedComparison s.schema guide id c operand path.length path
  | .quantify _ field q inner =>
      guidedQuantifier s.schema guide field q do
        planJoins s inner
        filterCondition s inner

/-- `allConditions` with a guide for the paths. -/
def guidedConditions (s : Setting) (guide : Guide) : List Filter → Compiling (List Expr)
  | [] => return []
  | child :: rest => do
      let condition ← guidedCondition s guide child
      let conditions ← guidedConditions s guide rest
      return condition.toList ++ conditions

/-- `alternativeConditions` with a guide for the paths. -/
def guidedAlternatives (s : Setting) (guide : Guide) :
    List Filter → Compiling (Option (List Expr))
  | [] => return some []
  | child :: rest => do
      match ← guidedCondition s guide child with
      | none => return none
      | some condition => return (← guidedAlternatives s guide rest).map (condition :: ·)

end

/-! ## The guide that plans joins -/

theorem guidedComparison_locate
    (schema : Schema) (id : Nat) (c : Comparison) (operand : Json) (limit : Nat)
    (path : List Segment) :
    guidedComparison schema (Compiling.locate schema) id c operand limit path =
      comparisonCondition schema id c operand limit path := by
  cases limit with
  | zero => rfl
  | succ limit =>
      rewrite [guidedComparison, comparisonCondition]
      rfl

mutual

theorem guidedTests_locate
    (schema : Schema) :
    ∀ filter : Filter, guidedTests (Compiling.locate schema) filter = testsOf schema filter
  | .and children => by
      rw [guidedTests, testsOf]
      exact guidedTestsOfAll_locate schema children
  | .or _ => by rw [guidedTests, testsOf]
  | .compare .. => by
      rw [guidedTests, testsOf]
      rfl
  | .quantify .. => by rw [guidedTests, testsOf]

theorem guidedTestsOfAll_locate
    (schema : Schema) :
    ∀ filters : List Filter,
      guidedTestsOfAll (Compiling.locate schema) filters = testsOfAll schema filters
  | [] => by rw [guidedTestsOfAll, testsOfAll]
  | child :: rest => by
      rw [guidedTestsOfAll, testsOfAll, guidedTests_locate schema child,
        guidedTestsOfAll_locate schema rest]

end

mutual

/-- With the guide that plans joins a filter has its own condition. -/
theorem guidedCondition_locate
    (s : Setting) :
    ∀ filter : Filter,
      guidedCondition s (Compiling.locate s.schema) filter = filterCondition s filter
  | .and children => by
      rw [guidedCondition, filterCondition, guidedConditions_locate s children, guidedFolding,
        guidedTestsOfAll_locate]
      rfl
  | .or children => by
      rw [guidedCondition, filterCondition, guidedAlternatives_locate s children]
  | .compare id path c operand => by
      rw [guidedCondition, filterCondition]
      refine bind_congr fun p => ?_
      cases p.folded.lookup id with
      | none => exact guidedComparison_locate s.schema id c operand path.length path
      | some condition => rfl
  | .quantify .. => by
      rw [guidedCondition, filterCondition]
      rfl

theorem guidedConditions_locate
    (s : Setting) :
    ∀ filters : List Filter,
      guidedConditions s (Compiling.locate s.schema) filters = allConditions s filters
  | [] => by rw [guidedConditions, allConditions]
  | child :: rest => by
      rw [guidedConditions, allConditions, guidedCondition_locate s child,
        guidedConditions_locate s rest]

theorem guidedAlternatives_locate
    (s : Setting) :
    ∀ filters : List Filter,
      guidedAlternatives s (Compiling.locate s.schema) filters = alternativeConditions s filters
  | [] => by rw [guidedAlternatives, alternativeConditions]
  | child :: rest => by
      rewrite [guidedAlternatives, alternativeConditions, guidedCondition_locate s child,
        guidedAlternatives_locate s rest]
      rfl

end

/-! ## Steps that keep a plan -/

namespace Compiling

variable {α β : Type} {plan : JoinPlan}

/-- From a state with the plan both steps do the same, and return to it. -/
def SameFrom (plan : JoinPlan) (x y : Compiling α) : Prop :=
  ∀ p : Progress, p.plan = plan → y.run p = x.run p ∧ (x.run p).2.plan = plan

theorem Keeps.sameFrom
    {x : Compiling α}
    (h : Keeps plan x) :
    SameFrom plan x x := by
  intro p hp
  exact ⟨rfl, h p hp⟩

theorem SameFrom.bind
    {x y : Compiling α} {f g : α → Compiling β}
    (hxy : SameFrom plan x y) (hfg : ∀ a, SameFrom plan (f a) (g a)) :
    SameFrom plan (x >>= f) (y >>= g) := by
  intro p hp
  obtain ⟨hsame, hplan⟩ := hxy p hp
  rw [Attempt.run_bind, Attempt.run_bind, hsame]
  cases hrun : x.run p with
  | mk result q =>
      rw [hrun] at hplan
      cases result with
      | ok a => exact hfg a q hplan
      | error e => exact ⟨rfl, hplan⟩

/-- What the state shows is the same on both sides. -/
theorem sameFrom_state
    {f g : Progress → Compiling α}
    (h : ∀ seen, SameFrom plan (f seen) (g seen)) :
    SameFrom plan (Attempt.state >>= f) (Attempt.state >>= g) :=
  SameFrom.bind (Keeps.sameFrom fun _ hp => hp) h

theorem keeps_pure
    (a : α) :
    Keeps plan (pure a) :=
  (labelsOnly_pure a).keeps plan

theorem keeps_ofExcept
    (result : Except QueryError α) :
    Keeps plan (Attempt.ofExcept result) :=
  (labelsOnly_ofExcept result).keeps plan

/-- A query of its own has a plan of its own. -/
theorem keeps_selectColumn
    (schema : Schema) (related column : String) (discriminator : Option (String × String))
    (step : Compiling (Option Expr)) :
    Keeps plan (selectColumn schema related column discriminator step) := by
  unfold selectColumn
  refine (keeps_ofExcept _).bind fun _ => ?_
  refine ((labelsOnly_label _).keeps plan).bind fun label => ?_
  refine Keeps.bind (fun _ hp => hp) fun _ => ?_
  exact keeps_pure _

theorem keeps_foldGroup :
    ∀ group : List DocumentTest, Keeps plan (foldGroup group)
  | [] => keeps_pure ()
  | [_] => keeps_pure ()
  | _ :: _ :: _ => ((labelsOnly_label _).keeps plan).bind fun _ => fun _ hp => hp

theorem keeps_foldGroups
    (groups : List (List DocumentTest)) :
    Keeps plan (foldGroups groups) := by
  induction groups with
  | nil => exact keeps_pure ()
  | cons group rest ih => exact (keeps_foldGroup group).bind fun _ => ih

end Compiling

/-! ## Guides that know the planned joins -/

open Compiling

/-- The guide finds every path on whose way no join is missing. -/
def Guide.Knows (schema : Schema) (plan : JoinPlan) (guide : Guide) : Prop :=
  ∀ path destination, plan.destination? schema path = some destination →
    guide path = pure destination

/-- The guide that looks paths up in a plan, and plans nothing. -/
def JoinPlan.guide (schema : Schema) (plan : JoinPlan) : Guide := fun path =>
  match plan.destination? schema path with
  | some destination => pure destination
  | none => .fail .emptyPath

theorem JoinPlan.knows_guide
    (schema : Schema) (plan : JoinPlan) :
    (plan.guide schema).Knows schema plan := by
  intro path destination h
  unfold JoinPlan.guide
  rw [h]

section Knowing

variable {schema : Schema} {plan : JoinPlan} {guide : Guide}

/-- A settled path is found by the guide, and following it changes nothing. -/
theorem Guide.Knows.sameFrom_bind
    {α : Type} {path : List Segment} {f : Destination → Compiling α}
    (hguide : guide.Knows schema plan)
    (hpath : ∃ destination, plan.destination? schema path = some destination)
    (hf : ∀ destination, Keeps plan (f destination)) :
    SameFrom plan (locate schema path >>= f) (guide path >>= f) := by
  obtain ⟨destination, hdestination⟩ := hpath
  intro p hp
  subst hp
  rw [hguide path destination hdestination, pure_bind,
    Attempt.run_bind_of_ok f (run_locate hdestination)]
  exact ⟨rfl, hf destination p rfl⟩

theorem Guide.Knows.sameFrom_comparison
    {path : List Segment}
    (hguide : guide.Knows schema plan)
    (hpath : ∃ destination, plan.destination? schema path = some destination)
    (id : Nat) (c : Comparison) (operand : Json) (limit : Nat) :
    SameFrom plan (guidedComparison schema (locate schema) id c operand limit path)
      (guidedComparison schema guide id c operand limit path) := by
  cases limit with
  | zero => exact ((labelsOnly_fail _).keeps plan).sameFrom
  | succ limit =>
      rw [guidedComparison, guidedComparison]
      refine hguide.sameFrom_bind hpath fun destination => ?_
      split
      · exact keeps_ofExcept _
      · exact keeps_ofExcept _
      · exact (keeps_ofExcept _).bind fun _ => (labelsOnly_label _).keeps plan
      · refine (keeps_ofExcept _).bind fun link => ?_
        split
        · exact (labelsOnly_countCondition _ _ _ _ _ _).keeps plan
        · exact (keeps_selectColumn _ _ _ _ _).bind fun _ => keeps_pure _

theorem Guide.Knows.sameFrom_quantifier
    {field : Segment}
    (hguide : guide.Knows schema plan)
    (hfield : ∃ destination, plan.destination? schema [field] = some destination)
    (q : Quantifier) (step : Compiling (Option Expr)) :
    SameFrom plan (guidedQuantifier schema (locate schema) field q step)
      (guidedQuantifier schema guide field q step) := by
  unfold guidedQuantifier
  refine hguide.sameFrom_bind hfield fun destination => ?_
  split
  · refine (keeps_ofExcept _).bind fun link => (keeps_ofExcept _).bind fun _ => ?_
    exact (keeps_selectColumn _ _ _ _ _).bind fun _ => keeps_pure _
  · refine (keeps_ofExcept _).bind fun _ => ?_
    split
    · exact (labelsOnly_fail _).keeps plan
    · refine (keeps_ofExcept _).bind fun related => (keeps_ofExcept _).bind fun primary => ?_
      exact (keeps_selectColumn _ _ _ _ _).bind fun _ => keeps_pure _

theorem Guide.Knows.sameFrom_test?
    {path : List Segment}
    (hguide : guide.Knows schema plan)
    (hpath : ∃ destination, plan.destination? schema path = some destination)
    (id : Nat) (c : Comparison) (operand : Json) :
    SameFrom plan (guidedTest? (locate schema) id path c operand)
      (guidedTest? guide id path c operand) := by
  unfold guidedTest?
  refine sameFrom_state fun seen => ?_
  split
  · exact (keeps_pure none).sameFrom
  · refine hguide.sameFrom_bind hpath fun destination => ?_
    split
    · exact (keeps_ofExcept _).bind fun _ => keeps_pure _
    · exact keeps_pure none

mutual

theorem Guide.Knows.sameFrom_tests
    (hguide : guide.Knows schema plan) :
    ∀ {filter : Filter}, filter.Settled schema plan →
      SameFrom plan (guidedTests (locate schema) filter) (guidedTests guide filter)
  | .and children, h => by
      rw [Filter.Settled] at h
      rw [guidedTests, guidedTests]
      exact hguide.sameFrom_testsOfAll h
  | .or _, _ => by
      rw [guidedTests, guidedTests]
      exact (keeps_pure []).sameFrom
  | .compare id path c operand, h => by
      rw [Filter.Settled] at h
      rw [guidedTests, guidedTests]
      exact (hguide.sameFrom_test? h id c operand).bind fun _ => (keeps_pure _).sameFrom
  | .quantify .., _ => by
      rw [guidedTests, guidedTests]
      exact (keeps_pure []).sameFrom

theorem Guide.Knows.sameFrom_testsOfAll
    (hguide : guide.Knows schema plan) :
    ∀ {filters : List Filter}, Filter.AllSettled schema plan filters →
      SameFrom plan (guidedTestsOfAll (locate schema) filters) (guidedTestsOfAll guide filters)
  | [], _ => by
      rw [guidedTestsOfAll, guidedTestsOfAll]
      exact (keeps_pure []).sameFrom
  | child :: rest, h => by
      rw [Filter.AllSettled] at h
      rw [guidedTestsOfAll, guidedTestsOfAll]
      refine (hguide.sameFrom_tests h.1).bind fun tests => ?_
      exact (hguide.sameFrom_testsOfAll h.2).bind fun others => (keeps_pure _).sameFrom

end

theorem Guide.Knows.sameFrom_folding
    {children : List Filter}
    (hguide : guide.Knows schema plan) (h : Filter.AllSettled schema plan children) :
    SameFrom plan (guidedFolding (locate schema) children) (guidedFolding guide children) :=
  (hguide.sameFrom_testsOfAll h).bind fun _ => (keeps_foldGroups _).sameFrom

end Knowing

section Filters

variable {s : Setting} {plan : JoinPlan} {guide : Guide}

mutual

/-- The condition of a filter whose joins are planned follows settled paths only. -/
theorem Guide.Knows.sameFrom_condition
    (hguide : guide.Knows s.schema plan) :
    ∀ {filter : Filter}, filter.Settled s.schema plan →
      SameFrom plan (guidedCondition s (locate s.schema) filter) (guidedCondition s guide filter)
  | .and children, h => by
      rw [Filter.Settled] at h
      rw [guidedCondition, guidedCondition]
      refine (hguide.sameFrom_folding h).bind fun _ => ?_
      exact (hguide.sameFrom_conditions h).bind fun _ => (keeps_pure _).sameFrom
  | .or children, h => by
      rw [Filter.Settled] at h
      rw [guidedCondition, guidedCondition]
      split
      · exact (keeps_pure none).sameFrom
      · -- only a disjunction with an empty alternative may be left unsettled
        rename_i hall
        refine (hguide.sameFrom_alternatives (h.resolve_left hall)).bind fun _ => ?_
        exact (keeps_pure _).sameFrom
  | .compare id path c operand, h => by
      rw [Filter.Settled] at h
      rw [guidedCondition, guidedCondition]
      refine sameFrom_state fun seen => ?_
      cases seen.folded.lookup id with
      | some condition => exact (keeps_pure condition).sameFrom
      | none => exact hguide.sameFrom_comparison h id c operand path.length
  | .quantify id field q inner, h => by
      rw [Filter.Settled] at h
      rw [guidedCondition, guidedCondition]
      exact hguide.sameFrom_quantifier h q _

theorem Guide.Knows.sameFrom_conditions
    (hguide : guide.Knows s.schema plan) :
    ∀ {filters : List Filter}, Filter.AllSettled s.schema plan filters →
      SameFrom plan (guidedConditions s (locate s.schema) filters)
        (guidedConditions s guide filters)
  | [], _ => by
      rw [guidedConditions, guidedConditions]
      exact (keeps_pure []).sameFrom
  | child :: rest, h => by
      rw [Filter.AllSettled] at h
      rw [guidedConditions, guidedConditions]
      refine (hguide.sameFrom_condition h.1).bind fun condition => ?_
      exact (hguide.sameFrom_conditions h.2).bind fun _ => (keeps_pure _).sameFrom

theorem Guide.Knows.sameFrom_alternatives
    (hguide : guide.Knows s.schema plan) :
    ∀ {filters : List Filter}, Filter.AllSettled s.schema plan filters →
      SameFrom plan (guidedAlternatives s (locate s.schema) filters)
        (guidedAlternatives s guide filters)
  | [], _ => by
      rw [guidedAlternatives, guidedAlternatives]
      exact (keeps_pure _).sameFrom
  | child :: rest, h => by
      rw [Filter.AllSettled] at h
      rw [guidedAlternatives, guidedAlternatives]
      refine (hguide.sameFrom_condition h.1).bind fun condition => ?_
      cases condition with
      | none => exact (keeps_pure none).sameFrom
      | some condition =>
          exact (hguide.sameFrom_alternatives h.2).bind fun _ => (keeps_pure _).sameFrom

end

end Filters

/-- **Joins are planned beforehand.**  After the joins of a filter were planned in a query,
from whatever state, building its condition leaves the plan of that query as it is, also if
it fails.  And it does the same with any other guide that finds the paths which now lead
somewhere without a new join, whatever that guide does at all other paths: it may fail at
them, or plan joins.  So none of them is ever followed in that query. -/
theorem planned_joins_suffice
    {s : Setting} {filter : Filter} {p q : Progress}
    (h : (planJoins s filter).run p = (.ok (), q)) :
    ((filterCondition s filter).run q).2.plan = q.plan ∧
      filterCondition s filter = guidedCondition s (locate s.schema) filter ∧
      ∀ guide : Guide,
        (∀ path destination, (locate s.schema path).run q = (.ok destination, q) →
          guide path = pure destination) →
        (guidedCondition s guide filter).run q = (filterCondition s filter).run q := by
  obtain ⟨-, hsettled⟩ := ensures_planJoins s filter p.plan p rfl () q h
  have hlocate := guidedCondition_locate s filter
  rw [← hlocate]
  refine ⟨?_, rfl, fun guide hguide => ?_⟩
  · exact ((q.plan.knows_guide s.schema).sameFrom_condition hsettled q rfl).2
  · have hknows : guide.Knows s.schema q.plan :=
      fun path destination hpath => hguide path destination (run_locate hpath)
    exact (hknows.sameFrom_condition hsettled q rfl).1

/-- Letters with their senders, who live in towns. -/
def post : Setting where
  schema := {
    collections := [
      ("letters", {
        primary := "id"
        fields := [("sender", { type := .integer, specials := .ofFlags [] })] }),
      ("people", {
        primary := "id"
        fields := [
          ("name", { type := .string, specials := .ofFlags [] }),
          ("town", { type := .integer, specials := .ofFlags [] })] }),
      ("towns", {
        primary := "code"
        fields := [("name", { type := .string, specials := .ofFlags [] })] })]
    relations := [
      { collection := "letters", field := "sender", relatedCollection := some "people",
        relatedField := none, collectionField := none, allowed := [], cardinality := .manyToOne },
      { collection := "people", field := "town", relatedCollection := some "towns",
        relatedField := none, collectionField := none, allowed := [], cardinality := .manyToOne }] }
  options := {}

/-- Letters from a town, or by a sender whose town spells something.  The first alternatives
are not looked at, since one of them is empty. -/
def fromTown : Filter :=
  .and [
    .or [.and [], .compare 0 [{ name := "sender" }, { name := "street" }] (.equal false) .null],
    .or [
      .compare 1 [{ name := "sender" }, { name := "town" }, { name := "name" }] (.equal false)
        (.str "Ghent"),
      .compare 2 [{ name := "sender" }, { name := "town" }] (.pattern ⟨.anywhere, false, false⟩)
        (.str "x")]]

/-- The state inside a query on letters that has the join of their senders already. -/
def sendersJoined : Progress :=
  ((Compiling.locate post.schema [{ name := "sender" }, { name := "name" }]).run
    ((Progress.start "people").inside "letters" "letters_1")).2

/-- One more join is planned.  The condition is refused, and leaves both joins as they are. -/
theorem planned_joins_suffice_fromTown :
    sendersJoined.plan.joins.length = 1 ∧
      ∃ q, (planJoins post fromTown).run sendersJoined = (.ok (), q) ∧
        q.plan.joins.length = 2 ∧ ((filterCondition post fromTown).run q).1.isOk = false ∧
        ((filterCondition post fromTown).run q).2.plan = q.plan := by
  obtain ⟨_, hok⟩ := exists_of_isOk
    (show ((planJoins post fromTown).run sendersJoined).1.isOk = true by decide +kernel)
  have hrun : (planJoins post fromTown).run sendersJoined =
      (.ok (), ((planJoins post fromTown).run sendersJoined).2) := Prod.ext hok rfl
  exact ⟨by decide +kernel, _, hrun, by decide +kernel, by decide +kernel,
    (planned_joins_suffice hrun).1⟩

end RowFilter
