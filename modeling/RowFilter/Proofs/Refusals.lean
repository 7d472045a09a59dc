import RowFilter.Proofs.Meaning
import RowFilter.Proofs.Verdicts

/-!
# Verdicts on filters

A filter compiles if all paths lead somewhere that are followed when its joins are planned,
and then none of its conditions is refused.  The alternatives of a disjunction are looked at
in order: what comes after an alternative that asks nothing does not matter.

* `Filter.plans`: the paths that planning follows lead somewhere.
* `Filter.verdict`: whether a filter asks nothing; none if it is refused.
* `compileTree_isOk`: what compiles is decided by both.
-/

namespace RowFilter

open Attempt (DecidedBy)

namespace Attempt

variable {σ τ α β : Type} {A : Prop}

/-- The attempt fails only if `A` holds. -/
def FailsOnlyIf (x : Attempt σ α) (A : Prop) : Prop :=
  ∀ s e t, x.run s = (.error e, t) → A

theorem FailsOnlyIf.mono
    {B : Prop} {x : Attempt σ α}
    (h : x.FailsOnlyIf B) (hA : B → A) :
    x.FailsOnlyIf A :=
  fun s e t hrun => hA (h s e t hrun)

theorem failsOnlyIf_pure
    (a : α) :
    (pure a : Attempt σ α).FailsOnlyIf A := by
  intro s e t hrun
  cases hrun

theorem failsOnlyIf_ofState
    (step : σ → α × σ) :
    (ofState step).FailsOnlyIf A := by
  intro s e t hrun
  cases hrun

theorem failsOnlyIf_ofExcept
    {result : Except QueryError α}
    (h : ∀ e, result = .error e → A) :
    (ofExcept result : Attempt σ α).FailsOnlyIf A := by
  intro s e t hrun
  exact h e (congrArg Prod.fst hrun)

theorem FailsOnlyIf.bind
    {x : Attempt σ α} {f : α → Attempt σ β}
    (hx : x.FailsOnlyIf A) (hf : ∀ a, (f a).FailsOnlyIf A) :
    (x >>= f).FailsOnlyIf A := by
  intro s e t hrun
  cases hstep : x.run s with
  | mk result u =>
      cases result with
      | error e' => exact hx s e' u hstep
      | ok a =>
          rw [run_bind_of_ok f hstep] at hrun
          exact hf a u e t hrun

theorem FailsOnlyIf.focus
    {step : Attempt τ α}
    (h : step.FailsOnlyIf A) (get : σ → τ) (set : τ → σ → σ) :
    (Attempt.focus get set step).FailsOnlyIf A := by
  intro s e t hrun
  rw [run_focus, Prod.mk.injEq] at hrun
  exact h (get s) e _ (Prod.ext hrun.1 rfl)

end Attempt

namespace Filter

mutual

/-- The paths that planning the joins of a filter follows lead somewhere. -/
def plans (s : Setting) (collection : String) : Filter → Bool
  | .and children => allPlan s collection children
  | .or children =>
      (children.any isMatchAll && !(s.options.permissionCase && children.length > 1)) ||
        allPlan s collection children
  | .compare _ path _ _ => (s.schema.route collection path).outcome.isOk
  | .quantify _ field _ _ => (s.schema.route collection [field]).outcome.isOk

/-- The paths that planning the joins of several filters follows lead somewhere. -/
def allPlan (s : Setting) (collection : String) : List Filter → Bool
  | [] => true
  | child :: rest => child.plans s collection && allPlan s collection rest

end

mutual

/-- Whether a filter on the rows of a collection asks nothing; none if it is refused. -/
def verdict (s : Setting) : Filter → String → Option Bool
  | .and children, collection => allVerdict s children collection
  | .or children, collection =>
      if children.any isMatchAll then some true
      else (alternativesVerdict s children collection).map (· || children.isEmpty)
  | .compare _ path c operand, collection =>
      s.schema.comparisonVerdict c operand path.length collection path
  | .quantify _ field q inner, collection =>
      (s.schema.quantifierTarget? collection field q).bind fun related =>
        (s.schema.primaryKey related).toOption.bind fun _ =>
          if inner.plans s related then (inner.verdict s related).map fun _ => false else none

/-- Whether filters that must hold together ask nothing. -/
def allVerdict (s : Setting) : List Filter → String → Option Bool
  | [], _ => some true
  | child :: rest, collection =>
      (child.verdict s collection).bind fun silent =>
        (allVerdict s rest collection).map (silent && ·)

/-- Whether one of several alternatives asks nothing.  None is looked at after it. -/
def alternativesVerdict (s : Setting) : List Filter → String → Option Bool
  | [], _ => some false
  | child :: rest, collection =>
      (child.verdict s collection).bind fun silent =>
        if silent then some true else alternativesVerdict s rest collection

end

end Filter

/-! ## Planning -/

section Planning

variable {s : Setting} {collection : String}

/-- A decision that is only made or not. -/
def decision (b : Bool) : Option Unit :=
  if b then some () else none

theorem decision_and
    (a b : Bool) :
    decision (a && b) = (decision a).bind fun _ => decision b := by
  cases a <;> rfl

theorem Compiling.decidedBy_follow
    {path : List Segment}
    (hdotless : ∀ segment ∈ path, Dotless segment.name) :
    DecidedBy (fun p => p.plan.Of s.schema collection)
      (do let _ ← Compiling.locate s.schema path)
      (decision (s.schema.route collection path).outcome.isOk)
      fun _ _ p => p.plan.Of s.schema collection := by
  have hdecision : decision (s.schema.route collection path).outcome.isOk =
      (s.schema.route collection path).outcome.toOption.map fun _ => () := by
    cases (s.schema.route collection path).outcome <;> rfl
  rw [hdecision]
  exact (Compiling.decidedBy_locate hdotless).map fun _ _ _ h => h.2.1

mutual

/-- Joins are planned where the paths lead somewhere. -/
theorem decidedBy_planJoins :
    ∀ filter : Filter, (∀ segment ∈ filter.segments, Dotless segment.name) →
      DecidedBy (fun p => p.plan.Of s.schema collection) (planJoins s filter)
        (decision (filter.plans s collection)) fun _ _ p => p.plan.Of s.schema collection
  | .and children, hdotless => by
      rw [planJoins, Filter.plans]
      exact decidedBy_planAllJoins children hdotless
  | .or children, hdotless => by
      rw [planJoins, Filter.plans]
      by_cases hskip : (children.any Filter.isMatchAll &&
          !(s.options.permissionCase && children.length > 1)) = true
      · rw [if_pos hskip, hskip]
        exact Attempt.decidedBy_pure fun _ hp => hp
      · rw [if_neg hskip, Bool.eq_false_iff.2 hskip, Bool.false_or]
        exact decidedBy_planAllJoins children hdotless
  | .compare _ path _ _, hdotless => by
      rw [planJoins, Filter.plans]
      exact Compiling.decidedBy_follow hdotless
  | .quantify _ field _ inner, hdotless => by
      rw [planJoins, Filter.plans]
      refine Compiling.decidedBy_follow (List.forall_mem_singleton.2 ?_)
      exact hdotless field List.mem_cons_self

theorem decidedBy_planAllJoins :
    ∀ filters : List Filter, (∀ segment ∈ Filter.segmentsOfAll filters, Dotless segment.name) →
      DecidedBy (fun p => p.plan.Of s.schema collection) (planAllJoins s filters)
        (decision (Filter.allPlan s collection filters))
        fun _ _ p => p.plan.Of s.schema collection
  | [], _ => by
      rw [planAllJoins, Filter.allPlan]
      exact Attempt.decidedBy_pure fun _ hp => hp
  | child :: rest, hdotless => by
      rw [planAllJoins, Filter.allPlan, decision_and]
      rw [Filter.segmentsOfAll] at hdotless
      refine (decidedBy_planJoins child fun segment h =>
        hdotless segment (List.mem_append_left _ h)).bind fun _ _ => ?_
      exact decidedBy_planAllJoins rest fun segment h =>
        hdotless segment (List.mem_append_right _ h)

end

end Planning

/-! ## Closures -/

/-- Whether a comparison asks nothing; none if it is refused. -/
def Leaf.verdict (schema : Schema) (collection : String) (leaf : Leaf) : Option Bool :=
  schema.comparisonVerdict leaf.comparison leaf.operand leaf.path.length collection leaf.path

/-- Whether a test asks nothing; none if it has no criterion. -/
def DocumentTest.asksNothing? (t : DocumentTest) : Option Bool :=
  (t.operator.criterion t.operand).toOption.map Criterion.isAlways

/-- The path of a comparison can be followed by the joins of a plan. -/
structure Leaf.FollowedBy (schema : Schema) (plan : JoinPlan) (leaf : Leaf) : Prop where
  dotless : ∀ segment ∈ leaf.path, Dotless segment.name
  settled : ∃ destination, plan.destination? schema leaf.path = some destination

section Closures

variable {schema : Schema} {collection : String} {plan : JoinPlan}

mutual

theorem followedBy_of_settled :
    ∀ {filter : Filter}, filter.Settled schema plan →
      (∀ segment ∈ filter.segments, Dotless segment.name) →
        ∀ leaf ∈ filter.closureLeaves, leaf.FollowedBy schema plan
  | .and children, hsettled, hdotless => by
      rw [Filter.Settled] at hsettled
      rw [Filter.closureLeaves]
      exact followedBy_of_allSettled hsettled hdotless
  | .or _, _, _ => by simp [Filter.closureLeaves]
  | .compare id path c operand, hsettled, hdotless => by
      rw [Filter.Settled] at hsettled
      rw [Filter.closureLeaves, List.forall_mem_singleton]
      exact ⟨hdotless, hsettled⟩
  | .quantify .., _, _ => by simp [Filter.closureLeaves]

theorem followedBy_of_allSettled :
    ∀ {filters : List Filter}, Filter.AllSettled schema plan filters →
      (∀ segment ∈ Filter.segmentsOfAll filters, Dotless segment.name) →
        ∀ leaf ∈ Filter.closureLeavesOfAll filters, leaf.FollowedBy schema plan
  | [], _, _ => by simp [Filter.closureLeavesOfAll]
  | child :: rest, hsettled, hdotless => by
      rw [Filter.AllSettled] at hsettled
      rw [Filter.segmentsOfAll] at hdotless
      rw [Filter.closureLeavesOfAll]
      intro leaf hleaf
      rcases List.mem_append.1 hleaf with hleaf | hleaf
      · exact followedBy_of_settled hsettled.1
          (fun segment h => hdotless segment (List.mem_append_left _ h)) leaf hleaf
      · exact followedBy_of_allSettled hsettled.2
          (fun segment h => hdotless segment (List.mem_append_right _ h)) leaf hleaf

end

/-- The verdict on a comparison that ends inside a document. -/
theorem Leaf.verdict_of_json
    {leaf : Leaf} {place : Place} {next : Segment} {rest : List Segment}
    (hplan : plan.Of schema collection) (hleaf : leaf.FollowedBy schema plan)
    (h : plan.destination? schema leaf.path = some (.json place (next :: rest))) :
    leaf.verdict schema collection =
      (checkJsonPath place.segment.name (next :: rest) (.compare leaf.comparison)).toOption.bind
        fun _ => leaf.comparison.asksNothing? leaf.operand := by
  obtain ⟨found, source, houtcome, hfound⟩ := hplan.outcome_eq hleaf.dotless h
  have hlength : ∃ limit, leaf.path.length = limit + 1 := by
    cases hpath : leaf.path with
    | nil =>
        rw [hpath] at h
        cases h
    | cons segment path => exact ⟨path.length, rfl⟩
  obtain ⟨limit, hlength⟩ := hlength
  rw [Leaf.verdict, hlength, Schema.comparisonVerdict, houtcome]
  cases found with
  | json place' rest' =>
      cases hfound
      rfl
  | column place' relation => cases hfound
  | toMany place' relation scope rest' => cases hfound

/-- A comparison with a test is judged as the test is. -/
theorem Leaf.verdict_of_test
    {leaf : Leaf} {t : DocumentTest}
    (hplan : plan.Of schema collection) (hleaf : leaf.FollowedBy schema plan)
    (h : plan.testOf schema leaf = .ok [t]) :
    leaf.verdict schema collection = t.asksNothing? := by
  unfold JoinPlan.testOf at h
  split at h
  · rename_i place next rest hdestination
    obtain ⟨_, hcheck, h⟩ := exists_of_bind_ok h
    cases h
    rw [Leaf.verdict_of_json hplan hleaf hdestination, hcheck]
    rfl
  · cases h

/-- A comparison that may have no test is refused. -/
theorem Leaf.verdict_of_error
    {leaf : Leaf} {e : QueryError}
    (hplan : plan.Of schema collection) (hleaf : leaf.FollowedBy schema plan)
    (h : plan.testOf schema leaf = .error e) :
    leaf.verdict schema collection = none := by
  unfold JoinPlan.testOf at h
  split at h
  · rename_i place next rest hdestination
    rw [Leaf.verdict_of_json hplan hleaf hdestination]
    cases hcheck : checkJsonPath place.segment.name (next :: rest)
        (.compare leaf.comparison) with
    | error e => rfl
    | ok _ =>
        rw [hcheck] at h
        cases h
  · cases h

mutual

/-- The tests of a closure fail if that of a comparison does. -/
theorem exists_leaf_of_closureTests_error :
    ∀ {filter : Filter} {e : QueryError}, closureTests schema plan filter = .error e →
      ∃ leaf ∈ filter.closureLeaves, ∃ e, plan.testOf schema leaf = .error e
  | .and children, e, h => by
      rw [closureTests] at h
      rw [Filter.closureLeaves]
      exact exists_leaf_of_allClosureTests_error h
  | .or children, e, h => by
      rw [closureTests] at h
      cases h
  | .compare id path c operand, e, h => by
      rw [closureTests] at h
      exact ⟨_, List.mem_cons_self, e, h⟩
  | .quantify .., e, h => by
      rw [closureTests] at h
      cases h

theorem exists_leaf_of_allClosureTests_error :
    ∀ {filters : List Filter} {e : QueryError}, allClosureTests schema plan filters = .error e →
      ∃ leaf ∈ Filter.closureLeavesOfAll filters, ∃ e, plan.testOf schema leaf = .error e
  | [], e, h => by
      rw [allClosureTests] at h
      cases h
  | child :: rest, e, h => by
      rw [allClosureTests] at h
      rw [Filter.closureLeavesOfAll]
      cases hchild : closureTests schema plan child with
      | error e' =>
          obtain ⟨leaf, hleaf, herror⟩ := exists_leaf_of_closureTests_error hchild
          exact ⟨leaf, List.mem_append_left _ hleaf, herror⟩
      | ok tests =>
          cases hrest : allClosureTests schema plan rest with
          | error e' =>
              obtain ⟨leaf, hleaf, herror⟩ := exists_leaf_of_allClosureTests_error hrest
              exact ⟨leaf, List.mem_append_right _ hleaf, herror⟩
          | ok others =>
              rw [hchild, hrest] at h
              cases h

end

/-! ## Folds -/

theorem Sql.Expr.group?_eq_none_iff
    {op : Sql.Connective} {operands : List Sql.Expr} :
    Sql.Expr.group? op operands = none ↔ operands = [] := by
  rcases operands with _ | ⟨e, _ | ⟨second, rest⟩⟩
  · exact ⟨fun _ => rfl, fun _ => rfl⟩
  · simp [Sql.Expr.group?]
  · simp [Sql.Expr.group?]

/-- The criteria of tests are missing if one of them is. -/
theorem DocumentTest.exists_of_criteria_error :
    ∀ {tests : List DocumentTest} {e : QueryError}, (∀ t ∈ tests, t.endsInMember = true) →
      criteria tests = .error e → ∃ t ∈ tests, t.asksNothing? = none
  | [], e, _, h => by cases h
  | t :: tests, e, hmember, h => by
      obtain ⟨ht, htests⟩ := List.forall_mem_cons.1 hmember
      rw [criteria] at h
      cases hlast : t.path.getLast? with
      | none =>
          rw [endsInMember, hlast] at ht
          cases ht
      | some last =>
          rw [hlast] at h
          cases hcriterion : t.operator.criterion t.operand with
          | error e' =>
              refine ⟨t, List.mem_cons_self, ?_⟩
              rw [asksNothing?, hcriterion]
              rfl
          | ok c =>
              cases hothers : criteria tests with
              | error e' =>
                  obtain ⟨u, hu, hnone⟩ := exists_of_criteria_error htests hothers
                  exact ⟨u, List.mem_cons_of_mem _ hu, hnone⟩
              | ok others =>
                  rw [hcriterion, hothers] at h
                  cases h

theorem DocumentTest.failsOnlyIf_together
    {tests : List DocumentTest}
    (hne : tests ≠ []) (hmember : ∀ t ∈ tests, t.endsInMember = true) :
    (together tests).FailsOnlyIf (∃ t ∈ tests, t.asksNothing? = none) := by
  cases tests with
  | nil => exact absurd rfl hne
  | cons first others =>
      unfold together
      refine Attempt.FailsOnlyIf.bind ?_ fun asked => ?_
      · exact Attempt.failsOnlyIf_ofExcept fun e h => exists_of_criteria_error hmember h
      · split
        · exact Attempt.failsOnlyIf_pure _
        · exact (Attempt.failsOnlyIf_ofState _).bind fun _ => Attempt.failsOnlyIf_pure _

theorem failsOnlyIf_makeFolds :
    ∀ {groups : List (List DocumentTest)},
      (∀ group ∈ groups, group ≠ [] ∧ ∀ t ∈ group, t.endsInMember = true) →
        (makeFolds groups).FailsOnlyIf (∃ group ∈ groups, ∃ t ∈ group, t.asksNothing? = none)
  | [], _ => Attempt.failsOnlyIf_pure _
  | group :: groups, hgroups => by
      obtain ⟨⟨hne, hmember⟩, hrest⟩ := List.forall_mem_cons.1 hgroups
      rw [makeFolds]
      refine Attempt.FailsOnlyIf.bind ?_ fun shared => ?_
      · refine ((DocumentTest.failsOnlyIf_together hne hmember).focus _ _).mono fun h => ?_
        exact ⟨group, List.mem_cons_self, h⟩
      · refine Attempt.FailsOnlyIf.bind ?_ fun folds => Attempt.failsOnlyIf_pure _
        refine (failsOnlyIf_makeFolds hrest).mono ?_
        rintro ⟨other, hother, h⟩
        exact ⟨other, List.mem_cons_of_mem _ hother, h⟩

/-- The folds of a closure cannot be made only if one of its comparisons is refused. -/
theorem exists_refused_of_closureFolds_error
    {children : List Filter} {p q : Progress} {e : QueryError}
    (hplan : p.plan.Of schema collection)
    (hleaves : ∀ leaf ∈ Filter.closureLeavesOfAll children, leaf.FollowedBy schema p.plan)
    (h : (closureFolds schema children).run p = (.error e, q)) :
    ∃ leaf ∈ Filter.closureLeavesOfAll children, leaf.verdict schema collection = none := by
  unfold closureFolds at h
  rw [Attempt.run_bind_of_ok _ (Attempt.run_state p)] at h
  cases htests : allClosureTests schema p.plan children with
  | error e' =>
      obtain ⟨leaf, hleaf, e', herror⟩ := exists_leaf_of_allClosureTests_error htests
      exact ⟨leaf, hleaf, Leaf.verdict_of_error hplan (hleaves leaf hleaf) herror⟩
  | ok tests =>
      rw [Attempt.run_bind_of_ok _ (congrArg (·, p) htests)] at h
      have hgroups : ∀ group ∈ foldable tests,
          group ≠ [] ∧ ∀ t ∈ group, t.endsInMember = true := by
        intro group hgroup
        refine ⟨?_, fun t ht => (mem_tests_of_foldable hgroup ht).2⟩
        rintro rfl
        simpa using (List.mem_filter.1 hgroup).2
      obtain ⟨group, hgroup, t, ht, hnone⟩ := failsOnlyIf_makeFolds hgroups p e q h
      obtain ⟨leaf, hleaf, htest⟩ := exists_leaf_of_mem_allClosureTests htests t
        (mem_tests_of_foldable hgroup ht).1
      refine ⟨leaf, hleaf, ?_⟩
      rw [Leaf.verdict_of_test hplan (hleaves leaf hleaf) htest, hnone]

/-- The members of a fold have criteria, which all ask nothing if the fold does. -/
theorem Fold.Asks.asksNothing?_eq_some
    {fold : Fold} {t : DocumentTest}
    (h : fold.Asks) (ht : t ∈ fold.members) :
    ∃ silent, t.asksNothing? = some silent ∧ (fold.shared = none → silent = true) := by
  obtain ⟨first, rest, label, criteria, -, hcriteria, hshared⟩ := Fold.asks_iff.1 h
  obtain ⟨c, hc, hcriterion⟩ := DocumentTest.exists_mem_zip hcriteria t ht
  refine ⟨c.isAlways, by rw [DocumentTest.asksNothing?, hcriterion]; rfl, fun hnone => ?_⟩
  rw [hshared, Option.map_eq_none_iff, Sql.Expr.group?_eq_none_iff,
    List.filterMap_eq_nil_iff] at hnone
  have hcondition := hnone (t, c) hc
  unfold DocumentTest.condition? at hcondition
  rwa [Criterion.apply_eq_none_iff, Criterion.isAlways_casted] at hcondition

/-- A fold asks nothing if none of its members does. -/
theorem Fold.Asks.shared_eq_none
    {fold : Fold}
    (h : fold.Asks) (hsilent : ∀ t ∈ fold.members, t.asksNothing? = some true) :
    fold.shared = none := by
  obtain ⟨first, rest, label, criteria, -, hcriteria, hshared⟩ := Fold.asks_iff.1 h
  rw [hshared, Option.map_eq_none_iff, Sql.Expr.group?_eq_none_iff, List.filterMap_eq_nil_iff]
  rintro ⟨t, c⟩ hmem
  have hcriterion := (List.forall₂_iff_zip.1 hcriteria).2 hmem
  have htrue := hsilent t (List.of_mem_zip hmem).1
  rw [DocumentTest.asksNothing?, hcriterion] at htrue
  exact condition?_of_isAlways label _ (Option.some.inj htrue)

/-- What the folds of a closure tell about its comparisons: one that was folded is accepted,
and it asks nothing if its fold does not. -/
def FoldsTell (schema : Schema) (collection : String) (leaves : List Leaf) (folds : List Fold) :
    Prop :=
  ∀ leaf ∈ leaves, ∀ fold, Fold.of? folds leaf.id = some fold →
    ∃ silent, leaf.verdict schema collection = some silent ∧
      (fold.shared = none → silent = true)

theorem FoldsTell.subset
    {leaves leaves' : List Leaf} {folds : List Fold}
    (h : FoldsTell schema collection leaves folds) (hsubset : leaves' ⊆ leaves) :
    FoldsTell schema collection leaves' folds :=
  fun leaf hleaf => h leaf (hsubset hleaf)

/-- The folds of a closure tell about its comparisons, and ask nothing if all of these ask
nothing. -/
theorem ensures_closureFolds
    {children : List Filter}
    (hplan : plan.Of schema collection)
    (hleaves : ∀ leaf ∈ Filter.closureLeavesOfAll children, leaf.FollowedBy schema plan)
    (hnodup : (Filter.closureIdsOfAll children).Nodup) :
    Attempt.Ensures (fun p => p.plan = plan) (closureFolds schema children) fun folds p =>
      p.plan = plan ∧ FoldsTell schema collection (Filter.closureLeavesOfAll children) folds ∧
        ((∀ leaf ∈ Filter.closureLeavesOfAll children,
          leaf.verdict schema collection = some true) → ∀ fold ∈ folds, fold.shared = none) := by
  rintro p rfl folds q hrun
  unfold closureFolds at hrun
  rw [Attempt.run_bind_of_ok _ (Attempt.run_state p)] at hrun
  cases htests : allClosureTests schema p.plan children with
  | error e =>
      rw [Attempt.run_bind_of_error _ (congrArg (·, p) htests)] at hrun
      cases hrun
  | ok tests =>
      rw [Attempt.run_bind_of_ok _ (congrArg (·, p) htests)] at hrun
      have hsource := exists_leaf_of_mem_allClosureTests htests
      obtain ⟨hmembers, hasks⟩ := gives_makeFolds _ p folds q hrun
      have hkeeps := (labelsOnly_makeFolds (foldable tests)).keeps p.plan p rfl
      rw [hrun] at hkeeps
      refine ⟨hkeeps, ?_, ?_⟩
      · intro leaf hleaf fold hfold
        rw [← Filter.map_id_closureLeavesOfAll] at hnodup
        obtain ⟨t, ht, htest⟩ := testOf_of_folded hnodup hsource hmembers hleaf hfold
        rw [Leaf.verdict_of_test hplan (hleaves leaf hleaf) htest]
        exact (hasks fold (Fold.mem_of_of? hfold).1).asksNothing?_eq_some ht
      · intro hsilent fold hfold
        refine (hasks fold hfold).shared_eq_none fun t ht => ?_
        have hgroup : fold.members ∈ foldable tests := hmembers ▸ List.mem_map_of_mem hfold
        obtain ⟨leaf, hleaf, htest⟩ := hsource t (mem_tests_of_foldable hgroup ht).1
        rw [← Leaf.verdict_of_test hplan (hleaves leaf hleaf) htest]
        exact hsilent leaf hleaf

mutual

/-- The comparisons in the closure of a filter that is accepted are accepted, and ask nothing
if the filter does not. -/
theorem verdict_of_mem_closureLeaves
    {s : Setting} :
    ∀ {filter : Filter} {silent : Bool}, filter.verdict s collection = some silent →
      ∀ leaf ∈ filter.closureLeaves, ∃ b, leaf.verdict s.schema collection = some b ∧
        (silent = true → b = true)
  | .and children, silent, h => by
      rw [Filter.verdict] at h
      rw [Filter.closureLeaves]
      exact verdict_of_mem_closureLeavesOfAll h
  | .or _, _, _ => by simp [Filter.closureLeaves]
  | .compare id path c operand, silent, h => by
      rw [Filter.verdict] at h
      rw [Filter.closureLeaves, List.forall_mem_singleton]
      exact ⟨silent, h, fun hsilent => hsilent⟩
  | .quantify .., _, _ => by simp [Filter.closureLeaves]

theorem verdict_of_mem_closureLeavesOfAll
    {s : Setting} :
    ∀ {filters : List Filter} {silent : Bool},
      Filter.allVerdict s filters collection = some silent →
      ∀ leaf ∈ Filter.closureLeavesOfAll filters, ∃ b, leaf.verdict s.schema collection = some b ∧
        (silent = true → b = true)
  | [], _, _ => by simp [Filter.closureLeavesOfAll]
  | child :: rest, silent, h => by
      rw [Filter.allVerdict] at h
      obtain ⟨first, hfirst, h⟩ := Option.bind_eq_some_iff.1 h
      obtain ⟨others, hothers, rfl⟩ := Option.map_eq_some_iff.1 h
      rw [Filter.closureLeavesOfAll]
      intro leaf hleaf
      rcases List.mem_append.1 hleaf with hleaf | hleaf
      · obtain ⟨b, hb, hsilent⟩ := verdict_of_mem_closureLeaves hfirst leaf hleaf
        exact ⟨b, hb, fun h => hsilent (Bool.and_eq_true_iff.1 h).1⟩
      · obtain ⟨b, hb, hsilent⟩ := verdict_of_mem_closureLeavesOfAll hothers leaf hleaf
        exact ⟨b, hb, fun h => hsilent (Bool.and_eq_true_iff.1 h).2⟩

end

end Closures

/-! ## Accounts that ask nothing -/

namespace Account

/-- The account is true whatever its predicates are. -/
def asksNothing (a : Account) : Bool :=
  a.holds fun _ => false

/-- All accounts are true whatever their predicates are. -/
def allAskNothing (as : List Account) : Bool :=
  allHold (fun _ => false) as

theorem isNone_of_elim
    {predicate : Option Sql.Expr}
    (h : (predicate.elim true fun _ => false) = true) :
    predicate = none := by
  cases predicate with
  | none => rfl
  | some e => cases h

mutual

theorem condition_of_asksNothing :
    ∀ a : Account, a.asksNothing = true → a.condition = none
  | and children, h => by
      rw [asksNothing, holds] at h
      rw [condition, conditions_of_allAskNothing children h]
      rfl
  | or children, h => by
      rw [asksNothing, holds, Bool.or_eq_true] at h
      rw [condition]
      rcases h with hempty | hany
      · rw [List.isEmpty_iff.1 hempty]
        rfl
      · rw [alternatives?_of_anyHolds children hany]
        rfl
  | unbuilt f, _ => by rw [condition]
  | own leaf predicate, h => by
      rw [asksNothing, holds] at h
      rw [condition, isNone_of_elim h]
  | folded leaf fold, h => by
      rw [asksNothing, holds] at h
      rw [condition, Fold.standing, isNone_of_elim h, ite_self]
  | behind leaf key inquiry inner, h => by
      rw [asksNothing, holds] at h
      cases h
  | quantified id field q key inquiry inner, h => by
      rw [asksNothing, holds] at h
      cases h

theorem conditions_of_allAskNothing :
    ∀ as : List Account, allAskNothing as = true → conditions as = []
  | [], _ => by rw [conditions]
  | a :: as, h => by
      rw [allAskNothing, allHold, Bool.and_eq_true] at h
      rw [conditions, condition_of_asksNothing a h.1, conditions_of_allAskNothing as h.2]
      rfl

theorem alternatives?_of_anyHolds :
    ∀ as : List Account, anyHolds (fun _ => false) as = true → alternatives? as = none
  | [], h => by
      rw [anyHolds] at h
      cases h
  | a :: as, h => by
      rw [anyHolds, Bool.or_eq_true] at h
      rw [alternatives?]
      rcases h with h | h
      · rw [condition_of_asksNothing a h]
      · cases a.condition with
        | none => rfl
        | some e => rw [alternatives?_of_anyHolds as h]; rfl

end

/-- A sound account has no condition if it asks nothing, and only then. -/
theorem isNone_condition
    {a : Account} {ids : List Nat}
    (hclosures : ∀ b ∈ a.closures, b.ClosureSound ids) (hids : ids.Nodup) :
    a.condition.isNone = a.asksNothing := by
  rw [Bool.eq_iff_iff, Option.isNone_iff_eq_none]
  constructor
  · intro hnone
    rw [asksNothing, ← truth_condition hclosures hids, hnone]
    rfl
  · exact condition_of_asksNothing a

end Account

/-! ## Accounts of filters -/

namespace Account

/-- What an account says against the verdict on its filter.  Inside a closure a member of a
fold that asks nothing is told apart only if the other members of the fold ask nothing. -/
def Meets (silent : Bool) (a : Account) : Option (List Fold) → Prop
  | none => a.condition.isNone = silent
  | some folds => (a.asksNothing = true → silent = true) ∧
      ((∀ fold ∈ folds, fold.shared = none) → silent = true → a.asksNothing = true)

/-- What the accounts of a closure say against the verdict on their filters. -/
def AllMeet (silent : Bool) (as : List Account) (folds : List Fold) : Prop :=
  (allAskNothing as = true → silent = true) ∧
    ((∀ fold ∈ folds, fold.shared = none) → silent = true → allAskNothing as = true)

theorem asksNothing_and
    (as : List Account) :
    (and as).asksNothing = allAskNothing as := by
  rw [asksNothing, holds, allAskNothing]

theorem AllMeet.cons
    {a : Account} {as : List Account} {folds : List Fold} {silent others : Bool}
    (ha : a.Meets silent (some folds)) (has : AllMeet others as folds) :
    AllMeet (silent && others) (a :: as) folds := by
  have hcons : allAskNothing (a :: as) = (a.asksNothing && allAskNothing as) := by
    rw [allAskNothing, allHold]
    rfl
  constructor
  · intro h
    rw [hcons, Bool.and_eq_true] at h
    rw [ha.1 h.1, has.1 h.2]
    rfl
  · intro hfolds h
    rw [Bool.and_eq_true] at h
    rw [hcons, ha.2 hfolds h.1, has.2 hfolds h.2]
    rfl

/-- A disjunction has no condition if it has no alternatives, or if one asks nothing. -/
theorem isNone_condition_or
    (as : List Account) :
    (or as).condition.isNone = ((alternatives? as).isNone || as.isEmpty) := by
  rw [condition]
  cases halternatives : alternatives? as with
  | none => rfl
  | some es =>
      obtain ⟨hempty, -⟩ := any_of_alternatives?_eq_some (fun _ => false) halternatives
      rw [Option.bind_some, Bool.eq_iff_iff, Option.isNone_iff_eq_none,
        Sql.Expr.group?_eq_none_iff, ← hempty]
      simp

theorem condition_or_unbuilt
    (filters : List Filter) :
    (or (filters.map unbuilt)).condition = none := by
  cases filters <;> rfl

end Account

section Accounts

variable {s : Setting} {collection : String} {plan : JoinPlan}

/-- Outside a closure an account is met if it has a condition where its filter asks
something.  Then it is met inside one as well. -/
theorem decidedBy_meets
    {filter : Filter} {d : Option Bool} (within : Option (List Fold))
    (hids : filter.ids.Nodup)
    (h : DecidedBy (fun p => p.plan = plan) (account s none filter) d
      fun a silent p => a.condition.isNone = silent ∧ p.plan = plan) :
    DecidedBy (fun p => p.plan = plan) (account s none filter) d
      fun a silent p => a.Meets silent within ∧ p.plan = plan := by
  have hgives : Attempt.Ensures (fun p => p.plan = plan) (account s none filter)
      fun a _ => ∃ folds, FoldsWithin filter none folds ∧ a.Sound filter folds :=
    fun p _ => gives_account s filter none p
  refine (h.ensures hgives).mono fun a silent p ha => ?_
  obtain ⟨⟨hnone, hp⟩, folds, hfolds, hsound⟩ := ha
  refine ⟨?_, hp⟩
  cases within with
  | none => exact hnone
  | some handed =>
      rw [Account.isNone_condition (hsound.closures hfolds) hids] at hnone
      exact ⟨fun h => hnone.symm.trans h, fun _ h => hnone.trans h⟩

/-- A conjunction that opens a closure is decided as its members are. -/
theorem decidedBy_closure
    {children : List Filter}
    (hplan : plan.Of s.schema collection)
    (hleaves : ∀ leaf ∈ Filter.closureLeavesOfAll children, leaf.FollowedBy s.schema plan)
    (hids : (Filter.idsOfAll children).Nodup)
    (h : ∀ folds, FoldsTell s.schema collection (Filter.closureLeavesOfAll children) folds →
      DecidedBy (fun p => p.plan = plan) (accounts s folds children)
        (Filter.allVerdict s children collection)
        fun as silent p => Account.AllMeet silent as folds ∧ p.plan = plan) :
    DecidedBy (fun p => p.plan = plan) (account s none (.and children))
      (Filter.allVerdict s children collection)
      fun a silent p => a.condition.isNone = silent ∧ p.plan = plan := by
  have hids' : (Filter.and children).ids.Nodup := by rwa [Filter.ids]
  have hclosure := Filter.nodup_closureIds hids'
  rw [Filter.closureIds] at hclosure
  intro p hp
  have hgives := gives_account s (.and children) none p
  rw [account, foldsWithin] at hgives ⊢
  cases hrun : (closureFolds s.schema children).run p with
  | mk result q =>
      cases result with
      | error e =>
          subst hp
          obtain ⟨leaf, hleaf, hrefused⟩ :=
            exists_refused_of_closureFolds_error hplan hleaves hrun
          refine .inl ⟨?_, e, q, Attempt.run_bind_of_error _ hrun⟩
          cases hverdict : Filter.allVerdict s children collection with
          | none => rfl
          | some silent =>
              obtain ⟨b, hb, -⟩ := verdict_of_mem_closureLeavesOfAll hverdict leaf hleaf
              rw [hrefused] at hb
              cases hb
      | ok folds =>
          obtain ⟨hq, htell, hsilent⟩ :=
            ensures_closureFolds hplan hleaves hclosure p hp folds q hrun
          rw [Attempt.run_bind_of_ok _ hrun] at hgives ⊢
          rcases h folds htell q hq with ⟨hnone, e, r, hrest⟩ | ⟨as, b, r, hsome, hrest, hmeet, hr⟩
          · exact .inl ⟨hnone, e, r, Attempt.run_bind_of_error _ hrest⟩
          · rw [Attempt.run_bind_of_ok _ hrest] at hgives ⊢
            obtain ⟨found, hfound, hsound⟩ := hgives _ _ rfl
            refine .inr ⟨_, b, r, hsome, rfl, ?_, hr⟩
            rw [Account.isNone_condition (hsound.closures hfound) hids', Account.asksNothing_and,
              Bool.eq_iff_iff]
            refine ⟨hmeet.1, fun hb => hmeet.2 (hsilent fun leaf hleaf => ?_) hb⟩
            obtain ⟨b', hb', htrue⟩ := verdict_of_mem_closureLeavesOfAll hsome leaf hleaf
            rw [hb', htrue hb]

/-- A filter is decided in its query once the joins are planned. -/
theorem decidedBy_settingAccount
    {filter : Filter}
    (hdotless : ∀ segment ∈ filter.segments, Dotless segment.name)
    (h : ∀ {plan : JoinPlan}, plan.Of s.schema collection → filter.Settled s.schema plan →
      DecidedBy (fun p => p.plan = plan) (account s none filter) (filter.verdict s collection)
        fun a silent p => a.Meets silent none ∧ p.plan = plan) :
    DecidedBy (fun p => p.plan.Of s.schema collection) (s.account filter)
      (if filter.plans s collection then filter.verdict s collection else none)
      fun a silent _ => a.condition.isNone = silent := by
  intro p hp
  unfold Setting.account
  rcases decidedBy_planJoins filter hdotless p hp with
    ⟨hnone, e, q, hrun⟩ | ⟨_, _, q, hsome, hrun, hq⟩
  · refine .inl ⟨if_neg fun hplans => ?_, e, q, Attempt.run_bind_of_error _ hrun⟩
    rw [decision, if_pos hplans] at hnone
    cases hnone
  · have hplans : filter.plans s collection = true := by
      by_contra hplans
      rw [decision, if_neg hplans] at hsome
      cases hsome
    obtain ⟨-, hsettled⟩ := ensures_planJoins s filter p.plan p rfl _ q hrun
    rw [if_pos hplans, Attempt.run_bind_of_ok _ hrun]
    exact (h hq hsettled).mono (fun _ _ _ ha => ha.1) q rfl

/-- A quantified condition asks something where its filter is accepted. -/
theorem decidedBy_quantified
    {field : Segment} {destination : Destination} {inner : Filter} (id : Nat) (q : Quantifier)
    (hplan : plan.Of s.schema collection) (hdotless : Dotless field.name)
    (hdestination : plan.destination? s.schema [field] = some destination)
    (h : ∀ related, DecidedBy (fun p => p.plan.Of s.schema related) (s.account inner)
      (if inner.plans s related then inner.verdict s related else none)
      fun a silent _ => a.condition.isNone = silent) :
    DecidedBy (fun p => p.plan = plan) (account s none (.quantify id field q inner))
      ((Filter.quantify id field q inner).verdict s collection)
      fun a silent p => a.condition.isNone = silent ∧ p.plan = plan := by
  rw [account, Filter.verdict]
  refine (decidedBy_quantifierProbe q hplan hdotless hdestination).bind fun probe related => ?_
  rintro p ⟨rfl, hp⟩
  have hinner : ∀ qualifier, DecidedBy
      (fun p => p.plan = JoinPlan.start probe.related qualifier) (s.account inner)
      (if inner.plans s probe.related then inner.verdict s probe.related else none)
      fun _ _ _ => True := by
    intro qualifier p hp
    have hstart : p.plan.Of s.schema probe.related := by
      rw [hp]
      exact JoinPlan.of_start s.schema probe.related qualifier
    exact (h probe.related).mono (fun _ _ _ _ => trivial) p hstart
  have henter := (probe.decidedBy_enter s.schema hinner).map
    (f := fun x => Account.quantified id field q probe.key x.2 x.1) (k := fun _ => false)
    (Q := fun a silent p => a.condition.isNone = silent ∧ p.plan = plan)
    fun x b p h => ⟨rfl, h.2⟩
  rw [Option.map_bind] at henter
  have hsame : (fun _ : String => (if inner.plans s probe.related
        then inner.verdict s probe.related else none).map fun _ => false) =
      fun _ => if inner.plans s probe.related
        then (inner.verdict s probe.related).map fun _ => false else none := by
    funext _
    split <;> rfl
  rw [← hsame]
  exact henter p hp

mutual

/-- The account of a filter whose joins are planned is built where the filter is accepted. -/
theorem decidedBy_account
    (s : Setting) :
    ∀ (filter : Filter) (within : Option (List Fold)) {collection : String} {plan : JoinPlan},
      plan.Of s.schema collection → filter.Settled s.schema plan →
      (∀ segment ∈ filter.segments, Dotless segment.name) → filter.ids.Nodup →
      (∀ folds ∈ within, FoldsTell s.schema collection filter.closureLeaves folds) →
      DecidedBy (fun p => p.plan = plan) (account s within filter) (filter.verdict s collection)
        fun a silent p => a.Meets silent within ∧ p.plan = plan
  | .and children, within, collection, plan, hplan, hsettled, hdotless, hids, hwithin => by
      rw [Filter.Settled] at hsettled
      rw [Filter.closureLeaves] at hwithin
      rw [Filter.ids] at hids
      rw [Filter.verdict]
      have haccounts := fun folds htell =>
        decidedBy_accounts s children folds hplan hsettled hdotless hids htell
      cases within with
      | none =>
          exact decidedBy_closure hplan (followedBy_of_allSettled hsettled hdotless) hids haccounts
      | some folds =>
          rw [account, foldsWithin, pure_bind]
          refine (haccounts folds (hwithin folds rfl)).then_pure fun as silent p has => ⟨?_, has.2⟩
          rw [Account.Meets, Account.asksNothing_and]
          exact has.1
  | .or children, within, collection, plan, hplan, hsettled, hdotless, hids, _ => by
      have hsame : account s within (.or children) = account s none (.or children) := by
        rw [account, account]
      rw [hsame]
      refine decidedBy_meets within hids ?_
      rw [Filter.Settled] at hsettled
      rw [Filter.ids] at hids
      rw [account, Filter.verdict]
      by_cases hall : children.any Filter.isMatchAll = true
      · rw [if_pos hall, if_pos hall]
        refine Attempt.decidedBy_pure fun p hp => ⟨?_, hp⟩
        rw [Account.condition_or_unbuilt]
        rfl
      · rw [if_neg hall, if_neg hall]
        refine (decidedBy_alternativeAccounts s children hplan (hsettled.resolve_left hall)
          hdotless hids).map fun as silent p has => ?_
        obtain ⟨hnone, hempty, hp⟩ := has
        exact ⟨by rw [Account.isNone_condition_or, hnone, hempty], hp⟩
  | .compare id path c operand, within, collection, plan, hplan, hsettled, hdotless, hids,
      hwithin => by
      rw [Filter.Settled] at hsettled
      obtain ⟨destination, hdestination⟩ := hsettled
      cases hfolded : within.bind (Fold.of? · id) with
      | some fold =>
          obtain ⟨folds, rfl, hfold⟩ := Option.bind_eq_some_iff.1 hfolded
          obtain ⟨silent, hverdict, hsilent⟩ := hwithin folds rfl _ List.mem_cons_self fold hfold
          rw [account, hfolded, Filter.verdict]
          rw [Leaf.verdict] at hverdict
          rw [hverdict]
          refine Attempt.decidedBy_pure fun p hp => ⟨⟨fun h => ?_, fun hfolds _ => ?_⟩, hp⟩
          · rw [Account.asksNothing, Account.holds] at h
            exact hsilent (Account.isNone_of_elim h)
          · rw [Account.asksNothing, Account.holds, hfolds fold (Fold.mem_of_of? hfold).1]
            rfl
      | none =>
          have hsame : account s within (.compare id path c operand) =
              account s none (.compare id path c operand) := by
            rw [account, account, hfolded]
            rfl
          rw [hsame]
          refine decidedBy_meets within hids ?_
          rw [account, Filter.verdict]
          exact decidedBy_comparisonAccount id c operand path.length hplan hdotless hdestination
  | .quantify id field q inner, within, collection, plan, hplan, hsettled, hdotless, hids, _ => by
      have hsame : account s within (.quantify id field q inner) =
          account s none (.quantify id field q inner) := by
        rw [account, account]
      rw [hsame]
      refine decidedBy_meets within hids ?_
      rw [Filter.Settled] at hsettled
      rw [Filter.ids] at hids
      obtain ⟨destination, hdestination⟩ := hsettled
      rw [Filter.segments, List.forall_mem_cons] at hdotless
      refine decidedBy_quantified id q hplan hdotless.1 hdestination fun related => ?_
      refine decidedBy_settingAccount hdotless.2 fun hplan hsettled => ?_
      refine decidedBy_account s inner none hplan hsettled hdotless.2
        (List.nodup_append.1 hids).1 ?_
      rintro folds ⟨⟩

theorem decidedBy_accounts
    (s : Setting) :
    ∀ (filters : List Filter) (folds : List Fold) {collection : String} {plan : JoinPlan},
      plan.Of s.schema collection → Filter.AllSettled s.schema plan filters →
      (∀ segment ∈ Filter.segmentsOfAll filters, Dotless segment.name) →
      (Filter.idsOfAll filters).Nodup →
      FoldsTell s.schema collection (Filter.closureLeavesOfAll filters) folds →
      DecidedBy (fun p => p.plan = plan) (accounts s folds filters)
        (Filter.allVerdict s filters collection)
        fun as silent p => Account.AllMeet silent as folds ∧ p.plan = plan
  | [], folds, collection, plan, _, _, _, _, _ => by
      rw [accounts, Filter.allVerdict]
      exact Attempt.decidedBy_pure fun p hp => ⟨⟨fun _ => rfl, fun _ _ => rfl⟩, hp⟩
  | child :: rest, folds, collection, plan, hplan, hsettled, hdotless, hids, hfolds => by
      rw [Filter.AllSettled] at hsettled
      rw [Filter.segmentsOfAll, List.forall_mem_append] at hdotless
      rw [Filter.idsOfAll] at hids
      rw [Filter.closureLeavesOfAll] at hfolds
      obtain ⟨hchild, hrest, -⟩ := List.nodup_append.1 hids
      rw [accounts, Filter.allVerdict]
      refine (decidedBy_account s child (some folds) hplan hsettled.1 hdotless.1 hchild ?_).bind
        fun a silent => ?_
      · rintro _ ⟨⟩
        exact hfolds.subset (List.subset_append_left _ _)
      · rintro p ⟨hmeets, hp⟩
        have hothers := decidedBy_accounts s rest folds hplan hsettled.2 hdotless.2 hrest
          (hfolds.subset (List.subset_append_right _ _))
        refine (hothers.map (f := (a :: ·)) (k := (silent && ·))
          (Q := fun as silent p => Account.AllMeet silent as folds ∧ p.plan = plan) ?_) p hp
        exact fun as others q has => ⟨.cons hmeets has.1, has.2⟩

theorem decidedBy_alternativeAccounts
    (s : Setting) :
    ∀ (filters : List Filter) {collection : String} {plan : JoinPlan},
      plan.Of s.schema collection → Filter.AllSettled s.schema plan filters →
      (∀ segment ∈ Filter.segmentsOfAll filters, Dotless segment.name) →
      (Filter.idsOfAll filters).Nodup →
      DecidedBy (fun p => p.plan = plan) (alternativeAccounts s filters)
        (Filter.alternativesVerdict s filters collection)
        fun as silent p => (Account.alternatives? as).isNone = silent ∧
          as.isEmpty = filters.isEmpty ∧ p.plan = plan
  | [], collection, plan, _, _, _, _ => by
      rw [alternativeAccounts, Filter.alternativesVerdict]
      exact Attempt.decidedBy_pure fun p hp => ⟨rfl, rfl, hp⟩
  | child :: rest, collection, plan, hplan, hsettled, hdotless, hids => by
      rw [Filter.AllSettled] at hsettled
      rw [Filter.segmentsOfAll, List.forall_mem_append] at hdotless
      rw [Filter.idsOfAll] at hids
      obtain ⟨hchild, hrest, -⟩ := List.nodup_append.1 hids
      rw [alternativeAccounts, Filter.alternativesVerdict]
      refine (decidedBy_account s child none hplan hsettled.1 hdotless.1 hchild ?_).bind
        fun a silent => ?_
      · rintro _ ⟨⟩
      · rintro p ⟨hmeets, hp⟩
        rw [Account.Meets] at hmeets
        cases hcondition : a.condition with
        | none =>
            rw [hcondition] at hmeets
            cases hmeets
            refine .inr ⟨_, true, p, rfl, rfl, ?_, rfl, hp⟩
            rw [Account.alternatives?, hcondition]
            rfl
        | some e =>
            rw [hcondition] at hmeets
            cases hmeets
            have hothers := decidedBy_alternativeAccounts s rest hplan hsettled.2 hdotless.2 hrest
            refine (hothers.then_pure (f := (a :: ·)) (Q := fun as silent p =>
              (Account.alternatives? as).isNone = silent ∧ as.isEmpty = false ∧ p.plan = plan)
              fun as others q has => ⟨?_, rfl, has.2.2⟩) p hp
            rw [Account.alternatives?, hcondition, ← has.1, Option.isNone_map]

end

end Accounts

/-! ## What compiles -/

/-- A filter that was read compiles if all paths lead somewhere that planning follows, and
then none of its conditions is refused. -/
theorem compileTree_isOk
    {s : Setting} {limit : Nat} {filter : Json} {tree : Filter} (collection : String)
    (htree : Filter.ofJson limit filter = .ok tree) :
    (s.compileTree collection tree).isOk =
      (tree.plans s collection && (tree.verdict s collection).isSome) := by
  have hdotless := Filter.dotless_ofJson htree
  have hdecided : DecidedBy (fun p => p.plan.Of s.schema collection) (s.account tree)
      (if tree.plans s collection then tree.verdict s collection else none)
      fun a silent _ => a.condition.isNone = silent := by
    refine decidedBy_settingAccount hdotless fun hplan hsettled => ?_
    refine decidedBy_account s tree none hplan hsettled hdotless (Filter.nodup_ids htree) ?_
    rintro folds ⟨⟩
  have hstart : (Progress.start collection).plan.Of s.schema collection :=
    JoinPlan.of_start s.schema collection collection
  have haccount := hdecided.isOk_iff hstart
  have hagree := relates_run (s := s) collection htree (Progress.start collection)
    (Progress.start collection) ⟨{}, rfl, rfl⟩
  have hrun : (s.compileTree collection tree).isOk =
      ((s.account tree).run (Progress.start collection)).1.isOk := by
    unfold Setting.compileTree
    generalize (s.run tree).run (Progress.start collection) = outcome at hagree
    generalize (s.account tree).run (Progress.start collection) = outcome' at hagree
    cases hagree with
    | ok hQ => rfl
    | error e => rfl
  rw [hrun, haccount]
  cases tree.plans s collection <;> rfl

end RowFilter
