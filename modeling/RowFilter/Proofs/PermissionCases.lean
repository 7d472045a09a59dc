import RowFilter.Proofs.Counterparts
import RowFilter.Proofs.Scopes

/-!
# Filters that decide permissions

A filter that decides a permission plans the joins of a disjunction even if one of its
alternatives is empty, so that the disjunction asks nothing.  That is all it changes: the
condition is the same up to labels, and its queries have all joins that they would have.

* `echoes_planJoins`: with the permission case, joins are added and paths can lead nowhere.
* `alongside_filterCondition`: the conditions are built alike.
* `permission_case_adds_joins`: compiled filters with and without the permission case.
-/

namespace RowFilter

open Sql (Expr Join Select)

/-- The setting for filters that decide a permission, or for others. -/
def Setting.deciding (s : Setting) (permission : Bool) : Setting :=
  { s with options := { s.options with permissionCase := permission } }

/-! ## Planning -/

section Planning

variable {s : Setting} {root qualifier qualifier' : String}

/-- One compilation follows a path that the other one does not follow. -/
theorem ensures_locate_first
    {path : List Segment} {p' : Progress}
    (hdotless : ∀ segment ∈ path, Dotless segment.name) :
    Attempt.Ensures (fun p => Progress.Abreast s.schema root qualifier qualifier' p p')
      (Compiling.locate s.schema path)
      fun _ p => Progress.Abreast s.schema root qualifier qualifier' p p' := by
  rintro p ⟨habreast, hp⟩ d q hrun
  obtain ⟨hfields, helements⟩ := JoinPlan.registered_locate habreast.faithful.1 hdotless
  have hlabels : Labels.Resembles root
      ((JoinPlan.locate s.schema path).run p.planning).2.labels p'.labels := by
    constructor
    · rw [hfields]
      exact hp.labels.fields
    · rw [helements]
      exact hp.labels.elements
  unfold Compiling.locate at hrun
  rw [Attempt.run_focus, Prod.mk.injEq] at hrun
  obtain ⟨-, rfl⟩ := hrun
  exact ⟨habreast.locate_first hdotless, hlabels, hp.folded⟩

mutual

/-- One compilation plans joins that the other one does not plan. -/
theorem ensures_planJoins_first
    {p' : Progress} (permission : Bool) :
    ∀ {filter : Filter}, (∀ segment ∈ filter.segments, Dotless segment.name) →
      Attempt.Ensures (fun p => Progress.Abreast s.schema root qualifier qualifier' p p')
        (planJoins (s.deciding permission) filter)
        fun _ p => Progress.Abreast s.schema root qualifier qualifier' p p'
  | .and children, hdotless => by
      rw [planJoins]
      exact ensures_planAllJoins_first permission hdotless
  | .or children, hdotless => by
      rw [planJoins]
      split
      · exact Attempt.ensures_pure fun _ hp => hp
      · exact ensures_planAllJoins_first permission hdotless
  | .compare _ path _ _, hdotless => by
      rw [planJoins]
      exact (ensures_locate_first hdotless).bind fun _ => Attempt.ensures_pure fun _ hp => hp
  | .quantify _ field _ _, hdotless => by
      rw [planJoins]
      have hfield : ∀ segment ∈ [field], Dotless segment.name :=
        List.forall_mem_singleton.2 (hdotless field List.mem_cons_self)
      exact (ensures_locate_first hfield).bind fun _ => Attempt.ensures_pure fun _ hp => hp

theorem ensures_planAllJoins_first
    {p' : Progress} (permission : Bool) :
    ∀ {filters : List Filter},
      (∀ segment ∈ Filter.segmentsOfAll filters, Dotless segment.name) →
        Attempt.Ensures (fun p => Progress.Abreast s.schema root qualifier qualifier' p p')
          (planAllJoins (s.deciding permission) filters)
          fun _ p => Progress.Abreast s.schema root qualifier qualifier' p p'
  | [], _ => by
      rw [planAllJoins]
      exact Attempt.ensures_pure fun _ hp => hp
  | child :: rest, hdotless => by
      obtain ⟨hchild, hrest⟩ := List.forall_mem_append.1 hdotless
      rw [planAllJoins]
      exact (ensures_planJoins_first permission hchild).bind fun _ =>
        ensures_planAllJoins_first permission hrest

end

mutual

/-- Where joins can be planned with the permission case, they can without it, and then all
of them are planned with it. -/
theorem echoes_planJoins :
    ∀ {filter : Filter}, (∀ segment ∈ filter.segments, Dotless segment.name) →
      Attempt.Echoes (Progress.Abreast s.schema root qualifier qualifier')
        (planJoins (s.deciding true) filter) (planJoins (s.deciding false) filter)
        fun _ _ => Progress.Abreast s.schema root qualifier qualifier'
  | .and children, hdotless => by
      rw [planJoins, planJoins]
      exact echoes_planAllJoins hdotless
  | .or children, hdotless => by
      rw [planJoins, planJoins]
      by_cases hempty : children.any Filter.isMatchAll = true
      · -- only the first compilation may look at the alternatives
        intro p p' hp a q hrun
        refine ⟨(), p', by simp [hempty, Setting.deciding], ?_⟩
        split at hrun
        · cases hrun
          exact hp
        · exact ensures_planAllJoins_first true hdotless p hp a q hrun
      · simp only [hempty, Bool.false_and]
        exact echoes_planAllJoins hdotless
  | .compare _ path _ _, hdotless => by
      rw [planJoins, planJoins]
      refine (Compiling.echoes_locate hdotless).bind fun _ _ => ?_
      exact (Attempt.relates_pure fun _ _ hp => hp.1).echoes
  | .quantify _ field _ _, hdotless => by
      rw [planJoins, planJoins]
      have hfield : ∀ segment ∈ [field], Dotless segment.name :=
        List.forall_mem_singleton.2 (hdotless field List.mem_cons_self)
      refine (Compiling.echoes_locate hfield).bind fun _ _ => ?_
      exact (Attempt.relates_pure fun _ _ hp => hp.1).echoes

theorem echoes_planAllJoins :
    ∀ {filters : List Filter},
      (∀ segment ∈ Filter.segmentsOfAll filters, Dotless segment.name) →
        Attempt.Echoes (Progress.Abreast s.schema root qualifier qualifier')
          (planAllJoins (s.deciding true) filters) (planAllJoins (s.deciding false) filters)
          fun _ _ => Progress.Abreast s.schema root qualifier qualifier'
  | [], _ => by
      rw [planAllJoins, planAllJoins]
      intro p p' hp a q hrun
      cases hrun
      exact ⟨(), p', rfl, hp⟩
  | child :: rest, hdotless => by
      obtain ⟨hchild, hrest⟩ := List.forall_mem_append.1 hdotless
      rw [planAllJoins, planAllJoins]
      exact (echoes_planJoins hchild).bind fun _ _ => echoes_planAllJoins hrest

end

end Planning

/-! ## Conditions -/

section Conditions

variable {s : Setting} {root : String}

/-- The query of a filter: its joins are planned, and its condition is built by them. -/
theorem inQueries_run
    {filter : Filter}
    (hroot : ¬ Labels.IsLabel root)
    (hdotless : ∀ segment ∈ filter.segments, Dotless segment.name)
    (h : ∀ plan plan', plan.Twins s.schema root plan' → filter.Settled s.schema plan →
      filter.Settled s.schema plan' →
        Compiling.Alongside root plan plan' (Expr.ResemblesIfAny root)
          (filterCondition (s.deciding true) filter) (filterCondition (s.deciding false) filter))
    (qualifier qualifier' : String) :
    Compiling.InQueries s.schema root qualifier qualifier' (Expr.ResemblesIfAny root)
      ((s.deciding true).run filter) ((s.deciding false).run filter) := by
  refine Compiling.InQueries.of_alongside (P := filter.Settled s.schema) hroot ?_ fun _ _ => h
  intro p p' hp a q hrun
  obtain ⟨b, q', hrun', hq⟩ := echoes_planJoins hdotless p p' hp a q hrun
  exact ⟨b, q', hrun', hq, (ensures_planJoins (s.deciding true) filter p.plan p rfl a q hrun).2,
    (ensures_planJoins (s.deciding false) filter p'.plan p' rfl b q' hrun').2⟩

mutual

/-- The conditions with and without the permission case resemble each other. -/
theorem alongside_filterCondition
    (hroot : ¬ Labels.IsLabel root) :
    ∀ {filter : Filter} {plan plan' : JoinPlan},
      (∀ segment ∈ filter.segments, Dotless segment.name) →
      plan.Twins s.schema root plan' → filter.Settled s.schema plan →
      filter.Settled s.schema plan' →
        Compiling.Alongside root plan plan' (Expr.ResemblesIfAny root)
          (filterCondition (s.deciding true) filter) (filterCondition (s.deciding false) filter)
  | .and children, plan, plan', hdotless, htwins, h, h' => by
      rw [Filter.Settled] at h h'
      rw [filterCondition, filterCondition]
      refine (alongside_foldSiblings hroot htwins hdotless h h').bind fun _ _ _ => ?_
      refine (alongside_allConditions hroot hdotless htwins h h').bind fun es es' hes => ?_
      exact Compiling.alongside_pure (Expr.resembles_group? hes .and)
  | .or children, plan, plan', hdotless, htwins, h, h' => by
      rw [Filter.Settled] at h h'
      rw [filterCondition, filterCondition]
      by_cases hempty : children.any Filter.isMatchAll = true
      · rw [if_pos hempty, if_pos hempty]
        exact Compiling.alongside_pure .none
      · rw [if_neg hempty, if_neg hempty]
        refine (alongside_alternativeConditions hroot hdotless htwins (h.resolve_left hempty)
          (h'.resolve_left hempty)).bind fun es es' hes => Compiling.alongside_pure ?_
        cases hes with
        | none => exact .none
        | some hes => exact Expr.resembles_group? hes .or
  | .compare id path c operand, plan, plan', hdotless, htwins, h, h' => by
      rw [Filter.Settled] at h h'
      rw [filterCondition, filterCondition]
      refine alongside_folded id
        (f := fun e => match e with
          | some condition => pure condition
          | none => comparisonCondition s.schema id c operand path.length path)
        (g := fun e => match e with
          | some condition => pure condition
          | none => comparisonCondition s.schema id c operand path.length path) fun e e' he => ?_
      cases he with
      | some he => exact Compiling.alongside_pure he
      | none =>
          exact alongside_comparisonCondition hroot id c operand path.length htwins hdotless h h'
  | .quantify id field q inner, plan, plan', hdotless, htwins, h, h' => by
      rw [Filter.Settled] at h h'
      obtain ⟨d, hd⟩ := h
      obtain ⟨d', hd'⟩ := h'
      obtain ⟨hfield, hinner⟩ := List.forall_mem_cons.1 hdotless
      rw [filterCondition, filterCondition, quantifiedCondition_eq, quantifiedCondition_eq]
      refine (alongside_quantifierProbe htwins hfield hd hd' q).bind fun probe probe' hprobe => ?_
      refine Compiling.alongside_asked hroot hprobe (q == .none) fun label label' => ?_
      exact inQueries_run hroot hinner
        (fun _ _ => alongside_filterCondition hroot hinner) label label'

theorem alongside_allConditions
    (hroot : ¬ Labels.IsLabel root) :
    ∀ {filters : List Filter} {plan plan' : JoinPlan},
      (∀ segment ∈ Filter.segmentsOfAll filters, Dotless segment.name) →
      plan.Twins s.schema root plan' → Filter.AllSettled s.schema plan filters →
      Filter.AllSettled s.schema plan' filters →
        Compiling.Alongside root plan plan' (List.Forall₂ (Expr.Resembles root))
          (allConditions (s.deciding true) filters) (allConditions (s.deciding false) filters)
  | [], _, _, _, _, _, _ => by
      rw [allConditions, allConditions]
      exact Compiling.alongside_pure .nil
  | child :: rest, plan, plan', hdotless, htwins, h, h' => by
      rw [Filter.AllSettled] at h h'
      obtain ⟨hchild, hrest⟩ := List.forall_mem_append.1 hdotless
      rw [allConditions, allConditions]
      refine (alongside_filterCondition hroot hchild htwins h.1 h'.1).bind fun e e' he => ?_
      refine (alongside_allConditions hroot hrest htwins h.2 h'.2).bind fun es es' hes => ?_
      exact Compiling.alongside_pure (List.rel_append (Expr.resembles_toList he) hes)

theorem alongside_alternativeConditions
    (hroot : ¬ Labels.IsLabel root) :
    ∀ {filters : List Filter} {plan plan' : JoinPlan},
      (∀ segment ∈ Filter.segmentsOfAll filters, Dotless segment.name) →
      plan.Twins s.schema root plan' → Filter.AllSettled s.schema plan filters →
      Filter.AllSettled s.schema plan' filters →
        Compiling.Alongside root plan plan' (Option.Rel (List.Forall₂ (Expr.Resembles root)))
          (alternativeConditions (s.deciding true) filters)
          (alternativeConditions (s.deciding false) filters)
  | [], _, _, _, _, _, _ => by
      rw [alternativeConditions, alternativeConditions]
      exact Compiling.alongside_pure (.some .nil)
  | child :: rest, plan, plan', hdotless, htwins, h, h' => by
      rw [Filter.AllSettled] at h h'
      obtain ⟨hchild, hrest⟩ := List.forall_mem_append.1 hdotless
      rw [alternativeConditions, alternativeConditions]
      refine (alongside_filterCondition hroot hchild htwins h.1 h'.1).bind fun e e' he => ?_
      cases he with
      | none => exact Compiling.alongside_pure .none
      | some he =>
          refine (alongside_alternativeConditions hroot hrest htwins h.2 h'.2).bind
            fun es es' hes => Compiling.alongside_pure ?_
          cases hes with
          | none => exact .none
          | some hes => exact .some (.cons he hes)

end

end Conditions

/-! ## Compiled filters -/

/-- A compiled filter with the joins of another one, and with a condition that resembles
the condition of the other. -/
structure Compiled.Resembles (root : String) (c c' : Compiled) : Prop where
  condition : Expr.ResemblesIfAny root c.condition c'.condition
  covers : ∀ names, Join.Joined c'.joins root names → Join.Joined c.joins root names
  planned : ∀ join ∈ c.joins, join.IsPlanned
  planned' : ∀ join ∈ c'.joins, join.IsPlanned

namespace Compiled

variable {root : String} {c c' : Compiled}

theorem Resembles.params_clause
    (h : c.Resembles root c') (d : Sql.Dialect) :
    (c.clause d).params = (c'.clause d).params := by
  have hparams (c : Compiled) :
      (c.clause d).params = (Expr.optionItems d false c.condition).map (Sql.Item.param d) := by
    unfold clause
    cases c.condition with
    | none => rfl
    | some e => exact Expr.params_eq d e
  rw [hparams, hparams, Expr.optionItems_eq_of_resembles h.condition d]

theorem Resembles.params_selection
    (h : c.Resembles root c') (names : List String) (d : Sql.Dialect) :
    ((c.selection names).clause d).params = ((c'.selection names).clause d).params := by
  have hparams (c : Compiled) (hjoins : ∀ join ∈ c.joins, join.IsPlanned) :
      ((c.selection names).clause d).params =
        (Expr.optionItems d false c.condition).map (Sql.Item.param d) := by
    rw [← items_selection hjoins names d]
    exact Select.params_eq d _
  rw [hparams c h.planned, hparams c' h.planned', Expr.optionItems_eq_of_resembles h.condition d]

theorem Resembles.isMatchAll
    (h : c.Resembles root c') :
    c.isMatchAll = c'.isMatchAll := by
  have hskeleton := congrArg Option.isNone (Expr.optionSkeleton_eq h.condition)
  unfold Compiled.isMatchAll
  cases hc : c.condition <;> cases hc' : c'.condition <;> simp_all [Expr.optionSkeleton]

end Compiled

/-- A filter that compiles with the permission case compiles without it. -/
theorem Setting.resembles_compileTree
    {s : Setting} {collection : String} {filter : Filter} {c : Compiled}
    (hcollection : ¬ Labels.IsLabel collection)
    (hdotless : ∀ segment ∈ filter.segments, Dotless segment.name)
    (h : (s.deciding true).compileTree collection filter = .ok c) :
    ∃ c', (s.deciding false).compileTree collection filter = .ok c' ∧
      c.Resembles collection c' := by
  have hrun := inQueries_run (s := s) hcollection hdotless
    (fun _ _ => alongside_filterCondition hcollection hdotless) collection collection
  have hstart : Progress.Abreast s.schema collection collection collection
      (Progress.start collection) (Progress.start collection) := by
    have hpast := Labels.neverGives_of_not_isLabel hcollection {}
    exact ⟨.intro rfl hpast hpast (List.Subset.refl []) .none .none, ⟨.nil, .nil⟩, .nil⟩
  unfold Setting.compileTree at h ⊢
  cases hfirst : ((s.deciding true).run filter).run (Progress.start collection) with
  | mk result p =>
      rw [hfirst] at h
      cases result with
      | error e => cases h
      | ok condition =>
          cases h
          obtain ⟨condition', p', hsecond, hcondition, htwins, ⟨hq, hq'⟩, -⟩ :=
            hrun _ _ hstart condition p hfirst
          have hcovers := htwins.covers
          rw [hq, hq'] at hcovers
          rw [hsecond]
          exact ⟨_, rfl, hcondition, hcovers, htwins.planned, htwins.planned'⟩

/-- **The permission case adds joins only.**  Let the name of the collection not have the form
of a label.  If a filter compiles with the permission case, then it compiles without it.  The
clauses and the selections of the two have the same parameters.  Both match all rows or none
does, and the conditions are equal without labels and without the joins of their queries.  All
names that are joined without the permission case are joined with it, for the rows of the
statement and for those of each query in the conditions.  If no disjunction in the filter has an
empty alternative, the permission case makes no difference at all. -/
theorem permission_case_adds_joins
    {collection : String}
    (hcollection : ¬ Labels.IsLabel collection) (s : Setting) (filter : Json) :
    (∀ c, (s.deciding true).compile collection filter = .ok c →
      ∃ c', (s.deciding false).compile collection filter = .ok c' ∧
        (∀ d, (c.clause d).params = (c'.clause d).params) ∧
        (∀ d names,
          ((c.selection names).clause d).params = ((c'.selection names).clause d).params) ∧
        c.isMatchAll = c'.isMatchAll ∧
        Expr.optionSkeleton collection c.condition = Expr.optionSkeleton collection c'.condition ∧
        (∀ names, Join.Joined c'.joins collection names → Join.Joined c.joins collection names) ∧
        List.Forall₂ Select.Covers (Expr.optionQueries c.condition)
          (Expr.optionQueries c'.condition)) ∧
    ((∀ tree, Filter.ofJson s.options.maxDepth filter = .ok tree → tree.isExacting = true) →
      (s.deciding true).compile collection filter =
        (s.deciding false).compile collection filter) := by
  constructor
  · intro c hc
    rw [Setting.compile] at hc
    obtain ⟨primary, hprimary, hc⟩ := exists_of_bind_ok hc
    obtain ⟨tree, htree, hc⟩ := exists_of_bind_ok hc
    obtain ⟨c', hc', h⟩ :=
      Setting.resembles_compileTree hcollection (Filter.dotless_ofJson htree) hc
    refine ⟨c', ?_, h.params_clause, fun d names => h.params_selection names d, h.isMatchAll,
      Expr.optionSkeleton_eq h.condition, h.covers, Expr.covers_optionQueries h.condition⟩
    rw [Setting.compile_of_read (s := s.deciding false) hprimary htree, hc']
  · intro hexacting
    exact compile_eq_of_concurs (s := s.deciding true) (t := s.deciding false) rfl rfl
      (fun tree htree => ⟨rfl, .inr (hexacting tree htree)⟩) collection

/-- Projects with a remark that holds a word.  Who leads the project and who made the remark is
asked beside an empty alternative, so it does not matter. -/
def remarkedProjects : Json :=
  .obj [
    ("_or", .arr [.obj [], .obj [("lead", .obj [("name", .obj [("_eq", .str "Ada")])])]]),
    ("remarks:comments", .obj [("_some", .obj [
      ("_or", .arr [.obj [], .obj [("author", .obj [("name", .obj [("_eq", .str "Lin")])])]]),
      ("body", .obj [("_contains", .str "soon")])])])]

/-- The permission case joins the leader, and the author inside the query.  Without it there are
no joins.  A filter without disjunctions is compiled alike. -/
theorem permission_case_adds_joins_remarkedProjects :
    (∃ c c', (studio.deciding true).compile "projects" remarkedProjects = .ok c ∧
      (studio.deciding false).compile "projects" remarkedProjects = .ok c' ∧
      c.joins.length = 1 ∧ c'.joins.length = 0 ∧
      (Expr.optionQueries c.condition).map (·.joins.length) = [1] ∧
      (Expr.optionQueries c'.condition).map (·.joins.length) = [0] ∧
      Expr.optionSkeleton "projects" c.condition =
        Expr.optionSkeleton "projects" c'.condition) ∧
    (studio.deciding true).compile "projects" busyProjects =
      (studio.deciding false).compile "projects" busyProjects := by
  have hname : ¬ Labels.IsLabel "projects" := Labels.not_isLabel_of_takeWhile (by decide)
  constructor
  · obtain ⟨c, hc, hjoins⟩ := exists_of_any_toOption
      (show ((studio.deciding true).compile "projects" remarkedProjects).toOption.any (fun c =>
        c.joins.length == 1 && (Expr.optionQueries c.condition).map (·.joins.length) == [1]) =
          true by decide +kernel)
    obtain ⟨c', hc', -, -, -, hskeleton, -⟩ :=
      (permission_case_adds_joins hname studio remarkedProjects).1 c hc
    have hnone : ((studio.deciding false).compile "projects" remarkedProjects).toOption.any
        (fun c => c.joins.length == 0 &&
          (Expr.optionQueries c.condition).map (·.joins.length) == [0]) = true := by
      decide +kernel
    rw [hc'] at hnone
    simp only [Bool.and_eq_true, beq_iff_eq, Except.toOption, Option.any_some] at hjoins hnone
    exact ⟨c, c', hc, hc', hjoins.1, hnone.1, hjoins.2, hnone.2, hskeleton⟩
  · refine (permission_case_adds_joins hname studio busyProjects).2 fun tree htree => ?_
    have hexacting : (Filter.ofJson studio.options.maxDepth busyProjects).toOption.all
        Filter.isExacting = true := by
      decide +kernel
    rw [htree] at hexacting
    exact hexacting

end RowFilter
