import Mathlib.Tactic.SplitIfs
import RowFilter.Compilation.Basic
import RowFilter.Proofs.Attempts

/-!
# Paths that were followed before

Following a path plans the joins on its way.  Followed again, the path finds them
planned: it leads to the same place and changes nothing, however many joins were
planned in between.

* `JoinPlan.destination?`: where a path leads by the joins that a plan has.
* `ensures_planJoins`: after the joins of a filter are planned, all paths that
  its condition follows have a destination.
* `run_locate`: from then on following them is a lookup.
* `gives_locate`: what a path leaves for later is an end of it.
-/

namespace RowFilter

namespace JoinPlan

/-- Where a path leads by the joins that are planned; none if a join is missing
on its way, or if it leads nowhere. -/
def trace? (schema : Schema) (sources : List (String × String)) (before : List Segment)
    (qualifier collection : String) : List Segment → Option Destination
  | [] => none
  | segment :: rest =>
      match schema.step qualifier collection segment rest with
      | .ok (.arrive destination) => some destination
      | .ok (.cross relation) =>
          match sources.lookup (pathText (before ++ [segment])), relation.related with
          | some label, .ok related =>
              trace? schema sources (before ++ [segment]) label related rest
          | _, _ => none
      | .error _ => none

/-- Where a path leads by the joins of a plan. -/
def destination? (schema : Schema) (plan : JoinPlan) (path : List Segment) : Option Destination :=
  trace? schema plan.sources [] plan.qualifier plan.collection path

/-- The plan is of the same query and keeps all row sources. -/
structure Extends (old new : JoinPlan) : Prop where
  collection : new.collection = old.collection
  qualifier : new.qualifier = old.qualifier
  sources : ∀ text label, old.sources.lookup text = some label →
    new.sources.lookup text = some label

theorem Extends.refl
    (plan : JoinPlan) :
    Extends plan plan :=
  ⟨rfl, rfl, fun _ _ h => h⟩

theorem Extends.trans
    {first second third : JoinPlan}
    (h : Extends first second) (h' : Extends second third) :
    Extends first third where
  collection := h'.collection.trans h.collection
  qualifier := h'.qualifier.trans h.qualifier
  sources text label hlabel := h'.sources text label (h.sources text label hlabel)

theorem extends_add
    (plan : JoinPlan) (path : List Segment) (label : String) (join : Sql.Join) :
    Extends plan (plan.add path label join) := by
  refine ⟨rfl, rfl, ?_⟩
  intro text found hfound
  simp [add, List.lookup_append, hfound]

theorem trace?_mono
    {schema : Schema} {sources sources' : List (String × String)}
    (hsources : ∀ text label, sources.lookup text = some label →
      sources'.lookup text = some label)
    {path : List Segment} {destination : Destination} :
    ∀ {before : List Segment} {qualifier collection : String},
      trace? schema sources before qualifier collection path = some destination →
        trace? schema sources' before qualifier collection path = some destination := by
  induction path with
  | nil =>
      intro before qualifier collection h
      cases h
  | cons segment rest ih =>
      intro before qualifier collection h
      rw [trace?] at h ⊢
      split at h
      · exact h
      · split at h
        · rename_i label related hlabel hrelated
          rw [hsources _ _ hlabel, hrelated]
          exact ih h
        · cases h
      · cases h

theorem Extends.destination?
    {schema : Schema} {old new : JoinPlan} {path : List Segment} {destination : Destination}
    (h : Extends old new)
    (hpath : old.destination? schema path = some destination) :
    new.destination? schema path = some destination := by
  unfold JoinPlan.destination? at hpath ⊢
  rw [h.qualifier, h.collection]
  exact trace?_mono h.sources hpath

/-- Where the joins are planned, a path changes nothing. -/
theorem run_follow
    {schema : Schema} {plan : JoinPlan} {path : List Segment} {destination : Destination} :
    ∀ {before : List Segment} {qualifier collection : String} (labels : Labels),
      trace? schema plan.sources before qualifier collection path = some destination →
        (follow schema before qualifier collection path).run ⟨labels, plan⟩ =
          (.ok destination, ⟨labels, plan⟩) := by
  induction path with
  | nil =>
      intro before qualifier collection labels h
      cases h
  | cons segment rest ih =>
      intro before qualifier collection labels h
      rw [trace?] at h
      rw [follow]
      split at h
      · rename_i found hstep
        cases h
        rw [hstep]
        rfl
      · rename_i relation hstep
        split at h
        · rename_i label related hlabel hrelated
          have hconnect : (connect schema (before ++ [segment]) qualifier relation).run
              ⟨labels, plan⟩ =
                (.ok ⟨false, relation.cardinality.leadsToMany, label⟩, ⟨labels, plan⟩) := by
            unfold connect
            rw [Attempt.run_bind_of_ok _ (Attempt.run_state _), hlabel]
            rfl
          rw [hstep]
          rw [Attempt.run_bind_of_ok _ rfl]
          rw [Attempt.run_bind_of_ok _ hconnect, hrelated]
          exact ih labels h
        · cases h
      · cases h

/-- Connecting a relation keeps the plan, up to the join that it adds, and the
row source is found from then on. -/
theorem ensures_connect
    (schema : Schema) (path : List Segment) (parent : String) (relation : Relation)
    (plan : JoinPlan) :
    Attempt.Ensures (fun t => t.plan = plan) (connect schema path parent relation)
      fun connection t => Extends plan t.plan ∧
        t.plan.sources.lookup (pathText path) = some connection.label := by
  unfold connect
  refine Attempt.Ensures.bind (R := fun seen t => seen.plan = plan ∧ t = seen)
    (Attempt.ensures_state fun t ht => ⟨ht, rfl⟩) fun seen => ?_
  cases hlookup : seen.plan.sources.lookup (pathText path) with
  | some label =>
      refine Attempt.ensures_pure ?_
      rintro t ⟨rfl, rfl⟩
      exact ⟨.refl _, hlookup⟩
  | none =>
      refine Attempt.Ensures.bind (R := fun _ t => seen.plan = plan ∧ t = seen)
        (Attempt.ensures_ofExcept fun t _ ht _ => ht) fun related => ?_
      split
      · exact Attempt.ensures_fail _
      · refine Attempt.ensures_ofState ?_
        rintro t ⟨rfl, rfl⟩
        refine ⟨extends_add _ _ _ _, ?_⟩
        simp [add, List.lookup_append, hlookup]

theorem ensures_follow
    {schema : Schema} {path : List Segment} :
    ∀ {before : List Segment} {qualifier collection : String} (plan : JoinPlan),
      Attempt.Ensures (fun t => t.plan = plan) (follow schema before qualifier collection path)
        fun destination t => Extends plan t.plan ∧
          trace? schema t.plan.sources before qualifier collection path = some destination := by
  induction path with
  | nil =>
      intro before qualifier collection plan
      exact Attempt.ensures_fail _
  | cons segment rest ih =>
      intro before qualifier collection plan
      rw [follow]
      refine Attempt.Ensures.bind
        (R := fun step t => t.plan = plan ∧
          schema.step qualifier collection segment rest = .ok step)
        (Attempt.ensures_ofExcept fun t step ht hstep => ⟨ht, hstep⟩) fun step => ?_
      cases step with
      | arrive destination =>
          refine Attempt.ensures_pure ?_
          rintro t ⟨rfl, hstep⟩
          refine ⟨.refl _, ?_⟩
          rw [trace?, hstep]
      | cross relation =>
          intro t ht
          obtain ⟨rfl, hstep⟩ := ht
          refine ((ensures_connect schema (before ++ [segment]) qualifier relation
            t.plan).bind fun connection => ?_) t rfl
          intro t' ht'
          obtain ⟨hextends, hlookup⟩ := ht'
          refine (Attempt.Ensures.bind
            (R := fun related u => u.plan = t'.plan ∧ relation.related = .ok related)
            (Attempt.ensures_ofExcept (P := fun u => u.plan = t'.plan)
              fun u related hu hrelated => ⟨hu, hrelated⟩) fun related => ?_) t' rfl
          intro u hu
          obtain ⟨hu, hrelated⟩ := hu
          refine (ih u.plan).mono (fun destination v hv => ?_) u rfl
          obtain ⟨hextends', htrace⟩ := hv
          rw [hu] at hextends'
          refine ⟨hextends.trans hextends', ?_⟩
          rw [trace?, hstep]
          simp only [hextends'.sources _ _ hlookup, hrelated]
          exact htrace

end JoinPlan

/-- A path whose destination is known leads there, and nothing changes. -/
theorem run_locate
    {schema : Schema} {path : List Segment} {destination : Destination} {p : Progress}
    (h : p.plan.destination? schema path = some destination) :
    (Compiling.locate schema path).run p = (.ok destination, p) := by
  have hfollow := JoinPlan.run_follow p.labels h
  have hlocate : (JoinPlan.locate schema path).run p.planning = (.ok destination, p.planning) := by
    unfold JoinPlan.locate
    rw [Attempt.run_bind_of_ok _ (Attempt.run_state _)]
    exact hfollow
  unfold Compiling.locate
  rw [Attempt.run_focus, hlocate]
  rfl

/-- Following a path keeps the joins that were planned, and its destination is
known afterwards. -/
theorem ensures_locate
    (schema : Schema) (path : List Segment) (plan : JoinPlan) :
    Attempt.Ensures (fun p => p.plan = plan) (Compiling.locate schema path)
      fun destination p => plan.Extends p.plan ∧
        p.plan.destination? schema path = some destination := by
  refine Attempt.ensures_focus fun p hp => ?_
  unfold JoinPlan.locate
  refine Attempt.Ensures.bind (R := fun seen t => t = p.planning ∧ seen = t)
    (Attempt.ensures_state fun t ht => ⟨ht, rfl⟩) fun seen => ?_
  intro t ht
  obtain ⟨rfl, rfl⟩ := ht
  refine (JoinPlan.ensures_follow p.plan).mono (fun destination t ht => ?_) p.planning rfl
  obtain ⟨hextends, htrace⟩ := ht
  rw [← hp]
  refine ⟨hextends, ?_⟩
  unfold JoinPlan.destination?
  rw [show (p.withPlanning t).plan = t.plan from rfl, hextends.qualifier, hextends.collection]
  exact htrace

/-! ## The rest of a path -/

/-- A segment chooses its own scope, and only for a relation to many rows. -/
theorem Segment.scope_of_choose
    {segment : Segment} {relation : Relation} {scope : Option String}
    (h : segment.choose relation = .ok scope) :
    scope = segment.scope ∧ (relation.cardinality.leadsToMany = false → segment.scope = none) := by
  unfold Segment.choose at h
  split at h
  · cases h
  · rename_i hcardinality hscope
    split at h
    · cases h
      exact ⟨hscope.symm, by simp [hcardinality, Cardinality.leadsToMany]⟩
    · cases h
  · cases h
  · rename_i hscope _
    cases h
    exact ⟨hscope.symm, fun _ => hscope⟩

/-- What a destination leaves of the path. -/
def Destination.rest : Destination → List Segment
  | .column _ _ => []
  | .toMany _ _ _ rest => rest
  | .json _ rest => rest

theorem Place.rest_of_arrive
    {place : Place} {rest : List Segment} {destination : Destination}
    (h : place.arrive rest = .ok destination) :
    destination.rest <:+ rest := by
  simp only [Place.arrive] at h
  split_ifs at h <;> cases h
  · exact List.suffix_refl rest
  · exact List.nil_suffix

theorem Place.rest_of_relate
    {place : Place} {relation : Relation} {rest : List Segment} {destination : Destination}
    (h : place.relate relation rest = .ok (.arrive destination)) :
    destination.rest <:+ rest := by
  unfold Place.relate at h
  split at h
  · cases h
  · obtain ⟨scope, _, h⟩ := exists_of_bind_ok h
    split at h
    · cases h
      exact List.suffix_refl rest
    · split at h
      · cases h
        exact List.nil_suffix
      · cases h

theorem Schema.rest_of_step
    {schema : Schema} {qualifier collection : String} {segment : Segment} {rest : List Segment}
    {destination : Destination}
    (h : schema.step qualifier collection segment rest = .ok (.arrive destination)) :
    destination.rest <:+ rest := by
  unfold Schema.step at h
  split at h
  · cases h
  · split at h
    · rename_i field _ _ _
      cases harrive : Place.arrive ⟨qualifier, collection, segment, field⟩ rest with
      | error e =>
          simp only [harrive] at h
          cases h
      | ok found =>
          simp only [harrive] at h
          cases h
          exact Place.rest_of_arrive harrive
    · exact Place.rest_of_relate h

theorem JoinPlan.gives_follow
    {schema : Schema} {path : List Segment} :
    ∀ {before : List Segment} {qualifier collection : String},
      (JoinPlan.follow schema before qualifier collection path).Gives
        fun destination => destination.rest <:+ path := by
  induction path with
  | nil =>
      intro before qualifier collection
      exact Attempt.gives_fail _
  | cons segment rest ih =>
      intro before qualifier collection
      rw [JoinPlan.follow]
      refine Attempt.Gives.bind
        (Q := fun step => schema.step qualifier collection segment rest = .ok step)
        (Attempt.gives_ofExcept fun _ h => h) fun step hstep => ?_
      cases step with
      | arrive destination =>
          exact Attempt.gives_pure ((Schema.rest_of_step hstep).trans (List.suffix_cons _ _))
      | cross relation =>
          refine Attempt.gives_after fun connection => Attempt.gives_after fun related => ?_
          intro t destination u hrun
          exact (ih t destination u hrun).trans (List.suffix_cons _ _)

/-- A destination leaves an end of the path. -/
theorem gives_locate
    (schema : Schema) (path : List Segment) :
    (Compiling.locate schema path).Gives fun destination => destination.rest <:+ path :=
  (Attempt.gives_after fun _ => JoinPlan.gives_follow).focus _ _

/-! ## Filters whose joins are planned -/

mutual

/-- The plan has the joins that the condition of the filter relies on.  The
condition of a disjunction with an empty alternative relies on none. -/
def Filter.Settled (schema : Schema) (plan : JoinPlan) : Filter → Prop
  | .and children => AllSettled schema plan children
  | .or children => children.any Filter.isMatchAll = true ∨ AllSettled schema plan children
  | .compare _ path _ _ => ∃ destination, plan.destination? schema path = some destination
  | .quantify _ field _ _ => ∃ destination, plan.destination? schema [field] = some destination

/-- The plan has the joins that the conditions of the filters rely on. -/
def Filter.AllSettled (schema : Schema) (plan : JoinPlan) : List Filter → Prop
  | [] => True
  | child :: rest => child.Settled schema plan ∧ AllSettled schema plan rest

end

mutual

theorem Filter.Settled.extends
    {schema : Schema} {old new : JoinPlan}
    (hextends : old.Extends new) :
    ∀ {filter : Filter}, filter.Settled schema old → filter.Settled schema new
  | .and _, h => by
      rw [Filter.Settled] at h ⊢
      exact Filter.AllSettled.extends hextends h
  | .or _, h => by
      rw [Filter.Settled] at h ⊢
      exact h.imp_right (Filter.AllSettled.extends hextends)
  | .compare .., h => by
      rw [Filter.Settled] at h ⊢
      exact h.imp fun _ => hextends.destination?
  | .quantify .., h => by
      rw [Filter.Settled] at h ⊢
      exact h.imp fun _ => hextends.destination?

theorem Filter.AllSettled.extends
    {schema : Schema} {old new : JoinPlan}
    (hextends : old.Extends new) :
    ∀ {filters : List Filter},
      Filter.AllSettled schema old filters → Filter.AllSettled schema new filters
  | [], _ => by
      rw [Filter.AllSettled]
      trivial
  | _ :: _, h => by
      rw [Filter.AllSettled] at h ⊢
      exact ⟨h.1.extends hextends, h.2.extends hextends⟩

end

mutual

/-- Planning the joins of a filter keeps those planned before, and settles the
filter. -/
theorem ensures_planJoins
    (s : Setting) :
    ∀ (filter : Filter) (plan : JoinPlan),
      Attempt.Ensures (fun p => p.plan = plan) (planJoins s filter)
        fun _ p => plan.Extends p.plan ∧ filter.Settled s.schema p.plan
  | .and children, plan => by
      rw [planJoins]
      simp only [Filter.Settled]
      exact ensures_planAllJoins s children plan
  | .or children, plan => by
      rw [planJoins]
      simp only [Filter.Settled]
      split
      · rename_i hskip
        refine Attempt.ensures_pure ?_
        rintro p rfl
        simp only [Bool.and_eq_true] at hskip
        exact ⟨.refl _, .inl hskip.1⟩
      · exact (ensures_planAllJoins s children plan).mono fun _ p hp => ⟨hp.1, .inr hp.2⟩
  | .compare _ path _ _, plan => by
      rw [planJoins]
      simp only [Filter.Settled]
      refine (ensures_locate s.schema path plan).bind fun destination => ?_
      exact Attempt.ensures_pure fun p hp => ⟨hp.1, destination, hp.2⟩
  | .quantify _ field _ _, plan => by
      rw [planJoins]
      simp only [Filter.Settled]
      refine (ensures_locate s.schema [field] plan).bind fun destination => ?_
      exact Attempt.ensures_pure fun p hp => ⟨hp.1, destination, hp.2⟩

theorem ensures_planAllJoins
    (s : Setting) :
    ∀ (filters : List Filter) (plan : JoinPlan),
      Attempt.Ensures (fun p => p.plan = plan) (planAllJoins s filters)
        fun _ p => plan.Extends p.plan ∧ Filter.AllSettled s.schema p.plan filters
  | [], plan => by
      rw [planAllJoins]
      simp only [Filter.AllSettled]
      refine Attempt.ensures_pure ?_
      rintro p rfl
      exact ⟨.refl _, trivial⟩
  | child :: rest, plan => by
      rw [planAllJoins]
      simp only [Filter.AllSettled]
      refine (ensures_planJoins s child plan).bind fun _ => ?_
      intro p hp
      refine (ensures_planAllJoins s rest p.plan).mono (fun _ q hq => ?_) p rfl
      exact ⟨hp.1.trans hq.1, hp.2.extends hq.1, hq.2⟩

end

end RowFilter
