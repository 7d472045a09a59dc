import RowFilter.Proofs.Emission
import RowFilter.Proofs.Noninterference

/-!
# Comparisons that are accepted

A comparison is checked against the field at which its path ends, whichever way the path
takes there: across relations to one row, behind relations to many rows, or in the filter
of a quantified condition.  A path that ends inside a JSON document ends at no field.

* `Schema.fieldAt?`: the field at which a path ends.
* `Account.Guarded`: all comparisons that were built and end at a concealed field only ask
  whether it has a value.
* `guarded_of_compile`: the account of a compiled filter is guarded.
-/

namespace RowFilter

/-! ## The ends of paths -/

/-- The field at which a path from a collection ends; none if it ends inside a JSON
document. -/
def Schema.fieldAt? (schema : Schema) (collection : String) : List Segment → Option Field
  | [] => none
  | [segment] => schema.field? collection segment.name
  | segment :: next :: rest =>
      (schema.rowsBehind? collection segment).bind fun related =>
        schema.fieldAt? related (next :: rest)

/-- The field at which a path with a destination ends. -/
def Destination.fieldAt? (schema : Schema) : Destination → Option Field
  | .column place _ => some place.field
  | .json place [] => some place.field
  | .json _ (_ :: _) => none
  | .toMany place _ _ [] => some place.field
  | .toMany _ relation scope (next :: rest) =>
      (relation.target scope).toOption.bind fun related => schema.fieldAt? related (next :: rest)

theorem Place.fieldAt?_of_arrive
    {schema : Schema} {place : Place} {rest : List Segment} {destination : Destination}
    (hfield : schema.field? place.collection place.segment.name = some place.field)
    (hrelation : schema.relation? place.collection place.segment.name = none)
    (h : place.arrive rest = .ok destination) :
    schema.fieldAt? place.collection (place.segment :: rest) = destination.fieldAt? schema := by
  simp only [Place.arrive] at h
  split_ifs at h with hjson hform hindex hscope hrest
  · cases h
    cases rest with
    | nil => exact hfield
    | cons next rest => simp [Schema.fieldAt?, Schema.rowsBehind?, hrelation, Destination.fieldAt?]
  · cases h
    rw [List.isEmpty_iff.1 hrest]
    exact hfield

/-- A path that ends at a field with a relation, or goes on from the rows behind it. -/
theorem Place.fieldAt?_of_relate
    {schema : Schema} {place : Place} {relation : Relation} {rest : List Segment}
    {destination : Destination}
    (hfield : schema.field? place.collection place.segment.name = some place.field)
    (hrelation : schema.relation? place.collection place.segment.name = some relation)
    (h : place.relate relation rest = .ok (.arrive destination)) :
    schema.fieldAt? place.collection (place.segment :: rest) = destination.fieldAt? schema := by
  rcases Place.cases_of_relate h with ⟨scope, hscope, hstep⟩ | ⟨-, ⟨hstep, rfl⟩ | ⟨hstep, -⟩⟩
  · cases hstep
    obtain ⟨rfl, -⟩ := Segment.scope_of_choose hscope
    cases rest with
    | nil => exact hfield
    | cons next rest => simp [Schema.fieldAt?, Schema.rowsBehind?, hrelation, Destination.fieldAt?]
  · cases hstep
    exact hfield
  · cases hstep

/-- A path that crosses a relation ends where the rest of it ends behind the relation. -/
theorem Schema.fieldAt?_of_cross
    {schema : Schema} {qualifier collection related : String} {segment : Segment}
    {rest : List Segment} {relation : Relation}
    (h : schema.step qualifier collection segment rest = .ok (.cross relation))
    (hrelated : relation.related = .ok related) :
    schema.fieldAt? collection (segment :: rest) = schema.fieldAt? related rest := by
  unfold Schema.step at h
  split at h
  · cases h
  · rename_i field hfield
    split at h
    · obtain ⟨_, _, hstep⟩ := exists_of_map_ok h
      cases hstep
    · rename_i found hrelation
      rcases Place.cases_of_relate h with ⟨scope, hscope, hstep⟩ |
        ⟨⟨hscope, -⟩, ⟨hstep, -⟩ | ⟨hstep, hrest⟩⟩
      · cases hstep
      · cases hstep
      · cases hstep
        obtain ⟨next, others, rfl⟩ := List.exists_cons_of_ne_nil hrest
        have hrows : schema.rowsBehind? collection segment = some related := by
          change segment.scope = none at hscope
          rw [Schema.rowsBehind?, hrelation, hscope]
          exact congrArg Except.toOption hrelated
        rw [Schema.fieldAt?, hrows, Option.bind_some]

/-- A path ends where its destination says. -/
theorem Destination.fieldAt?_of_trace?
    {schema : Schema} {sources : List (String × String)} {path : List Segment}
    {destination : Destination} :
    ∀ {before : List Segment} {qualifier collection : String},
      JoinPlan.trace? schema sources before qualifier collection path = some destination →
        schema.fieldAt? collection path = destination.fieldAt? schema := by
  induction path with
  | nil =>
      intro before qualifier collection h
      cases h
  | cons segment rest ih =>
      intro before qualifier collection h
      rw [JoinPlan.trace?] at h
      split at h
      · rename_i found hstep
        cases h
        unfold Schema.step at hstep
        split at hstep
        · cases hstep
        · rename_i field hfield
          split at hstep
          · rename_i hrelation
            obtain ⟨found, hfound, hstep⟩ := exists_of_map_ok hstep
            cases hstep
            exact Place.fieldAt?_of_arrive hfield hrelation hfound
          · rename_i relation hrelation
            exact Place.fieldAt?_of_relate hfield hrelation hstep
      · rename_i relation hstep
        split at h
        · rename_i label related hlabel hrelated
          rw [Schema.fieldAt?_of_cross hstep hrelated]
          exact ih h
        · cases h
      · cases h

/-! ## Comparisons of concealed fields -/

/-- A comparison of a concealed field only asks whether it has a value. -/
def Leaf.Guarded (schema : Schema) (collection : String) (leaf : Leaf) : Prop :=
  ∀ field, schema.fieldAt? collection leaf.path = some field → field.specials.conceal = true →
    leaf.comparison.asksPresence = true

namespace Account

mutual

/-- The comparisons that were built are guarded. -/
def Guarded (schema : Schema) (collection : String) : Account → Prop
  | and children => AllGuarded schema collection children
  | or children => AllGuarded schema collection children
  | unbuilt _ => True
  | own leaf _ => leaf.Guarded schema collection
  | folded leaf _ => leaf.Guarded schema collection
  | behind leaf _ _ _ => leaf.Guarded schema collection
  | quantified _ field _ _ _ inner =>
      ∀ related, schema.rowsBehind? collection field = some related → inner.Guarded schema related

/-- The comparisons of several accounts that were built are guarded. -/
def AllGuarded (schema : Schema) (collection : String) : List Account → Prop
  | [] => True
  | child :: rest => child.Guarded schema collection ∧ AllGuarded schema collection rest

end

theorem allGuarded_unbuilt
    {schema : Schema} {collection : String} (filters : List Filter) :
    AllGuarded schema collection (filters.map unbuilt) := by
  induction filters with
  | nil => trivial
  | cons f rest ih => exact ⟨trivial, ih⟩

end Account

/-! ## Steps in a query -/

/-- From a state inside a query on the collection the step returns to one, with a result
that has a property. -/
def Compiling.Inside {α : Type} (collection : String) (x : Compiling α) (Q : α → Prop) : Prop :=
  Attempt.Ensures (fun p => p.plan.collection = collection) x
    fun a p => p.plan.collection = collection ∧ Q a

namespace Compiling

variable {α β : Type} {collection : String} {Q : α → Prop}

theorem inside_pure
    {a : α}
    (h : Q a) :
    Inside collection (pure a) Q :=
  Attempt.ensures_pure fun _ hp => ⟨hp, h⟩

theorem inside_fail
    (e : QueryError) :
    Inside collection (Attempt.fail e) Q :=
  Attempt.ensures_fail e

theorem inside_ofExcept
    {result : Except QueryError α}
    (h : ∀ a, result = .ok a → Q a) :
    Inside collection (Attempt.ofExcept result) Q :=
  Attempt.ensures_ofExcept fun _ a hp hresult => ⟨hp, h a hresult⟩

theorem Inside.bind
    {x : Compiling α} {f : α → Compiling β} {R : β → Prop}
    (hx : Inside collection x Q) (hf : ∀ a, Q a → Inside collection (f a) R) :
    Inside collection (x >>= f) R :=
  Attempt.Ensures.bind hx fun a p hp => hf a hp.2 p hp.1

theorem Inside.mono
    {x : Compiling α} {R : α → Prop}
    (hx : Inside collection x Q) (hQ : ∀ a, Q a → R a) :
    Inside collection x R :=
  Attempt.Ensures.mono hx fun a _ ha => ⟨ha.1, hQ a ha.2⟩

/-- A step that only gives out labels stays inside the query. -/
theorem LabelsOnly.inside
    {x : Compiling α}
    (hx : LabelsOnly x) (h : x.Gives Q) :
    Inside collection x Q := by
  rintro p rfl a q hrun
  have hplan := hx.keeps p.plan p rfl
  rw [hrun] at hplan
  exact ⟨congrArg JoinPlan.collection hplan, h p a q hrun⟩

/-- What the destination of a path says about its end, and about the rows behind it. -/
theorem inside_locate
    (schema : Schema) (path : List Segment) :
    Inside collection (locate schema path) fun destination =>
      schema.fieldAt? collection path = destination.fieldAt? schema ∧
        ∀ field related, path = [field] → destination.rows? = some related →
          schema.rowsBehind? collection field = some related := by
  rintro p rfl destination q hrun
  obtain ⟨hextends, htrace⟩ := ensures_locate schema path p.plan p rfl destination q hrun
  unfold JoinPlan.destination? at htrace
  rw [hextends.collection] at htrace
  refine ⟨hextends.collection, Destination.fieldAt?_of_trace? htrace, ?_⟩
  rintro field related rfl hrows
  exact Destination.rowsBehind?_of_trace? htrace hrows

theorem inside_enter
    {schema : Schema} {probe : Probe} {step : Compiling α}
    (h : Inside probe.related step Q) :
    Inside collection (probe.enter schema step) fun x => Q x.1 := by
  unfold Probe.enter
  refine (inside_ofExcept (Q := fun _ => True) fun _ _ => trivial).bind fun _ _ => ?_
  refine ((labelsOnly_label _).inside (Q := fun _ => True) fun _ _ _ _ => trivial).bind
    fun label _ => ?_
  refine Inside.bind (Q := fun x => Q x.1) ?_ fun x hx => inside_pure hx
  refine ensures_inQuery fun p hp => ?_
  rintro _ rfl a q hrun
  exact ⟨hp, (h _ rfl a q hrun).2⟩

theorem inside_planJoins
    (s : Setting) (filter : Filter) :
    Inside collection (planJoins s filter) fun _ => True := by
  rintro p rfl _ q hrun
  exact ⟨(ensures_planJoins s filter p.plan p rfl _ q hrun).1.collection, trivial⟩

end Compiling

/-! ## Comparisons -/

/-- A comparison that fits a concealed field only asks whether there is a value. -/
theorem Field.asksPresence_of_check
    {field : Field} {name : String} {relation : Option Relation} {function : Option FieldFunction}
    {c : Comparison}
    (h : field.check name relation function (.compare c) = .ok ())
    (hconceal : field.specials.conceal = true) :
    c.asksPresence = true := by
  by_contra hpresence
  rw [Bool.not_eq_true] at hpresence
  simp [Field.check, Operator.isQuantified, Operator.asksPresence, hconceal, hpresence] at h

section Comparisons

variable {schema : Schema} {collection : String}

/-- A comparison that was checked against the field at its end is guarded. -/
theorem Leaf.guarded_of_check
    {leaf : Leaf} {place : Place} {relation : Option Relation}
    (hend : schema.fieldAt? collection leaf.path = some place.field)
    (hcheck : place.check relation (.compare leaf.comparison) = .ok ()) :
    leaf.Guarded schema collection := by
  intro field hfield hconceal
  cases hend.symm.trans hfield
  exact Field.asksPresence_of_check hcheck hconceal

theorem Leaf.guarded_of_none
    {leaf : Leaf}
    (hend : schema.fieldAt? collection leaf.path = none) :
    leaf.Guarded schema collection := by
  intro field hfield
  rw [hend] at hfield
  cases hfield

theorem Leaf.gives_condition
    {place : Place} (leaf : Leaf) (relation : Option Relation)
    (hend : schema.fieldAt? collection leaf.path = some place.field) :
    (Attempt.ofExcept (place.condition relation leaf.comparison leaf.operand) :
      Compiling (Option Sql.Expr)).Gives fun _ => leaf.Guarded schema collection := by
  refine Attempt.gives_ofExcept fun _ h => ?_
  obtain ⟨_, hcheck, -⟩ := exists_of_bind_ok h
  exact Leaf.guarded_of_check hend hcheck

/-- A comparison that arrives is guarded. -/
theorem Leaf.gives_arrival
    {destination : Destination} (leaf : Leaf)
    (hend : schema.fieldAt? collection leaf.path = destination.fieldAt? schema)
    (hrest : ∀ place relation scope next rest,
      destination ≠ .toMany place relation scope (next :: rest)) :
    (arrivalCondition schema leaf.id leaf.comparison leaf.operand destination).Gives
      fun _ => leaf.Guarded schema collection := by
  cases destination with
  | column place relation => exact leaf.gives_condition relation hend
  | json place rest =>
      cases rest with
      | nil => exact leaf.gives_condition none hend
      | cons next rest => exact fun _ _ _ _ => Leaf.guarded_of_none hend
  | toMany place relation scope rest =>
      cases rest with
      | cons next rest => exact absurd rfl (hrest place relation scope next rest)
      | nil =>
          refine Attempt.gives_after fun link => ?_
          unfold Link.countCondition
          refine Attempt.Gives.bind
            (Attempt.gives_ofExcept fun _ hcheck => Leaf.guarded_of_check hend hcheck) ?_
          exact fun _ hguarded _ _ _ _ => hguarded

/-- A comparison of its own is guarded, also behind relations to many rows. -/
theorem inside_comparisonAccount
    (schema : Schema) (id : Nat) (c : Comparison) (operand : Json) :
    ∀ (limit : Nat) (collection : String) (path : List Segment),
      Compiling.Inside collection (comparisonAccount schema id c operand limit path)
        fun a => Leaf.Guarded schema collection ⟨id, path, c, operand⟩ ∧
          a.Guarded schema collection := by
  intro limit
  induction limit with
  | zero => exact fun collection path => Compiling.inside_fail _
  | succ limit ih =>
      intro collection path
      rw [comparisonAccount]
      refine (Compiling.inside_locate schema path).bind fun destination hdestination => ?_
      obtain ⟨hend, -⟩ := hdestination
      split
      · rename_i place relation scope next rest
        refine (Compiling.inside_ofExcept fun _ h => h).bind fun link hlink => ?_
        have htarget : relation.target scope = .ok link.related := (Link.made_of_ok hlink).related
        have hbehind : schema.fieldAt? collection path =
            schema.fieldAt? link.probe.related (next :: rest) := by
          rw [hend, Destination.fieldAt?, htarget]
          rfl
        refine (Compiling.inside_enter (Q := fun _ =>
          Leaf.Guarded schema link.probe.related ⟨id, next :: rest, c, operand⟩) ?_).bind
            fun x hguarded => ?_
        · refine (Compiling.inside_locate schema (next :: rest)).bind fun _ _ => ?_
          exact (ih link.probe.related (next :: rest)).mono fun _ h => h.1
        · have hleaf : Leaf.Guarded schema collection ⟨id, path, c, operand⟩ := by
            intro field hfield
            exact hguarded field (hbehind.symm.trans hfield)
          exact Compiling.inside_pure ⟨hleaf, hleaf⟩
      · rename_i hrest
        have harrival : (arrivalCondition schema id c operand destination).Gives
            fun _ => Leaf.Guarded schema collection ⟨id, path, c, operand⟩ :=
          Leaf.gives_arrival ⟨id, path, c, operand⟩ hend hrest
        refine ((Compiling.labelsOnly_arrivalCondition schema id c operand destination).inside
          harrival).bind fun _ hleaf => ?_
        exact Compiling.inside_pure ⟨hleaf, hleaf⟩

end Comparisons

/-! ## Comparisons that were folded -/

namespace Filter

mutual

/-- The comparisons in the closure of a filter. -/
def closureLeaves : Filter → List Leaf
  | .and children => closureLeavesOfAll children
  | .or _ => []
  | .compare id path c operand => [⟨id, path, c, operand⟩]
  | .quantify _ _ _ _ => []

/-- The comparisons in the closure of several filters. -/
def closureLeavesOfAll : List Filter → List Leaf
  | [] => []
  | child :: rest => child.closureLeaves ++ closureLeavesOfAll rest

end

mutual

theorem map_id_closureLeaves :
    ∀ filter : Filter, filter.closureLeaves.map Leaf.id = filter.closureIds
  | .and children => by
      rw [closureLeaves, closureIds]
      exact map_id_closureLeavesOfAll children
  | .or _ => rfl
  | .compare _ _ _ _ => rfl
  | .quantify _ _ _ _ => rfl

theorem map_id_closureLeavesOfAll :
    ∀ filters : List Filter,
      (closureLeavesOfAll filters).map Leaf.id = closureIdsOfAll filters
  | [] => rfl
  | child :: rest => by
      rw [closureLeavesOfAll, closureIdsOfAll, List.map_append, map_id_closureLeaves child,
        map_id_closureLeavesOfAll rest]

end

end Filter

section Folds

variable {schema : Schema} {plan : JoinPlan}

theorem testOf_of_mem
    {leaf : Leaf} {tests : List DocumentTest}
    (h : plan.testOf schema leaf = .ok tests) :
    ∀ t ∈ tests, plan.testOf schema leaf = .ok [t] := by
  rw [h]
  unfold JoinPlan.testOf at h
  split at h
  · obtain ⟨_, _, h⟩ := exists_of_bind_ok h
    cases h
    intro t ht
    rw [List.mem_singleton.1 ht]
  · cases h
    simp

mutual

/-- The tests of a closure are those of its comparisons. -/
theorem exists_leaf_of_mem_closureTests :
    ∀ {filter : Filter} {tests : List DocumentTest},
      closureTests schema plan filter = .ok tests →
        ∀ t ∈ tests, ∃ leaf ∈ filter.closureLeaves, plan.testOf schema leaf = .ok [t]
  | .and children, tests, h => by
      rw [closureTests] at h
      rw [Filter.closureLeaves]
      exact exists_leaf_of_mem_allClosureTests h
  | .or children, tests, h => by
      rw [closureTests] at h
      cases h
      simp
  | .compare id path c operand, tests, h => by
      rw [closureTests] at h
      rw [Filter.closureLeaves]
      exact fun t ht => ⟨_, List.mem_cons_self, testOf_of_mem h t ht⟩
  | .quantify .., tests, h => by
      rw [closureTests] at h
      cases h
      simp

theorem exists_leaf_of_mem_allClosureTests :
    ∀ {filters : List Filter} {tests : List DocumentTest},
      allClosureTests schema plan filters = .ok tests →
        ∀ t ∈ tests, ∃ leaf ∈ Filter.closureLeavesOfAll filters,
          plan.testOf schema leaf = .ok [t]
  | [], tests, h => by
      rw [allClosureTests] at h
      cases h
      simp
  | child :: rest, tests, h => by
      rw [allClosureTests] at h
      obtain ⟨first, hfirst, h⟩ := exists_of_bind_ok h
      obtain ⟨others, hothers, h⟩ := exists_of_bind_ok h
      cases h
      rw [Filter.closureLeavesOfAll]
      intro t ht
      rcases List.mem_append.1 ht with ht | ht
      · obtain ⟨leaf, hleaf, htest⟩ := exists_leaf_of_mem_closureTests hfirst t ht
        exact ⟨leaf, List.mem_append_left _ hleaf, htest⟩
      · obtain ⟨leaf, hleaf, htest⟩ := exists_leaf_of_mem_allClosureTests hothers t ht
        exact ⟨leaf, List.mem_append_right _ hleaf, htest⟩

end

/-- What is folded are tests that read a member. -/
theorem mem_tests_of_foldable
    {tests group : List DocumentTest} {t : DocumentTest}
    (hgroup : group ∈ foldable tests) (ht : t ∈ group) :
    t ∈ tests ∧ t.endsInMember = true := by
  obtain ⟨key, -, hkey⟩ := List.mem_map.1 (List.mem_filter.1 hgroup).1
  rw [← hkey, DocumentTest.mem_family] at ht
  exact List.mem_filter.1 ht.1

/-- A comparison that was folded was folded by its own test. -/
theorem testOf_of_folded
    {leaves : List Leaf} {tests : List DocumentTest} {folds : List Fold} {leaf : Leaf}
    {fold : Fold}
    (hnodup : (leaves.map Leaf.id).Nodup)
    (htests : ∀ t ∈ tests, ∃ leaf ∈ leaves, plan.testOf schema leaf = .ok [t])
    (hmembers : folds.map Fold.members = foldable tests) (hleaf : leaf ∈ leaves)
    (hfold : Fold.of? folds leaf.id = some fold) :
    ∃ t ∈ fold.members, plan.testOf schema leaf = .ok [t] := by
  obtain ⟨hfold, hid⟩ := Fold.mem_of_of? hfold
  obtain ⟨t, ht, hid⟩ := List.mem_map.1 hid
  have hgroup : fold.members ∈ foldable tests := hmembers ▸ List.mem_map_of_mem hfold
  obtain ⟨leaf', hleaf', htest⟩ := htests t (mem_tests_of_foldable hgroup ht).1
  have hid' : leaf'.id = leaf.id := by
    rw [← hid, id_of_mem_testOf htest t List.mem_cons_self]
  -- no other comparison of the closure has this number
  cases List.inj_on_of_nodup_map hnodup hleaf' hleaf hid'
  exact ⟨t, ht, htest⟩

/-- Comparisons that were folded end inside documents. -/
def FoldsRead (schema : Schema) (collection : String) (leaves : List Leaf) (folds : List Fold) :
    Prop :=
  ∀ leaf ∈ leaves, ∀ fold, Fold.of? folds leaf.id = some fold →
    schema.fieldAt? collection leaf.path = none

theorem FoldsRead.subset
    {collection : String} {leaves leaves' : List Leaf} {folds : List Fold}
    (h : FoldsRead schema collection leaves folds) (hsubset : leaves' ⊆ leaves) :
    FoldsRead schema collection leaves' folds :=
  fun leaf hleaf => h leaf (hsubset hleaf)

theorem labelsOnly_makeFolds :
    ∀ groups : List (List DocumentTest), Compiling.LabelsOnly (makeFolds groups)
  | [] => Compiling.labelsOnly_pure _
  | members :: rest => by
      rw [makeFolds]
      refine (Compiling.labelsOnly_label _).bind fun shared => ?_
      exact (labelsOnly_makeFolds rest).bind fun folds => Compiling.labelsOnly_pure _

/-- The path of a comparison with a test ends inside a document. -/
theorem fieldAt?_of_testOf
    {leaf : Leaf} {t : DocumentTest}
    (h : plan.testOf schema leaf = .ok [t]) :
    schema.fieldAt? plan.collection leaf.path = none := by
  unfold JoinPlan.testOf at h
  split at h
  · rename_i place next rest hdestination
    exact Destination.fieldAt?_of_trace? hdestination
  · cases h

theorem inside_closureFolds
    {collection : String} {children : List Filter}
    (hnodup : (Filter.closureIdsOfAll children).Nodup) :
    Compiling.Inside collection (closureFolds schema children)
      (FoldsRead schema collection (Filter.closureLeavesOfAll children)) := by
  unfold closureFolds
  refine Attempt.Ensures.bind
    (R := fun seen p => seen = p ∧ p.plan.collection = collection)
    (Attempt.ensures_state fun p hp => ⟨rfl, hp⟩) fun seen => ?_
  rintro p ⟨rfl, rfl⟩
  refine (Compiling.inside_ofExcept fun _ h => h).bind (fun tests htests => ?_) seen rfl
  refine (labelsOnly_makeFolds _).inside fun p folds q hrun => ?_
  intro leaf hleaf fold hfold
  rw [← Filter.map_id_closureLeavesOfAll] at hnodup
  obtain ⟨t, -, htest⟩ := testOf_of_folded hnodup (exists_leaf_of_mem_allClosureTests htests)
    (gives_makeFolds _ p folds q hrun).1 hleaf hfold
  exact fieldAt?_of_testOf htest

theorem inside_foldsWithin
    {collection : String} {children : List Filter} {within : Option (List Fold)}
    (hnodup : (Filter.closureIdsOfAll children).Nodup)
    (hwithin : ∀ folds ∈ within,
      FoldsRead schema collection (Filter.closureLeavesOfAll children) folds) :
    Compiling.Inside collection (foldsWithin schema children within)
      (FoldsRead schema collection (Filter.closureLeavesOfAll children)) := by
  cases within with
  | none => exact inside_closureFolds hnodup
  | some folds => exact Compiling.inside_pure (hwithin folds rfl)

end Folds

/-! ## Accounts -/

/-- A quantified condition is asked of the rows behind its field. -/
theorem inside_quantifierProbe
    {collection : String} (schema : Schema) (field : Segment) (q : Quantifier) :
    Compiling.Inside collection (quantifierProbe schema field q) fun probe =>
      schema.rowsBehind? collection field = some probe.related := by
  unfold quantifierProbe
  refine (Compiling.inside_locate schema [field]).bind fun destination hdestination => ?_
  obtain ⟨-, hrows⟩ := hdestination
  split
  · refine (Compiling.inside_ofExcept fun _ h => h).bind fun link hlink => ?_
    refine (Compiling.inside_ofExcept (Q := fun _ => True) fun _ _ => trivial).bind fun _ _ => ?_
    refine Compiling.inside_pure (hrows field link.related rfl ?_)
    rw [Destination.rows?, (Link.made_of_ok hlink).related]
    rfl
  · rename_i hone
    refine (Compiling.inside_ofExcept (Q := fun _ => True) fun _ _ => trivial).bind fun _ _ => ?_
    split
    · exact Compiling.inside_fail _
    · rename_i relation hrelation
      refine (Compiling.inside_ofExcept fun _ h => h).bind fun related hrelated => ?_
      refine (Compiling.inside_ofExcept (Q := fun _ => True) fun _ _ => trivial).bind
        fun _ _ => ?_
      refine Compiling.inside_pure (hrows field related rfl ?_)
      cases destination with
      | column place found =>
          cases hrelation
          rw [Destination.rows?, Option.bind_some, hrelated]
          rfl
      | json place rest => cases hrelation
      | toMany place found scope rest => exact absurd rfl (hone place found scope rest)

mutual

theorem inside_account
    (s : Setting) :
    ∀ {filter : Filter} {within : Option (List Fold)} {collection : String},
      filter.ids.Nodup →
      (∀ folds ∈ within, FoldsRead s.schema collection filter.closureLeaves folds) →
      Compiling.Inside collection (account s within filter)
        (Account.Guarded s.schema collection)
  | .and children, within, collection, hids, hwithin => by
      rw [account]
      rw [Filter.closureLeaves] at hwithin
      have hclosure := Filter.nodup_closureIds hids
      rw [Filter.closureIds] at hclosure
      rw [Filter.ids] at hids
      refine (inside_foldsWithin hclosure hwithin).bind fun folds hfolds => ?_
      exact (inside_accounts s hids hfolds).bind fun as has => Compiling.inside_pure has
  | .or children, within, collection, hids, _ => by
      rw [Filter.ids] at hids
      rw [account]
      split
      · exact Compiling.inside_pure (Account.allGuarded_unbuilt children)
      · exact (inside_alternativeAccounts s hids).bind fun as has => Compiling.inside_pure has
  | .compare id path c operand, within, collection, _, hwithin => by
      rw [account]
      split
      · rename_i fold hfold
        obtain ⟨folds, hfolds, hfold⟩ := Option.bind_eq_some_iff.1 hfold
        refine Compiling.inside_pure (Leaf.guarded_of_none ?_)
        exact hwithin folds hfolds _ List.mem_cons_self fold hfold
      · exact (inside_comparisonAccount s.schema id c operand path.length collection path).mono
          fun _ h => h.2
  | .quantify id field q inner, within, collection, hids, _ => by
      rw [Filter.ids] at hids
      rw [account]
      refine (inside_quantifierProbe s.schema field q).bind fun probe hprobe => ?_
      have hinner : Compiling.Inside probe.related (do planJoins s inner; account s none inner)
          (Account.Guarded s.schema probe.related) := by
        refine (Compiling.inside_planJoins s inner).bind fun _ _ => ?_
        refine inside_account s (List.nodup_append.1 hids).1 ?_
        rintro folds ⟨⟩
      refine (Compiling.inside_enter hinner).bind fun x hx => Compiling.inside_pure ?_
      intro related hrelated
      cases hprobe.symm.trans hrelated
      exact hx

theorem inside_accounts
    (s : Setting) :
    ∀ {filters : List Filter} {folds : List Fold} {collection : String},
      (Filter.idsOfAll filters).Nodup →
      FoldsRead s.schema collection (Filter.closureLeavesOfAll filters) folds →
      Compiling.Inside collection (accounts s folds filters)
        (Account.AllGuarded s.schema collection)
  | [], folds, collection, _, _ => by
      rw [accounts]
      exact Compiling.inside_pure trivial
  | child :: rest, folds, collection, hids, hfolds => by
      rw [Filter.idsOfAll] at hids
      rw [Filter.closureLeavesOfAll] at hfolds
      obtain ⟨hchild, hrest, -⟩ := List.nodup_append.1 hids
      rw [accounts]
      refine (inside_account s hchild ?_).bind fun a ha => ?_
      · rintro _ ⟨⟩
        exact hfolds.subset (List.subset_append_left _ _)
      · refine (inside_accounts s hrest ?_).bind fun as has => Compiling.inside_pure ⟨ha, has⟩
        exact hfolds.subset (List.subset_append_right _ _)

theorem inside_alternativeAccounts
    (s : Setting) :
    ∀ {filters : List Filter} {collection : String},
      (Filter.idsOfAll filters).Nodup →
      Compiling.Inside collection (alternativeAccounts s filters)
        (Account.AllGuarded s.schema collection)
  | [], collection, _ => by
      rw [alternativeAccounts]
      exact Compiling.inside_pure trivial
  | child :: rest, collection, hids => by
      rw [Filter.idsOfAll] at hids
      obtain ⟨hchild, hrest, -⟩ := List.nodup_append.1 hids
      rw [alternativeAccounts]
      refine (inside_account s hchild ?_).bind fun a ha => ?_
      · rintro _ ⟨⟩
      · split
        · exact Compiling.inside_pure ⟨ha, Account.allGuarded_unbuilt rest⟩
        · exact (inside_alternativeAccounts s hrest).bind fun as has =>
            Compiling.inside_pure ⟨ha, has⟩

end

/-- The account of a compiled filter is guarded. -/
theorem guarded_of_compile
    {s : Setting} {collection : String} {filter : Json} {c : Compiled}
    (h : s.compile collection filter = .ok c) :
    ∃ tree a p, Filter.ofJson s.options.maxDepth filter = .ok tree ∧
      (s.account tree).run (Progress.start collection) = (.ok a, p) ∧
      a.filter = tree ∧ a.condition = c.condition ∧ a.Guarded s.schema collection := by
  obtain ⟨tree, a, p, htree, hrun, -, rfl⟩ := account_of_compile h
  refine ⟨tree, a, p, htree, hrun, (closures_of_account hrun).1, rfl, ?_⟩
  have hinside : Compiling.Inside collection (s.account tree)
      (Account.Guarded s.schema collection) := by
    refine (Compiling.inside_planJoins s tree).bind fun _ _ => ?_
    refine inside_account s (Filter.nodup_ids htree) ?_
    rintro folds ⟨⟩
  exact (hinside _ rfl a p hrun).2

end RowFilter
