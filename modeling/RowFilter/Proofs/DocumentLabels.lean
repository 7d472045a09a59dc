import RowFilter.Proofs.Acceptance
import RowFilter.Proofs.Points
import RowFilter.Proofs.Requests
import RowFilter.Proofs.Scopes

/-!
# The labels of rows of documents

A compilation asks for labels one after the other, and the labels that it ends with are those
of a run of requests.  Every question about the rows of a JSON document carries the label that
is kept in the end: that of the field if the test stands alone, and that of the elements if
tests share them.  So all questions of the first kind about a field of a collection carry one
label, and all questions of the second kind about a path inside it carry another.

* `CarriesLabel`: the label that a question about the rows of a document must carry.
* `Compiling.Notes`: steps whose results carry the labels that are kept in the end.
* `carries_of_compile`: it holds everywhere in a compiled condition.
* `labels_of_requests`: the labels of runs and of compilations.
-/

namespace RowFilter

open Sql (Context Expr Join PathArg Select Source)

/-- What the rows at a path in the document of a field are labelled by.  A test that stands
alone binds its path, and its rows go by the label of the field; tests that are asked together
have the path to their elements in the statement, and the rows go by the label of these. -/
def Sql.PathArg.key (collection field : String) : PathArg → Labels.Key
  | .bound _ => .field collection field
  | .inline path => .elements collection field path

/-- A question about rows is one about the rows of a document in sight, which carry the label
kept for them. -/
def CarriesLabel (l : Labels) (ctx : Context) : Expr → Prop
  | .existsRow query => ∃ qualifier collection field path label,
      query.source = some (.jsonRows (.column qualifier field) path (some label)) ∧
      ⟨qualifier, some collection⟩ ∈ ctx.sources ∧ Dotless field ∧
      l.label? (path.key collection field) = some label
  | _ => True

/-- It holds everywhere in a condition, if there is one. -/
def Ground.Carries (g : Ground) (labelled : List Source) (l : Labels)
    (condition : Option Expr) : Prop :=
  Expr.EverywhereIfAny (CarriesLabel l) ⟨g.sight labelled, none⟩ condition

/-! ## Conditions -/

section Conditions

variable {g : Ground} {labelled : List Source} {l : Labels} {ctx : Context}

theorem carries_apply
    {criterion : Criterion} {target e : Expr}
    (he : criterion.apply target = some e) (htarget : target.Everywhere (CarriesLabel l) ctx) :
    e.Everywhere (CarriesLabel l) ctx := by
  refine Expr.everywhere_apply he htarget ?_ trivial fun _ => trivial
  cases criterion <;> cases he <;> trivial

theorem carries_compared
    (place : Place) :
    place.compared.Everywhere (CarriesLabel l) ctx := by
  unfold Place.compared
  split
  · trivial
  · exact ⟨trivial, trivial⟩
  · exact ⟨trivial, trivial⟩

theorem carries_countRows
    {link : Link}
    (h : link.probe.Sound g labelled) (label : String) :
    (link.countRows label).Everywhere (CarriesLabel l) ctx := by
  obtain ⟨qualifier, field, hkey, -⟩ := h.key
  change link.parentKey = .column qualifier field at hkey
  have hcount (sources : List Source) :
      Expr.AllEverywhere (CarriesLabel l) ⟨sources, none⟩ [.call "COUNT" [] true] :=
    ⟨⟨trivial, trivial⟩, trivial⟩
  unfold Link.countRows
  rw [hkey]
  split
  · exact ⟨trivial, Select.everywhere_of rfl trivial trivial (hcount _)
      ⟨trivial, ⟨trivial, trivial, trivial⟩, ⟨trivial, trivial, trivial⟩, trivial⟩⟩
  · exact ⟨trivial, Select.everywhere_of rfl trivial trivial (hcount _)
      ⟨trivial, trivial, trivial⟩⟩

theorem carries_joins :
    ∀ {joins : List Join} {labelled : List Source}, g.Joined labelled joins →
      ∀ sources, Join.AllEverywhere (CarriesLabel l) sources joins
  | [], _, _, _ => trivial
  | join :: rest, labelled, hjoined, sources => by
      obtain ⟨hjoin, hrest⟩ := hjoined
      rw [Join.allEverywhere_cons]
      refine ⟨?_, carries_joins hrest _⟩
      cases hjoin with
      | joinOf => exact ⟨trivial, trivial, trivial⟩

/-- A condition on the rows of the query of a probe. -/
theorem carries_predicate
    {probe : Probe} {label : String} {joins : List Join} {condition : Option Expr}
    (hprobe : probe.Sound g labelled) (negated : Bool)
    (hjoins : g.Joined (labelled ++ [probe.source label]) joins)
    (h : g.Carries (labelled ++ [probe.source label] ++ joins.map Join.source) l condition) :
    g.Carries labelled l
      (some ((probe.inquiry label joins).predicate probe.key negated condition)) := by
  obtain ⟨qualifier, field, hkey, -⟩ := hprobe.key
  refine ⟨trivial, ?_, Select.everywhere_of rfl trivial (carries_joins hjoins _)
    ⟨trivial, trivial⟩ ?_⟩
  · rw [hkey]
    trivial
  · rw [Probe.meeting_eq]
    refine Expr.everywhereIfAny_group? trivial ?_
    refine List.forall_mem_append.2 ⟨fun e he => ?_, fun e he => ?_⟩
    · exact Expr.everywhereIfAny_iff.1 h e (Option.mem_toList.1 he)
    · obtain ⟨d, -, rfl⟩ := Option.map_eq_some_iff.1 (Option.mem_toList.1 he)
      exact ⟨trivial, trivial, trivial⟩

/-- The test reads a field of a row source in sight, whose rows are of the collection that it
names. -/
structure DocumentTest.Homed (g : Ground) (labelled : List Source) (t : DocumentTest) : Prop where
  source : ⟨t.qualifier, some t.collection⟩ ∈ g.sight labelled
  dotless : Dotless t.field

/-- The question whether rows with the label kept for them pass tests. -/
theorem carries_existsMatch
    {t : DocumentTest} {label : String} (path : PathArg) (conditions : List Expr)
    (ht : t.Homed g labelled) (hlabel : l.label? (path.key t.collection t.field) = some label)
    (h : ∀ e ∈ conditions, ∃ key criterion, DocumentTest.condition? label key criterion = some e) :
    g.Carries labelled l
      ((Expr.group? .and conditions).map (DocumentTest.existsMatch t.column path label)) := by
  refine Expr.everywhereIfAny_iff.2 fun e he => ?_
  obtain ⟨condition, hcondition, rfl⟩ := Option.map_eq_some_iff.1 he
  refine ⟨⟨t.qualifier, t.collection, t.field, path, label, rfl, ht.source, ht.dotless, hlabel⟩,
    Select.everywhere_of rfl trivial trivial ⟨trivial, trivial⟩ ?_⟩
  change Expr.EverywhereIfAny (CarriesLabel l) _ (some condition)
  rw [← hcondition]
  refine Expr.everywhereIfAny_group? trivial fun e he => ?_
  obtain ⟨key, criterion, he⟩ := h e he
  exact carries_apply he ⟨trivial, trivial⟩

end Conditions

/-! ## Steps that keep labels -/

/-- From a state with the plan, whose labels reserve the names in sight, the step returns to
one.  Its labels grow by requests, and its result has a property for all labels that they
grow into. -/
def Compiling.Notes {α : Type} (g : Ground) (outer : List Source) (plan : JoinPlan)
    (x : Compiling α) (Q : Labels → α → Prop) : Prop :=
  ∀ l : Labels, Attempt.Ensures
    (fun p => (p.plan = plan ∧ p.Situated g outer) ∧ l.Reaches p.labels) x
    fun a p => ((p.plan = plan ∧ p.Situated g outer) ∧ l.Reaches p.labels) ∧
      ∀ l', p.labels.Reaches l' → Q l' a

namespace Compiling

variable {α β : Type} {g : Ground} {outer : List Source} {plan : JoinPlan}
  {Q : Labels → α → Prop}

theorem notes_pure
    {a : α}
    (h : ∀ l, Q l a) :
    Notes g outer plan (pure a) Q :=
  fun _ => Attempt.ensures_pure fun _ hp => ⟨hp, fun l _ => h l⟩

theorem notes_fail
    (e : QueryError) :
    Notes g outer plan (Attempt.fail e) Q :=
  fun _ => Attempt.ensures_fail e

theorem notes_ofExcept
    {result : Except QueryError α}
    (h : ∀ l a, result = .ok a → Q l a) :
    Notes g outer plan (Attempt.ofExcept result) Q :=
  fun _ => Attempt.ensures_ofExcept fun _ a hp hresult => ⟨hp, fun l _ => h l a hresult⟩

theorem notes_state :
    Notes g outer plan Attempt.state fun _ p => p.plan = plan ∧ p.Situated g outer :=
  fun _ => Attempt.ensures_state fun _ hp => ⟨hp, fun _ _ => hp.1⟩

theorem Notes.mono
    {x : Compiling α} {R : Labels → α → Prop}
    (h : Notes g outer plan x R) (hQ : ∀ l a, R l a → Q l a) :
    Notes g outer plan x Q :=
  fun l => (h l).mono fun a _ hp => ⟨hp.1, fun l' hl' => hQ l' a (hp.2 l' hl')⟩

/-- What the first step noted still holds for the labels after the second. -/
theorem Notes.bind
    {x : Compiling α} {f : α → Compiling β} {R : Labels → β → Prop}
    (hx : Notes g outer plan x Q)
    (hf : ∀ a, (∃ l, Q l a) → Notes g outer plan (f a) fun l b => Q l a → R l b) :
    Notes g outer plan (x >>= f) R := by
  intro l
  refine (hx l).bind fun a p hp b q hrun => ?_
  obtain ⟨⟨hinv, hreach⟩, hnoted⟩ := hp
  -- the second step is run from the labels that the first one left
  obtain ⟨⟨hinv', hreach'⟩, hnext⟩ :=
    hf a ⟨_, hnoted _ (.refl _)⟩ p.labels p ⟨hinv, .refl _⟩ b q hrun
  exact ⟨⟨hinv', hreach.trans hreach'⟩,
    fun l' hl' => hnext l' hl' (hnoted l' (hreach'.trans hl'))⟩

/-- A step on the labels that keeps the names in sight reserved. -/
theorem notes_label
    {step : Attempt Labels α} {S : α → Prop}
    (hemits : Emits g outer plan (label step) S)
    (h : ∀ l : Labels, Attempt.Ensures l.Reaches step fun a m =>
      l.Reaches m ∧ ∀ l', m.Reaches l' → Q l' a) :
    Notes g outer plan (label step) Q := by
  intro l
  have hgrows : Attempt.Ensures (fun p => l.Reaches p.labels) (label step) fun a p =>
      l.Reaches p.labels ∧ ∀ l', p.labels.Reaches l' → Q l' a := by
    refine Attempt.ensures_focus fun p hp => (h l).weaken ?_
    rintro m rfl
    exact hp
  exact (Attempt.Ensures.and hemits hgrows).mono fun a p hp => ⟨⟨hp.1.1, hp.2.1⟩, hp.2.2⟩

/-- A settled path leads to a place in sight, and nothing is asked for. -/
theorem notes_locate
    {path : List Segment} {destination : Destination}
    (hpath : path ⊆ g.segments) (h : plan.destination? g.schema path = some destination) :
    Notes g outer plan (locate g.schema path)
      fun _ found => found.Sound g (plan.labelled outer) := by
  rintro l p ⟨⟨rfl, hp⟩, hreach⟩ found q hrun
  rw [run_locate h] at hrun
  cases hrun
  exact ⟨⟨⟨rfl, hp⟩, hreach⟩, fun _ _ => hp.sound_of_destination? hpath h⟩

/-- A step inside the query of a probe sees the row source of the query besides. -/
theorem notes_enter
    {probe : Probe} {step : Compiling α} {R : List Source → Labels → α → Prop}
    (h : ∀ label l, Attempt.Ensures
      (fun p => (p.Situated g (plan.labelled outer ++ [probe.source label]) ∧
        p.plan = JoinPlan.start probe.related label) ∧ Labels.Reaches l p.labels)
      step fun a p => (p.Situated g (plan.labelled outer ++ [probe.source label]) ∧
        l.Reaches p.labels) ∧ ∀ l', p.labels.Reaches l' →
          R (p.plan.labelled (plan.labelled outer ++ [probe.source label])) l' a) :
    Notes g outer plan (probe.enter g.schema step) fun l x => ∃ label joins,
      x.2 = probe.inquiry label joins ∧
      g.Joined (plan.labelled outer ++ [probe.source label]) joins ∧
      R (plan.labelled outer ++ [probe.source label] ++ joins.map Join.source) l x.1 := by
  unfold Probe.enter
  refine (notes_ofExcept (Q := fun _ _ => True) fun _ _ _ => trivial).bind fun _ _ => ?_
  intro l
  refine Attempt.Ensures.bind
    (R := fun label p => ((p.plan = plan ∧ plan.Sound g outer) ∧ l.Reaches p.labels) ∧
      p.labels.Reserves ((plan.labelled outer ++ [probe.source label]).map Source.name)) ?_
    fun label => ?_
  · refine Attempt.ensures_focus ?_
    rintro p ⟨⟨rfl, hp⟩, hreach⟩
    refine Attempt.ensures_ofState ?_
    rintro m rfl
    have hreserves := (Labels.reserves_fresh probe.related hp.labels).2
    refine ⟨⟨⟨rfl, hp.plan⟩, hreach.trans (.of_fresh probe.related _)⟩, ?_⟩
    rw [List.map_append]
    exact hreserves
  · refine Attempt.Ensures.bind
      (R := fun x p => ((p.plan = plan ∧ p.Situated g outer) ∧ l.Reaches p.labels) ∧
        g.Joined (plan.labelled outer ++ [probe.source label]) x.2 ∧
        ∀ l', p.labels.Reaches l' →
          R (plan.labelled outer ++ [probe.source label] ++ x.2.map Join.source) l' x.1) ?_
      fun x => ?_
    · refine ensures_inQuery ?_
      rintro p ⟨⟨⟨rfl, hplan⟩, hreach⟩, hreserves⟩
      refine ((h label l).weaken ?_).mono fun a q hq => ?_
      · rintro q rfl
        refine ⟨⟨⟨JoinPlan.sound_start ?_, ?_⟩, rfl⟩, hreach⟩
        · exact List.mem_cons_of_mem _ (List.mem_append_right _ (by simp [Probe.source]))
        · change p.labels.Reserves (((JoinPlan.start _ _).labelled _).map Source.name)
          rwa [JoinPlan.labelled_start]
      · obtain ⟨⟨hq, hreach'⟩, hR⟩ := hq
        refine ⟨⟨⟨rfl, hplan, hq.labels.subset ?_⟩, hreach'⟩, hq.plan.joined, hR⟩
        refine List.map_subset _ ?_
        exact List.subset_append_of_subset_left _ (List.subset_append_left _ _)
    · refine Attempt.ensures_pure ?_
      rintro p ⟨hp, hjoined, hR⟩
      exact ⟨hp, fun l' hl' _ => ⟨label, x.2, rfl, hjoined, hR l' hl'⟩⟩

end Compiling

/-! ## Join planning asks for new labels only -/

section Planning

variable {l : Labels}

theorem reaches_connect
    (schema : Schema) (path : List Segment) (parent : String) (relation : Relation) :
    Attempt.Ensures (fun t => l.Reaches t.labels) (JoinPlan.connect schema path parent relation)
      fun _ t => l.Reaches t.labels := by
  unfold JoinPlan.connect
  refine Attempt.Ensures.bind (R := fun _ t => l.Reaches t.labels)
    (Attempt.ensures_state fun t ht => ht) fun seen => ?_
  split
  · exact Attempt.ensures_pure fun t ht => ht
  · refine Attempt.Ensures.bind (R := fun _ t => l.Reaches t.labels)
      (Attempt.ensures_ofExcept fun t _ ht _ => ht) fun related => ?_
    split
    · exact Attempt.ensures_fail _
    · exact Attempt.ensures_ofState fun t ht => ht.trans (.of_fresh related _)

theorem reaches_follow
    {schema : Schema} {path : List Segment} :
    ∀ {before : List Segment} {qualifier collection : String},
      Attempt.Ensures (fun t => l.Reaches t.labels)
        (JoinPlan.follow schema before qualifier collection path)
        fun _ t => l.Reaches t.labels := by
  induction path with
  | nil =>
      intro before qualifier collection
      exact Attempt.ensures_fail _
  | cons segment rest ih =>
      intro before qualifier collection
      rw [JoinPlan.follow]
      refine Attempt.Ensures.bind (R := fun _ t => l.Reaches t.labels)
        (Attempt.ensures_ofExcept fun t _ ht _ => ht) fun step => ?_
      cases step with
      | arrive destination => exact Attempt.ensures_pure fun t ht => ht
      | cross relation =>
          refine (reaches_connect schema _ qualifier relation).bind fun connection => ?_
          exact Attempt.Ensures.bind (R := fun _ t => l.Reaches t.labels)
            (Attempt.ensures_ofExcept fun t _ ht _ => ht) fun related => ih

theorem reaches_locate
    (schema : Schema) (path : List Segment) :
    Attempt.Ensures (fun p => l.Reaches p.labels) (Compiling.locate schema path)
      fun _ p => l.Reaches p.labels := by
  refine Attempt.ensures_focus fun p hp => ?_
  unfold JoinPlan.locate
  refine Attempt.Ensures.bind (R := fun _ t => l.Reaches t.labels)
    (Attempt.ensures_state ?_) fun seen => reaches_follow
  rintro t rfl
  exact hp

mutual

theorem reaches_planJoins
    (s : Setting) :
    ∀ filter : Filter, Attempt.Ensures (fun p => l.Reaches p.labels) (planJoins s filter)
      fun _ p => l.Reaches p.labels
  | .and children => by
      rw [planJoins]
      exact reaches_planAllJoins s children
  | .or children => by
      rw [planJoins]
      split
      · exact Attempt.ensures_pure fun p hp => hp
      · exact reaches_planAllJoins s children
  | .compare _ path _ _ => by
      rw [planJoins]
      exact (reaches_locate s.schema path).bind fun _ => Attempt.ensures_pure fun p hp => hp
  | .quantify _ field _ _ => by
      rw [planJoins]
      exact (reaches_locate s.schema [field]).bind fun _ => Attempt.ensures_pure fun p hp => hp

theorem reaches_planAllJoins
    (s : Setting) :
    ∀ filters : List Filter, Attempt.Ensures (fun p => l.Reaches p.labels) (planAllJoins s filters)
      fun _ p => l.Reaches p.labels
  | [] => by
      rw [planAllJoins]
      exact Attempt.ensures_pure fun p hp => hp
  | child :: rest => by
      rw [planAllJoins]
      exact (reaches_planJoins s child).bind fun _ => reaches_planAllJoins s rest

end

end Planning

/-! ## Tests inside documents -/

section Tests

variable {g : Ground} {labelled : List Source}

/-- A label that was asked for a key is kept in the end. -/
theorem Labels.ensures_rows
    (key : Labels.Key) (h : Dotless key.base) (l : Labels) :
    Attempt.Ensures l.Reaches (Attempt.ofState fun m => (Request.rows key).answer m)
      fun rows m => l.Reaches m ∧ ∀ l', m.Reaches l' → l'.label? key = some rows.label :=
  Attempt.ensures_ofState fun m hm =>
    ⟨hm.trans (.of_answer (Request.plain_rows_iff.2 h) m),
      fun _ hl' => hl'.label?_of_some (Request.label?_answer h m)⟩

/-- The condition of a test on its own carries the label of the field. -/
theorem DocumentTest.ensures_alone
    {t : DocumentTest}
    (h : t.Homed g labelled) (l : Labels) :
    Attempt.Ensures l.Reaches t.alone fun e m =>
      l.Reaches m ∧ ∀ l', m.Reaches l' → g.Carries labelled l' e := by
  unfold DocumentTest.alone
  refine Attempt.Ensures.bind (R := fun _ m => l.Reaches m)
    (Attempt.ensures_ofExcept fun m _ hm _ => hm) fun criterion => ?_
  split
  · exact Attempt.ensures_pure fun m hm => ⟨hm, fun _ _ => trivial⟩
  · refine (Labels.ensures_rows (.field t.collection t.field) h.dotless l).bind
      fun rows => Attempt.ensures_pure fun m hm => ⟨hm.1, fun l' hl' => ?_⟩
    have hcarries := carries_existsMatch (.bound (JsonPath.text t.path false))
      (DocumentTest.condition? rows.label none criterion).toList h (hm.2 l' hl')
      fun e he => ⟨none, criterion, Option.mem_toList.1 he⟩
    cases hcondition : DocumentTest.condition? rows.label none criterion with
    | none => trivial
    | some condition =>
        rw [hcondition] at hcarries
        exact hcarries

/-- The condition of tests that are asked together carries the label of the elements. -/
theorem DocumentTest.ensures_together
    {tests : List DocumentTest}
    (h : ∀ t ∈ tests, t.Homed g labelled) (l : Labels) :
    Attempt.Ensures l.Reaches (DocumentTest.together tests) fun e m =>
      l.Reaches m ∧ ∀ l', m.Reaches l' → g.Carries labelled l' e := by
  cases tests with
  | nil => exact Attempt.ensures_fail _
  | cons first others =>
      have hfirst := h first List.mem_cons_self
      unfold DocumentTest.together
      refine Attempt.Ensures.bind (R := fun _ m => l.Reaches m)
        (Attempt.ensures_ofExcept fun m _ hm _ => hm) fun asked => ?_
      split
      · exact Attempt.ensures_pure fun m hm => ⟨hm, fun _ _ => trivial⟩
      · refine (Labels.ensures_rows
          (.elements first.collection first.field first.elementPath) hfirst.dotless l).bind
            fun rows => Attempt.ensures_pure fun m hm => ⟨hm.1, fun l' hl' => ?_⟩
        refine carries_existsMatch _ _ hfirst (hm.2 l' hl') fun e he => ?_
        obtain ⟨⟨key, criterion⟩, -, he⟩ := List.mem_filterMap.1 he
        exact ⟨some key, criterion, he⟩

theorem Place.homed_documentTest
    {place : Place}
    (h : place.In g labelled) (id : Nat) (path : List Segment) (c : Comparison) (operand : Json) :
    (place.documentTest id path c operand).Homed g labelled :=
  ⟨h.source, g.dotless _ h.segment⟩

end Tests

/-! ## Accounts -/

namespace Filter

mutual

theorem path_subset_of_mem_closureLeaves :
    ∀ {filter : Filter} {leaf : Leaf}, leaf ∈ filter.closureLeaves → leaf.path ⊆ filter.segments
  | .and children, leaf, h => by
      rw [closureLeaves] at h
      exact path_subset_of_mem_closureLeavesOfAll h
  | .or children, leaf, h => by
      cases h
  | .compare id path c operand, leaf, h => by
      rw [List.mem_singleton.1 h]
      exact List.Subset.refl _
  | .quantify .., leaf, h => by
      cases h

theorem path_subset_of_mem_closureLeavesOfAll :
    ∀ {filters : List Filter} {leaf : Leaf}, leaf ∈ closureLeavesOfAll filters →
      leaf.path ⊆ segmentsOfAll filters
  | [], leaf, h => by
      cases h
  | child :: rest, leaf, h => by
      rw [closureLeavesOfAll] at h
      rcases List.mem_append.1 h with h | h
      · exact List.subset_append_of_subset_left _ (path_subset_of_mem_closureLeaves h)
      · exact List.subset_append_of_subset_right _ (path_subset_of_mem_closureLeavesOfAll h)

end

end Filter

section Accounts

open Compiling (Notes)

variable {g : Ground} {outer : List Source} {plan : JoinPlan}

theorem homed_of_mem_allClosureTests
    {p : Progress} {filters : List Filter} {tests : List DocumentTest}
    (hp : p.Situated g outer) (hsegments : Filter.segmentsOfAll filters ⊆ g.segments)
    (h : allClosureTests g.schema p.plan filters = .ok tests) :
    ∀ t ∈ tests, t.Homed g (p.plan.labelled outer) := by
  intro t ht
  obtain ⟨leaf, hleaf, htest⟩ := exists_leaf_of_mem_allClosureTests h t ht
  have hpath : leaf.path ⊆ g.segments :=
    List.Subset.trans (Filter.path_subset_of_mem_closureLeavesOfAll hleaf) hsegments
  unfold JoinPlan.testOf at htest
  split at htest
  · rename_i place s rest hdestination
    obtain ⟨_, -, htest⟩ := exists_of_bind_ok htest
    cases htest
    cases hp.sound_of_destination? hpath hdestination with
    | json hplace _ _ => exact Place.homed_documentTest hplace _ _ _ _
  · cases htest

/-- The conditions of the folds carry the labels kept for them. -/
def FoldsCarry (g : Ground) (labelled : List Source) (l : Labels) (folds : List Fold) : Prop :=
  ∀ fold ∈ folds, g.Carries labelled l fold.shared

theorem notes_makeFolds :
    ∀ {groups : List (List DocumentTest)},
      (∀ members ∈ groups, ∀ t ∈ members,
        t.Sound g (plan.labelled outer) ∧ t.Homed g (plan.labelled outer)) →
      Notes g outer plan (makeFolds groups) (FoldsCarry g (plan.labelled outer))
  | [], _ => by
      rw [makeFolds]
      exact Compiling.notes_pure fun l => by simp [FoldsCarry]
  | members :: rest, h => by
      obtain ⟨hmembers, hrest⟩ := List.forall_mem_cons.1 h
      rw [makeFolds]
      refine (Compiling.notes_label
        (Compiling.emits_label (DocumentTest.emits_together fun t ht => (hmembers t ht).1))
        (DocumentTest.ensures_together fun t ht => (hmembers t ht).2)).bind fun shared _ => ?_
      refine (notes_makeFolds hrest).bind fun folds _ => Compiling.notes_pure ?_
      exact fun l hfolds hshared => List.forall_mem_cons.2 ⟨hshared, hfolds⟩

theorem notes_closureFolds
    {children : List Filter}
    (hsegments : Filter.segmentsOfAll children ⊆ g.segments) :
    Notes g outer plan (closureFolds g.schema children) (FoldsCarry g (plan.labelled outer)) := by
  unfold closureFolds
  refine Compiling.notes_state.bind fun seen hseen => ?_
  obtain ⟨-, rfl, hp⟩ := hseen
  refine (Compiling.notes_ofExcept fun _ _ h => h).bind fun tests htests => ?_
  obtain ⟨-, htests⟩ := htests
  have hsound := sound_allClosureTests hp hsegments htests
  have hhomed := homed_of_mem_allClosureTests hp hsegments htests
  refine (notes_makeFolds fun members hmembers t ht => ?_).mono fun l folds hfolds _ _ => hfolds
  have hfamily := (List.mem_filter.1 hmembers).1
  obtain ⟨key, -, rfl⟩ := List.mem_map.1 hfamily
  have hmem := (List.mem_filter.1 (DocumentTest.mem_family.1 ht).1).1
  exact ⟨hsound t hmem, hhomed t hmem⟩

/-- The folds of a conjunction carry their labels if those handed down do. -/
theorem notes_foldsWithin
    {children : List Filter}
    (hsegments : Filter.segmentsOfAll children ⊆ g.segments) (within : Option (List Fold)) :
    Notes g outer plan (foldsWithin g.schema children within) fun l folds =>
      (∀ handed ∈ within, FoldsCarry g (plan.labelled outer) l handed) →
        FoldsCarry g (plan.labelled outer) l folds := by
  cases within with
  | none => exact (notes_closureFolds hsegments).mono fun l folds hfolds _ => hfolds
  | some folds => exact Compiling.notes_pure fun l hwithin => hwithin folds rfl

theorem notes_condition
    (place : Place) (relation : Option Relation) (c : Comparison) (operand : Json) :
    Notes g outer plan (Attempt.ofExcept (place.condition relation c operand))
      (g.Carries (plan.labelled outer)) := by
  refine Compiling.notes_ofExcept fun l condition h => ?_
  obtain ⟨_, -, h⟩ := exists_of_bind_ok h
  obtain ⟨criterion, -, h⟩ := exists_of_bind_ok h
  cases h
  exact Expr.everywhereIfAny_iff.2 fun e he => carries_apply he (carries_compared place)

theorem notes_freshLabel
    (base : String) :
    Notes g outer plan (Compiling.freshLabel base) fun _ _ => True := by
  refine Compiling.notes_label (S := fun _ => True) (Compiling.emits_label ?_) fun l => ?_
  · refine Attempt.ensures_ofState fun m hm => ⟨?_, trivial⟩
    exact (Labels.reserves_fresh base hm).2.subset (List.subset_append_left _ _)
  · exact Attempt.ensures_ofState fun m hm => ⟨hm.trans (.of_fresh base m), fun _ _ => trivial⟩

theorem notes_countCondition
    {link : Link}
    (hlink : link.probe.Sound g (plan.labelled outer)) (place : Place) (relation : Relation)
    (c : Comparison) (operand : Json) :
    Notes g outer plan (link.countCondition g.schema place relation c operand)
      (g.Carries (plan.labelled outer)) := by
  unfold Link.countCondition
  refine (Compiling.notes_ofExcept (Q := fun _ _ => True) fun _ _ _ => trivial).bind fun _ _ => ?_
  refine (Compiling.notes_ofExcept (Q := fun _ _ => True) fun _ _ _ => trivial).bind fun _ _ => ?_
  refine (notes_freshLabel link.related).bind fun label _ => ?_
  refine (Compiling.notes_ofExcept (Q := fun _ _ => True) fun _ _ _ => trivial).bind
    fun criterion _ => Compiling.notes_pure fun l _ _ _ _ => ?_
  exact Expr.everywhereIfAny_iff.2 fun e he => carries_apply he (carries_countRows hlink label)

theorem notes_arrivalCondition
    {destination : Destination}
    (h : destination.Sound g (plan.labelled outer)) (id : Nat) (c : Comparison)
    (operand : Json) :
    Notes g outer plan (arrivalCondition g.schema id c operand destination)
      (g.Carries (plan.labelled outer)) := by
  cases h with
  | column => exact notes_condition _ _ c operand
  | @json place rest hplace hrelation hjson =>
      cases rest with
      | nil => exact notes_condition place none c operand
      | cons s rest =>
          refine (Compiling.notes_ofExcept (Q := fun _ _ => True) fun _ _ _ => trivial).bind
            fun _ _ => ?_
          refine (Compiling.notes_label (Compiling.emits_label (DocumentTest.emits_alone
            (Place.sound_documentTest hplace hjson id _ c operand)))
            (DocumentTest.ensures_alone (Place.homed_documentTest hplace id _ c operand))).mono ?_
          exact fun l condition hcondition _ => hcondition
  | toMany hplace hrelation hscope _ =>
      refine (Compiling.notes_ofExcept fun _ _ h => h).bind fun link hlink => ?_
      obtain ⟨-, hlink⟩ := hlink
      exact (notes_countCondition (Link.sound_of_ok hplace hrelation hscope hlink) _ _ c
        operand).mono fun l condition hcondition _ => hcondition

theorem notes_comparisonAccount
    (id : Nat) (c : Comparison) (operand : Json) :
    ∀ (limit : Nat) {path : List Segment} {outer : List Source} {plan : JoinPlan},
      path ⊆ g.segments → (∃ destination, plan.destination? g.schema path = some destination) →
      Notes g outer plan (comparisonAccount g.schema id c operand limit path)
        fun l a => g.Carries (plan.labelled outer) l a.condition := by
  intro limit
  induction limit with
  | zero =>
      intro path outer plan _ _
      exact Compiling.notes_fail _
  | succ limit ih =>
      intro path outer plan hpath hsettled
      obtain ⟨destination, hdestination⟩ := hsettled
      rw [comparisonAccount]
      refine (Compiling.notes_locate hpath hdestination).bind fun found hfound => ?_
      obtain ⟨-, hsound⟩ := hfound
      split
      · rename_i place relation scope s rest
        cases hsound with
        | toMany hplace hrelation hscope hrest =>
            refine (Compiling.notes_ofExcept fun _ _ h => h).bind fun link hlink => ?_
            obtain ⟨-, hlink⟩ := hlink
            have hprobe := Link.sound_of_ok hplace hrelation hscope hlink
            refine (Compiling.notes_enter
              (R := fun labelled l a => g.Carries labelled l a.condition) fun label l => ?_).bind
                fun x _ => Compiling.notes_pure ?_
            · -- the rest of the path is followed inside the query, which settles it
              refine (((situated_locate hrest).and (ensures_locate g.schema (s :: rest)
                (JoinPlan.start link.probe.related label))).and
                  (reaches_locate g.schema (s :: rest))).bind fun inner => ?_
              rintro p ⟨⟨⟨hp, -⟩, -, hinner⟩, hreach⟩
              refine (ih hrest ⟨inner, hinner⟩ l).mono (fun a q hq => ?_) p ⟨⟨rfl, hp⟩, hreach⟩
              rw [hq.1.1.1]
              exact ⟨⟨hq.1.1.2, hq.1.2⟩, hq.2⟩
            · rintro l ⟨label, joins, hinquiry, hjoins, hinner⟩ _ _
              rw [Account.condition, hinquiry]
              exact carries_predicate hprobe false hjoins hinner
      · refine (notes_arrivalCondition hsound id c operand).bind fun condition _ => ?_
        refine Compiling.notes_pure fun l hcondition _ => ?_
        rw [Account.condition]
        exact hcondition

/-- The probe of a quantifier is found without a request. -/
theorem notes_quantifierProbe
    {field : Segment} {destination : Destination}
    (hfield : field ∈ g.segments)
    (hdestination : plan.destination? g.schema [field] = some destination) (q : Quantifier) :
    Notes g outer plan (quantifierProbe g.schema field q)
      fun _ probe => probe.Sound g (plan.labelled outer) := by
  intro l
  have hreach : Attempt.Ensures (fun p => l.Reaches p.labels) (quantifierProbe g.schema field q)
      fun _ p => l.Reaches p.labels := by
    have hkeep {α : Type} (result : Except QueryError α) :
        Attempt.Ensures (fun p : Progress => l.Reaches p.labels) (Attempt.ofExcept result)
          fun _ p => l.Reaches p.labels :=
      Attempt.ensures_ofExcept fun p _ hp _ => hp
    unfold quantifierProbe
    refine (reaches_locate g.schema [field]).bind fun found => ?_
    split
    · exact (hkeep _).bind fun link => (hkeep _).bind fun _ => Attempt.ensures_pure fun p hp => hp
    · refine (hkeep _).bind fun _ => ?_
      split
      · exact Attempt.ensures_fail _
      · exact (hkeep _).bind fun related => (hkeep _).bind fun primary =>
          Attempt.ensures_pure fun p hp => hp
  exact (Attempt.Ensures.and (emits_quantifierProbe hfield hdestination q) hreach).mono
    fun probe p hp => ⟨⟨hp.1.1, hp.2⟩, fun _ _ => hp.1.2⟩

mutual

/-- The condition of a filter whose joins are planned carries the labels that are kept, if the
folds handed down do. -/
theorem notes_account
    {s : Setting} (hschema : s.schema = g.schema) :
    ∀ {filter : Filter} {within : Option (List Fold)} {outer : List Source} {plan : JoinPlan},
      filter.segments ⊆ g.segments → filter.Settled g.schema plan →
      Notes g outer plan (account s within filter) fun l a =>
        (∀ folds ∈ within, FoldsCarry g (plan.labelled outer) l folds) →
          g.Carries (plan.labelled outer) l a.condition
  | .and children, within, outer, plan, hsegments, hsettled => by
      rw [Filter.Settled] at hsettled
      rw [account, hschema]
      refine (notes_foldsWithin hsegments within).bind fun folds _ => ?_
      refine (notes_accounts hschema hsegments hsettled).bind fun as _ => ?_
      refine Compiling.notes_pure fun l has hfolds hwithin => ?_
      rw [Account.condition]
      exact Expr.everywhereIfAny_group? trivial (Account.forall_conditions fun a ha =>
        Expr.everywhereIfAny_iff.1 (has (hfolds hwithin) a ha))
  | .or children, within, outer, plan, hsegments, hsettled => by
      rw [Filter.Settled] at hsettled
      rw [account]
      split
      · rename_i hall
        have hne : children ≠ [] := by
          rintro rfl
          cases hall
        refine Compiling.notes_pure fun l _ => ?_
        rw [Account.condition, alternatives?_unbuilt hne]
        trivial
      · rename_i hall
        have hsettled' := hsettled.resolve_left hall
        refine (notes_alternativeAccounts hschema hsegments hsettled').bind fun as _ => ?_
        refine Compiling.notes_pure fun l has _ => ?_
        rw [Account.condition]
        refine Expr.everywhereIfAny_iff.2 fun e he => ?_
        obtain ⟨es, hes, he⟩ := Option.bind_eq_some_iff.1 he
        have hgroup : Expr.EverywhereIfAny (CarriesLabel l)
            ⟨g.sight (plan.labelled outer), none⟩ (Expr.group? .or es) :=
          Expr.everywhereIfAny_group? trivial (Account.forall_alternatives
            (fun a ha => Expr.everywhereIfAny_iff.1 (has a ha)) hes)
        exact Expr.everywhereIfAny_iff.1 hgroup e he
  | .compare id path c operand, within, outer, plan, hsegments, hsettled => by
      rw [Filter.Settled] at hsettled
      rw [account, hschema]
      split
      · rename_i fold hfold
        obtain ⟨folds, hfolds, hfold⟩ := Option.bind_eq_some_iff.1 hfold
        refine Compiling.notes_pure fun l hwithin => ?_
        rw [Account.condition, Fold.standing]
        split
        · exact hwithin folds hfolds fold (List.mem_of_find?_eq_some hfold)
        · trivial
      · exact (notes_comparisonAccount id c operand path.length hsegments hsettled).mono
          fun l a ha _ => ha
  | .quantify id field q inner, within, outer, plan, hsegments, hsettled => by
      rw [Filter.Settled] at hsettled
      obtain ⟨destination, hdestination⟩ := hsettled
      obtain ⟨hfield, hinner⟩ := List.cons_subset.1 hsegments
      rw [account, hschema]
      refine (notes_quantifierProbe hfield hdestination q).bind fun probe hprobe => ?_
      obtain ⟨-, hprobe⟩ := hprobe
      refine (Compiling.notes_enter
        (R := fun labelled l a => g.Carries labelled l a.condition) fun label l => ?_).bind
          fun x _ => Compiling.notes_pure ?_
      · refine (((situated_planJoins hschema hinner).and (ensures_planJoins s inner
          (JoinPlan.start probe.related label))).and (reaches_planJoins s inner)).bind fun _ => ?_
        rintro p ⟨⟨hp, -, hsettled⟩, hreach⟩
        rw [hschema] at hsettled
        refine (notes_account hschema hinner hsettled l).mono (fun a q hq => ?_) p
          ⟨⟨rfl, hp⟩, hreach⟩
        rw [hq.1.1.1]
        exact ⟨⟨hq.1.1.2, hq.1.2⟩, fun l' hl' => hq.2 l' hl' (by rintro folds ⟨⟩)⟩
      · rintro l ⟨label, joins, hinquiry, hjoins, hcondition⟩ _ _
        rw [Account.condition, hinquiry]
        exact carries_predicate hprobe (q == .none) hjoins hcondition

theorem notes_accounts
    {s : Setting} (hschema : s.schema = g.schema) :
    ∀ {filters : List Filter} {folds : List Fold} {outer : List Source} {plan : JoinPlan},
      Filter.segmentsOfAll filters ⊆ g.segments → Filter.AllSettled g.schema plan filters →
      Notes g outer plan (accounts s folds filters) fun l as =>
        FoldsCarry g (plan.labelled outer) l folds →
          ∀ a ∈ as, g.Carries (plan.labelled outer) l a.condition
  | [], folds, outer, plan, _, _ => by
      rw [accounts]
      exact Compiling.notes_pure fun l _ => by simp
  | child :: rest, folds, outer, plan, hsegments, hsettled => by
      obtain ⟨hchild, hrest⟩ := List.append_subset.1 hsegments
      rw [Filter.AllSettled] at hsettled
      rw [accounts]
      refine (notes_account hschema hchild hsettled.1).bind fun a _ => ?_
      refine (notes_accounts hschema hrest hsettled.2).bind fun as _ => ?_
      refine Compiling.notes_pure fun l has ha hfolds => ?_
      refine List.forall_mem_cons.2 ⟨ha ?_, has hfolds⟩
      rintro _ ⟨⟩
      exact hfolds

theorem notes_alternativeAccounts
    {s : Setting} (hschema : s.schema = g.schema) :
    ∀ {filters : List Filter} {outer : List Source} {plan : JoinPlan},
      Filter.segmentsOfAll filters ⊆ g.segments → Filter.AllSettled g.schema plan filters →
      Notes g outer plan (alternativeAccounts s filters) fun l as =>
        ∀ a ∈ as, g.Carries (plan.labelled outer) l a.condition
  | [], outer, plan, _, _ => by
      rw [alternativeAccounts]
      exact Compiling.notes_pure fun l => by simp
  | child :: rest, outer, plan, hsegments, hsettled => by
      obtain ⟨hchild, hrest⟩ := List.append_subset.1 hsegments
      rw [Filter.AllSettled] at hsettled
      rw [alternativeAccounts]
      refine (notes_account hschema hchild hsettled.1).bind fun a _ => ?_
      split
      · refine Compiling.notes_pure fun l ha => ?_
        refine List.forall_mem_cons.2 ⟨ha (by rintro folds ⟨⟩), fun b hb => ?_⟩
        obtain ⟨f, -, rfl⟩ := List.mem_map.1 hb
        rw [Account.condition]
        trivial
      · refine (notes_alternativeAccounts hschema hrest hsettled.2).bind fun as _ => ?_
        refine Compiling.notes_pure fun l has ha => ?_
        exact List.forall_mem_cons.2 ⟨ha (by rintro folds ⟨⟩), has⟩

end

end Accounts

/-- A compilation ends with the labels of a run of requests, and every question about the rows
of a document carries the label kept for them. -/
theorem carries_of_compile
    {s : Setting} {collection : String} {filter : Json} {c : Compiled}
    (h : s.compile collection filter = .ok c) :
    ({} : Labels).Reaches c.labels ∧
      Expr.EverywhereIfAny (CarriesLabel c.labels)
        ⟨⟨collection, some collection⟩ :: c.joins.map Join.source, none⟩ c.condition := by
  obtain ⟨tree, a, p, htree, hrun, -, rfl⟩ := account_of_compile h
  generalize hground : Ground.ofFilter s collection htree = g
  have hschema : s.schema = g.schema := by rw [← hground]; rfl
  have hcollection : collection = g.collection := by rw [← hground]; rfl
  have hsegments : tree.segments ⊆ g.segments := by rw [← hground]; exact List.Subset.refl _
  have hstart : (Progress.start collection).Situated g [] := by
    refine ⟨JoinPlan.sound_start ?_, Labels.reserves_empty⟩
    rw [← hground]
    exact List.mem_cons_self
  have hensures : Attempt.Ensures
      (fun p => (p.Situated g [] ∧ p.plan = JoinPlan.start collection collection) ∧
        ({} : Labels).Reaches p.labels)
      (s.account tree)
      fun a p => ({} : Labels).Reaches p.labels ∧
        g.Carries (p.plan.labelled []) p.labels a.condition := by
    refine (((situated_planJoins hschema hsegments).and (ensures_planJoins s tree _)).and
      (reaches_planJoins s tree)).bind fun _ => ?_
    rintro p ⟨⟨hp, -, hsettled⟩, hreach⟩
    rw [hschema] at hsettled
    refine (notes_account hschema hsegments hsettled {}).mono (fun a q hq => ?_) p
      ⟨⟨rfl, hp⟩, hreach⟩
    rw [hq.1.1.1]
    exact ⟨hq.1.2, hq.2 _ (.refl _) (by rintro folds ⟨⟩)⟩
  obtain ⟨hreach, hcarries⟩ := hensures _ ⟨⟨hstart, rfl⟩, .refl _⟩ a p hrun
  refine ⟨hreach, ?_⟩
  rw [hcollection]
  exact hcarries

/-- It holds in the whole selection of the rows that match. -/
theorem carries_selection
    {s : Setting} {collection : String} {filter : Json} {c : Compiled}
    (h : s.compile collection filter = .ok c) (names : List String) :
    (c.selection names).Everywhere (CarriesLabel c.labels) [] none := by
  obtain ⟨tree, htree, hcollection, hjoined, -⟩ := emitted_of_compile h
  have hcondition := (carries_of_compile h).2
  obtain ⟨c_collection, condition, joins, labels⟩ := c
  cases hcollection
  refine Select.everywhere_of rfl trivial (carries_joins hjoined _) ?_ ?_
  · cases names with
    | nil => exact ⟨trivial, trivial⟩
    | cons name rest =>
        refine Expr.allEverywhere_iff.2 fun e he => ?_
        obtain ⟨_, -, rfl⟩ := List.mem_map.1 he
        trivial
  · have hfilter : (Compiled.selection ⟨c_collection, condition, joins, labels⟩ names).condition =
        condition := by
      simp [Compiled.selection, Select.filter, Select.join, Select.of]
    rw [hfilter]
    exact hcondition

/-- **Labels over whole runs.**  Let labels be asked for any number of times, for bases, fields
and elements in any order, where the names of fields hold no dots.  No label is given out
twice, a field or a path inside one gets its label at its first request and keeps it, the
field of a path with a label has another one, and the numbers of fields and paths with a label
are those of the different ones that were asked for.

A compilation ends with the labels of such a run.  Every question about the rows of a document
in its statement carries the label kept for the field if its path is bound, and that kept for
the path if it is shared.  So questions of one kind about one field or path carry one label,
and all others another. -/
theorem labels_of_requests :
    (∀ rs : List Request, (∀ r ∈ rs, r.Plain) → Request.Orderly rs) ∧
      ∀ (s : Setting) (collection : String) (filter : Json) (c : Compiled),
        s.compile collection filter = .ok c →
          (∃ rs : List Request, Request.Orderly rs ∧ c.labels = (Request.run {} rs).2) ∧
            ∀ names, (c.selection names).Everywhere (CarriesLabel c.labels) [] none := by
  refine ⟨fun rs hrs => Request.orderly_of_plain hrs, fun s collection filter c hc => ?_⟩
  obtain ⟨rs, hrs, hlabels⟩ := (carries_of_compile hc).1
  exact ⟨⟨rs, Request.orderly_of_plain hrs, hlabels⟩, carries_selection hc⟩

/-- Requests whose bases end in numbers, and for keys that come up again. -/
def mixedRequests : List Request :=
  [.fresh "notes_1", .rows (.elements "shop.orders" "notes" "$[*]"), .fresh "notes",
    .rows (.field "shop.orders" "notes"), .rows (.elements "shop.orders" "notes" "$[*]"),
    .rows (.field "shop" "notes")]

/-- Projects with an open tag and a large wall, and with a late tag or a larger part that is no
wall.  Two tests of tags stand alone, and two pairs of tests share parts. -/
def taggedParts : Json :=
  .obj [
    ("about.tags", .obj [("_eq", .str "open")]),
    ("about.parts", .obj [
      ("kind", .obj [("_eq", .str "wall")]), ("size", .obj [("_gt", .num (.int 3))])]),
    ("_or", .arr [
      .obj [("about.tags", .obj [("_eq", .str "late")])],
      .obj [("about.parts", .obj [
        ("kind", .obj [("_neq", .str "wall")]), ("size", .obj [("_gt", .num (.int 9))])])]])]

theorem labels_of_requests_taggedParts :
    (Request.run {} mixedRequests).1 =
        [⟨"notes_1_1", true⟩, ⟨"notes_3", true⟩, ⟨"notes_4", true⟩, ⟨"notes_2", false⟩,
          ⟨"notes_3", false⟩, ⟨"notes_5", true⟩] ∧
      Request.Orderly mixedRequests ∧
      ∃ c, studio.compile "projects" taggedParts = .ok c ∧
        c.labels.fieldCount = 1 ∧ c.labels.elementsCount = 1 ∧
        (∃ rs : List Request, Request.Orderly rs ∧ c.labels = (Request.run {} rs).2) ∧
        (c.selection []).Everywhere (CarriesLabel c.labels) [] none := by
  have hplain : ∀ r ∈ mixedRequests, r.Plain := by
    simp [mixedRequests, Request.Plain, Request.asks, Labels.Key.base, Dotless]
  obtain ⟨c, hc, hcounts⟩ := exists_of_any_toOption
    (show (studio.compile "projects" taggedParts).toOption.any (fun c =>
      decide (c.labels.fieldCount = 1 ∧ c.labels.elementsCount = 1)) = true by decide +kernel)
  obtain ⟨hfields, helements⟩ := of_decide_eq_true hcounts
  obtain ⟨hlabels, hcarries⟩ := labels_of_requests.2 studio "projects" taggedParts c hc
  exact ⟨by decide +kernel, labels_of_requests.1 mixedRequests hplain, c, hc, hfields, helements,
    hlabels, hcarries []⟩

end RowFilter
