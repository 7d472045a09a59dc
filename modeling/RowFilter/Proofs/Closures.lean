import Mathlib.Data.List.Nodup
import Mathlib.Data.List.Perm.Basic
import RowFilter.Proofs.OnePass

/-!
# The closures of an account

A closure is a conjunction with the conjunctions inside it, or any other filter
that does not lie in a conjunction.  Its parts are the conditions and
disjunctions reached through conjunctions only.  In the account of a filter the
closures are the filter itself, the alternatives that were built, the filters of
quantified conditions and the rests of paths behind relations to many rows.

* `Account.Sound`: the parts of every closure are folded as the tests of that
  closure say, and all accounts that are built have this property.
* `Account.covers_perm`: every condition of a closure is covered by the predicate
  at exactly one part.
-/

namespace RowFilter

open Sql (Expr)

/-- A predicate that is neither made of others nor asks about the rows of another
query with a condition of its own. -/
def Sql.Expr.isAtom : Expr → Bool
  | .logical _ _ => false
  | .inQuery _ _ _ => false
  | _ => true

/-- A predicate is an atom, if there is one. -/
def AtomIfAny (predicate : Option Expr) : Prop :=
  ∀ e ∈ predicate, e.isAtom

/-- The query has no condition yet, and what else holds of its rows is an atom. -/
def Inquiry.IsOpen (q : Inquiry) : Prop :=
  q.rows.condition = none ∧ AtomIfAny q.discriminator

namespace Account

mutual

/-- The conditions and disjunctions reached through conjunctions. -/
def parts : Account → List Account
  | and children => partsOfAll children
  | or children => [or children]
  | unbuilt f => [unbuilt f]
  | own leaf predicate => [own leaf predicate]
  | folded leaf fold => [folded leaf fold]
  | behind leaf key inquiry inner => [behind leaf key inquiry inner]
  | quantified id field q key inquiry inner => [quantified id field q key inquiry inner]

/-- The parts of accounts that must hold together. -/
def partsOfAll : List Account → List Account
  | [] => []
  | child :: rest => child.parts ++ partsOfAll rest

end

mutual

/-- The accounts of closures: the account itself first, and then those inside. -/
def closures : Account → List Account
  | and children => and children :: innerClosures children
  | or children => or children :: closuresOfAll children
  | unbuilt _ => []
  | own leaf predicate => [own leaf predicate]
  | folded leaf fold => [folded leaf fold]
  | behind leaf key inquiry inner => behind leaf key inquiry inner :: inner.closures
  | quantified id field q key inquiry inner =>
      quantified id field q key inquiry inner :: inner.closures

/-- The closures of alternatives. -/
def closuresOfAll : List Account → List Account
  | [] => []
  | child :: rest => child.closures ++ closuresOfAll rest

/-- The closures inside accounts that lie in a closure themselves. -/
def innerClosures : List Account → List Account
  | [] => []
  | child :: rest => child.closures.tail ++ innerClosures rest

end

/-- The number of a condition. -/
def numbers : Account → List Nat
  | own leaf _ => [leaf.id]
  | folded leaf _ => [leaf.id]
  | behind leaf _ _ _ => [leaf.id]
  | quantified id _ _ _ _ _ => [id]
  | _ => []

/-- The numbers of the conditions that the predicate at a part accounts for.  The
first member of a group accounts for the whole group. -/
def covers : Account → List Nat
  | folded leaf fold =>
      if fold.leads leaf.id then fold.members.map DocumentTest.id else []
  | a => a.numbers

/-- The account is of the rest of the path of a comparison. -/
def RestOf (leaf : Leaf) (inner : Account) : Prop :=
  ∃ rest, rest <:+ leaf.path ∧ inner.filter = .compare leaf.id rest leaf.comparison leaf.operand

/-- A part is built, folded as the folds of its closure say, and its own predicate
is an atom. -/
def FoldedBy (folds : List Fold) : Account → Prop
  | own leaf predicate => Fold.of? folds leaf.id = none ∧ AtomIfAny predicate
  | folded leaf fold => Fold.of? folds leaf.id = some fold
  | behind leaf _ inquiry inner =>
      Fold.of? folds leaf.id = none ∧ inner.RestOf leaf ∧ inquiry.IsOpen
  | quantified _ _ _ _ inquiry _ => inquiry.IsOpen
  | or _ => True
  | _ => False

/-- The comparison at a part. -/
def leaf? : Account → Option Leaf
  | own leaf _ => some leaf
  | folded leaf _ => some leaf
  | behind leaf _ _ _ => some leaf
  | _ => none

end Account

/-- The condition of a group asks that one element meets the criteria of all
members that ask anything, each at the member of the element that its path ends
in. -/
def Fold.Asks (fold : Fold) : Prop :=
  ∃ first rest label criteria, fold.members = first :: rest ∧
    List.Forall₂ (fun t c => t.operator.criterion t.operand = .ok c) fold.members criteria ∧
    fold.shared = (Expr.group? .and ((fold.members.zip criteria).filterMap fun (t, c) =>
        c.casted.apply (.cast (.jsonValue label (t.path.getLast?.map Segment.name))
          c.castType))).map fun condition =>
      .existsRow {
        columns := [.raw "1"]
        source := some (.jsonRows (.column first.qualifier first.field)
          (.inline (JsonPath.text first.path.dropLast true)) (some label))
        joins := []
        condition := some condition }

/-- The condition of a group in terms of the conditions of its members. -/
theorem Fold.asks_iff
    {fold : Fold} :
    fold.Asks ↔ ∃ first rest label criteria, fold.members = first :: rest ∧
      List.Forall₂ (fun t c => t.operator.criterion t.operand = .ok c) fold.members criteria ∧
      fold.shared = (Expr.group? .and ((fold.members.zip criteria).filterMap fun (t, c) =>
          DocumentTest.condition? label (t.path.getLast?.map Segment.name) c)).map
        (DocumentTest.existsMatch first.column (.inline first.elementPath) label) :=
  Iff.rfl

/-- The folds come from the families among tests of a closure. -/
structure FoldsOf (filter : Filter) (folds : List Fold) : Prop where
  families : ∃ tests : List DocumentTest, folds.map Fold.members = foldable tests ∧
    (tests.map DocumentTest.id).Sublist filter.closureIds
  asks : ∀ fold ∈ folds, fold.Asks

namespace Account

/-- The parts of the closure are folded as its tests say, and its conditions are
among those with the given numbers. -/
structure ClosureSound (ids : List Nat) (a : Account) : Prop where
  ids_sublist : a.filter.ids.Sublist ids
  folds : ∃ folds, FoldsOf a.filter folds ∧ ∀ x ∈ a.parts, x.FoldedBy folds

/-- An account of a filter with the folds of the closure that it lies in. -/
structure Sound (filter : Filter) (folds : List Fold) (a : Account) : Prop where
  filter_eq : a.filter = filter
  parts : ∀ x ∈ a.parts, x.FoldedBy folds
  inner : ∀ b ∈ a.closures.tail, b.ClosureSound filter.ids

theorem ClosureSound.mono
    {ids ids' : List Nat} {a : Account}
    (h : a.ClosureSound ids) (hids : ids.Sublist ids') :
    a.ClosureSound ids' :=
  ⟨h.ids_sublist.trans hids, h.folds⟩

theorem Sound.closures
    {filter : Filter} {folds : List Fold} {a : Account}
    (h : Sound filter folds a) (hfolds : FoldsOf filter folds) :
    ∀ b ∈ a.closures, b.ClosureSound filter.ids := by
  have hself : a.ClosureSound filter.ids := by
    refine ⟨by rw [h.filter_eq], folds, ?_, h.parts⟩
    rwa [h.filter_eq]
  intro b hb
  cases a with
  | unbuilt f =>
      rw [Account.closures] at hb
      cases hb
  | _ =>
      have hinner := h.inner
      rw [Account.closures] at hb hinner
      rcases List.mem_cons.1 hb with rfl | hb
      · exact hself
      · exact hinner b hb

end Account

theorem foldsOf_nil
    (filter : Filter) :
    FoldsOf filter [] :=
  ⟨⟨[], rfl, List.nil_sublist _⟩, by simp⟩

/-! ## Atoms -/

theorem atomIfAny_none :
    AtomIfAny none := by
  intro e he
  cases he

theorem atomIfAny_map_existsMatch
    (condition : Option Expr) (document : Expr) (path : Sql.PathArg) (label : String) :
    AtomIfAny (condition.map (DocumentTest.existsMatch document path label)) := by
  intro e he
  obtain ⟨_, _, rfl⟩ := Option.map_eq_some_iff.1 he
  rfl

theorem atomIfAny_apply
    (c : Criterion) (target : Expr) :
    AtomIfAny (c.apply target) := by
  cases c with
  | always => exact atomIfAny_none
  | _ => rintro e ⟨⟩; rfl

theorem gives_alone
    (t : DocumentTest) :
    t.alone.Gives AtomIfAny := by
  unfold DocumentTest.alone
  refine Attempt.gives_after fun criterion => ?_
  split
  · exact Attempt.gives_pure atomIfAny_none
  · exact Attempt.gives_after fun _ => Attempt.gives_pure (atomIfAny_map_existsMatch _ _ _ _)

/-- Every test has its criterion. -/
theorem DocumentTest.exists_mem_zip
    {tests : List DocumentTest} {criteria : List Criterion} {R : DocumentTest → Criterion → Prop}
    (h : List.Forall₂ R tests criteria) :
    ∀ t ∈ tests, ∃ c, (t, c) ∈ tests.zip criteria ∧ R t c := by
  induction h with
  | nil => simp
  | cons hR _ ih =>
      intro t ht
      rcases List.mem_cons.1 ht with rfl | ht
      · exact ⟨_, List.mem_cons_self, hR⟩
      · obtain ⟨c, hc, hR⟩ := ih t ht
        exact ⟨c, List.mem_cons_of_mem _ hc, hR⟩

theorem Fold.Asks.atomIfAny
    {fold : Fold}
    (h : fold.Asks) :
    AtomIfAny fold.shared := by
  obtain ⟨_, _, _, _, _, _, hshared⟩ := Fold.asks_iff.1 h
  rw [hshared]
  exact atomIfAny_map_existsMatch _ _ _ _

/-! ## Criteria -/

/-- A list of values is not empty. -/
def Criterion.ListsValues (c : Criterion) : Prop :=
  ∀ vs negated, c = .inList vs negated → vs ≠ []

theorem Comparison.listsValues_of_criterion
    {c : Comparison} {operand : Json} {criterion : Criterion}
    (h : c.criterion operand = .ok criterion) :
    criterion.ListsValues := by
  rintro vs negated rfl
  cases c with
  | member negated =>
      rw [Comparison.criterion] at h
      split at h
      · cases negated <;> cases h
      · rename_i hne
        cases h
        exact hne
  | equal negated =>
      rw [Comparison.criterion] at h
      split at h <;> cases h
  | pattern p =>
      rw [Comparison.criterion] at h
      split at h <;> cases h
  | _ => cases h

theorem Criterion.ListsValues.casted
    {c : Criterion}
    (h : c.ListsValues) :
    c.casted.ListsValues := by
  have hmap : ∀ f, (c.map f).ListsValues := by
    intro f vs negated heq
    cases c with
    | inList values _ =>
        cases heq
        exact fun hnil => h values _ rfl (List.map_eq_nil_iff.1 hnil)
    | _ => cases heq
  unfold Criterion.casted
  split
  · exact hmap _
  · exact hmap _

/-- A criterion that everything meets puts no condition on a row. -/
theorem condition?_of_isAlways
    {c : Criterion}
    (label : String) (key : Option String) (h : c.isAlways = true) :
    DocumentTest.condition? label key c = none := by
  unfold DocumentTest.condition?
  rw [Criterion.apply_eq_none_iff, Criterion.isAlways_casted]
  exact h

namespace DocumentTest

/-- A test that asks nothing has no condition. -/
theorem run_alone_of_isAlways
    {t : DocumentTest} {c : Criterion} (labels : Labels)
    (hcriterion : t.operator.criterion t.operand = .ok c) (h : c.isAlways = true) :
    t.alone.run labels = (.ok none, labels) := by
  unfold alone
  rw [Attempt.run_bind_of_ok _ (congrArg (·, labels) hcriterion), if_pos h]
  rfl

theorem exists_condition?
    {c : Criterion} (label : String) (key : Option String)
    (h : c.isAlways = false) :
    ∃ condition, condition? label key c = some condition := by
  rw [← Option.isSome_iff_exists, Option.isSome_iff_ne_none]
  unfold condition?
  rw [ne_eq, Criterion.apply_eq_none_iff, Criterion.isAlways_casted, h]
  exact Bool.false_ne_true

/-- A test that asks something takes the label of its field. -/
theorem run_alone_of_condition?
    {t : DocumentTest} {c : Criterion} {labels : Labels} {condition : Sql.Expr}
    (hcriterion : t.operator.criterion t.operand = .ok c) (h : c.isAlways = false)
    (hcondition :
      condition? (labels.ofField t.collection t.field).1.label none c = some condition) :
    t.alone.run labels =
      (.ok (some (existsMatch t.column (.bound (JsonPath.text t.path false))
          (labels.ofField t.collection t.field).1.label condition)),
        (labels.ofField t.collection t.field).2) := by
  unfold alone
  rw [Attempt.run_bind_of_ok _ (congrArg (·, labels) hcriterion), if_neg (by rw [h]; decide),
    Attempt.run_bind_of_ok _ (Attempt.run_ofState _ _), Attempt.run_pure, hcondition]
  rfl

/-- The condition of a test that asks something. -/
theorem run_alone
    {t : DocumentTest} {c : Criterion} (labels : Labels)
    (hcriterion : t.operator.criterion t.operand = .ok c) (h : c.isAlways = false) :
    ∃ label condition labels', condition? label none c = some condition ∧
      t.alone.run labels =
        (.ok (some (existsMatch t.column (.bound (JsonPath.text t.path false)) label condition)),
          labels') := by
  obtain ⟨condition, hcondition⟩ :=
    exists_condition? (labels.ofField t.collection t.field).1.label none h
  exact ⟨_, condition, _, hcondition, run_alone_of_condition? hcriterion h hcondition⟩

/-- The first of the tests is looked at before the others. -/
theorem criteria_cons_eq_ok_iff
    {t : DocumentTest} {tests : List DocumentTest} {asked : List (String × Criterion)} :
    criteria (t :: tests) = .ok asked ↔
      ∃ key c others, t.path.getLast? = some key ∧ t.operator.criterion t.operand = .ok c ∧
        criteria tests = .ok others ∧
        asked = if c.isAlways then others else (key.name, c) :: others := by
  rw [criteria]
  constructor
  · intro h
    cases hlast : t.path.getLast? with
    | none =>
        rw [hlast] at h
        cases h
    | some key =>
        rw [hlast] at h
        obtain ⟨c, hcriterion, h⟩ := exists_of_bind_ok h
        obtain ⟨others, hothers, h⟩ := exists_of_bind_ok h
        cases h
        exact ⟨key, c, others, rfl, hcriterion, hothers, rfl⟩
  · rintro ⟨key, c, others, hlast, hcriterion, hothers, rfl⟩
    rw [hlast, hcriterion, hothers]
    rfl

end DocumentTest

/-- The criteria of tests, with those that everything meets left out. -/
theorem criteria_of_ok :
    ∀ {tests : List DocumentTest} {asked : List (String × Criterion)},
      DocumentTest.criteria tests = .ok asked →
        ∃ criteria, List.Forall₂ (fun t c => t.operator.criterion t.operand = .ok c) tests criteria ∧
          ∀ label, (asked.filterMap fun (key, c) => DocumentTest.condition? label (some key) c) =
            (tests.zip criteria).filterMap fun (t, c) =>
              DocumentTest.condition? label (t.path.getLast?.map Segment.name) c
  | [], asked, h => by
      cases h
      exact ⟨[], .nil, fun _ => rfl⟩
  | t :: tests, asked, h => by
      obtain ⟨key, criterion, others, hkey, hcriterion, hothers, rfl⟩ :=
        DocumentTest.criteria_cons_eq_ok_iff.1 h
      obtain ⟨criteria, hforall, hsame⟩ := criteria_of_ok hothers
      refine ⟨criterion :: criteria, .cons hcriterion hforall, fun label => ?_⟩
      simp only [List.zip_cons_cons, List.filterMap_cons, hkey, Option.map_some]
      by_cases halways : criterion.isAlways = true
      · rw [if_pos halways, condition?_of_isAlways label (some key.name) halways]
        exact hsame label
      · rw [if_neg halways, List.filterMap_cons, hsame label]

theorem gives_together
    (tests : List DocumentTest) :
    (DocumentTest.together tests).Gives fun shared => Fold.Asks ⟨tests, shared⟩ := by
  cases tests with
  | nil =>
      exact Attempt.gives_fail _
  | cons first others =>
      unfold DocumentTest.together
      refine Attempt.Gives.bind
        (Q := fun asked => DocumentTest.criteria (first :: others) = .ok asked)
        (Attempt.gives_ofExcept fun _ h => h) fun asked hasked => ?_
      obtain ⟨criteria, hforall, hsame⟩ := criteria_of_ok hasked
      split
      · rename_i hempty
        rw [List.isEmpty_iff] at hempty
        subst hempty
        refine Attempt.gives_pure
          (Fold.asks_iff.2 ⟨first, others, "", criteria, rfl, hforall, ?_⟩)
        rw [← hsame ""]
        rfl
      · refine Attempt.gives_after fun rows => Attempt.gives_pure ?_
        refine Fold.asks_iff.2 ⟨first, others, rows.label, criteria, rfl, hforall, ?_⟩
        rw [← hsame rows.label]

theorem gives_condition
    (place : Place) (relation : Option Relation) (c : Comparison) (operand : Json) :
    (Attempt.ofExcept (place.condition relation c operand) : Compiling _).Gives AtomIfAny := by
  refine Attempt.gives_ofExcept fun predicate h => ?_
  obtain ⟨_, _, h⟩ := exists_of_bind_ok h
  obtain ⟨criterion, _, h⟩ := exists_of_bind_ok h
  cases h
  exact atomIfAny_apply criterion _

theorem gives_arrivalCondition
    (schema : Schema) (id : Nat) (c : Comparison) (operand : Json) (destination : Destination) :
    (arrivalCondition schema id c operand destination).Gives AtomIfAny := by
  cases destination with
  | column place relation =>
      exact gives_condition place relation c operand
  | json place rest =>
      cases rest with
      | nil =>
          exact gives_condition place none c operand
      | cons s rest =>
          exact Attempt.gives_after fun _ => (gives_alone _).focus _ _
  | toMany place relation scope rest =>
      refine Attempt.gives_after fun link => ?_
      unfold Link.countCondition
      refine Attempt.gives_after fun _ => Attempt.gives_after fun _ => ?_
      refine Attempt.gives_after fun _ => Attempt.gives_after fun criterion => ?_
      exact Attempt.gives_pure (atomIfAny_apply criterion _)

/-! ## Accounts are sound -/

theorem gives_makeFolds :
    ∀ groups : List (List DocumentTest), (makeFolds groups).Gives fun folds =>
      folds.map Fold.members = groups ∧ ∀ fold ∈ folds, fold.Asks
  | [] => Attempt.gives_pure ⟨rfl, by simp⟩
  | members :: rest => by
      rw [makeFolds]
      refine ((gives_together members).focus _ _).bind fun shared hshared => ?_
      refine (gives_makeFolds rest).bind fun folds hfolds => ?_
      refine Attempt.gives_pure ⟨by rw [List.map_cons, hfolds.1], ?_⟩
      intro fold hfold
      rcases List.mem_cons.1 hfold with rfl | hfold
      · exact hshared
      · exact hfolds.2 fold hfold

theorem gives_closureFolds
    (schema : Schema) (children : List Filter) :
    (closureFolds schema children).Gives (FoldsOf (.and children)) := by
  unfold closureFolds
  refine Attempt.gives_after fun seen => ?_
  refine Attempt.Gives.bind
    (Q := fun tests => allClosureTests schema seen.plan children = .ok tests)
    (Attempt.gives_ofExcept fun _ h => h) fun tests htests => ?_
  intro p folds q hrun
  obtain ⟨hmembers, hasks⟩ := gives_makeFolds _ p folds q hrun
  refine ⟨⟨tests, hmembers, ?_⟩, hasks⟩
  rw [Filter.closureIds]
  exact Filter.sublist_allClosureTests htests

theorem gives_inQuery
    {α : Type} {step : Compiling α} {Q : α → Prop}
    (h : step.Gives Q) (collection qualifier : String) :
    (Compiling.inQuery collection qualifier step).Gives fun x => Q x.1 := by
  intro p x t hrun
  rw [run_inQuery, Prod.mk.injEq] at hrun
  have hstep := h (p.inside collection qualifier)
  generalize step.run (p.inside collection qualifier) = outcome at hrun hstep
  obtain ⟨result, q⟩ := outcome
  cases result with
  | error e =>
      cases hrun.1
  | ok a =>
      cases hrun.1
      exact hstep a q rfl

theorem gives_enter
    {α : Type} {step : Compiling α} {Q : α → Prop}
    (h : step.Gives Q) (schema : Schema) (probe : Probe) :
    (probe.enter schema step).Gives fun x => Q x.1 ∧ x.2.IsOpen := by
  unfold Probe.enter
  refine Attempt.gives_after fun _ => Attempt.gives_after fun label => ?_
  refine (gives_inQuery h probe.related label).bind fun x hx => Attempt.gives_pure ⟨hx, rfl, ?_⟩
  intro e he
  obtain ⟨_, _, rfl⟩ := Option.map_eq_some_iff.1 he
  rfl

theorem gives_comparisonAccount
    (schema : Schema) (id : Nat) (c : Comparison) (operand : Json) :
    ∀ (limit : Nat) (path : List Segment) {folds : List Fold},
      Fold.of? folds id = none →
        (comparisonAccount schema id c operand limit path).Gives
          (Account.Sound (.compare id path c operand) folds) := by
  intro limit
  induction limit with
  | zero =>
      intro path folds _
      exact Attempt.gives_fail _
  | succ limit ih =>
      intro path folds hnone
      rw [comparisonAccount]
      refine (gives_locate schema path).bind fun destination hrest => ?_
      split
      · rename_i place relation scope s rest
        refine Attempt.gives_after fun link => ?_
        have hinner : (do
            let _ ← Compiling.locate schema (s :: rest)
            comparisonAccount schema id c operand limit (s :: rest)).Gives
              (Account.Sound (.compare id (s :: rest) c operand) []) :=
          Attempt.gives_after fun _ => ih (s :: rest) rfl
        refine (gives_enter hinner schema link.probe).bind fun x hx => Attempt.gives_pure ?_
        obtain ⟨hx, hopen⟩ := hx
        refine ⟨by rw [Account.filter, Leaf.filter], ?_, ?_⟩
        · rw [Account.parts]
          intro y hy
          rw [List.mem_singleton.1 hy]
          exact ⟨hnone, ⟨s :: rest, hrest, hx.filter_eq⟩, hopen⟩
        · rw [Account.closures]
          exact hx.closures (foldsOf_nil _)
      · refine (gives_arrivalCondition schema id c operand _).bind fun predicate hatom => ?_
        refine Attempt.gives_pure ⟨by rw [Account.filter, Leaf.filter], ?_, ?_⟩
        · rw [Account.parts]
          intro x hx
          rw [List.mem_singleton.1 hx]
          exact ⟨hnone, hatom⟩
        · rw [Account.closures]
          simp

theorem filters_unbuilt
    (filters : List Filter) :
    Account.filters (filters.map .unbuilt) = filters := by
  induction filters with
  | nil => rfl
  | cons f rest ih => rw [List.map_cons, Account.filters, ih, Account.filter]

theorem closuresOfAll_unbuilt
    (filters : List Filter) :
    Account.closuresOfAll (filters.map .unbuilt) = [] := by
  induction filters with
  | nil => rfl
  | cons f rest ih => rw [List.map_cons, Account.closuresOfAll, ih, Account.closures]; rfl

/-- The folds of a filter: those handed down, or those of the closure that it
opens. -/
def FoldsWithin (filter : Filter) : Option (List Fold) → List Fold → Prop
  | some handed, folds => folds = handed
  | none, folds => FoldsOf filter folds

/-- A filter that folds nothing itself. -/
theorem foldsWithin_getD
    (filter : Filter) (within : Option (List Fold)) :
    FoldsWithin filter within (within.getD []) := by
  cases within with
  | none => exact foldsOf_nil filter
  | some handed => rfl

theorem gives_foldsWithin
    (schema : Schema) (children : List Filter) (within : Option (List Fold)) :
    (foldsWithin schema children within).Gives (FoldsWithin (.and children) within) := by
  cases within with
  | none => exact gives_closureFolds schema children
  | some handed => exact Attempt.gives_pure rfl

/-- A disjunction is sound if its alternatives are. -/
theorem Account.sound_or
    {alternatives : List Account} {children : List Filter}
    (folds : List Fold)
    (hfilters : Account.filters alternatives = children)
    (hclosures : ∀ b ∈ Account.closuresOfAll alternatives,
      b.ClosureSound (Filter.idsOfAll children)) :
    (Account.or alternatives).Sound (.or children) folds := by
  refine ⟨by rw [Account.filter, hfilters], ?_, ?_⟩
  · rw [Account.parts]
    intro x hx
    rw [List.mem_singleton.1 hx]
    trivial
  · rwa [Account.closures, Filter.ids]

mutual

/-- Accounts are sound, with the folds that are handed down or with folds of
their own. -/
theorem gives_account
    (s : Setting) :
    ∀ (filter : Filter) (within : Option (List Fold)),
      (account s within filter).Gives fun a =>
        ∃ folds, FoldsWithin filter within folds ∧ a.Sound filter folds
  | .and children, within => by
      rw [account]
      refine (gives_foldsWithin s.schema children within).bind fun folds hfolds => ?_
      refine (gives_accounts s children folds).bind fun as has => Attempt.gives_pure ?_
      obtain ⟨hfilters, hparts, hinner⟩ := has
      refine ⟨folds, hfolds, by rw [Account.filter, hfilters], ?_, ?_⟩
      · rwa [Account.parts]
      · rwa [Account.closures, Filter.ids]
  | .or children, within => by
      rw [account]
      split
      · refine Attempt.gives_pure ⟨_, foldsWithin_getD _ within, ?_⟩
        refine Account.sound_or _ (filters_unbuilt children) ?_
        rw [closuresOfAll_unbuilt]
        simp
      · refine (gives_alternativeAccounts s children).bind fun as has => Attempt.gives_pure ?_
        exact ⟨_, foldsWithin_getD _ within, Account.sound_or _ has.1 has.2⟩
  | .compare id path c operand, within => by
      have hof : within.bind (Fold.of? · id) = Fold.of? (within.getD []) id := by
        cases within <;> rfl
      rw [account]
      split
      · rename_i fold hfold
        refine Attempt.gives_pure ⟨_, foldsWithin_getD _ within, ?_⟩
        refine ⟨by rw [Account.filter, Leaf.filter], ?_, ?_⟩
        · rw [Account.parts]
          intro x hx
          rw [List.mem_singleton.1 hx]
          exact hof.symm.trans hfold
        · rw [Account.closures]
          simp
      · rename_i hnone
        intro p a q hrun
        refine ⟨_, foldsWithin_getD _ within, ?_⟩
        exact gives_comparisonAccount s.schema id c operand path.length path
          (hof.symm.trans hnone) p a q hrun
  | .quantify id field q inner, within => by
      rw [account]
      refine Attempt.gives_after fun probe => ?_
      have hinner : (do
          planJoins s inner
          account s none inner).Gives fun a => ∃ folds, FoldsWithin inner none folds ∧
            a.Sound inner folds :=
        Attempt.gives_after fun _ => gives_account s inner none
      refine (gives_enter hinner s.schema probe).bind fun x hx => Attempt.gives_pure ?_
      obtain ⟨⟨folds, hfolds, hsound⟩, hopen⟩ := hx
      refine ⟨_, foldsWithin_getD _ within, ?_, ?_, ?_⟩
      · rw [Account.filter, hsound.filter_eq]
      · rw [Account.parts]
        intro y hy
        rw [List.mem_singleton.1 hy]
        exact hopen
      · rw [Account.closures, Filter.ids]
        intro b hb
        exact (hsound.closures hfolds b hb).mono (List.sublist_append_left _ _)

theorem gives_accounts
    (s : Setting) :
    ∀ (filters : List Filter) (folds : List Fold),
      (accounts s folds filters).Gives fun as =>
        Account.filters as = filters ∧ (∀ x ∈ Account.partsOfAll as, x.FoldedBy folds) ∧
          ∀ b ∈ Account.innerClosures as, b.ClosureSound (Filter.idsOfAll filters)
  | [], folds => by
      rw [accounts]
      exact Attempt.gives_pure ⟨rfl, by simp [Account.partsOfAll], by simp [Account.innerClosures]⟩
  | child :: rest, folds => by
      rw [accounts]
      refine (gives_account s child (some folds)).bind fun a ha => ?_
      obtain ⟨handed, hhanded, hsound⟩ := ha
      rw [show handed = folds from hhanded] at hsound
      refine (gives_accounts s rest folds).bind fun as has => Attempt.gives_pure ?_
      obtain ⟨hfilters, hparts, hinner⟩ := has
      refine ⟨by rw [Account.filters, hfilters, hsound.filter_eq], ?_, ?_⟩
      · rw [Account.partsOfAll]
        intro x hx
        rcases List.mem_append.1 hx with hx | hx
        · exact hsound.parts x hx
        · exact hparts x hx
      · rw [Account.innerClosures]
        intro b hb
        rw [Filter.idsOfAll]
        rcases List.mem_append.1 hb with hb | hb
        · exact (hsound.inner b hb).mono (List.sublist_append_left _ _)
        · exact (hinner b hb).mono (List.sublist_append_right _ _)

theorem gives_alternativeAccounts
    (s : Setting) :
    ∀ filters : List Filter,
      (alternativeAccounts s filters).Gives fun as =>
        Account.filters as = filters ∧
          ∀ b ∈ Account.closuresOfAll as, b.ClosureSound (Filter.idsOfAll filters)
  | [] => by
      rw [alternativeAccounts]
      exact Attempt.gives_pure ⟨rfl, by simp [Account.closuresOfAll]⟩
  | child :: rest => by
      rw [alternativeAccounts]
      refine (gives_account s child none).bind fun a ha => ?_
      obtain ⟨folds, hfolds, hsound⟩ := ha
      have hclosures := hsound.closures hfolds
      have hcons : ∀ as, Account.filters as = rest →
          (∀ b ∈ Account.closuresOfAll as, b.ClosureSound (Filter.idsOfAll rest)) →
          Account.filters (a :: as) = child :: rest ∧
            ∀ b ∈ Account.closuresOfAll (a :: as),
              b.ClosureSound (Filter.idsOfAll (child :: rest)) := by
        intro as hfilters hothers
        refine ⟨by rw [Account.filters, hfilters, hsound.filter_eq], ?_⟩
        rw [Account.closuresOfAll]
        intro b hb
        rw [Filter.idsOfAll]
        rcases List.mem_append.1 hb with hb | hb
        · exact (hclosures b hb).mono (List.sublist_append_left _ _)
        · exact (hothers b hb).mono (List.sublist_append_right _ _)
      split
      · refine Attempt.gives_pure (hcons _ (filters_unbuilt rest) ?_)
        rw [closuresOfAll_unbuilt]
        simp
      · refine (gives_alternativeAccounts s rest).bind fun as has => Attempt.gives_pure ?_
        exact hcons as has.1 has.2

end

/-- Every closure in the account of a filter is sound. -/
theorem closures_of_account
    {s : Setting} {tree : Filter} {a : Account} {p q : Progress}
    (h : (s.account tree).run p = (.ok a, q)) :
    a.filter = tree ∧ ∀ b ∈ a.closures, b.ClosureSound tree.ids := by
  have hgives : (s.account tree).Gives fun a =>
      ∃ folds, FoldsWithin tree none folds ∧ a.Sound tree folds :=
    Attempt.gives_after fun _ => gives_account s tree none
  obtain ⟨folds, hfolds, hsound⟩ := hgives p a q h
  exact ⟨hsound.filter_eq, hsound.closures hfolds⟩

/-! ## Every condition is covered once -/

namespace DocumentTest

/-- Families of different keys are different. -/
theorem nodup_families
    (tests : List DocumentTest) :
    (families tests).Nodup := by
  refine (nodup_eraseDups (tests.map groupKey)).map_on fun key hkey key' hkey' heq => ?_
  have hhead := head?_family (List.mem_eraseDups.1 hkey)
  have hhead' := head?_family (List.mem_eraseDups.1 hkey')
  rw [heq, hhead'] at hhead
  exact (Option.some.inj hhead).symm

end DocumentTest

/-- The folds of a closure are families of two or more, and their members have
different numbers, taken from the comparisons of the closure. -/
theorem FoldsOf.members
    {filter : Filter} {folds : List Fold} {fold : Fold}
    (h : FoldsOf filter folds) (hnodup : filter.closureIds.Nodup) (hfold : fold ∈ folds) :
    2 ≤ fold.members.length ∧ (fold.members.map DocumentTest.id).Nodup ∧
      fold.members.map DocumentTest.id ⊆ filter.closureIds := by
  obtain ⟨tests, hmembers, hsub⟩ := h.families
  have hmem : fold.members ∈ foldable tests := by
    rw [← hmembers]
    exact List.mem_map_of_mem hfold
  obtain ⟨hfamilies, hlength⟩ := List.mem_filter.1 hmem
  obtain ⟨key, -, hkey⟩ := List.mem_map.1 hfamilies
  have hids : (fold.members.map DocumentTest.id).Sublist filter.closureIds := by
    rw [← hkey]
    exact ((List.filter_sublist.trans List.filter_sublist).map _).trans hsub
  exact ⟨by simpa using hlength, hnodup.sublist hids, hids.subset⟩

/-- A condition belongs to one fold only. -/
theorem FoldsOf.eq_of_has
    {filter : Filter} {folds : List Fold} {fold fold' : Fold} {id : Nat}
    (h : FoldsOf filter folds) (hnodup : filter.closureIds.Nodup)
    (hfold : fold ∈ folds) (hfold' : fold' ∈ folds)
    (hid : id ∈ fold.members.map DocumentTest.id) (hid' : id ∈ fold'.members.map DocumentTest.id) :
    fold = fold' := by
  obtain ⟨tests, hmembers, hsub⟩ := h.families
  have htests : (tests.map DocumentTest.id).Nodup := hnodup.sublist hsub
  have hinj : (folds.map Fold.members).Nodup := by
    rw [hmembers]
    exact (DocumentTest.nodup_families _).filter _
  refine List.inj_on_of_nodup_map hinj hfold hfold' ?_
  have hfamily : ∀ f ∈ folds, ∃ key,
      f.members = DocumentTest.family (tests.filter DocumentTest.endsInMember) key := by
    intro f hf
    have hmem : f.members ∈ foldable tests := by
      rw [← hmembers]
      exact List.mem_map_of_mem hf
    obtain ⟨key, -, hkey⟩ := List.mem_map.1 (List.mem_filter.1 hmem).1
    exact ⟨key, hkey.symm⟩
  obtain ⟨key, hkey⟩ := hfamily fold hfold
  obtain ⟨key', hkey'⟩ := hfamily fold' hfold'
  rw [hkey] at hid
  rw [hkey'] at hid'
  obtain ⟨t, ht, rfl⟩ := List.mem_map.1 hid
  obtain ⟨t', ht', hsame⟩ := List.mem_map.1 hid'
  rw [DocumentTest.mem_family] at ht ht'
  have heq : t = t' := by
    refine List.inj_on_of_nodup_map htests ?_ ?_ hsame.symm
    · exact (List.mem_filter.1 ht.1).1
    · exact (List.mem_filter.1 ht'.1).1
  rw [hkey, hkey', ← ht.2, ← ht'.2, heq]

namespace Account

mutual

theorem sublist_numbers :
    ∀ a : Account, (a.parts.flatMap numbers).Sublist a.filter.ids
  | and children => by
      rw [parts, filter, Filter.ids]
      exact sublist_numbersOfAll children
  | or children => by
      simp [parts, numbers]
  | unbuilt f => by
      simp [parts, numbers]
  | own leaf predicate => by
      simp [parts, numbers, filter, Leaf.filter, Filter.ids]
  | folded leaf fold => by
      simp [parts, numbers, filter, Leaf.filter, Filter.ids]
  | behind leaf key inquiry inner => by
      simp [parts, numbers, filter, Leaf.filter, Filter.ids]
  | quantified id field q key inquiry inner => by
      simp [parts, numbers, filter, Filter.ids]

theorem sublist_numbersOfAll :
    ∀ as : List Account,
      ((partsOfAll as).flatMap numbers).Sublist (Filter.idsOfAll (filters as))
  | [] => by
      simp [partsOfAll]
  | a :: as => by
      rw [partsOfAll, List.flatMap_append, filters, Filter.idsOfAll]
      exact (sublist_numbers a).append (sublist_numbersOfAll as)

end

mutual

/-- Every comparison of a closure is at one of its parts. -/
theorem exists_leaf
    {folds : List Fold} {id : Nat} :
    ∀ a : Account, (∀ x ∈ a.parts, x.FoldedBy folds) → id ∈ a.filter.closureIds →
      ∃ x ∈ a.parts, ∃ leaf, x.leaf? = some leaf ∧ leaf.id = id
  | and children, hparts, hid => by
      rw [parts] at hparts ⊢
      rw [filter, Filter.closureIds] at hid
      exact exists_leafOfAll children hparts hid
  | or children, _, hid => by
      simp [filter, Filter.closureIds] at hid
  | unbuilt f, hparts, _ => by
      exact (hparts (unbuilt f) (by simp [parts])).elim
  | own leaf predicate, _, hid => by
      refine ⟨own leaf predicate, by simp [parts], leaf, rfl, ?_⟩
      simpa [filter, Leaf.filter, Filter.closureIds, eq_comm] using hid
  | folded leaf fold, _, hid => by
      refine ⟨folded leaf fold, by simp [parts], leaf, rfl, ?_⟩
      simpa [filter, Leaf.filter, Filter.closureIds, eq_comm] using hid
  | behind leaf key inquiry inner, _, hid => by
      refine ⟨behind leaf key inquiry inner, by simp [parts], leaf, rfl, ?_⟩
      simpa [filter, Leaf.filter, Filter.closureIds, eq_comm] using hid
  | quantified id field q key inquiry inner, _, hid => by
      simp [filter, Filter.closureIds] at hid

theorem exists_leafOfAll
    {folds : List Fold} {id : Nat} :
    ∀ as : List Account, (∀ x ∈ partsOfAll as, x.FoldedBy folds) →
      id ∈ Filter.closureIdsOfAll (filters as) →
      ∃ x ∈ partsOfAll as, ∃ leaf, x.leaf? = some leaf ∧ leaf.id = id
  | [], _, hid => by
      simp [filters, Filter.closureIdsOfAll] at hid
  | a :: as, hparts, hid => by
      rw [partsOfAll] at hparts ⊢
      rw [filters, Filter.closureIdsOfAll] at hid
      rcases List.mem_append.1 hid with hid | hid
      · obtain ⟨x, hx, hleaf⟩ := exists_leaf a (fun x hx => hparts x (List.mem_append_left _ hx)) hid
        exact ⟨x, List.mem_append_left _ hx, hleaf⟩
      · obtain ⟨x, hx, hleaf⟩ :=
          exists_leafOfAll as (fun x hx => hparts x (List.mem_append_right _ hx)) hid
        exact ⟨x, List.mem_append_right _ hx, hleaf⟩

end

theorem mem_numbers_of_leaf
    {x : Account} {leaf : Leaf}
    (h : x.leaf? = some leaf) :
    leaf.id ∈ x.numbers := by
  cases x <;> simp_all [leaf?, numbers]

end Account

theorem Fold.mem_of_of?
    {folds : List Fold} {fold : Fold} {id : Nat}
    (h : Fold.of? folds id = some fold) :
    fold ∈ folds ∧ id ∈ fold.members.map DocumentTest.id := by
  refine ⟨List.mem_of_find?_eq_some h, ?_⟩
  have hhas : fold.has id = true := by
    simpa using List.find?_some h
  obtain ⟨t, ht, hid⟩ := List.any_eq_true.1 hhas
  exact List.mem_map.2 ⟨t, ht, by simpa using hid⟩

theorem Fold.not_mem_of_of?
    {folds : List Fold} {fold : Fold} {id : Nat}
    (h : Fold.of? folds id = none) (hfold : fold ∈ folds) :
    id ∉ fold.members.map DocumentTest.id := by
  intro hid
  obtain ⟨t, ht, rfl⟩ := List.mem_map.1 hid
  refine List.find?_eq_none.1 h fold hfold ?_
  exact List.any_eq_true.2 ⟨t, ht, by simp⟩

theorem Fold.leads_iff
    {fold : Fold} {id : Nat} :
    fold.leads id = true ↔ ∃ first rest, fold.members = first :: rest ∧ first.id = id := by
  unfold Fold.leads
  cases fold.members with
  | nil => simp
  | cons first rest => simp

namespace Account

section Closure

variable {a : Account} {folds : List Fold}

/-- Every folded part has the first member of its group among the parts. -/
theorem exists_leader
    (hfolds : FoldsOf a.filter folds) (hnodup : a.filter.closureIds.Nodup)
    (hparts : ∀ x ∈ a.parts, x.FoldedBy folds)
    {leaf : Leaf} {fold : Fold}
    (hx : folded leaf fold ∈ a.parts) :
    ∃ first, folded first fold ∈ a.parts ∧ fold.leads first.id = true := by
  obtain ⟨hfold, hid⟩ := Fold.mem_of_of? (hparts _ hx)
  obtain ⟨hlength, -, hsubset⟩ := hfolds.members hnodup hfold
  obtain ⟨t, rest, hmembers⟩ : ∃ t rest, fold.members = t :: rest := by
    cases hmembers : fold.members with
    | nil =>
        rw [hmembers] at hlength
        cases hlength
    | cons t rest =>
        exact ⟨t, rest, rfl⟩
  have ht : t.id ∈ fold.members.map DocumentTest.id := by
    rw [hmembers]
    exact List.mem_cons_self
  obtain ⟨y, hy, first, hleaf, hfirst⟩ := exists_leaf a hparts (hsubset ht)
  have hfolded := hparts y hy
  have hleads : fold.leads first.id = true := Fold.leads_iff.2 ⟨t, rest, hmembers, hfirst.symm⟩
  rw [← hfirst] at ht
  cases y with
  | own l predicate =>
      cases hleaf
      exact absurd ht (Fold.not_mem_of_of? hfolded.1 hfold)
  | behind l key inquiry inner =>
      cases hleaf
      exact absurd ht (Fold.not_mem_of_of? hfolded.1 hfold)
  | folded l fold' =>
      cases hleaf
      obtain ⟨hfold', hid'⟩ := Fold.mem_of_of? hfolded
      rw [hfolds.eq_of_has hnodup hfold hfold' ht hid'] at hleads ⊢
      exact ⟨first, hy, hleads⟩
  | _ =>
      cases hleaf

theorem eq_of_mem_flatMap
    {α β : Type} {f : α → List β} {b : β} {x y : α} :
    ∀ {l : List α}, (l.flatMap f).Nodup → x ∈ l → y ∈ l → b ∈ f x → b ∈ f y → x = y
  | [], _, hx, _, _, _ => by
      cases hx
  | z :: l, hnodup, hx, hy, hbx, hby => by
      rw [List.flatMap_cons, List.nodup_append'] at hnodup
      obtain ⟨-, hnodup, hdisjoint⟩ := hnodup
      rcases List.mem_cons.1 hx with rfl | hx'
      · rcases List.mem_cons.1 hy with rfl | hy'
        · rfl
        · exact (hdisjoint hbx (List.mem_flatMap.2 ⟨y, hy', hby⟩)).elim
      · rcases List.mem_cons.1 hy with rfl | hy'
        · exact (hdisjoint hby (List.mem_flatMap.2 ⟨x, hx', hbx⟩)).elim
        · exact eq_of_mem_flatMap hnodup hx' hy' hbx hby

/-- What a part covers: a whole group, if it is the first member of one, or else
its own condition, which is in no group. -/
theorem mem_covers
    (hfolds : FoldsOf a.filter folds) (hnodup : a.filter.ids.Nodup)
    (hparts : ∀ x ∈ a.parts, x.FoldedBy folds)
    {x : Account} {id : Nat} (hx : x ∈ a.parts) (hid : id ∈ x.covers) :
    (∃ leaf fold, x = folded leaf fold ∧ fold ∈ folds ∧ fold.leads leaf.id = true ∧
        id ∈ fold.members.map DocumentTest.id) ∨
      (id ∈ x.numbers ∧ ∀ fold ∈ folds, id ∉ fold.members.map DocumentTest.id) := by
  have hfolded := hparts x hx
  cases x with
  | folded leaf fold =>
      rw [covers] at hid
      split at hid
      · rename_i hleads
        exact .inl ⟨leaf, fold, rfl, (Fold.mem_of_of? hfolded).1, hleads, hid⟩
      · cases hid
  | own leaf predicate =>
      refine .inr ⟨hid, fun fold hfold => ?_⟩
      rw [List.mem_singleton.1 hid]
      exact Fold.not_mem_of_of? hfolded.1 hfold
  | behind leaf key inquiry inner =>
      refine .inr ⟨hid, fun fold hfold => ?_⟩
      rw [List.mem_singleton.1 hid]
      exact Fold.not_mem_of_of? hfolded.1 hfold
  | quantified number field q key inquiry inner =>
      -- a member of a fold is at a comparison, and no comparison has this number
      refine .inr ⟨hid, fun fold hfold hmem => ?_⟩
      have hclosure := (hfolds.members (Filter.nodup_closureIds hnodup) hfold).2.2 hmem
      obtain ⟨y, hy, leaf, hleaf, rfl⟩ := exists_leaf a hparts hclosure
      have hsame := eq_of_mem_flatMap (hnodup.sublist (sublist_numbers a)) hx hy hid
        (mem_numbers_of_leaf hleaf)
      rw [← hsame] at hleaf
      cases hleaf
  | _ =>
      cases hid

/-- Parts with different numbers cover different conditions. -/
theorem disjoint_covers
    (hfolds : FoldsOf a.filter folds) (hnodup : a.filter.ids.Nodup)
    (hparts : ∀ x ∈ a.parts, x.FoldedBy folds)
    {x y : Account} (hx : x ∈ a.parts) (hy : y ∈ a.parts)
    (hdisjoint : List.Disjoint x.numbers y.numbers) :
    List.Disjoint x.covers y.covers := by
  intro id hidx hidy
  rcases mem_covers hfolds hnodup hparts hx hidx with
    ⟨leaf, fold, rfl, hfold, hleads, hmem⟩ | ⟨hnumber, hnone⟩
  · rcases mem_covers hfolds hnodup hparts hy hidy with
      ⟨leaf', fold', rfl, hfold', hleads', hmem'⟩ | ⟨-, hnone⟩
    · have hsame := hfolds.eq_of_has (Filter.nodup_closureIds hnodup) hfold hfold' hmem hmem'
      subst hsame
      obtain ⟨first, rest, hmembers, hfirst⟩ := Fold.leads_iff.1 hleads
      obtain ⟨first', rest', hmembers', hfirst'⟩ := Fold.leads_iff.1 hleads'
      rw [hmembers] at hmembers'
      cases hmembers'
      have heq : leaf'.id = leaf.id := hfirst'.symm.trans hfirst
      exact hdisjoint List.mem_cons_self (by rw [← heq]; exact List.mem_cons_self)
    · exact hnone fold hfold hmem
  · rcases mem_covers hfolds hnodup hparts hy hidy with
      ⟨leaf', fold', rfl, hfold', -, hmem'⟩ | ⟨hnumber', -⟩
    · exact hnone fold' hfold' hmem'
    · exact hdisjoint hnumber hnumber'

theorem nodup_covers
    (hfolds : FoldsOf a.filter folds) (hnodup : a.filter.ids.Nodup)
    (hparts : ∀ x ∈ a.parts, x.FoldedBy folds) :
    (a.parts.flatMap covers).Nodup := by
  have hnumbers := hnodup.sublist (sublist_numbers a)
  rw [List.nodup_flatMap] at hnumbers ⊢
  refine ⟨?_, hnumbers.2.imp_of_mem fun hx hy => disjoint_covers hfolds hnodup hparts hx hy⟩
  intro x hx
  cases x with
  | folded leaf fold =>
      rw [covers]
      split
      · have hfold := (Fold.mem_of_of? (hparts _ hx)).1
        exact (hfolds.members (Filter.nodup_closureIds hnodup) hfold).2.1
      · exact List.nodup_nil
  | _ =>
      exact hnumbers.1 _ hx

/-- Every condition of a closure is covered by the predicate at one part, and by no
other. -/
theorem covers_perm
    (hsound : ∃ folds, FoldsOf a.filter folds ∧ ∀ x ∈ a.parts, x.FoldedBy folds)
    (hnodup : a.filter.ids.Nodup) :
    (a.parts.flatMap covers).Perm (a.parts.flatMap numbers) := by
  obtain ⟨folds, hfolds, hparts⟩ := hsound
  have hclosure := Filter.nodup_closureIds hnodup
  rw [List.perm_ext_iff_of_nodup (nodup_covers hfolds hnodup hparts)
    (hnodup.sublist (sublist_numbers a))]
  intro id
  rw [List.mem_flatMap, List.mem_flatMap]
  constructor
  · rintro ⟨x, hx, hid⟩
    rcases mem_covers hfolds hnodup hparts hx hid with ⟨-, fold, -, hfold, -, hmem⟩ | ⟨hnumber, -⟩
    · obtain ⟨y, hy, leaf, hleaf, rfl⟩ :=
        exists_leaf a hparts ((hfolds.members hclosure hfold).2.2 hmem)
      exact ⟨y, hy, mem_numbers_of_leaf hleaf⟩
    · exact ⟨x, hx, hnumber⟩
  · rintro ⟨x, hx, hid⟩
    cases x with
    | folded leaf fold =>
        obtain ⟨first, hfirst, hleads⟩ := exists_leader hfolds hclosure hparts hx
        refine ⟨_, hfirst, ?_⟩
        rw [covers, if_pos hleads, List.mem_singleton.1 hid]
        exact (Fold.mem_of_of? (hparts _ hx)).2
    | _ =>
        exact ⟨_, hx, hid⟩

end Closure

end Account
end RowFilter
