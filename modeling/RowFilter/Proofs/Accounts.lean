import RowFilter.Proofs.Grouping
import RowFilter.Proofs.Inquiries
import RowFilter.Proofs.Locating

/-!
# Accounts of compilations

An account is a filter on whose tree every condition says what became of it: it
has a predicate of its own, it asks nothing, or it was folded into a group.  The
account of a filter is built in one pass.  Nothing is remembered between the
conditions of a conjunction: the folds of a closure (a conjunction together with
the conjunctions inside it) are found when the closure is entered, and are handed
down to its conditions.

* `Account.condition`: the condition that an account adds up to.
* `Account.filter`: the filter that it is an account of.
* `account`: the one-pass construction.
-/

namespace RowFilter

open Sql (Expr)

/-- A comparison of a filter. -/
structure Leaf where
  id : Nat
  path : List Segment
  comparison : Comparison
  operand : Json

/-- The comparison as a filter. -/
def Leaf.filter (leaf : Leaf) : Filter :=
  .compare leaf.id leaf.path leaf.comparison leaf.operand

/-- A group of tests that is asked of one element. -/
structure Fold where
  members : List DocumentTest
  /-- The condition of the group; none if no member asks anything. -/
  shared : Option Expr

namespace Fold

/-- A condition is a member. -/
def has (fold : Fold) (id : Nat) : Bool :=
  fold.members.any fun t => t.id == id

/-- A condition is the first member. -/
def leads (fold : Fold) (id : Nat) : Bool :=
  fold.members.head?.any fun t => t.id == id

/-- What stands at a member: the condition of the group at the first, nothing at
the others. -/
def standing (fold : Fold) (id : Nat) : Option Expr :=
  if fold.leads id then fold.shared else none

/-- The group that a condition is folded into. -/
def of? (folds : List Fold) (id : Nat) : Option Fold :=
  folds.find? fun fold => fold.has id

end Fold

/-- What became of the conditions of a filter. -/
inductive Account where
  | and (children : List Account)
  | or (children : List Account)
  /-- An alternative that was not needed. -/
  | unbuilt (filter : Filter)
  /-- A comparison with its own predicate; none if it asks nothing. -/
  | own (leaf : Leaf) (predicate : Option Expr)
  /-- A comparison that was folded into a group. -/
  | folded (leaf : Leaf) (fold : Fold)
  /-- A comparison behind a relation to many rows, with the account of the rest of
  its path. -/
  | behind (leaf : Leaf) (key : Expr) (inquiry : Inquiry) (inner : Account)
  /-- A quantified condition, with the account of its filter. -/
  | quantified (id : Nat) (field : Segment) (q : Quantifier) (key : Expr) (inquiry : Inquiry)
      (inner : Account)

namespace Account

mutual

/-- The condition that an account adds up to; none if every row matches. -/
def condition : Account → Option Expr
  | and children => Expr.group? .and (conditions children)
  | or children => (alternatives? children).bind (Expr.group? .or)
  | unbuilt _ => none
  | own _ predicate => predicate
  | folded leaf fold => fold.standing leaf.id
  | behind _ key inquiry inner => some (inquiry.predicate key false inner.condition)
  | quantified _ _ q key inquiry inner =>
      some (inquiry.predicate key (q == .none) inner.condition)

/-- The conditions of accounts that must hold together. -/
def conditions : List Account → List Expr
  | [] => []
  | child :: rest => child.condition.toList ++ conditions rest

/-- The conditions of alternatives; none if every row matches one. -/
def alternatives? : List Account → Option (List Expr)
  | [] => some []
  | child :: rest =>
      match child.condition with
      | none => none
      | some e => (alternatives? rest).map (e :: ·)

end

mutual

/-- The filter of an account. -/
def filter : Account → Filter
  | and children => .and (filters children)
  | or children => .or (filters children)
  | unbuilt f => f
  | own leaf _ => leaf.filter
  | folded leaf _ => leaf.filter
  | behind leaf _ _ _ => leaf.filter
  | quantified id field q _ _ inner => .quantify id field q inner.filter

/-- The filters of accounts. -/
def filters : List Account → List Filter
  | [] => []
  | child :: rest => child.filter :: filters rest

end

/-- A property of the conditions of all accounts is one of the conditions that must hold
together. -/
theorem forall_conditions
    {P : Expr → Prop} :
    ∀ {accounts : List Account}, (∀ a ∈ accounts, ∀ e ∈ a.condition, P e) →
      ∀ e ∈ conditions accounts, P e
  | [], _ => by simp [conditions]
  | a :: rest, h => by
      obtain ⟨ha, hrest⟩ := List.forall_mem_cons.1 h
      rw [conditions]
      refine List.forall_mem_append.2 ⟨fun e he => ha e ?_, forall_conditions hrest⟩
      exact Option.mem_toList.1 he

theorem forall_alternatives
    {P : Expr → Prop} :
    ∀ {accounts : List Account} {es : List Expr}, (∀ a ∈ accounts, ∀ e ∈ a.condition, P e) →
      alternatives? accounts = some es → ∀ e ∈ es, P e
  | [], es, _, hes => by
      rw [alternatives?] at hes
      cases hes
      simp
  | a :: rest, es, h, hes => by
      obtain ⟨ha, hrest⟩ := List.forall_mem_cons.1 h
      rw [alternatives?] at hes
      split at hes
      · cases hes
      · rename_i e he
        obtain ⟨others, hothers, rfl⟩ := Option.map_eq_some_iff.1 hes
        exact List.forall_mem_cons.2 ⟨ha e he, forall_alternatives hrest hothers⟩

end Account

/-- The tests of a filter outside its disjunctions and quantified conditions, by
the joins of a plan. -/
def JoinPlan.testOf (schema : Schema) (plan : JoinPlan) (leaf : Leaf) :
    Except QueryError (List DocumentTest) :=
  match plan.destination? schema leaf.path with
  | some (.json place (s :: rest)) => do
      checkJsonPath place.segment.name (s :: rest) (.compare leaf.comparison)
      return [place.documentTest leaf.id (s :: rest) leaf.comparison leaf.operand]
  | _ => .ok []

mutual

/-- The tests of a filter outside its disjunctions and quantified conditions, in
the order of the tree. -/
def closureTests (schema : Schema) (plan : JoinPlan) : Filter → Except QueryError (List DocumentTest)
  | .and children => allClosureTests schema plan children
  | .or _ => .ok []
  | .compare id path c operand => plan.testOf schema ⟨id, path, c, operand⟩
  | .quantify _ _ _ _ => .ok []

/-- The tests of filters that must hold together. -/
def allClosureTests (schema : Schema) (plan : JoinPlan) :
    List Filter → Except QueryError (List DocumentTest)
  | [] => .ok []
  | child :: rest => do
      let tests ← closureTests schema plan child
      let others ← allClosureTests schema plan rest
      return tests ++ others

end

/-- The families of two or more among the tests whose paths end in a segment without an
index. -/
def foldable (tests : List DocumentTest) : List (List DocumentTest) :=
  (DocumentTest.families (tests.filter fun t => t.path.getLast?.any (·.index.isNone))).filter
    (2 ≤ ·.length)

/-- Asks the tests of each family together. -/
def makeFolds : List (List DocumentTest) → Compiling (List Fold)
  | [] => return []
  | members :: rest => do
      let shared ← Compiling.label (DocumentTest.together members)
      let folds ← makeFolds rest
      return ⟨members, shared⟩ :: folds

/-- The folds of a closure. -/
def closureFolds (schema : Schema) (children : List Filter) : Compiling (List Fold) := do
  let plan := (← Attempt.state).plan
  let tests ← Attempt.ofExcept (allClosureTests schema plan children)
  makeFolds (foldable tests)

/-- The folds for the children of a conjunction: those handed down, if the
conjunction lies in a closure, and otherwise those of the closure it opens. -/
def foldsWithin (schema : Schema) (children : List Filter) :
    Option (List Fold) → Compiling (List Fold)
  | some folds => return folds
  | none => closureFolds schema children

/-- The account of a comparison of its own, at the end of a path of at most
`limit` segments. -/
def comparisonAccount (schema : Schema) (id : Nat) (c : Comparison) (operand : Json) :
    Nat → List Segment → Compiling Account
  | 0, _ => .fail .emptyPath
  | limit + 1, path => do
      match ← Compiling.locate schema path with
      | .toMany place relation scope (s :: rest) =>
          let link ← Attempt.ofExcept (Link.of schema place relation scope)
          let (inner, inquiry) ← link.probe.enter schema do
            let _ ← Compiling.locate schema (s :: rest)
            comparisonAccount schema id c operand limit (s :: rest)
          return .behind ⟨id, path, c, operand⟩ link.parentKey inquiry inner
      | destination =>
          return .own ⟨id, path, c, operand⟩ (← arrivalCondition schema id c operand destination)

mutual

/-- The account of a filter, with the folds of the closure that it lies in. -/
def account (s : Setting) (within : Option (List Fold)) : Filter → Compiling Account
  | .and children => do
      let folds ← foldsWithin s.schema children within
      return .and (← accounts s folds children)
  | .or children =>
      if children.any Filter.isMatchAll then
        return .or (children.map .unbuilt)
      else
        return .or (← alternativeAccounts s children)
  | .compare id path c operand =>
      match within.bind (Fold.of? · id) with
      | some fold => return .folded ⟨id, path, c, operand⟩ fold
      | none => comparisonAccount s.schema id c operand path.length path
  | .quantify id field q inner => do
      let probe ← quantifierProbe s.schema field q
      let (a, inquiry) ← probe.enter s.schema do
        planJoins s inner
        account s none inner
      return .quantified id field q probe.key inquiry a

/-- The accounts of filters in a closure. -/
def accounts (s : Setting) (folds : List Fold) : List Filter → Compiling (List Account)
  | [] => return []
  | child :: rest => do
      let a ← account s (some folds) child
      let others ← accounts s folds rest
      return a :: others

/-- The accounts of alternatives.  None is built after one that every row
matches. -/
def alternativeAccounts (s : Setting) : List Filter → Compiling (List Account)
  | [] => return []
  | child :: rest => do
      let a ← account s none child
      match a.condition with
      | none => return a :: rest.map .unbuilt
      | some _ => return a :: (← alternativeAccounts s rest)

end

/-- Plans the joins of a filter and gives its account. -/
def Setting.account (s : Setting) (filter : Filter) : Compiling Account := do
  planJoins s filter
  RowFilter.account s none filter

end RowFilter
