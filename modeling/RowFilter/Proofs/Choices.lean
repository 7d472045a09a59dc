import RowFilter.Proofs.Attempts
import RowFilter.Compilation.Basic

/-!
# What the options of a compilation decide

The dialect is not looked at before a statement is written, and the nesting limit
not after the filter is read.  What is left is the permission case, and it matters
only to disjunctions that have an empty alternative.

* `Setting.Concurs`: two settings make no difference to a filter.
* `compileTree_eq_of_concurs`: then they compile it alike.
-/

namespace RowFilter

mutual

/-- No disjunction of the filter, or of a filter inside it, has an empty
alternative. -/
def Filter.isExacting : Filter → Bool
  | .and children => Filter.allExacting children
  | .or children => !children.any Filter.isMatchAll && Filter.allExacting children
  | .compare .. => true
  | .quantify _ _ _ inner => inner.isExacting

/-- None of the filters has such a disjunction. -/
def Filter.allExacting : List Filter → Bool
  | [] => true
  | child :: rest => child.isExacting && Filter.allExacting rest

end

/-- Two settings make no difference to a filter: they have the same schema, and
decide permissions both or neither, unless that does not matter. -/
structure Setting.Concurs (s t : Setting) (exacting : Bool) : Prop where
  schema : s.schema = t.schema
  permissionCase : s.options.permissionCase = t.options.permissionCase ∨ exacting = true

namespace Setting.Concurs

variable {s t : Setting}

theorem and_left
    {a b : Bool}
    (h : s.Concurs t (a && b)) :
    s.Concurs t a :=
  ⟨h.schema, h.permissionCase.imp_right fun hab => (Bool.and_eq_true_iff.1 hab).1⟩

theorem and_right
    {a b : Bool}
    (h : s.Concurs t (a && b)) :
    s.Concurs t b :=
  ⟨h.schema, h.permissionCase.imp_right fun hab => (Bool.and_eq_true_iff.1 hab).2⟩

end Setting.Concurs

section Concurs

variable {s t : Setting}

mutual

theorem planJoins_eq_of_concurs :
    ∀ {filter : Filter}, s.Concurs t filter.isExacting → planJoins s filter = planJoins t filter
  | .and children, h => by
      rw [planJoins, planJoins]
      rw [Filter.isExacting] at h
      exact planAllJoins_eq_of_concurs h
  | .or children, h => by
      rw [Filter.isExacting] at h
      have hskips : (children.any Filter.isMatchAll &&
            !(s.options.permissionCase && children.length > 1)) =
          (children.any Filter.isMatchAll &&
            !(t.options.permissionCase && children.length > 1)) := by
        rcases h.and_left.permissionCase with hcase | hnone
        · rw [hcase]
        · rw [Bool.not_eq_true'] at hnone
          rw [hnone, Bool.false_and, Bool.false_and]
      rw [planJoins, planJoins, hskips, planAllJoins_eq_of_concurs h.and_right]
  | .compare _ path _ _, h => by
      rw [planJoins, planJoins, h.schema]
  | .quantify _ field _ _, h => by
      rw [planJoins, planJoins, h.schema]

theorem planAllJoins_eq_of_concurs :
    ∀ {filters : List Filter}, s.Concurs t (Filter.allExacting filters) →
      planAllJoins s filters = planAllJoins t filters
  | [], _ => by
      rw [planAllJoins, planAllJoins]
  | child :: rest, h => by
      rw [Filter.allExacting] at h
      rw [planAllJoins, planAllJoins, planJoins_eq_of_concurs h.and_left,
        planAllJoins_eq_of_concurs h.and_right]

end

mutual

theorem filterCondition_eq_of_concurs :
    ∀ {filter : Filter}, s.Concurs t filter.isExacting →
      filterCondition s filter = filterCondition t filter
  | .and children, h => by
      rw [Filter.isExacting] at h
      rw [filterCondition, filterCondition, h.schema, allConditions_eq_of_concurs h]
  | .or children, h => by
      rw [Filter.isExacting] at h
      rw [filterCondition, filterCondition, alternativeConditions_eq_of_concurs h.and_right]
  | .compare id path c operand, h => by
      rw [filterCondition, filterCondition, h.schema]
  | .quantify id field q inner, h => by
      rw [Filter.isExacting] at h
      rw [filterCondition, filterCondition, h.schema, planJoins_eq_of_concurs h,
        filterCondition_eq_of_concurs h]

theorem allConditions_eq_of_concurs :
    ∀ {filters : List Filter}, s.Concurs t (Filter.allExacting filters) →
      allConditions s filters = allConditions t filters
  | [], _ => by
      rw [allConditions, allConditions]
  | child :: rest, h => by
      rw [Filter.allExacting] at h
      rw [allConditions, allConditions, filterCondition_eq_of_concurs h.and_left,
        allConditions_eq_of_concurs h.and_right]

theorem alternativeConditions_eq_of_concurs :
    ∀ {filters : List Filter}, s.Concurs t (Filter.allExacting filters) →
      alternativeConditions s filters = alternativeConditions t filters
  | [], _ => by
      rw [alternativeConditions, alternativeConditions]
  | child :: rest, h => by
      rw [Filter.allExacting] at h
      rw [alternativeConditions, alternativeConditions, filterCondition_eq_of_concurs h.and_left,
        alternativeConditions_eq_of_concurs h.and_right]

end

/-- Settings that make no difference to a filter compile it alike. -/
theorem compileTree_eq_of_concurs
    {filter : Filter}
    (h : s.Concurs t filter.isExacting) (collection : String) :
    s.compileTree collection filter = t.compileTree collection filter := by
  have hrun : s.run filter = t.run filter := by
    rw [Setting.run, Setting.run, planJoins_eq_of_concurs h, filterCondition_eq_of_concurs h]
  rw [Setting.compileTree, Setting.compileTree, hrun]

/-- Settings that make no difference to what is read from a document compile the
document alike. -/
theorem compile_eq_of_concurs
    {filter : Json}
    (hschema : s.schema = t.schema) (hdepth : s.options.maxDepth = t.options.maxDepth)
    (h : ∀ tree, Filter.ofJson s.options.maxDepth filter = .ok tree →
      s.Concurs t tree.isExacting)
    (collection : String) :
    s.compile collection filter = t.compile collection filter := by
  rw [Setting.compile, Setting.compile, ← hschema, ← hdepth]
  refine bind_congr fun _ => ?_
  cases htree : Filter.ofJson s.options.maxDepth filter with
  | error e => rfl
  | ok tree => exact compileTree_eq_of_concurs (h tree htree) collection

end Concurs

end RowFilter
