import RowFilter.Proofs.Refusals
import RowFilter.Proofs.Requests
import RowFilter.Proofs.SharedElements
import RowFilter.Proofs.Templates

/-!
# Tests that ask nothing

A test of a JSON document may be refused, and it may ask nothing.  In a group of tests that
can be found out at any of them, before or after others were looked at.  Labels are asked for
only after that.  Then the condition is built in the end, since no template lacks a value, so a
condition that is not built has taken no label.

* `DocumentTest.Outcome`: how a run ends and which labels it leaves.
* `DocumentTest.exists_condition?_of_filled`: a test that asks something builds its condition.
* `DocumentTest.criteria_eq_nil_iff`: groups of tests that ask nothing.
* `DocumentTest.idle_tests_take_no_labels`: labels after tests, alone and together.
-/

namespace RowFilter
namespace DocumentTest

open Sql (Expr PathArg)

/-- The key of the field that a test looks into. -/
def fieldKey (t : DocumentTest) : Labels.Key :=
  .field t.collection t.field

/-- The key of the elements that hold the member that a test reads. -/
def elementsKey (t : DocumentTest) : Labels.Key :=
  .elements t.collection t.field t.elementPath

/-- The ways in which a run from the labels `l` may end.  It builds a condition on the matches
of the path with the label of the answer, and leaves the labels of the answer; or it leaves
`l`. -/
inductive Outcome (t : DocumentTest) (path : PathArg) (answer : Labelled × Labels) (l : Labels) :
    Except QueryError (Option Expr) × Labels → Prop
  | refused (e : QueryError) : Outcome t path answer l (.error e, l)
  | idle : Outcome t path answer l (.ok none, l)
  | built (condition : Expr) :
      Outcome t path answer l
        (.ok (some (existsMatch t.column path answer.1.label condition)), answer.2)

section Outcomes

variable {t : DocumentTest} {path : PathArg} {answer : Labelled × Labels} {l : Labels}
variable {run : Except QueryError (Option Expr) × Labels}

theorem Outcome.labels_of_idle
    (h : Outcome t path answer l run)
    (hidle : (∃ e, run.1 = .error e) ∨ run.1 = .ok none) :
    run.2 = l := by
  cases h with
  | refused e => rfl
  | idle => rfl
  | built condition =>
      rcases hidle with ⟨e, he⟩ | hnone
      · cases he
      · cases hnone

theorem Outcome.labels_of_built
    {e : Expr}
    (h : Outcome t path answer l run) (hbuilt : run.1 = .ok (some e)) :
    run.2 = answer.2 ∧
      ∃ condition, e = existsMatch t.column path answer.1.label condition := by
  cases h with
  | refused e => cases hbuilt
  | idle => cases hbuilt
  | built condition =>
      cases hbuilt
      exact ⟨rfl, condition, rfl⟩

end Outcomes

/-- What is asked of a row, by the template and the values of the criterion. -/
theorem condition?_eq_apply_mapped
    (label : String) (key : Option String) (c : Criterion) :
    condition? label key c =
      c.mapped.casted.apply (.cast (.jsonValue label key) c.mapped.castType) := by
  rw [condition?, c.casted_mapped, c.castType_mapped, c.casted.apply_mapped]

/-- A test that asks something has a value for each placeholder, so its condition is built. -/
theorem exists_condition?_of_filled
    {t : DocumentTest} {c : Criterion}
    (hcriterion : t.operator.criterion t.operand = .ok c) (halways : c.isAlways = false)
    (label : String) (key : Option String) :
    ∃ condition, condition? label key c = some condition := by
  have hmapped : t.operator.mapped t.operand = .ok c.mapped := by
    rw [t.operator.mapped_eq, hcriterion]
    rfl
  have hfilled := (Operator.filled_of_mapped hmapped).casted
  rw [← Option.ne_none_iff_exists', condition?_eq_apply_mapped, Ne, hfilled.apply_eq_none_iff,
    c.mapped.template_casted, c.template_mapped_eq_always_iff, halways]
  exact Bool.false_ne_true

/-- A test on its own asks for the label of its field, if it asks for any. -/
theorem outcome_alone
    (t : DocumentTest) (l : Labels) :
    Outcome t (.bound (JsonPath.text t.path false)) (l.assign t.fieldKey) l (t.alone.run l) := by
  cases hcriterion : t.operator.criterion t.operand with
  | error e =>
      have hrun : t.alone.run l = (.error e, l) :=
        Attempt.run_bind_of_error _ (congrArg (·, l) hcriterion)
      rw [hrun]
      exact .refused e
  | ok c =>
      cases halways : c.isAlways with
      | true =>
          rw [run_alone_of_isAlways l hcriterion halways]
          exact .idle
      | false =>
          obtain ⟨condition, hcondition⟩ :=
            exists_condition?_of_filled hcriterion halways
              (l.ofField t.collection t.field).1.label none
          rw [run_alone_of_condition? hcriterion halways hcondition]
          exact .built condition

/-! ## Groups of tests -/

/-- The tests of a group ask nothing if each of them has a member to read and asks nothing of
it. -/
theorem criteria_eq_nil_iff
    (tests : List DocumentTest) :
    criteria tests = .ok [] ↔
      ∀ t ∈ tests, t.path ≠ [] ∧ t.operator.criterion t.operand = .ok .always := by
  induction tests with
  | nil => simp [criteria]
  | cons t tests ih =>
      rw [List.forall_mem_cons, ← ih, criteria_cons_eq_ok_iff]
      constructor
      · rintro ⟨key, c, others, hlast, hcriterion, hothers, hasked⟩
        have hpath : t.path ≠ [] := by
          rintro hnil
          simp [hnil] at hlast
        cases c with
        | always =>
            rw [hasked]
            exact ⟨⟨hpath, hcriterion⟩, hothers⟩
        | _ => cases hasked
      · rintro ⟨⟨hpath, hcriterion⟩, hothers⟩
        have hlast := List.getLast?_eq_getLast_of_ne_nil hpath
        exact ⟨t.path.getLast hpath, .always, [], hlast, hcriterion, hothers, rfl⟩

/-- What is asked puts a condition on the element. -/
theorem isAlways_of_mem_criteria
    {tests : List DocumentTest} {asked : List (String × Criterion)}
    (h : criteria tests = .ok asked) :
    ∀ x ∈ asked, x.2.isAlways = false := by
  induction tests generalizing asked with
  | nil =>
      cases h
      simp
  | cons t tests ih =>
      obtain ⟨key, c, others, -, -, hothers, rfl⟩ := criteria_cons_eq_ok_iff.1 h
      cases halways : c.isAlways with
      | true => exact ih hothers
      | false => exact List.forall_mem_cons.2 ⟨halways, ih hothers⟩

/-- What is asked of an element makes a condition. -/
theorem exists_group?_of_criteria
    {tests : List DocumentTest} {asked : List (String × Criterion)}
    (h : criteria tests = .ok asked) (hne : asked ≠ []) (label : String) :
    ∃ condition, Expr.group? .and
      (asked.filterMap fun (key, c) => condition? label (some key) c) = some condition := by
  rw [← Option.ne_none_iff_exists', Ne, Expr.group?_eq_none_iff]
  obtain ⟨⟨key, c⟩, rest, rfl⟩ := List.exists_cons_of_ne_nil hne
  obtain ⟨t, -, hcriterion⟩ := exists_of_mem_criteria h (key, c) List.mem_cons_self
  have halways := isAlways_of_mem_criteria h (key, c) List.mem_cons_self
  obtain ⟨condition, hcondition⟩ :=
    exists_condition?_of_filled hcriterion halways label (some key)
  simp [hcondition]

section Together

variable {first : DocumentTest} {others : List DocumentTest} (l : Labels)

theorem run_together_of_error
    {e : QueryError}
    (h : criteria (first :: others) = .error e) :
    (together (first :: others)).run l = (.error e, l) := by
  rw [together]
  exact Attempt.run_bind_of_error _ (congrArg (·, l) h)

theorem run_together_of_nil
    (h : criteria (first :: others) = .ok []) :
    (together (first :: others)).run l = (.ok none, l) := by
  rewrite [together, Attempt.run_bind_of_ok _ (congrArg (·, l) h)]
  rfl

theorem run_together_of_ne_nil
    {asked : List (String × Criterion)}
    (h : criteria (first :: others) = .ok asked) (hne : asked ≠ []) :
    ∃ condition, (together (first :: others)).run l =
      (.ok (some (existsMatch first.column (.inline first.elementPath)
          (l.ofElements first.collection first.field first.elementPath).1.label condition)),
        (l.ofElements first.collection first.field first.elementPath).2) := by
  obtain ⟨condition, hcondition⟩ := exists_group?_of_criteria h hne
    (l.ofElements first.collection first.field first.elementPath).1.label
  have hempty : ¬asked.isEmpty = true := by simpa using hne
  refine ⟨condition, ?_⟩
  rw [together, Attempt.run_bind_of_ok _ (congrArg (·, l) h), if_neg hempty,
    Attempt.run_bind_of_ok _ (Attempt.run_ofState _ _), Attempt.run_pure, hcondition]
  rfl

end Together

/-- Tests together ask for the labels of the field and of the elements of the first one, if
they ask for any. -/
theorem outcome_together
    (first : DocumentTest) (others : List DocumentTest) (l : Labels) :
    Outcome first (.inline first.elementPath)
      ((l.assign first.fieldKey).2.assign first.elementsKey) l
      ((together (first :: others)).run l) := by
  cases hasked : criteria (first :: others) with
  | error e =>
      rw [run_together_of_error l hasked]
      exact .refused e
  | ok asked =>
      by_cases hne : asked = []
      · rw [run_together_of_nil l (hne ▸ hasked)]
        exact .idle
      · obtain ⟨condition, hrun⟩ := run_together_of_ne_nil l hasked hne
        rw [hrun]
        exact .built condition

/-- Tests together ask nothing just if there are any, and each of them has a path and asks
nothing. -/
theorem together_eq_none_iff
    (tests : List DocumentTest) (l : Labels) :
    ((together tests).run l).1 = .ok none ↔
      tests ≠ [] ∧
        ∀ t ∈ tests, t.path ≠ [] ∧ t.operator.mapped t.operand = .ok ⟨.always, []⟩ := by
  simp only [Operator.mapped_eq_always_iff]
  rw [← criteria_eq_nil_iff]
  cases tests with
  | nil => simp [together]
  | cons first others =>
      cases hasked : criteria (first :: others) with
      | error e => simp [run_together_of_error l hasked]
      | ok asked =>
          by_cases hne : asked = []
          · simp [run_together_of_nil l (hne ▸ hasked), hne]
          · obtain ⟨condition, hrun⟩ := run_together_of_ne_nil l hasked hne
            simp [hrun, hne]

/-- **Idle tests take no labels.**  From all labels: if a test on its own is refused or asks
nothing then the labels stay as they are, and if it has a condition then the label of its field
was asked for and nothing else, and the condition carries it.  The same holds of tests
together, where the labels of the field and of the elements of the first test are asked for, and
the condition carries the second.  Tests together ask nothing exactly if there are any, each of
them has a path, and each of them asks nothing. -/
theorem idle_tests_take_no_labels :
    (∀ (t : DocumentTest) (l : Labels),
      ((∃ e, (t.alone.run l).1 = .error e) ∨ (t.alone.run l).1 = .ok none →
        (t.alone.run l).2 = l) ∧
      ∀ e, (t.alone.run l).1 = .ok (some e) →
        (t.alone.run l).2 = (l.assign t.fieldKey).2 ∧
        ∃ condition, e = .existsRow {
          columns := [.raw "1"]
          source := some (.jsonRows (.column t.qualifier t.field)
            (.bound (JsonPath.text t.path false)) (some (l.assign t.fieldKey).1.label))
          joins := []
          condition := some condition }) ∧
    ∀ (tests : List DocumentTest) (l : Labels),
      ((∃ e, ((together tests).run l).1 = .error e) ∨ ((together tests).run l).1 = .ok none →
        ((together tests).run l).2 = l) ∧
      (∀ e, ((together tests).run l).1 = .ok (some e) → ∃ first ∈ tests.head?,
        ((together tests).run l).2 = ((l.assign first.fieldKey).2.assign first.elementsKey).2 ∧
        ∃ condition, e = .existsRow {
          columns := [.raw "1"]
          source := some (.jsonRows (.column first.qualifier first.field)
            (.inline (JsonPath.text first.path.dropLast true))
            (some ((l.assign first.fieldKey).2.assign first.elementsKey).1.label))
          joins := []
          condition := some condition }) ∧
      (((together tests).run l).1 = .ok none ↔
        tests ≠ [] ∧
          ∀ t ∈ tests, t.path ≠ [] ∧ t.operator.mapped t.operand = .ok ⟨.always, []⟩) := by
  constructor
  · intro t l
    have houtcome := t.outcome_alone l
    exact ⟨houtcome.labels_of_idle, fun e he => houtcome.labels_of_built he⟩
  · intro tests l
    refine ⟨?_, ?_, together_eq_none_iff tests l⟩
    · cases tests with
      | nil => exact fun _ => rfl
      | cons first others => exact (outcome_together first others l).labels_of_idle
    · cases tests with
      | nil =>
          intro e he
          cases he
      | cons first others =>
          exact fun e he => ⟨first, rfl, (outcome_together first others l).labels_of_built he⟩

/-- The type is none of no types. -/
def isAnything : DocumentTest :=
  ofDeliverables 0 "type" (.member true) (.arr [])

/-- Labels with one for the deliverables of activities. -/
def someLabels : Labels where
  count := 3
  fields := [(("activities", "deliverables"), "deliverables_1")]

/-- A test that asks nothing takes no label.  Together with one that asks something it takes
that of the elements, where the field has one already. -/
theorem idle_tests_take_no_labels_isAnything :
    (isAnything.alone.run someLabels).2 = someLabels ∧
      ∃ e condition, ((together [isAnything, isLater]).run someLabels).1 = .ok (some e) ∧
        e = .existsRow {
          columns := [.raw "1"]
          source := some (.jsonRows (.column isAnything.qualifier isAnything.field)
            (.inline "$[*]") (some "deliverables_4"))
          joins := []
          condition := some condition } ∧
        ((together [isAnything, isLater]).run someLabels).2.count = 4 := by
  constructor
  · exact (idle_tests_take_no_labels.1 isAnything someLabels).1 (.inr rfl)
  · obtain ⟨shared, hshared, hsome⟩ := exists_of_any_toOption
      (show ((together [isAnything, isLater]).run someLabels).1.toOption.any Option.isSome = true
        by decide +kernel)
    obtain ⟨e, rfl⟩ := Option.isSome_iff_exists.1 hsome
    obtain ⟨first, hfirst, hlabels, condition, he⟩ :=
      (idle_tests_take_no_labels.2 [isAnything, isLater] someLabels).2.1 e hshared
    cases hfirst
    have hpath : JsonPath.text isAnything.path.dropLast true = "$[*]" := by decide +kernel
    have hlabel : ((someLabels.assign isAnything.fieldKey).2.assign
        isAnything.elementsKey).1.label = "deliverables_4" := by decide +kernel
    rw [hpath, hlabel] at he
    refine ⟨e, condition, hshared, he, ?_⟩
    rw [hlabels]
    decide +kernel

/-- A test of a document as a whole has no member to read.  It is refused together with other
tests, even if it asks nothing. -/
theorem whole_document_refused :
    ((together [{ isAnything with path := [] }]).run {}).1 =
        .error (.emptyJsonPath "deliverables") ∧
      ¬(((together [{ isAnything with path := [] }]).run {}).1 = .ok none ↔
        [{ isAnything with path := [] }] ≠ [] ∧
          ∀ t ∈ [{ isAnything with path := [] }],
            t.operator.mapped t.operand = .ok ⟨.always, []⟩) := by
  refine ⟨rfl, fun h => ?_⟩
  have hnone := h.2 ⟨List.cons_ne_nil _ _, List.forall_mem_singleton.2 rfl⟩
  cases hnone

end DocumentTest
end RowFilter
