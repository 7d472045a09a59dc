import RowFilter.Proofs.Evaluation

/-!
# Tests on a shared element

Tests that read members of the same elements are asked of one element together.  An element
that passes them together gives each of them a match of its own path: the member that the
test reads there.  Only a test for null needs no member, and passes on an element that has
none.

* `DocumentTest.alone_of_together`: where tests pass together, each one passes alone, or asks
  for null and does not find its member in the shared element.
* `DocumentTest.together_without_member`: the second case occurs.
-/

namespace RowFilter

open Sql (Database Engine Expr Row Scope)

namespace DocumentTest

/-- The member of an element that the test reads. -/
def member? (t : DocumentTest) (element : Json) : Option Json :=
  t.path.getLast?.bind fun last => element.get? last.name

/-- The test is for null. -/
def AsksForNull (t : DocumentTest) : Prop :=
  t.operator.criterion t.operand = .ok (.isNull false)

/-- One of the values that the path of the elements leads to. -/
def IsElement (t : DocumentTest) (g : Engine) (db : Database) (scope : Scope) (element : Json) :
    Prop :=
  ∃ document, t.column.eval g db scope = .json document ∧
    element ∈ JsonPath.found g.deep t.elementPath document

theorem path_of_endsInMember
    {t : DocumentTest}
    (h : t.endsInMember = true) :
    ∃ last, t.path.getLast? = some last ∧ last.index = none ∧
      t.path = t.path.dropLast ++ [last] := by
  unfold endsInMember at h
  cases hlast : t.path.getLast? with
  | none =>
      rw [hlast] at h
      cases h
  | some last =>
      refine ⟨last, rfl, by simpa [hlast] using h, ?_⟩
      exact (List.dropLast_append_getLast? last hlast).symm

/-- The member that a test reads off an element is a match of its own path. -/
theorem mem_found_of_member?
    {t : DocumentTest} {document element value : Json} (deep : Bool)
    (hmember : t.endsInMember = true)
    (helement : element ∈ JsonPath.found deep t.elementPath document)
    (hvalue : t.member? element = some value) :
    value ∈ JsonPath.found deep (JsonPath.text t.path false) document := by
  obtain ⟨last, hlast, hindex, hpath⟩ := path_of_endsInMember hmember
  rw [member?, hlast] at hvalue
  rw [hpath]
  exact JsonPath.mem_found_member deep hindex helement hvalue

/-- The element passes a test, if the test asks anything. -/
def PassedBy (t : DocumentTest) (g : Engine) (element : Json) : Prop :=
  ∃ c, t.operator.criterion t.operand = .ok c ∧
    (c.isAlways = false → meets g c (t.member? element) = some true)

/-- What is missing passes a test for null only. -/
theorem isNull_of_meets_none
    {t : DocumentTest} {g : Engine} {c : Criterion}
    (hcriterion : t.operator.criterion t.operand = .ok c) (halways : c.isAlways = false)
    (h : meets g c none = some true) :
    c = .isNull false := by
  have hlists : c.ListsValues := by
    cases hop : t.operator with
    | compare comparison =>
        rw [hop] at hcriterion
        exact Comparison.listsValues_of_criterion hcriterion
    | quantify q =>
        rw [hop] at hcriterion
        cases hcriterion
  have hcasted : c.casted.isAlways = false := by rw [Criterion.isAlways_casted, halways]
  exact Criterion.eq_isNull_of_casted (Criterion.eq_of_asks_null g hlists.casted hcasted h)

/-- Where tests pass together, one element passes them all. -/
theorem exists_element_of_together
    {tests : List DocumentTest} {labels labels' : Labels} {shared : Expr}
    (hmember : ∀ t ∈ tests, t.endsInMember = true)
    (hkey : ∀ t ∈ tests, ∀ u ∈ tests, t.groupKey = u.groupKey)
    (hrun : (together tests).run labels = (.ok (some shared), labels'))
    {g : Engine} {db : Database} {scope : Scope}
    (hholds : shared.holds g db scope = true) :
    ∃ element, ∀ t ∈ tests, t.IsElement g db scope element ∧ t.PassedBy g element := by
  obtain ⟨first, rest, label, criteria, hfirst, hcriteria, hshared⟩ :=
    Fold.asks_iff.1 (gives_together tests labels _ _ hrun)
  have hmem : first ∈ tests := by
    have hlist : tests = first :: rest := hfirst
    rw [hlist]
    exact List.mem_cons_self
  obtain ⟨body, hbody, rfl⟩ := Option.map_eq_some_iff.1 hshared.symm
  obtain ⟨document, hdocument, element, helement, hall⟩ := (holds_existsMatch_iff g db).1 hholds
  rw [Expr.holds_group?_and g db hbody] at hall
  refine ⟨element, fun t ht => ⟨⟨document, ?_⟩, ?_⟩⟩
  · have hsame := hkey t ht first hmem
    simp only [groupKey, Prod.mk.injEq] at hsame
    have hcolumn : t.column = first.column := by
      rw [column, column, hsame.1, hsame.2.1]
    rw [hcolumn, hsame.2.2]
    exact ⟨hdocument, helement⟩
  · obtain ⟨c, hc, hcriterion⟩ := exists_mem_zip hcriteria t ht
    obtain ⟨last, hlast, -, -⟩ := path_of_endsInMember (hmember t ht)
    refine ⟨c, hcriterion, fun halways => ?_⟩
    obtain ⟨condition, hcondition⟩ := exists_condition? label (some last.name) halways
    have htrue : condition.holds g db (scope.bind (some label) (.document element)) = true := by
      refine hall _ (List.mem_filterMap.2 ⟨(t, c), hc, ?_⟩)
      simpa [hlast] using hcondition
    rw [Expr.holds_iff, truth_condition? g db hcondition] at htrue
    rw [member?, hlast]
    exact htrue

/-! ## Passing alone -/

/-- An engine that compares integers by size and texts for equality. -/
def plainEngine : Engine where
  deep := false
  text
    | .str s => s
    | j => j.compact
  cast
    | .numeric => Value.asNumber
    | .text => Value.asText
  compare
    | .gtEq, .int a, .int b => b ≤ a
    | .eq, .str s, .str t => s == t
    | _, _, _ => false
  call _ args := args.headD .null
  length _ := .null
  part _ _ := .null

/-- A test of a member of an activity's deliverables. -/
def ofDeliverables (id : Nat) (member : String) (c : Comparison) (operand : Json) :
    DocumentTest where
  id := id
  qualifier := "activities"
  collection := "activities"
  field := "deliverables"
  path := [{ name := member }]
  operator := .compare c
  operand := operand

/-- The type is a report. -/
def isReport : DocumentTest :=
  ofDeliverables 0 "type" (.equal false) (.str "report")

/-- There is no type. -/
def isUntyped : DocumentTest :=
  ofDeliverables 0 "type" (.null false) (.bool true)

/-- The number is at least two. -/
def isLater : DocumentTest :=
  ofDeliverables 1 "number" (.inequality .gte) (.num (.int 2))

/-- An activity with one deliverable. -/
def activity (members : List (String × Json)) : Scope :=
  [("activities", .record fun _ => .json (.arr [.obj members]))]

/-- The second report. -/
def secondReport : Scope :=
  activity [("type", .str "report"), ("number", .num (.int 2))]

/-- A second deliverable without a type. -/
def secondUntyped : Scope :=
  activity [("number", .num (.int 2))]

/-- Where tests pass together, each one that asks anything passes alone, or it asks for null
and the shared element lacks its member. -/
theorem alone_of_together
    {tests : List DocumentTest} {labels labels' : Labels} {shared : Expr}
    (hmember : ∀ t ∈ tests, t.endsInMember = true)
    (hkey : ∀ t ∈ tests, ∀ u ∈ tests, t.groupKey = u.groupKey)
    (hrun : (together tests).run labels = (.ok (some shared), labels'))
    {g : Engine} {db : Database} {scope : Scope}
    (hholds : shared.holds g db scope = true) :
    ∃ element, ∀ t ∈ tests, t.IsElement g db scope element ∧
      ∀ before, ∃ condition after, t.alone.run before = (.ok condition, after) ∧
        ∀ e ∈ condition, e.holds g db scope = true ∨
          t.AsksForNull ∧ t.member? element = none := by
  obtain ⟨element, helement⟩ := exists_element_of_together hmember hkey hrun hholds
  refine ⟨element, fun t ht => ?_⟩
  obtain ⟨hin, c, hcriterion, hpassed⟩ := helement t ht
  refine ⟨hin, fun before => ?_⟩
  cases halways : c.isAlways with
  | true =>
      exact ⟨none, before, run_alone_of_isAlways before hcriterion halways, by simp⟩
  | false =>
      obtain ⟨label, condition, after, hcondition, halone⟩ := run_alone before hcriterion halways
      refine ⟨_, after, halone, ?_⟩
      rintro e ⟨⟩
      cases hvalue : t.member? element with
      | some value =>
          left
          obtain ⟨document, hdocument, hfound⟩ := hin
          have hmatch := mem_found_of_member? g.deep (hmember t ht) hfound hvalue
          refine (holds_existsMatch_iff g db).2 ⟨document, hdocument, value, hmatch, ?_⟩
          rw [Expr.holds_iff, truth_condition? g db hcondition]
          rw [hvalue] at hpassed
          exact hpassed halways
      | none =>
          right
          rw [hvalue] at hpassed
          refine ⟨?_, rfl⟩
          rw [AsksForNull, hcriterion, isNull_of_meets_none hcriterion halways (hpassed halways)]

theorem alone_of_together_isReport :
    ∃ shared labels, (together [isReport, isLater]).run {} = (.ok (some shared), labels) ∧
      shared.holds plainEngine (fun _ => []) secondReport = true ∧
      ∃ element, ∀ t ∈ [isReport, isLater],
        t.IsElement plainEngine (fun _ => []) secondReport element ∧
        ∀ before, ∃ condition after, t.alone.run before = (.ok condition, after) ∧
          ∀ e ∈ condition, e.holds plainEngine (fun _ => []) secondReport = true ∨
            t.AsksForNull ∧ t.member? element = none := by
  have htogether : ∃ shared labels,
      (together [isReport, isLater]).run {} = (.ok (some shared), labels) ∧
        shared.holds plainEngine (fun _ => []) secondReport = true :=
    ⟨_, _, rfl, by decide +kernel⟩
  obtain ⟨shared, labels, hrun, hholds⟩ := htogether
  refine ⟨shared, labels, hrun, hholds, alone_of_together ?_ ?_ hrun hholds⟩
  · decide +kernel
  · decide +kernel

/-- An element that lacks a member passes the test for null there together with others, but
alone that test finds no row. -/
theorem together_without_member :
    isUntyped.endsInMember = true ∧ isLater.endsInMember = true ∧
      isUntyped.groupKey = isLater.groupKey ∧
      ∃ shared labels alone labels',
        (together [isUntyped, isLater]).run {} = (.ok (some shared), labels) ∧
        isUntyped.alone.run {} = (.ok (some alone), labels') ∧
        shared.holds plainEngine (fun _ => []) secondUntyped = true ∧
        alone.holds plainEngine (fun _ => []) secondUntyped = false := by
  refine ⟨rfl, rfl, rfl, _, _, _, _, rfl, rfl, ?_, ?_⟩
  · decide +kernel
  · decide +kernel

end DocumentTest
end RowFilter
