import Mathlib.Data.List.Perm.Basic
import RowFilter.Proofs.Refusals

/-!
# Acceptance without an order

The alternatives of a disjunction are looked at in order, up to one that asks nothing.  So
the order matters where one alternative asks nothing and another is refused.  Everywhere
else a condition that is refused is fatal, wherever it stands.

* `Filter.opens`, `Filter.refuses`: a filter asks nothing, or has a condition that is
  refused, said without an order.
* `Filter.unmixed`: no disjunction has both kinds of alternatives.
* `Filter.Outlook`: all that matters about a filter for whether it compiles.  It does not
  depend on the order of members or alternatives.
* `compile_isOk_of_unmixed`: what compiles without mixed disjunctions.
-/

namespace RowFilter

namespace Filter

/-! ## Acceptance without an order -/

mutual

/-- The filter asks nothing. -/
def opens (s : Setting) : Filter → String → Bool
  | .and children, collection => allOpen s children collection
  | .or children, collection =>
      children.any isMatchAll || children.isEmpty || anyOpens s children collection
  | .compare _ path c operand, collection =>
      s.schema.comparisonVerdict c operand path.length collection path == some true
  | .quantify _ _ _ _, _ => false

/-- All filters ask nothing. -/
def allOpen (s : Setting) : List Filter → String → Bool
  | [], _ => true
  | child :: rest, collection => child.opens s collection && allOpen s rest collection

/-- One of the filters asks nothing. -/
def anyOpens (s : Setting) : List Filter → String → Bool
  | [], _ => false
  | child :: rest, collection => child.opens s collection || anyOpens s rest collection

end

mutual

/-- The filter has a condition that is refused, outside disjunctions with an empty
alternative. -/
def refuses (s : Setting) : Filter → String → Bool
  | .and children, collection => anyRefuses s children collection
  | .or children, collection => !children.any isMatchAll && anyRefuses s children collection
  | .compare _ path c operand, collection =>
      (s.schema.comparisonVerdict c operand path.length collection path).isNone
  | .quantify _ field q inner, collection =>
      match s.schema.quantifierTarget? collection field q with
      | none => true
      | some related =>
          !(s.schema.primaryKey related).isOk || !inner.plans s related || inner.refuses s related

/-- One of the filters has a condition that is refused. -/
def anyRefuses (s : Setting) : List Filter → String → Bool
  | [], _ => false
  | child :: rest, collection => child.refuses s collection || anyRefuses s rest collection

end

mutual

/-- No disjunction without an empty alternative has both an alternative that asks nothing and
one that is refused. -/
def unmixed (s : Setting) : Filter → String → Bool
  | .and children, collection => allUnmixed s children collection
  | .or children, collection =>
      children.any isMatchAll ||
        (!(anyOpens s children collection && anyRefuses s children collection) &&
          allUnmixed s children collection)
  | .compare _ _ _ _, _ => true
  | .quantify _ field q inner, collection =>
      (s.schema.quantifierTarget? collection field q).all fun related => inner.unmixed s related

/-- No disjunction in the filters is mixed. -/
def allUnmixed (s : Setting) : List Filter → String → Bool
  | [], _ => true
  | child :: rest, collection => child.unmixed s collection && allUnmixed s rest collection

end

/-- A verdict from what is refused and what asks nothing. -/
def orderlessVerdict (refused silent : Bool) : Option Bool :=
  if refused then none else some silent

section Verdicts

variable {s : Setting}

mutual

/-- Without mixed disjunctions the verdict does not depend on an order. -/
theorem verdict_of_unmixed :
    ∀ {filter : Filter} {collection : String}, filter.unmixed s collection = true →
      filter.verdict s collection =
        orderlessVerdict (filter.refuses s collection) (filter.opens s collection)
  | .and children, collection, h => by
      rw [unmixed] at h
      rw [verdict, refuses, opens]
      exact allVerdict_of_unmixed h
  | .or children, collection, h => by
      rw [unmixed] at h
      rw [verdict, refuses, opens]
      by_cases hall : children.any isMatchAll = true
      · rw [if_pos hall, hall]
        rfl
      · rw [Bool.not_eq_true] at hall
        rw [hall, Bool.false_or, Bool.and_eq_true, Bool.not_eq_true'] at h
        rw [hall, alternativesVerdict_of_unmixed h.1 h.2, orderlessVerdict]
        cases anyRefuses s children collection with
        | true => rfl
        | false => simp [orderlessVerdict, Bool.or_comm]
  | .compare id path c operand, collection, _ => by
      rw [verdict, refuses, opens]
      cases s.schema.comparisonVerdict c operand path.length collection path with
      | none => rfl
      | some silent => cases silent <;> rfl
  | .quantify id field q inner, collection, h => by
      rw [unmixed] at h
      rw [verdict, refuses, opens]
      cases htarget : s.schema.quantifierTarget? collection field q with
      | none => rfl
      | some related =>
          rw [htarget, Option.all_some] at h
          cases hprimary : s.schema.primaryKey related with
          | error e =>
              simp [Except.toOption, Except.isOk, Except.toBool, orderlessVerdict, hprimary]
          | ok primary =>
              have hinner := verdict_of_unmixed h
              cases hplans : inner.plans s related <;>
                cases hrefuses : inner.refuses s related <;>
                simp [Except.toOption, Except.isOk, Except.toBool, orderlessVerdict, hprimary,
                  hplans, hrefuses, hinner]

theorem allVerdict_of_unmixed :
    ∀ {filters : List Filter} {collection : String}, allUnmixed s filters collection = true →
      allVerdict s filters collection =
        orderlessVerdict (anyRefuses s filters collection) (allOpen s filters collection)
  | [], _, _ => rfl
  | child :: rest, collection, h => by
      rw [allUnmixed, Bool.and_eq_true] at h
      rw [allVerdict, anyRefuses, allOpen, verdict_of_unmixed h.1, allVerdict_of_unmixed h.2]
      cases child.refuses s collection <;> cases anyRefuses s rest collection <;> rfl

/-- An alternative that asks nothing comes with none that is refused. -/
theorem alternativesVerdict_of_unmixed :
    ∀ {filters : List Filter} {collection : String},
      (anyOpens s filters collection && anyRefuses s filters collection) = false →
      allUnmixed s filters collection = true →
      alternativesVerdict s filters collection =
        orderlessVerdict (anyRefuses s filters collection) (anyOpens s filters collection)
  | [], _, _, _ => rfl
  | child :: rest, collection, hmixed, h => by
      rw [allUnmixed, Bool.and_eq_true] at h
      rw [anyOpens, anyRefuses] at hmixed
      rw [alternativesVerdict, anyRefuses, anyOpens, verdict_of_unmixed h.1]
      cases hrefuses : child.refuses s collection with
      | true => rfl
      | false =>
          cases hopens : child.opens s collection with
          | true =>
              rw [hrefuses, hopens] at hmixed
              have hrest : anyRefuses s rest collection = false := by simpa using hmixed
              rw [hrest]
              rfl
          | false =>
              rw [hrefuses, hopens, Bool.false_or, Bool.false_or] at hmixed
              exact alternativesVerdict_of_unmixed hmixed h.2

end

end Verdicts

/-! ## Outlooks -/

/-- All that matters about a filter for whether it compiles, in every collection. -/
structure Outlook where
  matchAll : Bool
  plans : String → Bool
  opens : String → Bool
  refuses : String → Bool
  unmixed : String → Bool

/-- The outlook of a filter.  The numbers of its conditions do not matter. -/
def outlook (s : Setting) (filter : Filter) : Outlook where
  matchAll := filter.isMatchAll
  plans := fun collection => filter.plans s collection
  opens := filter.opens s
  refuses := filter.refuses s
  unmixed := filter.unmixed s

/-- Filters with the same outlook. -/
def SameOutlook (s : Setting) (filter filter' : Filter) : Prop :=
  filter.outlook s = filter'.outlook s

/-- Filters with the same outlooks, in some order. -/
def SameOutlooks (s : Setting) (filters filters' : List Filter) : Prop :=
  (filters.map (outlook s)).Perm (filters'.map (outlook s))

section Outlooks

variable {s : Setting} {filters filters' : List Filter}

theorem sameOutlook_of
    {filter filter' : Filter}
    (hmatchAll : filter.isMatchAll = filter'.isMatchAll)
    (h : ∀ collection, filter.plans s collection = filter'.plans s collection ∧
      filter.opens s collection = filter'.opens s collection ∧
      filter.refuses s collection = filter'.refuses s collection ∧
      filter.unmixed s collection = filter'.unmixed s collection) :
    SameOutlook s filter filter' := by
  unfold SameOutlook outlook
  rw [Outlook.mk.injEq]
  exact ⟨hmatchAll, funext fun c => (h c).1, funext fun c => (h c).2.1,
    funext fun c => (h c).2.2.1, funext fun c => (h c).2.2.2⟩

theorem SameOutlooks.cons
    {filter filter' : Filter}
    (hfilter : SameOutlook s filter filter') (h : SameOutlooks s filters filters') :
    SameOutlooks s (filter :: filters) (filter' :: filters') := by
  rw [SameOutlooks, List.map_cons, List.map_cons, show filter.outlook s = _ from hfilter]
  exact List.Perm.cons _ h

/-- A summary that asks the same of all filters does not see their order. -/
theorem SameOutlooks.eq_of_all
    (h : SameOutlooks s filters filters') (summary : List Filter → Bool) (test : Outlook → Bool)
    (hnil : summary [] = true)
    (hcons : ∀ f rest, summary (f :: rest) = (test (f.outlook s) && summary rest)) :
    summary filters = summary filters' := by
  have hall : ∀ fs : List Filter, summary fs = (fs.map (outlook s)).all test := by
    intro fs
    induction fs with
    | nil => exact hnil
    | cons f rest ih => rw [hcons, ih, List.map_cons, List.all_cons]
  rw [hall, hall]
  exact List.Perm.all_eq h

/-- Nor does one that looks for a filter. -/
theorem SameOutlooks.eq_of_any
    (h : SameOutlooks s filters filters') (summary : List Filter → Bool) (test : Outlook → Bool)
    (hnil : summary [] = false)
    (hcons : ∀ f rest, summary (f :: rest) = (test (f.outlook s) || summary rest)) :
    summary filters = summary filters' := by
  have hany : ∀ fs : List Filter, summary fs = (fs.map (outlook s)).any test := by
    intro fs
    induction fs with
    | nil => exact hnil
    | cons f rest ih => rw [hcons, ih, List.map_cons, List.any_cons]
  rw [hany, hany]
  exact List.Perm.any_eq h

theorem SameOutlooks.length_eq
    (h : SameOutlooks s filters filters') :
    filters.length = filters'.length := by
  simpa using List.Perm.length_eq h

theorem SameOutlooks.isEmpty_eq
    (h : SameOutlooks s filters filters') :
    filters.isEmpty = filters'.isEmpty := by
  rw [Bool.eq_iff_iff, List.isEmpty_iff_length_eq_zero, List.isEmpty_iff_length_eq_zero,
    h.length_eq]

theorem SameOutlooks.anyMatchAll_eq
    (h : SameOutlooks s filters filters') :
    filters.any isMatchAll = filters'.any isMatchAll :=
  h.eq_of_any (List.any · isMatchAll) (·.matchAll) rfl fun _ _ => List.any_cons

theorem SameOutlooks.allPlan_eq
    (h : SameOutlooks s filters filters') (collection : String) :
    allPlan s collection filters = allPlan s collection filters' :=
  h.eq_of_all _ (·.plans collection) (by rw [allPlan]) fun _ _ => by rw [allPlan, outlook]

theorem SameOutlooks.allOpen_eq
    (h : SameOutlooks s filters filters') (collection : String) :
    allOpen s filters collection = allOpen s filters' collection :=
  h.eq_of_all (allOpen s · collection) (·.opens collection) (by rw [allOpen])
    fun _ _ => by rw [allOpen, outlook]

theorem SameOutlooks.anyOpens_eq
    (h : SameOutlooks s filters filters') (collection : String) :
    anyOpens s filters collection = anyOpens s filters' collection :=
  h.eq_of_any (anyOpens s · collection) (·.opens collection) (by rw [anyOpens])
    fun _ _ => by rw [anyOpens, outlook]

theorem SameOutlooks.anyRefuses_eq
    (h : SameOutlooks s filters filters') (collection : String) :
    anyRefuses s filters collection = anyRefuses s filters' collection :=
  h.eq_of_any (anyRefuses s · collection) (·.refuses collection) (by rw [anyRefuses])
    fun _ _ => by rw [anyRefuses, outlook]

theorem SameOutlooks.allUnmixed_eq
    (h : SameOutlooks s filters filters') (collection : String) :
    allUnmixed s filters collection = allUnmixed s filters' collection :=
  h.eq_of_all (allUnmixed s · collection) (·.unmixed collection) (by rw [allUnmixed])
    fun _ _ => by rw [allUnmixed, outlook]

/-- A conjunction has the outlook of its members in any order. -/
theorem sameOutlook_and
    (h : SameOutlooks s filters filters') :
    SameOutlook s (.and filters) (.and filters') := by
  refine sameOutlook_of ?_ fun collection => ⟨?_, ?_, ?_, ?_⟩
  · have hempty := h.isEmpty_eq
    cases filters with
    | nil =>
        cases filters' with
        | nil => rfl
        | cons f' rest' => cases hempty
    | cons f rest =>
        cases filters' with
        | nil => cases hempty
        | cons f' rest' => rfl
  · rw [plans, plans, h.allPlan_eq]
  · rw [opens, opens, h.allOpen_eq]
  · rw [refuses, refuses, h.anyRefuses_eq]
  · rw [unmixed, unmixed, h.allUnmixed_eq]

/-- A disjunction has the outlook of its alternatives in any order. -/
theorem sameOutlook_or
    (h : SameOutlooks s filters filters') :
    SameOutlook s (.or filters) (.or filters') := by
  refine sameOutlook_of rfl fun collection => ⟨?_, ?_, ?_, ?_⟩
  · rw [plans, plans, h.allPlan_eq, h.anyMatchAll_eq, h.length_eq]
  · rw [opens, opens, h.anyOpens_eq, h.anyMatchAll_eq, h.isEmpty_eq]
  · rw [refuses, refuses, h.anyRefuses_eq, h.anyMatchAll_eq]
  · rw [unmixed, unmixed, h.anyOpens_eq, h.anyRefuses_eq, h.allUnmixed_eq, h.anyMatchAll_eq]

theorem sameOutlook_compare
    (id id' : Nat) (path : List Segment) (c : Comparison) (operand : Json) :
    SameOutlook s (.compare id path c operand) (.compare id' path c operand) := by
  refine sameOutlook_of rfl fun collection => ⟨?_, ?_, ?_, ?_⟩
  · rw [plans, plans]
  · rw [opens, opens]
  · rw [refuses, refuses]
  · rw [unmixed, unmixed]

theorem sameOutlook_quantify
    {inner inner' : Filter} (id id' : Nat) (field : Segment) (q : Quantifier)
    (h : SameOutlook s inner inner') :
    SameOutlook s (.quantify id field q inner) (.quantify id' field q inner') := by
  have hplans : ∀ related, inner.plans s related = inner'.plans s related :=
    congrFun (congrArg Outlook.plans h)
  have hrefuses : inner.refuses s = inner'.refuses s := congrArg Outlook.refuses h
  have hunmixed : inner.unmixed s = inner'.unmixed s := congrArg Outlook.unmixed h
  refine sameOutlook_of rfl fun collection => ⟨?_, ?_, ?_, ?_⟩
  · rw [plans, plans]
  · rw [opens, opens]
  · simp only [refuses, hplans, hrefuses]
  · rw [unmixed, unmixed, hunmixed]

theorem sameOutlook_conjunction
    (h : SameOutlooks s filters filters') :
    SameOutlook s (conjunction filters) (conjunction filters') := by
  have hlength := h.length_eq
  rcases filters with _ | ⟨f, _ | ⟨second, rest⟩⟩ <;>
    rcases filters' with _ | ⟨f', _ | ⟨second', rest'⟩⟩
  · rfl
  · cases hlength
  · cases hlength
  · cases hlength
  · exact List.singleton_perm_singleton.1 h
  · simp at hlength
  · cases hlength
  · simp at hlength
  · exact sameOutlook_and h

end Outlooks

end Filter

/-! ## What compiles -/

/-- Without mixed disjunctions a document compiles if it can be read, all paths lead somewhere
that planning follows, and no condition is refused, wherever it stands. -/
theorem compile_isOk_of_unmixed
    {s : Setting} {collection : String} {filter : Json}
    (hunmixed : (Filter.ofJson s.options.maxDepth filter).toOption.all
      (fun tree => tree.unmixed s collection) = true) :
    (s.compile collection filter).isOk = ((s.schema.primaryKey collection).isOk &&
      (Filter.ofJson s.options.maxDepth filter).toOption.any fun tree =>
        tree.plans s collection && !tree.refuses s collection) := by
  unfold Setting.compile
  cases hprimary : s.schema.primaryKey collection with
  | error e => rfl
  | ok primary =>
      cases htree : Filter.ofJson s.options.maxDepth filter with
      | error e => rfl
      | ok tree =>
          rw [htree] at hunmixed
          have hverdict : (tree.verdict s collection).isSome = !tree.refuses s collection := by
            rw [Filter.verdict_of_unmixed hunmixed, Filter.orderlessVerdict]
            cases tree.refuses s collection <;> rfl
          have hcompile := compileTree_isOk (s := s) collection htree
          rw [hverdict] at hcompile
          exact hcompile

end RowFilter
