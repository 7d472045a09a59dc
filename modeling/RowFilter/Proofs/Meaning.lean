import RowFilter.Proofs.Closures
import RowFilter.Proofs.Tables

/-!
# Conditions mean what filters say

Under an assignment of truth values to predicates, a compiled condition has the
truth value of the filter that it comes from.  The value of a comparison or of a
quantified condition is that of the predicate that stands for it; a condition for
which nothing stands is true.

* `Sql.Expr.truth`, `Filter.holds`: truth of conditions and of filters.
* `Account.predicates`: what stands for each condition.
* `Account.truth_condition`: truth of a sound account.
-/

namespace RowFilter

open Sql (Expr)

namespace Sql.Expr

mutual

/-- The truth value of a condition, from those of the predicates in it. -/
def truth (v : Expr → Bool) : Expr → Bool
  | .logical .and operands => allTrue v operands
  | .logical .or operands => anyTrue v operands
  | e => v e

/-- All conditions are true. -/
def allTrue (v : Expr → Bool) : List Expr → Bool
  | [] => true
  | e :: rest => e.truth v && allTrue v rest

/-- One of the conditions is true. -/
def anyTrue (v : Expr → Bool) : List Expr → Bool
  | [] => false
  | e :: rest => e.truth v || anyTrue v rest

end

theorem allTrue_eq
    (v : Expr → Bool) (operands : List Expr) :
    allTrue v operands = operands.all (truth v) := by
  induction operands with
  | nil => rw [allTrue, List.all_nil]
  | cons e rest ih => rw [allTrue, List.all_cons, ih]

theorem anyTrue_eq
    (v : Expr → Bool) (operands : List Expr) :
    anyTrue v operands = operands.any (truth v) := by
  induction operands with
  | nil => rw [anyTrue, List.any_nil]
  | cons e rest ih => rw [anyTrue, List.any_cons, ih]

theorem truth_of_isAtom
    {v : Expr → Bool} {e : Expr}
    (h : e.isAtom = true) :
    e.truth v = v e := by
  cases e with
  | logical op operands => cases h
  | _ => rw [truth] <;> rintro _ ⟨⟩

theorem truth_inQuery
    (v : Expr → Bool) (e : Expr) (query : Select) (negated : Bool) :
    (Expr.inQuery e query negated).truth v = v (.inQuery e query negated) := by
  rw [truth] <;> rintro _ ⟨⟩

/-- The truth value of a condition that may be missing: then it is true. -/
def truth? (v : Expr → Bool) (condition : Option Expr) : Bool :=
  condition.elim true (truth v)

@[simp] theorem truth?_none
    (v : Expr → Bool) :
    truth? v none = true :=
  rfl

@[simp] theorem truth?_some
    (v : Expr → Bool) (e : Expr) :
    truth? v (some e) = e.truth v :=
  rfl

theorem truth?_of_atomIfAny
    {v : Expr → Bool} {predicate : Option Expr}
    (h : AtomIfAny predicate) :
    truth? v predicate = predicate.elim true v := by
  cases predicate with
  | none => rfl
  | some e => exact truth_of_isAtom (h e rfl)

theorem truth?_group?_and
    (v : Expr → Bool) (operands : List Expr) :
    truth? v (group? .and operands) = operands.all (truth v) := by
  rcases operands with _ | ⟨e, _ | ⟨second, rest⟩⟩
  · rfl
  · simp [group?]
  · rw [group?, truth?_some, truth, allTrue_eq]
    all_goals simp

theorem truth?_group?_or
    (v : Expr → Bool) (operands : List Expr) :
    truth? v (group? .or operands) = (operands.isEmpty || operands.any (truth v)) := by
  rcases operands with _ | ⟨e, _ | ⟨second, rest⟩⟩
  · rfl
  · simp [group?]
  · rw [group?, truth?_some, truth, anyTrue_eq]
    all_goals simp

theorem all_toList
    (v : Expr → Bool) (condition : Option Expr) :
    condition.toList.all (truth v) = truth? v condition := by
  cases condition <;> simp [truth?]

end Sql.Expr

namespace Filter

mutual

/-- The truth value of a filter, from those of its conditions.  A disjunction
without alternatives is true. -/
def holds (value : Nat → Bool) : Filter → Bool
  | .and children => allHold value children
  | .or children => children.isEmpty || anyHolds value children
  | .compare id _ _ _ => value id
  | .quantify id _ _ _ => value id

/-- All filters are true. -/
def allHold (value : Nat → Bool) : List Filter → Bool
  | [] => true
  | child :: rest => child.holds value && allHold value rest

/-- One of the filters is true. -/
def anyHolds (value : Nat → Bool) : List Filter → Bool
  | [] => false
  | child :: rest => child.holds value || anyHolds value rest

end

mutual

theorem holds_of_values
    {value : Nat → Bool} :
    ∀ filter : Filter, (∀ id ∈ filter.ids, value id = true) → filter.holds value = true
  | .and children, h => by
      rw [ids] at h
      rw [holds]
      exact (allHold_of_values children h).1
  | .or children, h => by
      rw [ids] at h
      rw [holds, Bool.or_eq_true]
      exact (allHold_of_values children h).2
  | .compare id path c operand, h => by
      rw [holds]
      exact h id (by simp [ids])
  | .quantify id field q inner, h => by
      rw [holds]
      exact h id (by simp [ids])

theorem allHold_of_values
    {value : Nat → Bool} :
    ∀ filters : List Filter, (∀ id ∈ idsOfAll filters, value id = true) →
      allHold value filters = true ∧ (filters.isEmpty = true ∨ anyHolds value filters = true)
  | [], _ => by
      exact ⟨by rw [allHold], .inl rfl⟩
  | filter :: rest, h => by
      rw [idsOfAll] at h
      have hfilter := holds_of_values filter fun id hid => h id (List.mem_append_left _ hid)
      have hrest := allHold_of_values rest fun id hid => h id (List.mem_append_right _ hid)
      rw [allHold, anyHolds, hfilter, hrest.1]
      exact ⟨rfl, .inr rfl⟩

end

end Filter

namespace Account

mutual

/-- The truth value of an account. -/
def holds (v : Expr → Bool) : Account → Bool
  | and children => allHold v children
  | or children => children.isEmpty || anyHolds v children
  | unbuilt _ => true
  | own _ predicate => predicate.elim true v
  | folded _ fold => fold.shared.elim true v
  | behind _ key inquiry inner => v (inquiry.predicate key false inner.condition)
  | quantified _ _ q key inquiry inner =>
      v (inquiry.predicate key (q == .none) inner.condition)

/-- All accounts are true. -/
def allHold (v : Expr → Bool) : List Account → Bool
  | [] => true
  | child :: rest => child.holds v && allHold v rest

/-- One of the accounts is true. -/
def anyHolds (v : Expr → Bool) : List Account → Bool
  | [] => false
  | child :: rest => child.holds v || anyHolds v rest

end

theorem anyHolds_eq
    (v : Expr → Bool) (as : List Account) :
    anyHolds v as = as.any (holds v) := by
  induction as with
  | nil => rw [anyHolds, List.any_nil]
  | cons a rest ih => rw [anyHolds, List.any_cons, ih]

/-! ## Truth of a closure -/

mutual

theorem truth?_condition
    (v : Expr → Bool) :
    ∀ a : Account, Expr.truth? v a.condition = a.parts.all fun x => Expr.truth? v x.condition
  | and children => by
      rw [condition, parts, Expr.truth?_group?_and]
      exact all_conditions v children
  | or children => by
      simp [parts]
  | unbuilt f => by
      simp [parts]
  | own leaf predicate => by
      simp [parts]
  | folded leaf fold => by
      simp [parts]
  | behind leaf key inquiry inner => by
      simp [parts]
  | quantified id field q key inquiry inner => by
      simp [parts]

theorem all_conditions
    (v : Expr → Bool) :
    ∀ as : List Account, (conditions as).all (Expr.truth v) =
      (partsOfAll as).all fun x => Expr.truth? v x.condition
  | [] => by
      rfl
  | a :: as => by
      rw [conditions, partsOfAll, List.all_append, List.all_append, Expr.all_toList,
        truth?_condition v a, all_conditions v as]

end

mutual

theorem holds_eq_all_parts
    (v : Expr → Bool) :
    ∀ a : Account, a.holds v = a.parts.all (holds v)
  | and children => by
      rw [holds, parts]
      exact allHold_eq_all_parts v children
  | or children => by
      simp [parts]
  | unbuilt f => by
      simp [parts]
  | own leaf predicate => by
      simp [parts]
  | folded leaf fold => by
      simp [parts]
  | behind leaf key inquiry inner => by
      simp [parts]
  | quantified id field q key inquiry inner => by
      simp [parts]

theorem allHold_eq_all_parts
    (v : Expr → Bool) :
    ∀ as : List Account, allHold v as = (partsOfAll as).all (holds v)
  | [] => by
      rfl
  | a :: as => by
      rw [allHold, partsOfAll, List.all_append, holds_eq_all_parts v a, allHold_eq_all_parts v as]

end

theorem exists_of_alternatives?_eq_none :
    ∀ {as : List Account}, alternatives? as = none → ∃ a ∈ as, a.condition = none
  | [], h => by
      rw [alternatives?] at h
      cases h
  | a :: as, h => by
      rw [alternatives?] at h
      cases ha : a.condition with
      | none =>
          exact ⟨a, List.mem_cons_self, ha⟩
      | some e =>
          rw [ha] at h
          obtain ⟨b, hb, hnone⟩ := exists_of_alternatives?_eq_none (Option.map_eq_none_iff.1 h)
          exact ⟨b, List.mem_cons_of_mem _ hb, hnone⟩

theorem any_of_alternatives?_eq_some
    (v : Expr → Bool) :
    ∀ {as : List Account} {es : List Expr}, alternatives? as = some es →
      es.isEmpty = as.isEmpty ∧
        es.any (Expr.truth v) = as.any fun a => Expr.truth? v a.condition
  | [], es, h => by
      rw [alternatives?] at h
      cases h
      exact ⟨rfl, rfl⟩
  | a :: as, es, h => by
      rw [alternatives?] at h
      cases ha : a.condition with
      | none =>
          rw [ha] at h
          cases h
      | some e =>
          rw [ha] at h
          obtain ⟨others, hothers, rfl⟩ := Option.map_eq_some_iff.1 h
          refine ⟨rfl, ?_⟩
          rw [List.any_cons, List.any_cons, (any_of_alternatives?_eq_some v hothers).2, ha,
            Expr.truth?_some]

/-- A disjunction is true if it has no alternatives, or if one of them is true. -/
theorem truth?_or
    (v : Expr → Bool) (as : List Account) :
    Expr.truth? v (or as).condition =
      (as.isEmpty || as.any fun a => Expr.truth? v a.condition) := by
  rw [condition]
  cases h : alternatives? as with
  | none =>
      obtain ⟨a, ha, hnone⟩ := exists_of_alternatives?_eq_none h
      have hany : (as.any fun a => Expr.truth? v a.condition) = true :=
        List.any_eq_true.2 ⟨a, ha, by rw [hnone]; rfl⟩
      rw [hany, Bool.or_true]
      rfl
  | some es =>
      obtain ⟨hempty, hany⟩ := any_of_alternatives?_eq_some v h
      rw [Option.bind_some, Expr.truth?_group?_or, hempty, hany]

/-- The parts of a sound closure, with its disjunctions known to be true when they
hold, are true when the closure holds.  Here the first member of a group speaks
for the others. -/
theorem truth?_eq_holds
    {a : Account} {v : Expr → Bool} {ids : List Nat}
    (hsound : a.ClosureSound ids) (hids : ids.Nodup)
    (hor : ∀ as, or as ∈ a.parts → Expr.truth? v (or as).condition = (or as).holds v) :
    Expr.truth? v a.condition = a.holds v := by
  obtain ⟨folds, hfolds, hparts⟩ := hsound.folds
  have hclosure := Filter.nodup_closureIds (hids.sublist hsound.ids_sublist)
  have hatoms : ∀ leaf fold, folded leaf fold ∈ a.parts →
      Expr.truth? v fold.shared = fold.shared.elim true v := by
    intro leaf fold hx
    have hfold := (Fold.mem_of_of? (hparts _ hx)).1
    exact Expr.truth?_of_atomIfAny (hfolds.asks fold hfold).atomIfAny
  -- only folded parts differ from what is said of them
  have hother : ∀ x ∈ a.parts, (∀ leaf fold, x ≠ folded leaf fold) →
      Expr.truth? v x.condition = x.holds v := by
    intro x hx hnot
    have hfolded := hparts x hx
    cases x with
    | or as =>
        exact hor as hx
    | own leaf predicate =>
        rw [condition, holds, Expr.truth?_of_atomIfAny hfolded.2]
    | folded leaf fold =>
        exact absurd rfl (hnot leaf fold)
    | behind leaf key inquiry inner =>
        rw [condition, holds, Expr.truth?_some, Inquiry.predicate, Expr.truth_inQuery]
    | quantified id field q key inquiry inner =>
        rw [condition, holds, Expr.truth?_some, Inquiry.predicate, Expr.truth_inQuery]
    | _ =>
        exact hfolded.elim
  rw [truth?_condition, holds_eq_all_parts, Bool.eq_iff_iff, List.all_eq_true, List.all_eq_true]
  constructor
  · intro htruth x hx
    by_cases hx' : ∃ leaf fold, x = folded leaf fold
    · obtain ⟨leaf, fold, rfl⟩ := hx'
      obtain ⟨first, hfirst, hleads⟩ := exists_leader hfolds hclosure hparts hx
      have hshared := htruth _ hfirst
      rw [condition, Fold.standing, if_pos hleads, hatoms leaf fold hx] at hshared
      rw [holds]
      exact hshared
    · rw [← hother x hx fun leaf fold h => hx' ⟨leaf, fold, h⟩]
      exact htruth x hx
  · intro hholds x hx
    by_cases hx' : ∃ leaf fold, x = folded leaf fold
    · obtain ⟨leaf, fold, rfl⟩ := hx'
      have hshared := hholds _ hx
      rw [holds] at hshared
      rw [condition, Fold.standing]
      split
      · rw [hatoms leaf fold hx]
        exact hshared
      · rfl
    · rw [hother x hx fun leaf fold h => hx' ⟨leaf, fold, h⟩]
      exact hholds x hx

theorem unbuilt_or_mem_closures
    (a : Account) :
    (∃ f, a = unbuilt f) ∨ a ∈ a.closures := by
  cases a with
  | unbuilt f => exact .inl ⟨f, rfl⟩
  | _ => exact .inr (by rw [closures]; exact List.mem_cons_self)

mutual

/-- The disjunctions of a closure are true when they hold, if the closures inside
are sound. -/
theorem truth?_or_eq_holds
    {v : Expr → Bool} {ids : List Nat}
    (hids : ids.Nodup) :
    ∀ a : Account, (∀ b ∈ a.closures.tail, b.ClosureSound ids) →
      ∀ as, or as ∈ a.parts → Expr.truth? v (or as).condition = (or as).holds v
  | and children, hinner, as, has => by
      rw [closures] at hinner
      rw [parts] at has
      exact allTruth?_or_eq_holds hids children hinner as has
  | or children, hinner, as, has => by
      rw [closures] at hinner
      rw [parts] at has
      cases List.mem_singleton.1 has
      rw [truth?_or, holds, anyHolds_eq]
      congr 1
      rw [Bool.eq_iff_iff, List.any_eq_true, List.any_eq_true]
      have halternatives : ∀ a ∈ children, Expr.truth? v a.condition = a.holds v :=
        truth?_alternatives hids children hinner
      constructor
      · rintro ⟨a, ha, htrue⟩
        exact ⟨a, ha, by rw [← halternatives a ha, htrue]⟩
      · rintro ⟨a, ha, htrue⟩
        exact ⟨a, ha, by rw [halternatives a ha, htrue]⟩
  | unbuilt f, _, as, has => by
      simp [parts] at has
  | own leaf predicate, _, as, has => by
      simp [parts] at has
  | folded leaf fold, _, as, has => by
      simp [parts] at has
  | behind leaf key inquiry inner, _, as, has => by
      simp [parts] at has
  | quantified id field q key inquiry inner, _, as, has => by
      simp [parts] at has

theorem allTruth?_or_eq_holds
    {v : Expr → Bool} {ids : List Nat}
    (hids : ids.Nodup) :
    ∀ children : List Account, (∀ b ∈ innerClosures children, b.ClosureSound ids) →
      ∀ as, or as ∈ partsOfAll children → Expr.truth? v (or as).condition = (or as).holds v
  | [], _, as, has => by
      simp [partsOfAll] at has
  | child :: rest, hinner, as, has => by
      rw [innerClosures] at hinner
      rw [partsOfAll] at has
      rcases List.mem_append.1 has with has | has
      · exact truth?_or_eq_holds hids child (fun b hb => hinner b (List.mem_append_left _ hb)) as has
      · exact allTruth?_or_eq_holds hids rest
          (fun b hb => hinner b (List.mem_append_right _ hb)) as has

theorem truth?_alternatives
    {v : Expr → Bool} {ids : List Nat}
    (hids : ids.Nodup) :
    ∀ as : List Account, (∀ b ∈ closuresOfAll as, b.ClosureSound ids) →
      ∀ a ∈ as, Expr.truth? v a.condition = a.holds v
  | [], _, a, ha => by
      cases ha
  | child :: rest, hclosures, a, ha => by
      rw [closuresOfAll] at hclosures
      rcases List.mem_cons.1 ha with heq | ha
      · rw [heq]
        have hors := truth?_or_eq_holds (v := v) hids child fun b hb =>
          hclosures b (List.mem_append_left _ (List.mem_of_mem_tail hb))
        rcases unbuilt_or_mem_closures child with ⟨f, hunbuilt⟩ | hself
        · rw [hunbuilt, condition, holds]
          rfl
        · exact truth?_eq_holds (hclosures child (List.mem_append_left _ hself)) hids hors
      · exact truth?_alternatives hids rest
          (fun b hb => hclosures b (List.mem_append_right _ hb)) a ha

end

/-- The condition of an account is true when the account is. -/
theorem truth_condition
    {a : Account} {ids : List Nat}
    (hclosures : ∀ b ∈ a.closures, b.ClosureSound ids) (hids : ids.Nodup) (v : Expr → Bool) :
    Expr.truth? v a.condition = a.holds v := by
  refine truth?_alternatives hids [a] ?_ a List.mem_cons_self
  rw [closuresOfAll, closuresOfAll, List.append_nil]
  exact hclosures

/-! ## What stands for each condition -/

mutual

/-- The conditions of an account by their numbers, each with the predicate that
stands for it: its own, or that of the group that it is folded into. -/
def predicates : Account → List (Nat × Option Expr)
  | and children => allPredicates children
  | or children => allPredicates children
  | unbuilt _ => []
  | own leaf predicate => [(leaf.id, predicate)]
  | folded leaf fold => [(leaf.id, fold.shared)]
  | behind leaf key inquiry inner =>
      [(leaf.id, some (inquiry.predicate key false inner.condition))]
  | quantified id _ q key inquiry inner =>
      [(id, some (inquiry.predicate key (q == .none) inner.condition))]

/-- The conditions of several accounts. -/
def allPredicates : List Account → List (Nat × Option Expr)
  | [] => []
  | a :: as => a.predicates ++ allPredicates as

end

/-- The truth value of a condition: that of the predicate that stands for it.  It
is true if nothing stands for it. -/
def value (v : Expr → Bool) (a : Account) (id : Nat) : Bool :=
  (a.predicates.lookup id).elim true fun predicate => predicate.elim true v

mutual

/-- The conditions of alternatives that were not needed. -/
def unbuiltIds : Account → List Nat
  | and children => allUnbuiltIds children
  | or children => allUnbuiltIds children
  | unbuilt f => f.ids
  | own _ _ => []
  | folded _ _ => []
  | behind _ _ _ _ => []
  | quantified _ _ _ _ _ _ => []

/-- The conditions of alternatives that were not needed, in several accounts. -/
def allUnbuiltIds : List Account → List Nat
  | [] => []
  | a :: as => a.unbuiltIds ++ allUnbuiltIds as

end

mutual

/-- No condition stands in two places. -/
theorem count_predicates
    (n : Nat) :
    ∀ a : Account, (a.predicates.map Prod.fst).count n + a.unbuiltIds.count n ≤ a.filter.ids.count n
  | and children => by
      rw [predicates, unbuiltIds, filter, Filter.ids]
      exact count_allPredicates n children
  | or children => by
      rw [predicates, unbuiltIds, filter, Filter.ids]
      exact count_allPredicates n children
  | unbuilt f => by
      simp [predicates, unbuiltIds, filter]
  | own leaf predicate => by
      simp [predicates, unbuiltIds, filter, Leaf.filter, Filter.ids]
  | folded leaf fold => by
      simp [predicates, unbuiltIds, filter, Leaf.filter, Filter.ids]
  | behind leaf key inquiry inner => by
      simp [predicates, unbuiltIds, filter, Leaf.filter, Filter.ids]
  | quantified id field q key inquiry inner => by
      simp [predicates, unbuiltIds, filter, Filter.ids]

theorem count_allPredicates
    (n : Nat) :
    ∀ as : List Account, ((allPredicates as).map Prod.fst).count n + (allUnbuiltIds as).count n ≤
      (Filter.idsOfAll (filters as)).count n
  | [] => by
      simp [allPredicates, allUnbuiltIds]
  | a :: as => by
      have ha := count_predicates n a
      have has := count_allPredicates n as
      simp only [allPredicates, allUnbuiltIds, filters, Filter.idsOfAll, List.map_append,
        List.count_append]
      omega

end

theorem filters_isEmpty
    (as : List Account) :
    (filters as).isEmpty = as.isEmpty := by
  cases as <;> simp [filters]

mutual

/-- A filter holds when its account does, if its conditions have the values of
what stands for them. -/
theorem holds_filter
    {v : Expr → Bool} {value : Nat → Bool} :
    ∀ a : Account, (∀ x ∈ a.predicates, value x.1 = x.2.elim true v) →
      (∀ id ∈ a.unbuiltIds, value id = true) → a.filter.holds value = a.holds v
  | and children, hbuilt, hunbuilt => by
      rw [predicates] at hbuilt
      rw [unbuiltIds] at hunbuilt
      rw [filter, Filter.holds, holds]
      exact (holds_filters children hbuilt hunbuilt).1
  | or children, hbuilt, hunbuilt => by
      rw [predicates] at hbuilt
      rw [unbuiltIds] at hunbuilt
      rw [filter, Filter.holds, holds, filters_isEmpty, (holds_filters children hbuilt hunbuilt).2]
  | unbuilt f, _, hunbuilt => by
      rw [unbuiltIds] at hunbuilt
      rw [filter, holds]
      exact Filter.holds_of_values f hunbuilt
  | own leaf predicate, hbuilt, _ => by
      rw [filter, Leaf.filter, Filter.holds, holds]
      exact hbuilt (leaf.id, predicate) (by simp [predicates])
  | folded leaf fold, hbuilt, _ => by
      rw [filter, Leaf.filter, Filter.holds, holds]
      exact hbuilt (leaf.id, fold.shared) (by simp [predicates])
  | behind leaf key inquiry inner, hbuilt, _ => by
      rw [filter, Leaf.filter, Filter.holds, holds]
      exact hbuilt (leaf.id, some (inquiry.predicate key false inner.condition))
        (by simp [predicates])
  | quantified id field q key inquiry inner, hbuilt, _ => by
      rw [filter, Filter.holds, holds]
      exact hbuilt (id, some (inquiry.predicate key (q == .none) inner.condition))
        (by simp [predicates])

theorem holds_filters
    {v : Expr → Bool} {value : Nat → Bool} :
    ∀ as : List Account, (∀ x ∈ allPredicates as, value x.1 = x.2.elim true v) →
      (∀ id ∈ allUnbuiltIds as, value id = true) →
        Filter.allHold value (filters as) = allHold v as ∧
          Filter.anyHolds value (filters as) = anyHolds v as
  | [], _, _ => by
      rw [filters, Filter.allHold, Filter.anyHolds, allHold, anyHolds]
      exact ⟨rfl, rfl⟩
  | a :: as, hbuilt, hunbuilt => by
      rw [allPredicates] at hbuilt
      rw [allUnbuiltIds] at hunbuilt
      have ha := holds_filter a (fun x hx => hbuilt x (List.mem_append_left _ hx))
        fun id hid => hunbuilt id (List.mem_append_left _ hid)
      have has := holds_filters as (fun x hx => hbuilt x (List.mem_append_right _ hx))
        fun id hid => hunbuilt id (List.mem_append_right _ hid)
      rw [filters, Filter.allHold, Filter.anyHolds, allHold, anyHolds, ha, has.1, has.2]
      exact ⟨rfl, rfl⟩

end

/-- The filter of an account whose conditions are numbered apart holds when the
account does. -/
theorem holds_filter_value
    {a : Account}
    (hids : a.filter.ids.Nodup) (v : Expr → Bool) :
    a.filter.holds (a.value v) = a.holds v := by
  have hcount := fun n =>
    Nat.le_trans (count_predicates n a) (List.nodup_iff_count_le_one.1 hids n)
  refine holds_filter a (fun x hx => ?_) fun id hid => ?_
  · have hkeys : (a.predicates.map Prod.fst).Nodup :=
      List.nodup_iff_count_le_one.2 fun n => Nat.le_trans (Nat.le_add_right _ _) (hcount n)
    rw [value, lookup_of_mem hx hkeys]
    rfl
  · have hnone : a.predicates.lookup id = none := by
      rw [List.lookup_eq_none_iff]
      intro x hx
      rw [bne_iff_ne]
      rintro rfl
      have hbuilt := List.count_pos_iff.2 (List.mem_map_of_mem (f := Prod.fst) hx)
      have hunbuilt := List.count_pos_iff.2 hid
      have hone := hcount x.1
      omega
    rw [value, hnone]
    rfl

/-- A sound account has a condition that is true when its filter is. -/
theorem truth_condition_filter
    {a : Account} {ids : List Nat}
    (hclosures : ∀ b ∈ a.closures, b.ClosureSound ids) (hids : ids.Nodup) (v : Expr → Bool) :
    Expr.truth? v a.condition = a.filter.holds (a.value v) := by
  rcases unbuilt_or_mem_closures a with ⟨f, rfl⟩ | hself
  · rw [condition, filter, Filter.holds_of_values]
    · rfl
    · intro id _
      rw [value, predicates]
      rfl
  · have hfilter := (hclosures a hself).ids_sublist
    rw [truth_condition hclosures hids, holds_filter_value (hids.sublist hfilter)]

end Account

end RowFilter
