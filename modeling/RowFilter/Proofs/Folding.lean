import RowFilter.Proofs.Frames
import RowFilter.Proofs.Numbering

/-!
# Folding happens once

The compilation looks for siblings at every conjunction, inner ones included, and
keeps what it folded in a table.  The account of a filter finds the folds of a
closure once.  Both give the same condition, with the same labels and joins: what
an inner conjunction still finds unfolded has no siblings.
-/

namespace RowFilter

open Sql (Expr)

/-! ## Comparisons of their own -/

theorem inQuery_map
    {α β : Type}
    (f : α → β) (collection qualifier : String) (step : Compiling α) :
    Compiling.inQuery collection qualifier (step >>= fun a => pure (f a)) = (do
      let (a, joins) ← Compiling.inQuery collection qualifier step
      return (f a, joins)) := by
  ext p : 1
  rw [run_inQuery, Attempt.run_bind, Attempt.run_bind, run_inQuery]
  generalize step.run (p.inside collection qualifier) = outcome
  obtain ⟨result, q⟩ := outcome
  cases result <;> rfl

theorem enter_map
    {α β : Type}
    (f : α → β) (schema : Schema) (probe : Probe) (step : Compiling α) :
    probe.enter schema (step >>= fun a => pure (f a)) = (do
      let (a, inquiry) ← probe.enter schema step
      return (f a, inquiry)) := by
  simp only [Probe.enter, inQuery_map, bind_assoc, pure_bind]

/-- The condition of a comparison of its own is that of its account. -/
theorem comparisonCondition_eq_account
    (schema : Schema) (id : Nat) (c : Comparison) (operand : Json) :
    ∀ (limit : Nat) (path : List Segment),
      comparisonCondition schema id c operand limit path = (do
        return (← comparisonAccount schema id c operand limit path).condition) := by
  intro limit
  induction limit with
  | zero =>
      intro path
      rfl
  | succ limit ih =>
      intro path
      rw [comparisonCondition_eq, comparisonAccount, bind_assoc]
      refine bind_congr fun destination => ?_
      split
      · rename_i place relation scope s rest
        rw [bind_assoc]
        refine bind_congr fun link => ?_
        have hstep : (do
            let _ ← Compiling.locate schema (s :: rest)
            comparisonCondition schema id c operand limit (s :: rest)) =
              ((do
                let _ ← Compiling.locate schema (s :: rest)
                comparisonAccount schema id c operand limit (s :: rest)) >>= fun a =>
                  pure a.condition) := by
          rw [bind_assoc]
          exact bind_congr fun _ => ih (s :: rest)
        rw [hstep, enter_map]
        simp only [bind_assoc, pure_bind, Account.condition]
      · simp only [bind_assoc, pure_bind, Account.condition, bind_pure]

/-! ## Tests in a settled plan -/

theorem id_of_mem_testOf
    {schema : Schema} {plan : JoinPlan} {leaf : Leaf} {tests : List DocumentTest}
    (h : plan.testOf schema leaf = .ok tests) :
    ∀ t ∈ tests, t.id = leaf.id := by
  unfold JoinPlan.testOf at h
  split at h
  · obtain ⟨_, _, h⟩ := exists_of_bind_ok h
    cases h
    intro t ht
    rw [List.mem_singleton.1 ht]
    rfl
  · cases h
    intro t ht
    cases ht

theorem run_testsOf_compare
    {schema : Schema} {p : Progress} {destination : Destination}
    (leaf : Leaf)
    (h : p.plan.destination? schema leaf.path = some destination) :
    (testsOf schema leaf.filter).run p =
      if (p.folded.lookup leaf.id).isSome then (.ok [], p)
      else (p.plan.testOf schema leaf, p) := by
  unfold Leaf.filter testsOf testOf?
  by_cases hfolded : (p.folded.lookup leaf.id).isSome = true
  · rw [if_pos hfolded]
    have hrun : (testOf? schema leaf.id leaf.path leaf.comparison leaf.operand).run p =
        (.ok none, p) := by
      unfold testOf?
      rw [Attempt.run_bind_of_ok _ (Attempt.run_state p), if_pos hfolded]
      rfl
    exact Attempt.run_bind_of_ok _ hrun
  · rw [if_neg hfolded, bind_assoc]
    rw [Attempt.run_bind_of_ok _ (Attempt.run_state p), if_neg hfolded, bind_assoc]
    rw [Attempt.run_bind_of_ok _ (run_locate h)]
    unfold JoinPlan.testOf
    rw [h]
    cases destination with
    | column place relation =>
        rfl
    | toMany place relation scope rest =>
        rfl
    | json place rest =>
        cases rest with
        | nil =>
            rfl
        | cons s rest =>
            simp only [Attempt.run_bind, Attempt.run_ofExcept]
            cases checkJsonPath place.segment.name (s :: rest) (.compare leaf.comparison) <;> rfl

/-- The tests that are not folded yet. -/
def unfolded (folded : List (Nat × Option Expr)) (tests : List DocumentTest) :
    List DocumentTest :=
  tests.filter fun t => (folded.lookup t.id).isNone

mutual

/-- In a settled plan the tests are looked up.  If some conditions are folded
already, the others are found, provided that all have passed their checks. -/
theorem run_testsOf
    {schema : Schema} {p : Progress} :
    ∀ filter : Filter, filter.Settled schema p.plan →
      (∀ e, closureTests schema p.plan filter = .error e →
        ∀ id ∈ filter.ids, p.folded.lookup id = none) →
      (testsOf schema filter).run p =
        ((closureTests schema p.plan filter).map (unfolded p.folded), p)
  | .and children, hsettled, h => by
      rw [Filter.Settled] at hsettled
      rw [closureTests, Filter.ids] at h
      rw [testsOf, closureTests]
      exact run_testsOfAll children hsettled h
  | .or _, _, _ => by
      rw [testsOf, closureTests]
      rfl
  | .quantify _ _ _ _, _, _ => by
      rw [testsOf, closureTests]
      rfl
  | .compare id path c operand, hsettled, h => by
      rw [Filter.Settled] at hsettled
      rw [closureTests, Filter.ids] at h
      obtain ⟨destination, hdestination⟩ := hsettled
      have hrun := run_testsOf_compare ⟨id, path, c, operand⟩ hdestination
      rw [closureTests]
      refine hrun.trans ?_
      cases htests : p.plan.testOf schema ⟨id, path, c, operand⟩ with
      | error e =>
          have hnone := h e htests id (List.mem_singleton_self id)
          simp [hnone]
          rfl
      | ok tests =>
          have hid := id_of_mem_testOf htests
          cases hlookup : p.folded.lookup id with
          | some e =>
              have hnone : unfolded p.folded tests = [] := by
                rw [unfolded, List.filter_eq_nil_iff]
                intro t ht
                rw [hid t ht, hlookup]
                exact Bool.false_ne_true
              rw [if_pos Option.isSome_some, ← hnone]
              rfl
          | none =>
              have hall : unfolded p.folded tests = tests := by
                rw [unfolded, List.filter_eq_self]
                intro t ht
                rw [hid t ht, hlookup]
                rfl
              rw [if_neg (by decide), Except.map, hall]

theorem run_testsOfAll
    {schema : Schema} {p : Progress} :
    ∀ filters : List Filter, Filter.AllSettled schema p.plan filters →
      (∀ e, allClosureTests schema p.plan filters = .error e →
        ∀ id ∈ Filter.idsOfAll filters, p.folded.lookup id = none) →
      (testsOfAll schema filters).run p =
        ((allClosureTests schema p.plan filters).map (unfolded p.folded), p)
  | [], _, _ => by
      rw [testsOfAll, allClosureTests]
      rfl
  | child :: rest, hsettled, h => by
      rw [Filter.AllSettled] at hsettled
      rw [allClosureTests, Filter.idsOfAll] at h
      rw [testsOfAll, allClosureTests]
      cases hchild : closureTests schema p.plan child with
      | error e =>
          have hrun := run_testsOf child hsettled.1 fun _ _ id hid =>
            h e (by rw [hchild]; rfl) id (List.mem_append_left _ hid)
          rw [hchild] at hrun
          exact Attempt.run_bind_of_error _ hrun
      | ok tests =>
          have hrun := run_testsOf child hsettled.1 fun e he => by
            rw [hchild] at he
            cases he
          rw [hchild] at hrun
          refine (Attempt.run_bind_of_ok _ hrun).trans ?_
          have hothers := run_testsOfAll rest hsettled.2 fun e he id hid =>
            h e (by rw [hchild, he]; rfl) id (List.mem_append_right _ hid)
          cases hrest : allClosureTests schema p.plan rest with
          | error e =>
              rw [hrest] at hothers
              exact Attempt.run_bind_of_error _ hothers
          | ok others =>
              rw [hrest] at hothers
              refine (Attempt.run_bind_of_ok _ hothers).trans ?_
              have happend : unfolded p.folded (tests ++ others) =
                  unfolded p.folded tests ++ unfolded p.folded others :=
                List.filter_append ..
              exact congrArg (fun ts => (Except.ok ts, p)) happend.symm

end

/-! ## The table of folded conditions -/

namespace Fold

/-- What the table says about the members of a fold. -/
def entries (fold : Fold) : List (Nat × Option Expr) :=
  match fold.members with
  | [] => []
  | first :: rest => (first.id, fold.shared) :: rest.map fun t => (t.id, none)

/-- What the table says about the members of folds. -/
def table (folds : List Fold) : List (Nat × Option Expr) :=
  folds.flatMap entries

theorem lookup_followers
    (rest : List DocumentTest) (id : Nat) :
    (rest.map fun t => (t.id, (none : Option Expr))).lookup id =
      if rest.any fun t => t.id == id then some none else none := by
  induction rest with
  | nil =>
      rfl
  | cons t rest ih =>
      by_cases h : t.id = id
      · simp [h]
      · have hne : (id == t.id) = false := by
          simpa using Ne.symm h
        rw [List.map_cons, List.lookup_cons, hne]
        simpa [h] using ih

theorem lookup_entries
    (fold : Fold) (id : Nat) :
    fold.entries.lookup id = if fold.has id then some (fold.standing id) else none := by
  obtain ⟨members, shared⟩ := fold
  cases members with
  | nil =>
      rfl
  | cons first rest =>
      by_cases h : first.id = id
      · simp [entries, has, standing, leads, h]
      · have hne : (id == first.id) = false := by
          simpa using Ne.symm h
        simp only [entries, has, standing, leads, List.lookup_cons, hne, lookup_followers]
        simp [h]

/-- The table says of a condition what stands at it in its fold. -/
theorem lookup_table
    (folds : List Fold) (id : Nat) :
    (table folds).lookup id = (of? folds id).map fun fold => fold.standing id := by
  induction folds with
  | nil =>
      rfl
  | cons fold folds ih =>
      rw [table, List.flatMap_cons, List.lookup_append, lookup_entries]
      by_cases h : fold.has id = true
      · simp [of?, h]
      · rw [if_neg h, Option.none_or]
        rw [Bool.not_eq_true] at h
        simpa [of?, table, h] using ih

theorem mem_table
    {folds : List Fold} {entry : Nat × Option Expr}
    (h : entry ∈ table folds) :
    ∃ fold ∈ folds, ∃ t ∈ fold.members, t.id = entry.1 := by
  obtain ⟨fold, hfold, hentry⟩ := List.mem_flatMap.1 h
  refine ⟨fold, hfold, ?_⟩
  obtain ⟨members, shared⟩ := fold
  cases members with
  | nil =>
      cases hentry
  | cons first rest =>
      rcases List.mem_cons.1 hentry with rfl | hrest
      · exact ⟨first, List.mem_cons_self, rfl⟩
      · obtain ⟨t, ht, rfl⟩ := List.mem_map.1 hrest
        exact ⟨t, List.mem_cons_of_mem _ ht, rfl⟩

end Fold

/-- Two states with the same labels and the same plan, one with a table of folded
conditions and one with another. -/
def Beside (plan : JoinPlan) (folded folded' : List (Nat × Option Expr)) (p q : Progress) : Prop :=
  ∃ labels, p = ⟨labels, plan, folded⟩ ∧ q = ⟨labels, plan, folded'⟩

/-- A step that is blind to the table does the same beside another one. -/
theorem relates_beside
    {α : Type} {x : Compiling α} {plan : JoinPlan} {folded folded' : List (Nat × Option Expr)}
    (hblind : Compiling.Blind x) (hkeeps : Compiling.Keeps plan x) :
    Attempt.Relates (Beside plan folded folded') x x
      fun a b p q => a = b ∧ Beside plan folded folded' p q := by
  rintro p q ⟨labels, rfl, rfl⟩
  have hfolded := hblind.folded_eq ⟨labels, plan, folded⟩
  have hplan := hkeeps ⟨labels, plan, folded⟩ rfl
  have hsame := hblind ⟨labels, plan, folded⟩ folded'
  change x.run ⟨labels, plan, folded'⟩ = _ at hsame
  rw [hsame]
  generalize x.run ⟨labels, plan, folded⟩ = outcome at hfolded hplan ⊢
  obtain ⟨result, labels', plan', folded''⟩ := outcome
  cases hfolded
  cases hplan
  cases result with
  | ok a =>
      exact .ok ⟨rfl, labels', rfl, rfl⟩
  | error e =>
      exact .error e _ _

/-- Folding groups one after the other fills the table as the folds say. -/
theorem relates_foldGroups
    (plan : JoinPlan) (folded' : List (Nat × Option Expr)) :
    ∀ (groups : List (List DocumentTest)) (folded : List (Nat × Option Expr)),
      Attempt.Relates (Beside plan folded folded') (foldGroups groups)
        (makeFolds (groups.filter (2 ≤ ·.length)))
        fun _ folds p q => Beside plan (folded ++ Fold.table folds) folded' p q ∧
          folds.map Fold.members = groups.filter (2 ≤ ·.length)
  | [], folded => by
      refine Attempt.relates_pure fun p q h => ⟨?_, rfl⟩
      simpa [Fold.table] using h
  | [] :: rest, folded => by
      simpa [foldGroups, foldGroup] using relates_foldGroups plan folded' rest folded
  | [t] :: rest, folded => by
      simpa [foldGroups, foldGroup] using relates_foldGroups plan folded' rest folded
  | (first :: second :: more) :: rest, folded => by
      have hlong : ((first :: second :: more) :: rest).filter (2 ≤ ·.length) =
          (first :: second :: more) :: rest.filter (2 ≤ ·.length) := by
        simp
      rw [hlong, foldGroups, foldGroup, makeFolds, bind_assoc]
      refine (relates_beside (Compiling.blind_label _)
        ((Compiling.labelsOnly_label _).keeps plan)).bind fun shared shared' => ?_
      rintro p q ⟨rfl, labels, rfl, rfl⟩
      have hrest := (relates_foldGroups plan folded' rest
        (folded ++ Fold.entries ⟨first :: second :: more, shared⟩)).bind (f := pure)
          (g := fun folds => pure (⟨first :: second :: more, shared⟩ :: folds))
          (Q := fun _ folds p q => Beside plan (folded ++ Fold.table folds) folded' p q ∧
            folds.map Fold.members =
              (first :: second :: more) :: rest.filter (2 ≤ ·.length))
          fun _ folds => Attempt.relates_pure fun p q h => by
            refine ⟨?_, by rw [List.map_cons, h.2]⟩
            rw [Fold.table, List.flatMap_cons, ← List.append_assoc]
            exact h.1
      rw [bind_pure] at hrest
      exact hrest _ _ ⟨labels, rfl, rfl⟩

/-! ## Numbers inside and outside a closure -/

namespace Filter

mutual

/-- The numbers of the comparisons in the closure of a filter. -/
def closureIds : Filter → List Nat
  | .and children => closureIdsOfAll children
  | .or _ => []
  | .compare id _ _ _ => [id]
  | .quantify _ _ _ _ => []

/-- The numbers of the comparisons in the closure of several filters. -/
def closureIdsOfAll : List Filter → List Nat
  | [] => []
  | child :: rest => child.closureIds ++ closureIdsOfAll rest

end

mutual

/-- The numbers of all other conditions of a filter. -/
def innerIds : Filter → List Nat
  | .and children => innerIdsOfAll children
  | .or children => idsOfAll children
  | .compare _ _ _ _ => []
  | .quantify id _ _ inner => inner.ids ++ [id]

/-- The numbers of all other conditions of several filters. -/
def innerIdsOfAll : List Filter → List Nat
  | [] => []
  | child :: rest => child.innerIds ++ innerIdsOfAll rest

end

mutual

theorem count_ids
    (n : Nat) :
    ∀ filter : Filter, filter.ids.count n = filter.closureIds.count n + filter.innerIds.count n
  | .and children => by
      rw [ids, closureIds, innerIds]
      exact count_idsOfAll n children
  | .or children => by
      simp [ids, closureIds, innerIds]
  | .compare id _ _ _ => by
      simp [ids, closureIds, innerIds]
  | .quantify id _ _ inner => by
      simp [ids, closureIds, innerIds]

theorem count_idsOfAll
    (n : Nat) :
    ∀ filters : List Filter, (idsOfAll filters).count n =
      (closureIdsOfAll filters).count n + (innerIdsOfAll filters).count n
  | [] => by
      simp [idsOfAll, closureIdsOfAll, innerIdsOfAll]
  | child :: rest => by
      have hchild := count_ids n child
      have hrest := count_idsOfAll n rest
      simp only [idsOfAll, closureIdsOfAll, innerIdsOfAll, List.count_append]
      omega

end

theorem mem_ids_iff
    {filter : Filter} {id : Nat} :
    id ∈ filter.ids ↔ id ∈ filter.closureIds ∨ id ∈ filter.innerIds := by
  rw [← List.count_pos_iff, ← List.count_pos_iff, ← List.count_pos_iff]
  have hcount := count_ids id filter
  omega

theorem mem_idsOfAll_iff
    {filters : List Filter} {id : Nat} :
    id ∈ idsOfAll filters ↔ id ∈ closureIdsOfAll filters ∨ id ∈ innerIdsOfAll filters := by
  rw [← List.count_pos_iff, ← List.count_pos_iff, ← List.count_pos_iff]
  have hcount := count_idsOfAll id filters
  omega

theorem nodup_closureIds
    {filter : Filter}
    (h : filter.ids.Nodup) :
    filter.closureIds.Nodup := by
  rw [List.nodup_iff_count_le_one] at h ⊢
  intro n
  have hcount := count_ids n filter
  have hone := h n
  omega

theorem not_mem_innerIdsOfAll
    {filters : List Filter} {id : Nat}
    (hnodup : (idsOfAll filters).Nodup) (h : id ∈ closureIdsOfAll filters) :
    id ∉ innerIdsOfAll filters := by
  have hone := List.nodup_iff_count_le_one.1 hnodup id
  have hcount := count_idsOfAll id filters
  rw [← List.count_pos_iff] at h ⊢
  omega

mutual

theorem sublist_closureTests
    {schema : Schema} {plan : JoinPlan} :
    ∀ {filter : Filter} {tests : List DocumentTest},
      closureTests schema plan filter = .ok tests →
        (tests.map DocumentTest.id).Sublist filter.closureIds
  | .and children, tests, h => by
      rw [closureTests] at h
      rw [closureIds]
      exact sublist_allClosureTests h
  | .or _, tests, h => by
      rw [closureTests] at h
      cases h
      exact List.nil_sublist _
  | .quantify _ _ _ _, tests, h => by
      rw [closureTests] at h
      cases h
      exact List.nil_sublist _
  | .compare id path c operand, tests, h => by
      rw [closureTests, JoinPlan.testOf] at h
      rw [closureIds]
      split at h
      · obtain ⟨_, _, h⟩ := exists_of_bind_ok h
        cases h
        exact List.Sublist.refl _
      · cases h
        exact List.nil_sublist _

theorem sublist_allClosureTests
    {schema : Schema} {plan : JoinPlan} :
    ∀ {filters : List Filter} {tests : List DocumentTest},
      allClosureTests schema plan filters = .ok tests →
        (tests.map DocumentTest.id).Sublist (closureIdsOfAll filters)
  | [], tests, h => by
      rw [allClosureTests] at h
      cases h
      exact List.nil_sublist _
  | child :: rest, tests, h => by
      rw [allClosureTests] at h
      obtain ⟨first, hfirst, h⟩ := exists_of_bind_ok h
      obtain ⟨others, hothers, h⟩ := exists_of_bind_ok h
      cases h
      rw [closureIdsOfAll, List.map_append]
      exact (sublist_closureTests hfirst).append (sublist_allClosureTests hothers)

end

theorem mem_closureIdsOfAll_of_test
    {schema : Schema} {plan : JoinPlan} {filters : List Filter} {tests : List DocumentTest}
    {t : DocumentTest}
    (h : allClosureTests schema plan filters = .ok tests) (ht : t ∈ tests) :
    t.id ∈ closureIdsOfAll filters :=
  (sublist_allClosureTests h).subset (List.mem_map_of_mem ht)

end Filter

end RowFilter
