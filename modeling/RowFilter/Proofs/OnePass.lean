import RowFilter.Proofs.Folding

/-!
# One pass is enough

The compilation of a filter against its account, step by step from states that
differ in the table of folded conditions only.  The invariant says what the table
holds for the filter at hand.

* `Fits`: for the comparisons of its closure what the folds handed down say, and
  nothing for its other conditions.
* `Spread`: the comparisons of the closure that are not folded have no siblings,
  so an inner conjunction that looks again finds nothing to fold.
* `account_of_compile`: what is compiled is given by the account.
-/

namespace RowFilter

open Sql (Expr)

/-- What the folds that were handed down say about a condition. -/
def standing? (within : Option (List Fold)) (id : Nat) : Option (Option Expr) :=
  (within.bind (Fold.of? · id)).map fun fold => fold.standing id

/-- The table holds what the folds say about the conditions of a closure, and
nothing about the conditions inside it. -/
structure Fits (folded : List (Nat × Option Expr)) (within : Option (List Fold))
    (closure inner : List Nat) : Prop where
  closure_eq : ∀ id ∈ closure, folded.lookup id = standing? within id
  inner_eq : ∀ id ∈ inner, folded.lookup id = none

theorem Fits.mono
    {folded : List (Nat × Option Expr)} {within : Option (List Fold)}
    {closure inner closure' inner' : List Nat}
    (h : Fits folded within closure inner) (hclosure : closure' ⊆ closure)
    (hinner : inner' ⊆ inner) :
    Fits folded within closure' inner' :=
  ⟨fun id hid => h.closure_eq id (hclosure hid), fun id hid => h.inner_eq id (hinner hid)⟩

/-- A filter of which nothing is folded. -/
theorem fits_of_fresh
    {folded : List (Nat × Option Expr)} {filter : Filter}
    (h : ∀ id ∈ filter.ids, folded.lookup id = none) :
    Fits folded none filter.closureIds filter.innerIds :=
  ⟨fun id hid => h id (Filter.mem_ids_iff.2 (.inl hid)),
    fun id hid => h id (Filter.mem_ids_iff.2 (.inr hid))⟩

theorem lookup_append_of_disjoint
    {folded more : List (Nat × Option Expr)} {ids : List Nat} {id : Nat}
    (hmore : ∀ entry ∈ more, entry.1 ∈ ids) (hid : id ∉ ids) :
    (folded ++ more).lookup id = folded.lookup id := by
  have hnone : more.lookup id = none := by
    rw [List.lookup_eq_none_iff]
    intro entry hentry
    have hne : id ≠ entry.1 := fun h => hid (h ▸ hmore entry hentry)
    simpa using hne
  rw [List.lookup_append, hnone, Option.or_none]

/-- What is folded elsewhere does not matter. -/
theorem Fits.append
    {folded more : List (Nat × Option Expr)} {within : Option (List Fold)}
    {closure inner ids : List Nat}
    (h : Fits folded within closure inner) (hmore : ∀ entry ∈ more, entry.1 ∈ ids)
    (hclosure : ∀ id ∈ closure, id ∉ ids) (hinner : ∀ id ∈ inner, id ∉ ids) :
    Fits (folded ++ more) within closure inner where
  closure_eq id hid := by
    rw [lookup_append_of_disjoint hmore (hclosure id hid), h.closure_eq id hid]
  inner_eq id hid := by
    rw [lookup_append_of_disjoint hmore (hinner id hid), h.inner_eq id hid]

/-- Tests that read a member and are not folded have no siblings among each
other. -/
def Spread (folds : List Fold) (tests : List DocumentTest) : Prop :=
  ((unfolded (Fold.table folds) (tests.filter DocumentTest.endsInMember)).map
    DocumentTest.groupKey).Nodup

theorem Spread.sublist
    {folds : List Fold} {tests others : List DocumentTest}
    (h : Spread folds tests) (hsub : others.Sublist tests) :
    Spread folds others :=
  List.Nodup.sublist (((hsub.filter _).filter _).map _) h

/-- After a family is folded, none of its members is left over. -/
theorem spread_of_foldable
    {folds : List Fold} {tests : List DocumentTest}
    (h : folds.map Fold.members = foldable tests) :
    Spread folds tests := by
  refine DocumentTest.nodup_keys_of_single List.filter_sublist fun t ht => ?_
  obtain ⟨hmem, hnone⟩ := List.mem_filter.1 ht
  by_contra hlong
  rw [Nat.not_lt] at hlong
  have hfamily : DocumentTest.family (tests.filter DocumentTest.endsInMember) t.groupKey ∈
      foldable tests := by
    refine List.mem_filter.2 ⟨List.mem_map_of_mem ?_, by simpa using hlong⟩
    exact List.mem_eraseDups.2 (List.mem_map_of_mem hmem)
  rw [← h] at hfamily
  obtain ⟨fold, hfold, hmembers⟩ := List.mem_map.1 hfamily
  have hhas : fold.has t.id = true := by
    rw [Fold.has, hmembers, List.any_eq_true]
    exact ⟨t, DocumentTest.mem_family.2 ⟨hmem, rfl⟩, by simp⟩
  have hof : Fold.of? folds t.id ≠ none := by
    intro hfind
    exact List.find?_eq_none.1 hfind fold hfold hhas
  rw [Option.isNone_iff_eq_none, Fold.lookup_table, Option.map_eq_none_iff] at hnone
  exact hof hnone

theorem foldGroups_eq_pure
    {groups : List (List DocumentTest)}
    (h : ∀ members ∈ groups, members.length < 2) :
    foldGroups groups = pure () := by
  induction groups with
  | nil =>
      rfl
  | cons members rest ih =>
      have hrest := ih fun g hg => h g (List.mem_cons_of_mem _ hg)
      have hshort := h members List.mem_cons_self
      rw [foldGroups, hrest]
      rcases members with _ | ⟨t, _ | ⟨second, more⟩⟩
      · rfl
      · rfl
      · simp only [List.length_cons] at hshort
        omega

/-- Inside a closure whose folds are known, looking for siblings changes
nothing. -/
theorem run_foldSiblings_within
    {schema : Schema} {children : List Filter} {folds : List Fold} {tests : List DocumentTest}
    {p : Progress} {inner : List Nat}
    (hsettled : Filter.AllSettled schema p.plan children)
    (hfits : Fits p.folded (some folds) (Filter.closureIdsOfAll children) inner)
    (htests : allClosureTests schema p.plan children = .ok tests) (hspread : Spread folds tests) :
    (foldSiblings schema children).run p = (.ok (), p) := by
  have hrun := run_testsOfAll children hsettled fun e he => by
    rw [htests] at he
    cases he
  rw [htests] at hrun
  have hsame : unfolded p.folded tests = unfolded (Fold.table folds) tests := by
    refine List.filter_congr fun t ht => ?_
    rw [hfits.closure_eq t.id (Filter.mem_closureIdsOfAll_of_test htests ht), Fold.lookup_table]
    rfl
  have hcomm : (unfolded (Fold.table folds) tests).filter DocumentTest.endsInMember =
      unfolded (Fold.table folds) (tests.filter DocumentTest.endsInMember) := by
    rw [unfolded, unfolded, List.filter_filter, List.filter_filter]
    exact List.filter_congr fun t _ => Bool.and_comm _ _
  have hshort := DocumentTest.length_lt_two_of_nodup_keys hspread
  unfold foldSiblings
  refine (Attempt.run_bind_of_ok _ hrun).trans ?_
  rw [hsame, hcomm, DocumentTest.groups_eq_families, foldGroups_eq_pure hshort]
  rfl

/-- Where nothing is folded yet, looking for siblings folds what the closure
says. -/
theorem relates_foldSiblings
    {schema : Schema} {children : List Filter} {plan : JoinPlan}
    {folded folded' : List (Nat × Option Expr)}
    (hsettled : Filter.AllSettled schema plan children)
    (hfresh : ∀ id ∈ Filter.idsOfAll children, folded.lookup id = none) :
    Attempt.Relates (Beside plan folded folded') (foldSiblings schema children)
      (closureFolds schema children)
      fun _ folds p q => Beside plan (folded ++ Fold.table folds) folded' p q ∧
        ∃ tests, allClosureTests schema plan children = .ok tests ∧
          folds.map Fold.members = foldable tests := by
  rintro p q ⟨labels, rfl, rfl⟩
  have hrun := run_testsOfAll (p := ⟨labels, plan, folded⟩) children hsettled fun _ _ => hfresh
  have hfolds : (closureFolds schema children).run ⟨labels, plan, folded'⟩ =
      (do
        let tests ← Attempt.ofExcept (allClosureTests schema plan children)
        makeFolds (foldable tests) : Compiling _).run ⟨labels, plan, folded'⟩ :=
    rfl
  rw [hfolds]
  unfold foldSiblings
  cases htests : allClosureTests schema plan children with
  | error e =>
      have hrun' : (testsOfAll schema children).run ⟨labels, plan, folded⟩ =
          (.error e, ⟨labels, plan, folded⟩) := by
        rw [hrun, htests]
        rfl
      rw [Attempt.run_bind_of_error _ hrun']
      exact .error e _ _
  | ok tests =>
      have hall : unfolded folded tests = tests := by
        rw [unfolded, List.filter_eq_self]
        intro t ht
        have hid := Filter.mem_closureIdsOfAll_of_test htests ht
        rw [hfresh t.id (Filter.mem_idsOfAll_iff.2 (.inl hid))]
        rfl
      have hrun' : (testsOfAll schema children).run ⟨labels, plan, folded⟩ =
          (.ok tests, ⟨labels, plan, folded⟩) := by
        rw [hrun, htests, Except.map, hall]
      rw [Attempt.run_bind_of_ok _ hrun']
      rw [Attempt.run_bind_of_ok _ rfl, DocumentTest.groups_eq_families]
      refine (relates_foldGroups plan folded' _ folded _ _ ⟨labels, rfl, rfl⟩).mono ?_
      rintro _ folds p q ⟨hbeside, hmembers⟩
      exact ⟨hbeside, tests, rfl, hmembers⟩

theorem fits_of_foldable
    {schema : Schema} {plan : JoinPlan} {children : List Filter} {folds : List Fold}
    {tests : List DocumentTest} {folded : List (Nat × Option Expr)}
    (hfresh : ∀ id ∈ Filter.idsOfAll children, folded.lookup id = none)
    (hnodup : (Filter.idsOfAll children).Nodup)
    (htests : allClosureTests schema plan children = .ok tests)
    (hmembers : folds.map Fold.members = foldable tests) :
    (∀ entry ∈ Fold.table folds, entry.1 ∈ Filter.closureIdsOfAll children) ∧
      Fits (folded ++ Fold.table folds) (some folds) (Filter.closureIdsOfAll children)
        (Filter.innerIdsOfAll children) := by
  have htable : ∀ entry ∈ Fold.table folds, entry.1 ∈ Filter.closureIdsOfAll children := by
    intro entry hentry
    obtain ⟨fold, hfold, t, ht, hid⟩ := Fold.mem_table hentry
    have hfoldable : fold.members ∈ foldable tests := by
      rw [← hmembers]
      exact List.mem_map_of_mem hfold
    obtain ⟨key, -, hkey⟩ := List.mem_map.1 (List.mem_filter.1 hfoldable).1
    rw [← hkey] at ht
    have hmem := (List.mem_filter.1 (DocumentTest.mem_family.1 ht).1).1
    rw [← hid]
    exact Filter.mem_closureIdsOfAll_of_test htests hmem
  refine ⟨htable, ?_, ?_⟩
  · intro id hid
    rw [List.lookup_append, hfresh id (Filter.mem_idsOfAll_iff.2 (.inl hid)), Option.none_or,
      Fold.lookup_table]
    rfl
  · intro id hid
    have hout : id ∉ Filter.closureIdsOfAll children :=
      fun h => Filter.not_mem_innerIdsOfAll hnodup h hid
    rw [lookup_append_of_disjoint htable hout]
    exact hfresh id (Filter.mem_idsOfAll_iff.2 (.inr hid))

/-- The states after a filter: the table has grown by entries for conditions of
that filter, and nothing else sets the two apart. -/
def Advanced (plan : JoinPlan) (folded folded' : List (Nat × Option Expr)) (ids : List Nat)
    (p q : Progress) : Prop :=
  ∃ labels more, p = ⟨labels, plan, folded ++ more⟩ ∧ q = ⟨labels, plan, folded'⟩ ∧
    ∀ entry ∈ more, entry.1 ∈ ids

theorem Beside.advanced
    {plan : JoinPlan} {folded folded' : List (Nat × Option Expr)} {ids : List Nat}
    {p q : Progress}
    (h : Beside plan folded folded' p q) :
    Advanced plan folded folded' ids p q := by
  obtain ⟨labels, rfl, rfl⟩ := h
  exact ⟨labels, [], by simp, rfl, by simp⟩

theorem Advanced.trans
    {plan : JoinPlan} {folded folded' more : List (Nat × Option Expr)}
    {first second ids : List Nat} {p q : Progress}
    (hmore : ∀ entry ∈ more, entry.1 ∈ first)
    (h : Advanced plan (folded ++ more) folded' second p q) (hfirst : first ⊆ ids)
    (hsecond : second ⊆ ids) :
    Advanced plan folded folded' ids p q := by
  obtain ⟨labels, others, rfl, rfl, hothers⟩ := h
  refine ⟨labels, more ++ others, by rw [List.append_assoc], rfl, ?_⟩
  intro entry hentry
  rcases List.mem_append.1 hentry with hentry | hentry
  · exact hfirst (hmore entry hentry)
  · exact hsecond (hothers entry hentry)

/-- Inside a query the plan is another one; outside it is the same as before. -/
theorem relates_inQuery
    {α β : Type} {x : Compiling α} {y : Compiling β} {Q : α → β → Prop} {plan : JoinPlan}
    {folded folded' : List (Nat × Option Expr)} {ids : List Nat}
    (collection qualifier : String)
    (h : Attempt.Relates (Beside (JoinPlan.start collection qualifier) folded folded') x y
      fun a b p q => Q a b ∧ ∃ plan', Advanced plan' folded folded' ids p q) :
    Attempt.Relates (Beside plan folded folded') (Compiling.inQuery collection qualifier x)
      (Compiling.inQuery collection qualifier y)
      fun a b p q => Q a.1 b.1 ∧ a.2 = b.2 ∧ Advanced plan folded folded' ids p q := by
  rintro p q ⟨labels, rfl, rfl⟩
  have hstep := h _ _ ⟨labels, rfl, rfl⟩
  rw [run_inQuery, run_inQuery]
  change Attempt.Agree _ (x.run (Progress.inside ⟨labels, plan, folded⟩ collection qualifier))
    (y.run (Progress.inside ⟨labels, plan, folded'⟩ collection qualifier)) at hstep
  generalize x.run (Progress.inside ⟨labels, plan, folded⟩ collection qualifier) = u at hstep ⊢
  generalize y.run (Progress.inside ⟨labels, plan, folded'⟩ collection qualifier) = v at hstep ⊢
  cases hstep with
  | ok h =>
      obtain ⟨hQ, plan', labels', more, rfl, rfl, hmore⟩ := h
      exact .ok ⟨hQ, rfl, labels', more, rfl, rfl, hmore⟩
  | error e =>
      exact .error e _ _

theorem relates_enter
    {α β : Type} {x : Compiling α} {y : Compiling β} {Q : α → β → Prop} {plan : JoinPlan}
    {folded folded' : List (Nat × Option Expr)}
    (schema : Schema) (probe : Probe) (ids : List Nat)
    (h : ∀ qualifier,
      Attempt.Relates (Beside (JoinPlan.start probe.related qualifier) folded folded') x y
        fun a b p q => Q a b ∧ ∃ plan', Advanced plan' folded folded' ids p q) :
    Attempt.Relates (Beside plan folded folded') (probe.enter schema x) (probe.enter schema y)
      fun a b p q => Q a.1 b.1 ∧ a.2 = b.2 ∧ Advanced plan folded folded' ids p q := by
  unfold Probe.enter
  refine Attempt.Relates.bind (R := fun _ _ => Beside plan folded folded')
    (Attempt.relates_ofExcept fun _ _ _ _ hbeside => hbeside) fun _ _ => ?_
  have hlabel := Compiling.labelsOnly_label (Attempt.ofState (Labels.fresh probe.related))
  refine (relates_beside hlabel.blind (hlabel.keeps plan)).bind fun label label' => ?_
  rintro p q ⟨rfl, hbeside⟩
  refine ((relates_inQuery probe.related label (h label)).bind fun a b => ?_) p q hbeside
  refine Attempt.relates_pure fun p q hab => ?_
  obtain ⟨hQ, hjoins, hadvanced⟩ := hab
  exact ⟨hQ, by rw [hjoins], hadvanced⟩

/-- Planning joins does the same beside another table, and settles the filter. -/
theorem relates_planJoins
    (s : Setting) (filter : Filter) (plan : JoinPlan)
    (folded folded' : List (Nat × Option Expr)) :
    Attempt.Relates (Beside plan folded folded') (planJoins s filter) (planJoins s filter)
      fun _ _ p q => ∃ plan', Beside plan' folded folded' p q ∧ filter.Settled s.schema plan' := by
  rintro p q ⟨labels, rfl, rfl⟩
  have hblind := Compiling.blind_planJoins s filter
  have hfolded := hblind.folded_eq ⟨labels, plan, folded⟩
  have hsame := hblind ⟨labels, plan, folded⟩ folded'
  have hsettles := ensures_planJoins s filter plan ⟨labels, plan, folded⟩ rfl
  change (planJoins s filter).run ⟨labels, plan, folded'⟩ = _ at hsame
  rw [hsame]
  generalize (planJoins s filter).run ⟨labels, plan, folded⟩ = outcome at hfolded hsettles ⊢
  obtain ⟨result, labels', plan', folded''⟩ := outcome
  cases hfolded
  cases result with
  | ok a =>
      exact .ok ⟨plan', ⟨labels', rfl, rfl⟩, (hsettles a _ rfl).2⟩
  | error e =>
      exact .error e _ _

theorem alternatives?_unbuilt
    {filters : List Filter}
    (h : filters ≠ []) :
    Account.alternatives? (filters.map .unbuilt) = none := by
  cases filters with
  | nil =>
      exact absurd rfl h
  | cons f rest =>
      rw [List.map_cons, Account.alternatives?]
      rfl

/-- A comparison: folded already, or compiled on its own. -/
theorem relates_compare
    {s : Setting} {id : Nat} {path : List Segment} {c : Comparison} {operand : Json}
    {within : Option (List Fold)} {plan : JoinPlan} {destination : Destination}
    {folded folded' : List (Nat × Option Expr)}
    (hdestination : plan.destination? s.schema path = some destination)
    (hlookup : folded.lookup id = standing? within id) :
    Attempt.Relates (Beside plan folded folded') (filterCondition s (.compare id path c operand))
      (account s within (.compare id path c operand))
      fun e a p q => e = a.condition ∧ Beside plan folded folded' p q := by
  rw [filterCondition, account]
  rintro p q ⟨labels, rfl, rfl⟩
  rw [Attempt.run_bind_of_ok _ (Attempt.run_state _)]
  simp only [hlookup, standing?]
  cases within.bind (Fold.of? · id) with
  | some fold =>
      exact .ok ⟨rfl, labels, rfl, rfl⟩
  | none =>
      have hframe := Compiling.followsOnly_comparisonAccount s.schema id c operand path.length path
      have hown := (relates_beside hframe.blind (hframe.keeps hdestination)).bind
        (f := fun a => pure a.condition) (g := pure)
        (Q := fun e a p q => e = a.condition ∧ Beside plan folded folded' p q)
        fun a b => Attempt.relates_pure fun p q h => ⟨congrArg Account.condition h.1, h.2⟩
      rw [← comparisonCondition_eq_account, bind_pure] at hown
      exact hown _ _ ⟨labels, rfl, rfl⟩

mutual

/-- The condition of a filter is that of its account. -/
theorem relates_filterCondition
    (s : Setting) :
    ∀ (filter : Filter) {within : Option (List Fold)} {plan : JoinPlan}
      {folded folded' : List (Nat × Option Expr)},
      filter.Settled s.schema plan → filter.ids.Nodup →
      Fits folded within filter.closureIds filter.innerIds →
      (∀ folds, within = some folds →
        ∃ tests, closureTests s.schema plan filter = .ok tests ∧ Spread folds tests) →
      Attempt.Relates (Beside plan folded folded') (filterCondition s filter)
        (account s within filter)
        fun e a p q => e = a.condition ∧ Advanced plan folded folded' filter.ids p q
  | .and children, within, plan, folded, folded', hsettled, hnodup, hfits, hspread => by
      rw [Filter.Settled] at hsettled
      rw [Filter.ids] at hnodup ⊢
      rw [Filter.closureIds, Filter.innerIds] at hfits
      rw [filterCondition, account]
      cases within with
      | some folds =>
          obtain ⟨tests, htests, hspread⟩ := hspread folds rfl
          rw [closureTests] at htests
          rw [foldsWithin, pure_bind]
          rintro p q ⟨labels, rfl, rfl⟩
          have hnothing := run_foldSiblings_within (p := ⟨labels, plan, folded⟩) hsettled hfits
            htests hspread
          rw [Attempt.run_bind_of_ok _ hnothing]
          refine ((relates_allConditions s children hsettled hnodup hfits htests hspread).bind
            fun es as => Attempt.relates_pure fun p q h => ?_) _ _ ⟨labels, rfl, rfl⟩
          exact ⟨by rw [h.1, Account.condition], h.2⟩
      | none =>
          have hfresh : ∀ id ∈ Filter.idsOfAll children, folded.lookup id = none := by
            intro id hid
            rcases Filter.mem_idsOfAll_iff.1 hid with hid | hid
            · exact hfits.closure_eq id hid
            · exact hfits.inner_eq id hid
          rw [foldsWithin]
          refine (relates_foldSiblings hsettled hfresh).bind fun _ folds => ?_
          rintro p q ⟨hbeside, tests, htests, hmembers⟩
          obtain ⟨htable, hfits'⟩ := fits_of_foldable hfresh hnodup htests hmembers
          refine ((relates_allConditions s children hsettled hnodup hfits' htests
            (spread_of_foldable hmembers)).bind
              fun es as => Attempt.relates_pure fun p q h => ?_) p q hbeside
          refine ⟨by rw [h.1, Account.condition], h.2.trans htable ?_ fun _ hid => hid⟩
          exact fun id hid => Filter.mem_idsOfAll_iff.2 (.inl hid)
  | .or children, within, plan, folded, folded', hsettled, hnodup, hfits, _ => by
      rw [Filter.Settled] at hsettled
      rw [Filter.ids] at hnodup ⊢
      rw [Filter.closureIds, Filter.innerIds] at hfits
      rw [filterCondition, account]
      by_cases hall : children.any Filter.isMatchAll = true
      · rw [if_pos hall, if_pos hall]
        refine Attempt.relates_pure fun p q h => ⟨?_, h.advanced⟩
        have hne : children ≠ [] := by
          rintro rfl
          cases hall
        rw [Account.condition, alternatives?_unbuilt hne]
        rfl
      · rw [if_neg hall, if_neg hall]
        have hsettled' := hsettled.resolve_left hall
        refine (relates_alternativeConditions s children hsettled' hnodup hfits.inner_eq).bind
          fun es as => Attempt.relates_pure fun p q h => ?_
        exact ⟨by rw [h.1, Account.condition], h.2⟩
  | .compare id path c operand, within, plan, folded, folded', hsettled, _, hfits, _ => by
      rw [Filter.Settled] at hsettled
      rw [Filter.closureIds] at hfits
      obtain ⟨destination, hdestination⟩ := hsettled
      have hlookup := hfits.closure_eq id (List.mem_singleton_self id)
      exact (relates_compare hdestination hlookup).mono fun e a p q h => ⟨h.1, h.2.advanced⟩
  | .quantify id field q inner, within, plan, folded, folded', hsettled, hnodup, hfits, _ => by
      rw [Filter.Settled] at hsettled
      rw [Filter.ids] at hnodup ⊢
      rw [Filter.innerIds] at hfits
      obtain ⟨destination, hdestination⟩ := hsettled
      rw [filterCondition, account, quantifiedCondition_eq]
      have hprobe := Compiling.followsOnly_quantifierProbe s.schema field q
      refine (relates_beside hprobe.blind (hprobe.keeps hdestination)).bind fun probe probe' => ?_
      rintro p p' ⟨rfl, hbeside⟩
      have hnodup' : inner.ids.Nodup := hnodup.sublist (List.sublist_append_left _ _)
      have hinner : Fits folded none inner.closureIds inner.innerIds :=
        fits_of_fresh fun id hid => hfits.inner_eq id (List.mem_append_left _ hid)
      refine ((relates_enter s.schema probe inner.ids (Q := fun e a => e = a.condition)
        fun qualifier => ?_).bind fun x y => ?_) p p' hbeside
      · refine (relates_planJoins s inner _ folded folded').bind fun _ _ => ?_
        rintro r r' ⟨plan', hbeside, hsettled⟩
        refine (relates_filterCondition s inner hsettled hnodup' hinner ?_).mono
          (fun e a p q h => ⟨h.1, plan', h.2⟩) r r' hbeside
        rintro folds ⟨⟩
      · refine Attempt.relates_pure fun r r' h => ?_
        obtain ⟨hcondition, hinquiry, hadvanced⟩ := h
        refine ⟨by rw [Account.condition, hcondition, hinquiry], ?_⟩
        obtain ⟨labels, more, rfl, rfl, hmore⟩ := hadvanced
        exact ⟨labels, more, rfl, rfl, fun entry h => List.mem_append_left _ (hmore entry h)⟩

theorem relates_allConditions
    (s : Setting) :
    ∀ (filters : List Filter) {folds : List Fold} {plan : JoinPlan}
      {folded folded' : List (Nat × Option Expr)} {tests : List DocumentTest},
      Filter.AllSettled s.schema plan filters → (Filter.idsOfAll filters).Nodup →
      Fits folded (some folds) (Filter.closureIdsOfAll filters) (Filter.innerIdsOfAll filters) →
      allClosureTests s.schema plan filters = .ok tests → Spread folds tests →
      Attempt.Relates (Beside plan folded folded') (allConditions s filters)
        (accounts s folds filters)
        fun es as p q => es = Account.conditions as ∧
          Advanced plan folded folded' (Filter.idsOfAll filters) p q
  | [], folds, plan, folded, folded', tests, _, _, _, _, _ => by
      rw [allConditions, accounts]
      exact Attempt.relates_pure fun p q h => ⟨rfl, h.advanced⟩
  | child :: rest, folds, plan, folded, folded', tests, hsettled, hnodup, hfits, htests,
      hspread => by
      rw [Filter.AllSettled] at hsettled
      rw [Filter.idsOfAll] at hnodup ⊢
      rw [Filter.closureIdsOfAll, Filter.innerIdsOfAll] at hfits
      rw [allClosureTests] at htests
      obtain ⟨first, hfirst, htests⟩ := exists_of_bind_ok htests
      obtain ⟨others, hothers, htests⟩ := exists_of_bind_ok htests
      cases htests
      obtain ⟨hnodup₁, hnodup₂, hdisjoint⟩ := List.nodup_append'.1 hnodup
      have hchild := hfits.mono (List.subset_append_left _ _) (List.subset_append_left _ _)
      have hrest := hfits.mono (List.subset_append_right _ _) (List.subset_append_right _ _)
      rw [allConditions, accounts]
      refine (relates_filterCondition s child hsettled.1 hnodup₁ hchild ?_).bind fun e a => ?_
      · rintro _ ⟨⟩
        exact ⟨first, hfirst, hspread.sublist (List.sublist_append_left _ _)⟩
      · rintro p q ⟨rfl, labels, more, rfl, rfl, hmore⟩
        have hrest' := hrest.append hmore
          (fun id hid hid' => hdisjoint hid' (Filter.mem_idsOfAll_iff.2 (.inl hid)))
          (fun id hid hid' => hdisjoint hid' (Filter.mem_idsOfAll_iff.2 (.inr hid)))
        refine ((relates_allConditions s rest hsettled.2 hnodup₂ hrest' hothers
          (hspread.sublist (List.sublist_append_right _ _))).bind fun es as =>
            Attempt.relates_pure fun p q h => ?_) _ _ ⟨labels, rfl, rfl⟩
        refine ⟨by rw [h.1, Account.conditions], h.2.trans hmore ?_ ?_⟩
        · exact List.subset_append_left _ _
        · exact List.subset_append_right _ _

theorem relates_alternativeConditions
    (s : Setting) :
    ∀ (filters : List Filter) {plan : JoinPlan} {folded folded' : List (Nat × Option Expr)},
      Filter.AllSettled s.schema plan filters → (Filter.idsOfAll filters).Nodup →
      (∀ id ∈ Filter.idsOfAll filters, folded.lookup id = none) →
      Attempt.Relates (Beside plan folded folded') (alternativeConditions s filters)
        (alternativeAccounts s filters)
        fun es as p q => es = Account.alternatives? as ∧
          Advanced plan folded folded' (Filter.idsOfAll filters) p q
  | [], plan, folded, folded', _, _, _ => by
      rw [alternativeConditions, alternativeAccounts]
      exact Attempt.relates_pure fun p q h => ⟨rfl, h.advanced⟩
  | child :: rest, plan, folded, folded', hsettled, hnodup, hfresh => by
      rw [Filter.AllSettled] at hsettled
      rw [Filter.idsOfAll] at hnodup hfresh ⊢
      obtain ⟨hnodup₁, hnodup₂, hdisjoint⟩ := List.nodup_append'.1 hnodup
      have hchild : Fits folded none child.closureIds child.innerIds :=
        fits_of_fresh fun id hid => hfresh id (List.mem_append_left _ hid)
      rw [alternativeConditions, alternativeAccounts]
      refine (relates_filterCondition s child hsettled.1 hnodup₁ hchild ?_).bind fun e a => ?_
      · rintro _ ⟨⟩
      · rintro p q ⟨rfl, labels, more, rfl, rfl, hmore⟩
        cases hcondition : a.condition with
        | none =>
            refine .ok ⟨by simp only [Account.alternatives?, hcondition], labels, more, rfl, rfl, ?_⟩
            exact fun entry h => List.mem_append_left _ (hmore entry h)
        | some e =>
            have hfresh' : ∀ id ∈ Filter.idsOfAll rest, (folded ++ more).lookup id = none := by
              intro id hid
              rw [lookup_append_of_disjoint hmore fun hid' => hdisjoint hid' hid]
              exact hfresh id (List.mem_append_right _ hid)
            refine ((relates_alternativeConditions s rest hsettled.2 hnodup₂ hfresh').bind
              fun es as => Attempt.relates_pure fun p q h => ?_) _ _ ⟨labels, rfl, rfl⟩
            refine ⟨by simp only [Account.alternatives?, hcondition, h.1], h.2.trans hmore ?_ ?_⟩
            · exact List.subset_append_left _ _
            · exact List.subset_append_right _ _

end

/-- A filter that was read runs as its account is built, from the start of a query. -/
theorem relates_run
    {s : Setting} {limit : Nat} {filter : Json} {tree : Filter} (collection : String)
    (htree : Filter.ofJson limit filter = .ok tree) :
    Attempt.Relates (Beside (JoinPlan.start collection collection) [] [])
      (s.run tree) (s.account tree)
      fun e a p q => e = a.condition ∧ ∃ plan, Advanced plan [] [] tree.ids p q := by
  refine (relates_planJoins s tree _ [] []).bind fun _ _ => ?_
  rintro p q ⟨plan, hbeside, hsettled⟩
  refine (relates_filterCondition s tree hsettled (Filter.nodup_ids htree)
    (fits_of_fresh fun _ _ => rfl) ?_).mono (fun e a p q h => ⟨h.1, plan, h.2⟩) p q hbeside
  rintro folds ⟨⟩

/-- A filter that compiles has an account, which gives the condition, the joins
and the labels.  The table of folded conditions stays empty all the while. -/
theorem account_of_compile
    {s : Setting} {collection : String} {filter : Json} {c : Compiled}
    (h : s.compile collection filter = .ok c) :
    ∃ tree a p, Filter.ofJson s.options.maxDepth filter = .ok tree ∧
      (s.account tree).run (Progress.start collection) = (.ok a, p) ∧ p.folded = [] ∧
      c = ⟨collection, a.condition, p.plan.joins, p.labels⟩ := by
  unfold Setting.compile at h
  obtain ⟨_, _, h⟩ := exists_of_bind_ok h
  obtain ⟨tree, htree, h⟩ := exists_of_bind_ok h
  have hagree := relates_run (s := s) collection htree (Progress.start collection)
    (Progress.start collection) ⟨{}, rfl, rfl⟩
  unfold Setting.compileTree at h
  generalize (s.run tree).run (Progress.start collection) = outcome at h hagree
  cases hagree' : (s.account tree).run (Progress.start collection) with
  | mk result q =>
      rw [hagree'] at hagree
      cases hagree with
      | ok hQ =>
          obtain ⟨rfl, plan, labels, more, rfl, rfl, -⟩ := hQ
          cases h
          exact ⟨tree, _, _, htree, hagree', rfl, rfl⟩
      | error e =>
          cases h

end RowFilter
