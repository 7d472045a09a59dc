import RowFilter.Proofs.PlannedJoins
import RowFilter.Proofs.Skeletons

/-!
# Two plans for one query

One plan follows the paths that another one follows, and perhaps more.  Then it has the
joins of the other one.  Row sources of the two plans correspond if the same names lead to
them; within one plan the names are told by the row source, so this pairs them off.

* `Laid.leads_iff`: the joins of a plan lead where its legs say.
* `Planning.Abreast`: the second plan followed some of the paths of the first.
* `JoinPlan.Twins`: what holds of two such plans.
-/

namespace RowFilter

open Sql (Join plainName)

namespace Labels

/-- No label that is still to be given out is this name. -/
def NeverGives (l : Labels) (name : String) : Prop :=
  ∀ base n, name = numbered base n → n ≤ l.count

theorem neverGives_of_not_isLabel
    {name : String}
    (h : ¬ IsLabel name) (l : Labels) :
    l.NeverGives name :=
  fun base n hname => absurd ⟨base, n, hname⟩ h

theorem neverGives_fresh
    (l : Labels) (base : String) :
    (l.fresh base).2.NeverGives (l.fresh base).1 :=
  fun _ _ hname => Nat.le_of_eq (number_eq_of_numbered_eq hname).symm

end Labels

/-- Labels are not told from each other in a skeleton. -/
theorem Sql.plainName_eq_of_isLabel
    {root name name' : String}
    (hroot : ¬ Labels.IsLabel root) (h : Labels.IsLabel name) (h' : Labels.IsLabel name') :
    plainName root name = plainName root name' := by
  have hne : name ≠ root := fun heq => hroot (heq ▸ h)
  have hne' : name' ≠ root := fun heq => hroot (heq ▸ h')
  rw [plainName, plainName, if_neg hne, if_neg hne']

/-! ## Where laid joins lead -/

theorem Sql.Join.Leads.mono
    {joins joins' : List Join} {source label : String} {names : List String}
    (h : Join.Leads joins source names label) (hjoins : joins ⊆ joins') :
    Join.Leads joins' source names label := by
  induction h with
  | start => exact .start
  | cross _ hjoin ih => exact .cross ih (hjoins hjoin)

namespace Laid

variable {schema : Schema} {start qualifier : String} {legs : List Leg} {joins : List Join}

theorem exists_leg
    {join : Join}
    (h : Laid schema start qualifier legs joins) (hjoin : join ∈ joins) :
    ∃ leg ∈ legs, ∃ parent, Leg.source? qualifier legs leg.crossing.before = some parent ∧
      join = JoinPlan.joinOf leg.crossing.related leg.label leg.crossing.primary parent
        leg.crossing.field := by
  induction h with
  | none => cases hjoin
  | @add legs joins leg parent _ _ _ hparent _ ih =>
      rcases List.mem_append.1 hjoin with hold | hnew
      · obtain ⟨leg', hleg', parent', hparent', rfl⟩ := ih hold
        refine ⟨leg', List.mem_append_left _ hleg', parent', ?_, rfl⟩
        rw [Leg.source?_concat, hparent', Option.some_or]
      · refine ⟨leg, List.mem_append_right _ List.mem_cons_self, parent, ?_,
          List.mem_singleton.1 hnew⟩
        rw [Leg.source?_concat, hparent, Option.some_or]

theorem source?_of_mem
    {leg : Leg}
    (h : Laid schema start qualifier legs joins) (hleg : leg ∈ legs) :
    Leg.source? qualifier legs leg.names = some leg.label := by
  induction h with
  | none => cases hleg
  | @add legs joins last parent _ _ hnew _ _ ih =>
      rw [Leg.source?_concat]
      rcases List.mem_append.1 hleg with hold | hlast
      · rw [ih hold, Option.some_or]
      · cases List.mem_singleton.1 hlast
        have hnone : Leg.source? qualifier legs leg.crossing.names = Option.none :=
          Leg.source?_eq_none_iff.2 hnew
        rw [Leg.names, hnone, Option.none_or, if_pos rfl]

/-- A row source is that of the plan, or stands behind one of the legs. -/
theorem source?_eq_some_iff
    {names : List String} {label : String}
    (h : Laid schema start qualifier legs joins) :
    Leg.source? qualifier legs names = some label ↔
      (names = [] ∧ label = qualifier) ∨ ∃ leg ∈ legs, leg.names = names ∧ leg.label = label := by
  constructor
  · intro hsource
    by_cases hnil : names = []
    · rw [Leg.source?, if_pos hnil] at hsource
      exact .inl ⟨hnil, (Option.some.inj hsource).symm⟩
    · rw [Leg.source?, if_neg hnil] at hsource
      obtain ⟨leg, hleg, hlabel⟩ := Option.map_eq_some_iff.1 hsource
      have hnames : leg.names = names := by simpa using List.find?_some hleg
      exact .inr ⟨leg, List.mem_of_find?_eq_some hleg, hnames, hlabel⟩
  · rintro (⟨rfl, rfl⟩ | ⟨leg, hleg, rfl, rfl⟩)
    · simp [Leg.source?]
    · exact h.source?_of_mem hleg

/-- The row source tells the names that lead to it. -/
theorem source?_inj
    {names names' : List String} {label : String}
    (h : Laid schema start qualifier legs joins)
    (hnodup : (qualifier :: legs.map Leg.label).Nodup)
    (hsource : Leg.source? qualifier legs names = some label)
    (hsource' : Leg.source? qualifier legs names' = some label) :
    names = names' := by
  obtain ⟨hqualifier, hlabels⟩ := List.nodup_cons.1 hnodup
  rcases h.source?_eq_some_iff.1 hsource with ⟨rfl, rfl⟩ | ⟨leg, hleg, rfl, rfl⟩
  · rcases h.source?_eq_some_iff.1 hsource' with ⟨rfl, -⟩ | ⟨leg, hleg, -, hlabel⟩
    · rfl
    · exact absurd (hlabel ▸ List.mem_map_of_mem hleg) hqualifier
  · rcases h.source?_eq_some_iff.1 hsource' with ⟨-, hlabel⟩ | ⟨leg', hleg', rfl, hlabel⟩
    · exact absurd (hlabel ▸ List.mem_map_of_mem hleg) hqualifier
    · rw [List.inj_on_of_nodup_map hlabels hleg' hleg hlabel]

/-- The joins lead where the legs say. -/
theorem leads_iff
    {names : List String} {label : String}
    (h : Laid schema start qualifier legs joins)
    (hnodup : (qualifier :: legs.map Leg.label).Nodup) :
    Join.Leads joins qualifier names label ↔ Leg.source? qualifier legs names = some label := by
  constructor
  · intro hleads
    induction hleads with
    | start => simp [Leg.source?]
    | @cross names parent related label primary field _ hjoin ih =>
        obtain ⟨leg, hleg, parent', hparent, hsame⟩ := h.exists_leg hjoin
        simp only [JoinPlan.joinOf, Join.mk.injEq, Option.some.injEq, Sql.Expr.binary.injEq,
          Sql.Expr.column, Sql.Expr.ident.injEq] at hsame
        obtain ⟨-, rfl, -, -, rfl, rfl⟩ := hsame
        -- the parent tells the names, so the join is the one behind them
        rw [h.source?_inj hnodup ih hparent]
        exact h.source?_of_mem hleg
  · -- a join can rely on earlier ones only, so this goes by the order in which they were laid
    clear hnodup
    intro hsource
    induction h generalizing names label with
    | none =>
        by_cases hnil : names = []
        · rw [Leg.source?, if_pos hnil] at hsource
          cases hsource
          rw [hnil]
          exact .start
        · simp [Leg.source?, hnil] at hsource
    | @add legs joins leg parent _ _ _ hparent _ ih =>
        rw [Leg.source?_concat, Option.or_eq_some_iff] at hsource
        rcases hsource with hold | ⟨-, hnew⟩
        · exact (ih hold).mono (List.subset_append_left _ _)
        · split at hnew
          · rename_i hnames
            cases hnew
            rw [← hnames]
            exact .cross ((ih hparent).mono (List.subset_append_left _ _))
              (List.mem_append_right _ List.mem_cons_self)
          · cases hnew

/-- Laid joins are those of relations. -/
theorem isPlanned
    (h : Laid schema start qualifier legs joins) :
    ∀ join ∈ joins, join.IsPlanned := by
  intro join hjoin
  obtain ⟨leg, -, parent, -, rfl⟩ := h.exists_leg hjoin
  exact ⟨_, _, _, _, _, rfl⟩

end Laid

namespace Planning.Represents

variable {schema : Schema} {first t : Planning} {followed : List (List String)} {legs : List Leg}

/-- All row sources of a plan have different names. -/
theorem nodup_sources
    (h : Represents schema first followed legs t)
    (hfirst : first.labels.NeverGives first.plan.qualifier) :
    (first.plan.qualifier :: legs.map Leg.label).Nodup := by
  refine List.nodup_cons.2 ⟨fun hmem => ?_, h.laid.nodup_labels⟩
  obtain ⟨leg, hleg, hlabel⟩ := List.mem_map.1 hmem
  have hnumber := (h.numbers leg hleg).1
  have hpast := hfirst _ _ hlabel.symm
  omega

/-- The names that were followed are joined. -/
theorem joined_iff
    {names : List String}
    (h : Represents schema first followed legs t)
    (hfirst : first.labels.NeverGives first.plan.qualifier) :
    Join.Joined t.plan.joins t.plan.qualifier names ↔ names = [] ∨ names ∈ followed := by
  have hlegs : names ∈ followed ↔ names ∈ legs.map Leg.names := by
    rw [h.names, List.mem_eraseDups]
  have hleads (label : String) : Join.Leads t.plan.joins t.plan.qualifier names label ↔
      Leg.source? first.plan.qualifier legs names = some label := by
    rw [h.qualifier]
    exact h.laid.leads_iff (h.nodup_sources hfirst)
  constructor
  · rintro ⟨label, hlabel⟩
    rcases h.laid.source?_eq_some_iff.1 ((hleads label).1 hlabel) with ⟨hnil, -⟩ | ⟨leg, hleg, h, -⟩
    · exact .inl hnil
    · exact .inr (hlegs.2 (h ▸ List.mem_map_of_mem hleg))
  · rintro (rfl | hfollowed)
    · exact ⟨t.plan.qualifier, .start⟩
    · obtain ⟨leg, hleg, rfl⟩ := List.mem_map.1 (hlegs.1 hfollowed)
      exact ⟨leg.label, (hleads _).2 (h.laid.source?_of_mem hleg)⟩

/-- A row source behind some names goes by a label. -/
theorem isLabel_of_source
    {names : List String} {source : String}
    (h : Represents schema first followed legs t) (hnames : ∀ name ∈ names, Dotless name)
    (hnil : names ≠ []) (hsource : t.plan.sourceOf? names = some source) :
    Labels.IsLabel source := by
  rw [h.sources names hnames, h.laid.source?_eq_some_iff] at hsource
  rcases hsource with ⟨hempty, -⟩ | ⟨leg, -, -, rfl⟩
  · exact absurd hempty hnil
  · exact ⟨_, _, rfl⟩

end Planning.Represents

/-- Following a path leaves the labels of JSON fields alone. -/
theorem JoinPlan.registered_locate
    {schema : Schema} {t : Planning} {path : List Segment}
    (hfaithful : t.plan.Faithful schema) (hdotless : ∀ s ∈ path, Dotless s.name) :
    ((locate schema path).run t).2.labels.fields = t.labels.fields ∧
      ((locate schema path).run t).2.labels.elements = t.labels.elements := by
  have hcross (crossings : List Crossing) : ∀ t : Planning,
      (t.crossAll crossings).labels.fields = t.labels.fields ∧
        (t.crossAll crossings).labels.elements = t.labels.elements := by
    induction crossings with
    | nil =>
        intro t
        exact ⟨rfl, rfl⟩
    | cons c rest ih =>
        intro t
        rw [Planning.crossAll_cons, (ih _).1, (ih _).2]
        rcases Planning.cross_cases t c with h | ⟨parent, -, -, h⟩
        · rw [h]
          exact ⟨rfl, rfl⟩
        · rw [h]
          exact ⟨rfl, rfl⟩
  obtain ⟨source, -, hrun⟩ := run_locate_route hfaithful hdotless
  rw [hrun]
  exact hcross _ t

/-! ## Plans of one query side by side -/

/-- A row source of the plan tells the names that lead to it. -/
def JoinPlan.TellsNames (plan : JoinPlan) : Prop :=
  ∀ names names' source, (∀ name ∈ names, Dotless name) → (∀ name ∈ names', Dotless name) →
    plan.sourceOf? names = some source → plan.sourceOf? names' = some source → names = names'

theorem Planning.Represents.tellsNames
    {schema : Schema} {first t : Planning} {followed : List (List String)} {legs : List Leg}
    (h : Represents schema first followed legs t)
    (hfirst : first.labels.NeverGives first.plan.qualifier) :
    t.plan.TellsNames := by
  intro names names' source hnames hnames' hsource hsource'
  rw [h.sources names hnames] at hsource
  rw [h.sources names' hnames'] at hsource'
  exact h.laid.source?_inj (h.nodup_sources hfirst) hsource hsource'

/-- The two plans are for the same rows, and the second has joins of the first only.  The
names that lead to a row source are told by it, and row sources behind the same names have
one name in skeletons. -/
structure JoinPlan.Twins (schema : Schema) (root : String) (plan plan' : JoinPlan) : Prop where
  collection : plan'.collection = plan.collection
  faithful : plan.Faithful schema
  faithful' : plan'.Faithful schema
  tells : plan.TellsNames
  tells' : plan'.TellsNames
  plain : ∀ names source source', (∀ name ∈ names, Dotless name) →
    plan.sourceOf? names = some source → plan'.sourceOf? names = some source' →
      plainName root source = plainName root source'
  covers : ∀ names, Join.Joined plan'.joins plan'.qualifier names →
    Join.Joined plan.joins plan.qualifier names
  planned : ∀ join ∈ plan.joins, join.IsPlanned
  planned' : ∀ join ∈ plan'.joins, join.IsPlanned

/-- The same names lead to the row sources in the two plans. -/
def JoinPlan.Pairs (plan plan' : JoinPlan) (source source' : String) : Prop :=
  ∃ names, (∀ name ∈ names, Dotless name) ∧ plan.sourceOf? names = some source ∧
    plan'.sourceOf? names = some source'

namespace JoinPlan.Twins

variable {schema : Schema} {root : String} {plan plan' : JoinPlan}

theorem plainName_eq
    {source source' : String}
    (h : plan.Twins schema root plan') (hpairs : plan.Pairs plan' source source') :
    plainName root source = plainName root source' := by
  obtain ⟨names, hnames, hsource, hsource'⟩ := hpairs
  exact h.plain names source source' hnames hsource hsource'

/-- The row sources of the two plans are paired off. -/
theorem eq_iff_of_pairs
    {first first' second second' : String}
    (h : plan.Twins schema root plan') (hfirst : plan.Pairs plan' first first')
    (hsecond : plan.Pairs plan' second second') :
    first = second ↔ first' = second' := by
  obtain ⟨names, hnames, hsource, hsource'⟩ := hfirst
  obtain ⟨others, hothers, hother, hother'⟩ := hsecond
  constructor
  · rintro rfl
    obtain rfl := h.tells names others first hnames hothers hsource hother
    exact Option.some.inj (hsource'.symm.trans hother')
  · rintro rfl
    obtain rfl := h.tells' names others first' hnames hothers hsource' hother'
    exact Option.some.inj (hsource.symm.trans hother)

end JoinPlan.Twins

/-- Where a path leads by the joins of a plan is the end of its route, in the row source
behind the names on its way. -/
theorem JoinPlan.exists_of_destination?
    {schema : Schema} {plan : JoinPlan} {path : List Segment} {destination : Destination}
    (hfaithful : plan.Faithful schema) (hdotless : ∀ s ∈ path, Dotless s.name)
    (h : plan.destination? schema path = some destination) :
    ∃ found source, (schema.route plan.collection path).outcome = .ok found ∧
      plan.sourceOf? (schema.route plan.collection path).behind = some source ∧
      destination = found.inSource source := by
  obtain ⟨source, hsource, hrun⟩ := run_locate_route (t := ⟨{}, plan⟩) hfaithful hdotless
  have hagain : (locate schema path).run ⟨{}, plan⟩ = (.ok destination, ⟨{}, plan⟩) := by
    unfold locate
    rw [Attempt.run_bind_of_ok _ (Attempt.run_state _)]
    exact run_follow {} h
  rw [hagain, Prod.mk.injEq] at hrun
  obtain ⟨hresult, hstate⟩ := hrun
  rw [← hstate] at hsource
  cases houtcome : (schema.route plan.collection path).outcome with
  | error e =>
      rw [houtcome] at hresult
      cases hresult
  | ok found =>
      rw [houtcome] at hresult
      exact ⟨found, source, rfl, hsource, Except.ok.inj hresult⟩

/-- In both plans a path leads to the same place, up to the row source. -/
theorem JoinPlan.Twins.exists_of_destinations
    {schema : Schema} {root : String} {plan plan' : JoinPlan} {path : List Segment}
    {destination destination' : Destination}
    (h : plan.Twins schema root plan') (hdotless : ∀ s ∈ path, Dotless s.name)
    (hd : plan.destination? schema path = some destination)
    (hd' : plan'.destination? schema path = some destination') :
    ∃ (found : Destination) (source source' : String), plan.Pairs plan' source source' ∧
      destination = found.inSource source ∧ destination' = found.inSource source' := by
  obtain ⟨found, source, houtcome, hsource, rfl⟩ :=
    exists_of_destination? h.faithful hdotless hd
  obtain ⟨found', source', houtcome', hsource', rfl⟩ :=
    exists_of_destination? h.faithful' hdotless hd'
  rw [h.collection, houtcome] at houtcome'
  cases houtcome'
  rw [h.collection] at hsource'
  refine ⟨found, source, source', ⟨_, fun name hname => ?_, hsource, hsource'⟩, rfl, rfl⟩
  exact List.forall_mem_map.2 hdotless name (Schema.prefix_routeFrom.2.subset hname)

/-- Two plans were made for the same rows, which go by the names `qualifier` and
`qualifier'`.  The second followed some of the paths of the first. -/
inductive Planning.Abreast (schema : Schema) (root qualifier qualifier' : String) :
    Planning → Planning → Prop
  | intro {labels labels' : Labels} {collection : String} {paths paths' : List (List Segment)}
      {t t' : Planning}
      (hplain : plainName root qualifier = plainName root qualifier')
      (hpast : labels.NeverGives qualifier) (hpast' : labels'.NeverGives qualifier')
      (hpaths : paths' ⊆ paths)
      (hplanned : Planned schema ⟨labels, .start collection qualifier⟩ paths t)
      (hplanned' : Planned schema ⟨labels', .start collection qualifier'⟩ paths' t') :
      Abreast schema root qualifier qualifier' t t'

namespace Planning.Abreast

variable {schema : Schema} {root qualifier qualifier' : String} {t t' : Planning}
  {path : List Segment}

theorem faithful
    (h : Abreast schema root qualifier qualifier' t t') :
    t.plan.Faithful schema ∧ t'.plan.Faithful schema := by
  obtain ⟨-, -, -, -, hplanned, hplanned'⟩ := h
  exact ⟨(hplanned.extends_faithful (JoinPlan.faithful_start schema _ _)).2,
    (hplanned'.extends_faithful (JoinPlan.faithful_start schema _ _)).2⟩

theorem qualifiers
    (h : Abreast schema root qualifier qualifier' t t') :
    t.plan.qualifier = qualifier ∧ t'.plan.qualifier = qualifier' := by
  obtain ⟨-, -, -, -, hplanned, hplanned'⟩ := h
  exact ⟨(hplanned.extends_faithful (JoinPlan.faithful_start schema _ _)).1.qualifier,
    (hplanned'.extends_faithful (JoinPlan.faithful_start schema _ _)).1.qualifier⟩

theorem collections
    (h : Abreast schema root qualifier qualifier' t t') :
    t'.plan.collection = t.plan.collection := by
  obtain ⟨-, -, -, -, hplanned, hplanned'⟩ := h
  rw [(hplanned.extends_faithful (JoinPlan.faithful_start schema _ _)).1.collection,
    (hplanned'.extends_faithful (JoinPlan.faithful_start schema _ _)).1.collection]
  rfl

/-- The first plan follows one more path. -/
theorem locate_first
    (h : Abreast schema root qualifier qualifier' t t') (hdotless : ∀ s ∈ path, Dotless s.name) :
    Abreast schema root qualifier qualifier' ((JoinPlan.locate schema path).run t).2 t' := by
  obtain ⟨hplain, hpast, hpast', hpaths, hplanned, hplanned'⟩ := h
  exact .intro hplain hpast hpast' (fun _ hpath => List.mem_append_left _ (hpaths hpath))
    (hplanned.locate hdotless) hplanned'

/-- Both plans follow one more path. -/
theorem locate_both
    (h : Abreast schema root qualifier qualifier' t t') (hdotless : ∀ s ∈ path, Dotless s.name) :
    Abreast schema root qualifier qualifier' ((JoinPlan.locate schema path).run t).2
      ((JoinPlan.locate schema path).run t').2 := by
  obtain ⟨hplain, hpast, hpast', hpaths, hplanned, hplanned'⟩ := h
  refine .intro hplain hpast hpast' ?_ (hplanned.locate hdotless) (hplanned'.locate hdotless)
  exact List.append_subset.2 ⟨fun _ hpath => List.mem_append_left _ (hpaths hpath),
    List.subset_append_right _ _⟩

/-- A path leads somewhere by both plans, or by none. -/
theorem isOk_locate
    (h : Abreast schema root qualifier qualifier' t t') (hdotless : ∀ s ∈ path, Dotless s.name) :
    ((JoinPlan.locate schema path).run t).1.isOk =
      ((JoinPlan.locate schema path).run t').1.isOk := by
  obtain ⟨source, -, hrun⟩ := JoinPlan.run_locate_route h.faithful.1 hdotless
  obtain ⟨source', -, hrun'⟩ := JoinPlan.run_locate_route h.faithful.2 hdotless
  rw [hrun, hrun', h.collections]
  cases (schema.route t.plan.collection path).outcome <;> rfl

theorem twins
    (hroot : ¬ Labels.IsLabel root) (h : Abreast schema root qualifier qualifier' t t') :
    t.plan.Twins schema root t'.plan := by
  obtain ⟨hfaithful, hfaithful'⟩ := h.faithful
  obtain ⟨hqualifier, hqualifier'⟩ := h.qualifiers
  have hcollection := h.collections
  obtain ⟨hplain, hpast, hpast', hpaths, hplanned, hplanned'⟩ := h
  obtain ⟨legs, hlegs⟩ := hplanned.represents
  obtain ⟨legs', hlegs'⟩ := hplanned'.represents
  constructor
  · exact hcollection
  · exact hfaithful
  · exact hfaithful'
  · exact hlegs.tellsNames hpast
  · exact hlegs'.tellsNames hpast'
  · intro names source source' hnames hsource hsource'
    by_cases hnil : names = []
    · subst hnil
      rw [JoinPlan.sourceOf?_nil, hqualifier] at hsource
      rw [JoinPlan.sourceOf?_nil, hqualifier'] at hsource'
      cases hsource
      cases hsource'
      exact hplain
    · exact Sql.plainName_eq_of_isLabel hroot (hlegs.isLabel_of_source hnames hnil hsource)
        (hlegs'.isLabel_of_source hnames hnil hsource')
  · intro names hjoined
    rw [hlegs'.joined_iff hpast'] at hjoined
    rw [hlegs.joined_iff hpast]
    refine hjoined.imp_right fun hfollowed => ?_
    obtain ⟨path, hpath, hnames⟩ := List.mem_flatMap.1 hfollowed
    exact List.mem_flatMap.2 ⟨path, hpaths hpath, hnames⟩
  · exact hlegs.laid.isPlanned
  · exact hlegs'.laid.isPlanned

end Planning.Abreast

end RowFilter
