import RowFilter.Proofs.Grouping
import RowFilter.Proofs.Routes

/-!
# The joins of a plan

However often a plan was asked to follow paths, and whether or not they led somewhere, its
joins are those of the relations to one row that the paths crossed, each once and in the
order in which they were crossed first.  The join behind some names is recognised by them,
so a path that is followed again finds the joins of the first time.

* `Laid`: joins of declared relations, each connected to a row source that is there before.
* `Planning.Represents`: the joins of a plan stand for the names that were followed.
* `Planned`: the states that a plan can come to.
-/

namespace RowFilter

open Sql (Join)

theorem eraseDups_concat_of_mem
    {α : Type} [BEq α] [LawfulBEq α] {l : List α} {a : α}
    (h : a ∈ l) :
    (l ++ [a]).eraseDups = l.eraseDups := by
  simp [List.eraseDups_append, List.removeAll, h]

theorem eraseDups_concat_of_not_mem
    {α : Type} [BEq α] [LawfulBEq α] {l : List α} {a : α}
    (h : a ∉ l) :
    (l ++ [a]).eraseDups = l.eraseDups ++ [a] := by
  simp [List.eraseDups_append, List.removeAll, h, List.eraseDups_cons]

/-- A join of a plan: the relation that it follows, and the number of its label. -/
structure Leg where
  crossing : Crossing
  number : Nat

namespace Leg

/-- The names that lead behind the join. -/
def names (leg : Leg) : List String :=
  leg.crossing.names

/-- The label of the rows behind the join. -/
def label (leg : Leg) : String :=
  Labels.numbered leg.crossing.related leg.number

/-- The row source behind names: that of the plan behind none, and otherwise the one
behind the join for these names. -/
def source? (qualifier : String) (legs : List Leg) (names : List String) : Option String :=
  if names = [] then some qualifier else (legs.find? fun leg => leg.names = names).map label

end Leg

/-- The joins follow declared relations to one row, no two of them by the same names, each
from the row source behind the names before its field, which is there before it, and under
a label with a higher number than those before it. -/
inductive Laid (schema : Schema) (start qualifier : String) : List Leg → List Join → Prop
  | none : Laid schema start qualifier [] []
  | add {legs : List Leg} {joins : List Join} {leg : Leg} {parent : String}
      (h : Laid schema start qualifier legs joins)
      (hdeclared : leg.crossing.Declared schema start)
      (hnew : leg.names ∉ legs.map Leg.names)
      (hparent : Leg.source? qualifier legs leg.crossing.before = some parent)
      (hnumber : ∀ earlier ∈ legs, earlier.number < leg.number) :
      Laid schema start qualifier (legs ++ [leg])
        (joins ++ [{
          table := { name := leg.crossing.related }
          label := some leg.label
          condition := .binary (.column leg.label leg.crossing.primary) .eq
            (.column parent leg.crossing.field) }])

/-- The joins of the plan stand for the names that were followed, each for the first time
in this order, and the plan finds their row sources by the names.  Their labels were given
out since the first state. -/
structure Planning.Represents (schema : Schema) (first : Planning) (followed : List (List String))
    (legs : List Leg) (t : Planning) : Prop where
  collection : t.plan.collection = first.plan.collection
  qualifier : t.plan.qualifier = first.plan.qualifier
  count : first.labels.count ≤ t.labels.count
  names : legs.map Leg.names = followed.eraseDups
  laid : Laid schema first.plan.collection first.plan.qualifier legs t.plan.joins
  numbers : ∀ leg ∈ legs, first.labels.count < leg.number ∧ leg.number ≤ t.labels.count
  sources : ∀ names, (∀ name ∈ names, Dotless name) →
    t.plan.sourceOf? names = Leg.source? first.plan.qualifier legs names

namespace Leg

theorem source?_eq_none_iff
    {qualifier : String} {legs : List Leg} {c : Crossing} :
    source? qualifier legs c.names = none ↔ c.names ∉ legs.map names := by
  simp [source?, c.names_ne_nil]

/-- A further join leaves the row sources that are there. -/
theorem source?_concat
    (qualifier : String) (legs : List Leg) (leg : Leg) (names : List String) :
    source? qualifier (legs ++ [leg]) names =
      (source? qualifier legs names).or (if leg.names = names then some leg.label else none) := by
  unfold source?
  by_cases hnil : names = []
  · simp [hnil]
  · rw [if_neg hnil, if_neg hnil, List.find?_append, Option.map_or]
    by_cases hnames : leg.names = names
    · simp [hnames]
    · simp [hnames]

end Leg

/-- No two joins have the same label. -/
theorem Laid.nodup_labels
    {schema : Schema} {start qualifier : String} {legs : List Leg} {joins : List Join}
    (h : Laid schema start qualifier legs joins) :
    (legs.map Leg.label).Nodup := by
  induction h with
  | none => simp
  | @add legs joins leg parent _ _ _ _ hnumber ih =>
      rw [List.map_append, List.nodup_append]
      refine ⟨ih, by simp, ?_⟩
      intro label hlabel label' hlabel'
      obtain ⟨earlier, hearlier, rfl⟩ := List.mem_map.1 hlabel
      rw [List.map_singleton, List.mem_singleton] at hlabel'
      rintro rfl
      have hsame := Labels.number_eq_of_numbered_eq hlabel'
      have hless := hnumber earlier hearlier
      omega

namespace Planning

variable {schema : Schema} {first t : Planning} {followed : List (List String)} {legs : List Leg}

theorem represents_start
    (schema : Schema) (labels : Labels) (collection qualifier : String) :
    Represents schema ⟨labels, .start collection qualifier⟩ [] []
      ⟨labels, .start collection qualifier⟩ where
  collection := rfl
  qualifier := rfl
  count := Nat.le_refl _
  names := rfl
  laid := .none
  numbers := by simp
  sources names _ := by
    simp [JoinPlan.sourceOf?, JoinPlan.start, Leg.source?]

/-- The text of names tells the names. -/
theorem sourceOf?_add
    {plan : JoinPlan} {c : Crossing} {label : String} {joins : List Join} {names : List String}
    (hc : ∀ name ∈ c.names, Dotless name) (hnames : ∀ name ∈ names, Dotless name) :
    JoinPlan.sourceOf?
        { plan with sources := plan.sources ++ [(".".intercalate c.names, label)], joins := joins }
        names =
      (plan.sourceOf? names).or (if c.names = names then some label else none) := by
  unfold JoinPlan.sourceOf?
  by_cases hnil : names = []
  · simp [hnil]
  · rw [if_neg hnil, if_neg hnil, List.lookup_append]
    by_cases hsame : c.names = names
    · simp [hsame]
    · have hne : (".".intercalate names == ".".intercalate c.names) = false := by
        refine beq_eq_false_iff_ne.2 fun htext => hsame ?_
        exact dotless_intercalate_inj c.names_ne_nil hnil hc hnames htext.symm
      simp [List.lookup_cons, hsame, hne]

/-- Crossing a relation keeps the joins and adds one if its names were not followed
before. -/
theorem Represents.cross
    {c : Crossing} {parent : String}
    (h : Represents schema first followed legs t)
    (hdeclared : c.Declared schema t.plan.collection)
    (hdotless : ∀ name ∈ c.names, Dotless name)
    (hparent : t.plan.sourceOf? c.before = some parent) :
    ∃ added, Represents schema first (followed ++ [c.names]) (legs ++ added) (t.cross c) ∧
      t.labels.count ≤ (t.cross c).labels.count ∧ ∀ leg ∈ added, t.labels.count < leg.number := by
  have hmem : c.names ∈ followed ↔ c.names ∈ legs.map Leg.names := by
    rw [h.names, List.mem_eraseDups]
  have hsource := h.sources c.names hdotless
  cases hnames : t.plan.sourceOf? c.names with
  | some label =>
      have hold : c.names ∈ followed := by
        by_contra hnew
        rw [Leg.source?_eq_none_iff.2 fun hlegs => hnew (hmem.2 hlegs), hnames] at hsource
        cases hsource
      refine ⟨[], ?_, ?_, by simp⟩
      · rw [cross_of_source hnames, List.append_nil]
        exact { h with names := h.names.trans (eraseDups_concat_of_mem hold).symm }
      · rw [cross_of_source hnames]
  | none =>
      have hnew : c.names ∉ legs.map Leg.names :=
        Leg.source?_eq_none_iff.1 (hsource.symm.trans hnames)
      have hbefore : ∀ name ∈ c.before, Dotless name :=
        fun name hname => hdotless name (List.mem_append_left _ hname)
      rw [cross_of_new hnames hparent]
      refine ⟨[⟨c, t.labels.count + 1⟩], ?_, ?_, ?_⟩
      · constructor
        · exact h.collection
        · exact h.qualifier
        · exact Nat.le_succ_of_le h.count
        · rw [eraseDups_concat_of_not_mem fun hold => hnew (hmem.1 hold), ← h.names]
          simp [Leg.names]
        · refine .add h.laid (h.collection ▸ hdeclared) hnew
            ((h.sources c.before hbefore).symm.trans hparent) ?_
          intro earlier hearlier
          have hnumber := h.numbers earlier hearlier
          show earlier.number < t.labels.count + 1
          omega
        · intro leg hleg
          show first.labels.count < leg.number ∧ leg.number ≤ t.labels.count + 1
          rcases List.mem_append.1 hleg with hleg | hleg
          · have hnumber := h.numbers leg hleg
            omega
          · obtain rfl := List.mem_singleton.1 hleg
            exact ⟨Nat.lt_succ_of_le h.count, Nat.le_refl _⟩
        · intro names hdotless'
          rw [Leg.source?_concat, ← h.sources names hdotless']
          exact sourceOf?_add hdotless hdotless'
      · exact Nat.le_succ _
      · intro leg hleg
        rw [List.mem_singleton.1 hleg]
        exact Nat.lt_succ_self _

/-- Following a path keeps the joins and adds those for names that were not followed
before, under new labels. -/
theorem Represents.crossAll
    {path : List Segment}
    (h : Represents schema first followed legs t)
    (hdotless : ∀ s ∈ path, Dotless s.name) :
    ∃ added,
      Represents schema first
        (followed ++ (schema.route t.plan.collection path).crossings.map Crossing.names)
        (legs ++ added) (t.crossAll (schema.route t.plan.collection path).crossings) ∧
      t.labels.count ≤ (t.crossAll (schema.route t.plan.collection path).crossings).labels.count ∧
      ∀ leg ∈ added, t.labels.count < leg.number := by
  refine JoinPlan.crossAll_route_induction
    (P := fun past u => ∃ added,
      Represents schema first (followed ++ past.map Crossing.names) (legs ++ added) u ∧
        t.labels.count ≤ u.labels.count ∧ ∀ leg ∈ added, t.labels.count < leg.number)
    ?_ hdotless ⟨[], by simpa using h, Nat.le_refl _, by simp⟩
  rintro past u c parent ⟨added, hu, hcount, hadded⟩ hdeclared hnames hparent
  obtain ⟨more, hcross, hcount', hmore⟩ := hu.cross hdeclared hnames hparent
  refine ⟨added ++ more, by simpa using hcross, Nat.le_trans hcount hcount', ?_⟩
  intro leg hleg
  rcases List.mem_append.1 hleg with hleg | hleg
  · exact hadded leg hleg
  · exact Nat.lt_of_le_of_lt hcount (hmore leg hleg)

/-- A path keeps the joins and adds those of its route, and ends where the route ends, in the
row source behind the names on its way. -/
theorem Represents.locate
    {path : List Segment}
    (h : Represents schema first followed legs t)
    (hfaithful : t.plan.Faithful schema) (hdotless : ∀ s ∈ path, Dotless s.name) :
    ∃ added source,
      Represents schema first
        (followed ++ (schema.route first.plan.collection path).crossings.map Crossing.names)
        (legs ++ added) ((JoinPlan.locate schema path).run t).2 ∧
      (∀ leg ∈ added, t.labels.count < leg.number) ∧
      Leg.source? first.plan.qualifier (legs ++ added)
        (schema.route first.plan.collection path).behind = some source ∧
      ((JoinPlan.locate schema path).run t).1 =
        (schema.route first.plan.collection path).outcome.map (Destination.inSource source) := by
  obtain ⟨source, hsource, hrun⟩ := JoinPlan.run_locate_route hfaithful hdotless
  obtain ⟨added, hadded, -, hnumbers⟩ := h.crossAll hdotless
  have hbehind : ∀ name ∈ (schema.route t.plan.collection path).behind, Dotless name :=
    fun name hname =>
      List.forall_mem_map.2 hdotless name (Schema.prefix_routeFrom.2.subset hname)
  rw [hadded.sources _ hbehind] at hsource
  rw [h.collection] at hadded hsource hrun
  rw [hrun]
  exact ⟨added, source, hadded, hnumbers, hsource, rfl⟩

end Planning

/-! ## Following paths one after the other -/

/-- The state that following the paths one after the other leads to, where labels may be
given out to others in between. -/
inductive Planned (schema : Schema) (first : Planning) : List (List Segment) → Planning → Prop
  | none : Planned schema first [] first
  | locate {paths : List (List Segment)} {t : Planning} {path : List Segment}
      (h : Planned schema first paths t) (hdotless : ∀ s ∈ path, Dotless s.name) :
      Planned schema first (paths ++ [path]) ((JoinPlan.locate schema path).run t).2
  | others {paths : List (List Segment)} {t : Planning} {labels : Labels}
      (h : Planned schema first paths t) (hcount : t.labels.count ≤ labels.count) :
      Planned schema first paths ⟨labels, t.plan⟩

/-- The names by which paths cross relations to one row, in the order in which they do. -/
def Schema.followed (schema : Schema) (collection : String) (paths : List (List Segment)) :
    List (List String) :=
  paths.flatMap fun path => (schema.route collection path).crossings.map Crossing.names

theorem Schema.followed_concat
    (schema : Schema) (collection : String) (paths : List (List Segment)) (path : List Segment) :
    schema.followed collection (paths ++ [path]) =
      schema.followed collection paths ++
        (schema.route collection path).crossings.map Crossing.names := by
  simp [Schema.followed]

namespace Planned

variable {schema : Schema} {first t : Planning} {paths : List (List Segment)}

/-- A plan keeps what it has, and stays true to the schema. -/
theorem extends_faithful
    (h : Planned schema first paths t)
    (hfaithful : first.plan.Faithful schema) :
    first.plan.Extends t.plan ∧ t.plan.Faithful schema := by
  induction h with
  | none => exact ⟨.refl _, hfaithful⟩
  | @locate paths t path h hdotless ih =>
      obtain ⟨source, -, hrun⟩ := JoinPlan.run_locate_route ih.2 hdotless
      rw [hrun]
      exact ⟨ih.1.trans (Planning.extends_crossAll t _), JoinPlan.faithful_crossAll ih.2 hdotless⟩
  | others _ _ ih => exact ih

/-- The joins of a plan stand for the names by which the paths crossed relations. -/
theorem represents
    {labels : Labels} {collection qualifier : String}
    (h : Planned schema ⟨labels, .start collection qualifier⟩ paths t) :
    ∃ legs, Planning.Represents schema ⟨labels, .start collection qualifier⟩
      (schema.followed collection paths) legs t := by
  induction h with
  | none => exact ⟨[], Planning.represents_start schema labels collection qualifier⟩
  | @locate paths t path h hdotless ih =>
      obtain ⟨legs, ih⟩ := ih
      have hfaithful := (h.extends_faithful (JoinPlan.faithful_start schema collection qualifier)).2
      obtain ⟨added, source, hrepresents, -⟩ := ih.locate hfaithful hdotless
      rw [Schema.followed_concat]
      exact ⟨legs ++ added, hrepresents⟩
  | others _ hcount ih =>
      obtain ⟨legs, ih⟩ := ih
      refine ⟨legs, { ih with count := Nat.le_trans ih.count hcount, numbers := ?_ }⟩
      intro leg hleg
      have hnumber := ih.numbers leg hleg
      exact ⟨hnumber.1, Nat.le_trans hnumber.2 hcount⟩

/-- A path that was followed before leads to the same end, and changes nothing. -/
theorem run_again
    {path : List Segment} {later : List (List Segment)} {t' : Planning}
    (hfaithful : t.plan.Faithful schema) (hdotless : ∀ s ∈ path, Dotless s.name)
    (h : Planned schema ((JoinPlan.locate schema path).run t).2 later t') :
    (JoinPlan.locate schema path).run t' = (((JoinPlan.locate schema path).run t).1, t') := by
  obtain ⟨source, hsource, hrun⟩ := JoinPlan.run_locate_route hfaithful hdotless
  rw [hrun] at h ⊢
  obtain ⟨hextends, hfaithful'⟩ := h.extends_faithful (JoinPlan.faithful_crossAll hfaithful hdotless)
  obtain ⟨source', hsource', hrun'⟩ := JoinPlan.run_locate_route hfaithful' hdotless
  have hcollection : t'.plan.collection = t.plan.collection :=
    hextends.collection.trans (Planning.extends_crossAll t _).collection
  rw [hcollection] at hsource' hrun'
  have hcrossed : t'.crossAll (schema.route t.plan.collection path).crossings = t' := by
    refine Planning.crossAll_of_sources fun c hc => ?_
    obtain ⟨label, hlabel⟩ := JoinPlan.source_of_crossAll hdotless c hc
    exact ⟨label, Planning.source_of_extends hextends hlabel⟩
  rw [hcrossed] at hsource' hrun'
  have hsame : some source = some source' :=
    (Planning.source_of_extends hextends hsource).symm.trans hsource'
  cases hsame
  exact hrun'

end Planned

/-- Whatever paths were followed, the joins of a plan stand for the names by which they
crossed relations to one row.  A further path adds joins under labels that were not given
out before, ends where its route ends, in the row source behind the names on its way, and
does the same whenever it is followed again. -/
theorem joins_represent_followed_paths
    {schema : Schema} {labels : Labels} {collection qualifier : String}
    {paths : List (List Segment)} {t : Planning}
    (h : Planned schema ⟨labels, .start collection qualifier⟩ paths t) :
    ∃ legs, Planning.Represents schema ⟨labels, .start collection qualifier⟩
        (schema.followed collection paths) legs t ∧
      (legs.map Leg.label).Nodup ∧
      ∀ path : List Segment, (∀ s ∈ path, Dotless s.name) →
        ∃ added source,
          Planning.Represents schema ⟨labels, .start collection qualifier⟩
            (schema.followed collection (paths ++ [path])) (legs ++ added)
            ((JoinPlan.locate schema path).run t).2 ∧
          (∀ leg ∈ added, ¬ t.labels.GaveOut leg.label) ∧
          Leg.source? qualifier (legs ++ added) (schema.route collection path).behind =
            some source ∧
          ((JoinPlan.locate schema path).run t).1 =
            (schema.route collection path).outcome.map (Destination.inSource source) ∧
          ∀ later t', Planned schema ((JoinPlan.locate schema path).run t).2 later t' →
            (JoinPlan.locate schema path).run t' =
              (((JoinPlan.locate schema path).run t).1, t') := by
  obtain ⟨legs, hlegs⟩ := h.represents
  refine ⟨legs, hlegs, hlegs.laid.nodup_labels, fun path hdotless => ?_⟩
  have hfaithful := (h.extends_faithful (JoinPlan.faithful_start schema collection qualifier)).2
  obtain ⟨added, source, hadded, hnumbers, hsource, hresult⟩ := hlegs.locate hfaithful hdotless
  rw [Schema.followed_concat]
  refine ⟨added, source, hadded, ?_, hsource, hresult, ?_⟩
  · rintro leg hleg ⟨base, n, hlabel, hn⟩
    have hnumber := hnumbers leg hleg
    have hsame := Labels.number_eq_of_numbered_eq hlabel
    omega
  · intro later t' hlater
    exact hlater.run_again hfaithful hdotless

/-- Visits of patients to clinics. -/
def visits : Schema where
  collections := [
    ("visits", {
      primary := "id"
      fields := [("patient", { type := .integer, specials := .ofFlags [] })] }),
    ("patients", {
      primary := "number"
      fields := [
        ("name", { type := .string, specials := .ofFlags [] }),
        ("clinic", { type := .integer, specials := .ofFlags [] })] }),
    ("clinics", {
      primary := "id"
      fields := [("city", { type := .string, specials := .ofFlags [] })] })]
  relations := [
    { collection := "visits", field := "patient", relatedCollection := some "patients",
      relatedField := none, collectionField := none, allowed := [], cardinality := .manyToOne },
    { collection := "patients", field := "clinic", relatedCollection := some "clinics",
      relatedField := none, collectionField := none, allowed := [], cardinality := .manyToOne }]

/-- The path of the names of its fields. -/
def pathOfNames (names : List String) : List Segment :=
  names.map fun name => { name := name }

/-- A path that leads nowhere, behind two relations, and one behind the first of them leave
two joins, of the patients and from them of the clinics; a path behind both ends in the row
source of the second. -/
theorem joins_represent_followed_paths_visits :
    ∃ t legs added source,
      Planned visits ⟨{}, .start "visits" "visits"⟩
        [pathOfNames ["patient", "clinic", "fee"], pathOfNames ["patient", "name"]] t ∧
      legs.map Leg.names = [["patient"], ["patient", "clinic"]] ∧
      t.plan.joins = [
        { table := { name := "patients" }
          label := some "patients_1"
          condition := .binary (.column "patients_1" "number") .eq (.column "visits" "patient") },
        { table := { name := "clinics" }
          label := some "clinics_2"
          condition := .binary (.column "clinics_2" "id") .eq
            (.column "patients_1" "clinic") }] ∧
      Leg.source? "visits" (legs ++ added) ["patient", "clinic"] = some source ∧
      ((JoinPlan.locate visits (pathOfNames ["patient", "clinic", "city"])).run t).1 =
        (visits.route "visits" (pathOfNames ["patient", "clinic", "city"])).outcome.map
          (Destination.inSource source) := by
  have hfee : ∀ s ∈ pathOfNames ["patient", "clinic", "fee"], Dotless s.name := by
    simp [pathOfNames, Dotless]
  have hname : ∀ s ∈ pathOfNames ["patient", "name"], Dotless s.name := by
    simp [pathOfNames, Dotless]
  have hcity : ∀ s ∈ pathOfNames ["patient", "clinic", "city"], Dotless s.name := by
    simp [pathOfNames, Dotless]
  have hstart : Planned visits ⟨{}, .start "visits" "visits"⟩ [] _ := .none
  have hplanned := (hstart.locate hfee).locate hname
  obtain ⟨legs, hlegs, -, hpath⟩ := joins_represent_followed_paths hplanned
  obtain ⟨added, source, -, -, hsource, hresult, -⟩ := hpath _ hcity
  refine ⟨_, legs, added, source, hplanned, ?_, rfl, hsource, hresult⟩
  rw [hlegs.names]
  decide +kernel

end RowFilter
