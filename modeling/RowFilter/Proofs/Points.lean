import Mathlib.Data.List.Nodup
import RowFilter.Proofs.Emission

/-!
# What stands at the points of a compiled statement

Every point of a compiled condition and of its joins is one of few nodes: a reference,
a member of a JSON row, a test of what a comparison is about, or something that
neither refers nor compares.  What holds of all nodes in their contexts holds at every
point of the statement.

* `Ground.Node`, `Ground.Point`: what can stand at a point.
* `everywhere_of_compile`: nothing else stands anywhere in a compiled filter.
-/

namespace RowFilter

open Sql (Context Expr Join Select Source)
open Labels (Apart)

/-- The row sources go by labels, no two of them by the same. -/
structure Named (labelled : List Source) : Prop where
  nodup : (labelled.map Source.name).Nodup
  isLabel : ∀ name ∈ labelled.map Source.name, Labels.IsLabel name

theorem named_nil :
    Named [] :=
  ⟨List.nodup_nil, by simp⟩

theorem Named.concat
    {labelled : List Source}
    (h : Named labelled) (source : Source)
    (hsource : Apart (labelled.map Source.name) source.name) :
    Named (labelled ++ [source]) := by
  refine ⟨?_, ?_⟩
  · rw [List.map_append, List.nodup_append']
    refine ⟨h.nodup, List.nodup_singleton _, ?_⟩
    simpa using hsource.not_mem
  · intro name hname
    rw [List.map_append, List.mem_append] at hname
    rcases hname with hname | hname
    · exact h.isLabel name hname
    · rw [List.mem_singleton.1 hname]
      exact hsource.isLabel

theorem Ground.Joined.named
    {g : Ground} :
    ∀ {joins : List Join} {labelled : List Source}, g.Joined labelled joins → Named labelled →
      Named (labelled ++ joins.map Join.source)
  | [], labelled, _, h => by rwa [List.map_nil, List.append_nil]
  | join :: rest, labelled, hjoined, h => by
      obtain ⟨hjoin, hrest⟩ := hjoined
      have hnamed : Named (labelled ++ [join.source]) := by
        cases hjoin with
        | joinOf _ _ hlabel => exact h.concat _ hlabel
      rw [List.map_cons, List.append_cons]
      exact hrest.named hnamed

/-- The expression neither refers to anything, nor compares or measures anything. -/
def Sql.Expr.isNeutral : Expr → Bool
  | .ident _ _ => false
  | .jsonValue _ _ => false
  | .binary _ _ _ => false
  | .inList _ _ _ => false
  | .between _ _ _ _ => false
  | .isNull _ _ => false
  | .jsonLength _ => false
  | .datePart _ _ => false
  | _ => true

namespace Ground

variable (g : Ground)

/-- Rows are connected to those of another row source by a relation: by their own primary key
to a field that holds it, or by a field to the primary key to which it points. -/
inductive Keyed (labelled : List Source) : Expr → Prop
  | held {related label primary parent field : String}
      (hsource : ⟨label, some related⟩ ∈ labelled)
      (hprimary : g.schema.primaryKey related = .ok primary)
      (hparent : g.LeadsToOne labelled parent field related) :
      Keyed labelled (.binary (.column label primary) .eq (.column parent field))
  | pointing {related label field qualifier primary : String} {r : Relation}
      (hsource : ⟨label, some related⟩ ∈ labelled)
      (hparent : ⟨qualifier, some r.collection⟩ ∈ g.sight labelled)
      (hprimary : g.schema.primaryKey r.collection = .ok primary)
      (hr : r ∈ g.schema.relations) (hleads : r.LeadsTo g.segments related)
      (hfield : r.relatedField = some field) :
      Keyed labelled (.binary (.column label field) .eq (.column qualifier primary))

/-- What can stand at a point of a compiled statement, with the row sources in sight and
the JSON rows that are asked about. -/
inductive Node (labelled : List Source) (rows : Option (String × Expr)) : Expr → Prop
  | reference {qualifier field : String} (h : g.Refers labelled qualifier field) :
      Node labelled rows (.column qualifier field)
  | row {label : String} {document : Expr}
      (hrows : rows = some (label, document)) (key : Option String) :
      Node labelled rows (.jsonValue label key)
  | test {c : Comparison} {operand : Json} {criterion : Criterion} {target e : Expr}
      (htarget : g.Subject labelled c target)
      (hcriterion : c.criterion operand = .ok criterion)
      (he : criterion.apply target = some e) :
      Node labelled rows e
  | rowTest {label : String} {document e : Expr}
      (hrows : rows = some (label, document)) (hdocument : g.Document labelled document)
      (he : RowTest label e) :
      Node labelled rows e
  /-- What a function makes of a field, for a comparison that fits it. -/
  | measured {c : Comparison} {place : Place} {relation : Option Relation}
      (hplace : place.In g labelled) (hcheck : place.check relation (.compare c) = .ok ())
      (hone : ∀ r ∈ relation, r.cardinality.leadsToMany = false)
      (hfunction : place.segment.function ≠ none) :
      Node labelled rows place.compared
  /-- The connection of a row source to another one. -/
  | linked {e : Expr} (h : g.Keyed labelled e) : Node labelled rows e
  /-- The rows of a relation that leads to many collections name the collection that they
  point to. -/
  | discriminated {label collection : String} {d : String × String} {r : Relation}
      (hsource : ⟨label, some collection⟩ ∈ labelled) (hr : r ∈ g.schema.relations)
      (hleads : r.LeadsTo g.segments collection) (hfield : r.collectionField = some d.1)
      (hcollection : r.collection = d.2) :
      Node labelled rows (Link.discriminates label d)
  | neutral {e : Expr} (h : e.isNeutral = true) : Node labelled rows e

/-- A point of a compiled statement: the collection of the statement and row sources
with labels of their own are in sight. -/
def Point (ctx : Context) (e : Expr) : Prop :=
  ∃ labelled, ctx.sources = g.sight labelled ∧ Named labelled ∧ g.Node labelled ctx.rows e

end Ground

section Points

variable {g : Ground} {P : Context → Expr → Prop} {labelled : List Source}
  {rows : Option (String × Expr)}

theorem Place.In.mono
    {labelled' : List Source} {place : Place}
    (h : place.In g labelled) (hsubset : labelled ⊆ labelled') :
    place.In g labelled' :=
  ⟨Ground.sight_subset hsubset h.source, h.field, h.segment⟩

theorem Ground.Document.mono
    {labelled' : List Source} {document : Expr}
    (h : g.Document labelled document) (hsubset : labelled ⊆ labelled') :
    g.Document labelled' document := by
  obtain ⟨place, hplace, hjson, rfl⟩ := h
  exact ⟨place, hplace.mono hsubset, hjson, rfl⟩

/-- A node in sight of row sources with labels of their own has every property that
points have. -/
theorem Ground.Node.holds
    {e : Expr}
    (hP : ∀ ctx e, g.Point ctx e → P ctx e) (hnamed : Named labelled)
    (h : g.Node labelled rows e) :
    P ⟨g.sight labelled, rows⟩ e :=
  hP _ _ ⟨labelled, rfl, hnamed, h⟩

theorem everywhere_column
    {qualifier field : String}
    (hP : ∀ ctx e, g.Point ctx e → P ctx e) (hnamed : Named labelled)
    (h : g.Refers labelled qualifier field) :
    (Expr.column qualifier field).Everywhere P ⟨g.sight labelled, rows⟩ :=
  Ground.Node.holds (P := P) hP hnamed (.reference h)

theorem everywhere_joins
    (hP : ∀ ctx e, g.Point ctx e → P ctx e) :
    ∀ {joins : List Join} {labelled : List Source}, g.Joined labelled joins → Named labelled →
      Join.AllEverywhere P (g.sight labelled) joins
  | [], _, _, _ => trivial
  | join :: rest, labelled, hjoined, hnamed => by
      obtain ⟨hjoin, hrest⟩ := hjoined
      rw [Join.allEverywhere_cons]
      cases hjoin with
      | @joinOf related label primary parent field hprimary hparent hlabel =>
          have hnamed' := hnamed.concat ⟨label, some related⟩ hlabel
          have hown : g.Refers (labelled ++ [⟨label, some related⟩]) label primary :=
            ⟨related, List.mem_cons_of_mem _ (by simp), Schema.knows_primary hprimary⟩
          have hother := hparent.mono
            (List.subset_append_left labelled [⟨label, some related⟩])
          refine ⟨⟨?_, ?_, ?_⟩, everywhere_joins hP hrest hnamed'⟩
          · exact (Ground.Node.linked (.held (by simp) hprimary hother)).holds hP hnamed'
          · exact everywhere_column hP hnamed' hown
          · exact everywhere_column hP hnamed' hother.refers

theorem everywhere_discriminates
    {label related : String} {d : String × String}
    (hP : ∀ ctx e, g.Point ctx e → P ctx e) (hnamed : Named labelled)
    (hsource : ⟨label, some related⟩ ∈ labelled)
    (hd : ∃ r ∈ g.schema.relations, r.LeadsTo g.segments related ∧
      r.collectionField = some d.1 ∧ r.collection = d.2) :
    (Link.discriminates label d).Everywhere P ⟨g.sight labelled, rows⟩ := by
  obtain ⟨r, hr, hleads, hfield, hcollection⟩ := hd
  have hrefers : g.Refers labelled label d.1 :=
    ⟨related, List.mem_cons_of_mem _ hsource, .inr (.inr ⟨r, hr, hleads, .inr hfield⟩)⟩
  refine ⟨?_, everywhere_column hP hnamed hrefers, ?_⟩
  · exact (Ground.Node.discriminated hsource hr hleads hfield hcollection).holds hP hnamed
  · exact Ground.Node.holds (P := P) hP hnamed (.neutral rfl)

/-- The rows that are counted are found by columns in sight. -/
theorem everywhere_countRows
    {link : Link} {label : String}
    (hP : ∀ ctx e, g.Point ctx e → P ctx e) (hnamed : Named labelled)
    (hlink : link.probe.Sound g labelled) (hlabel : Apart (labelled.map Source.name) label)
    (hback : g.PointsBack labelled link) :
    (link.countRows label).Everywhere P ⟨g.sight labelled, rows⟩ := by
  have hnamed' := hnamed.concat (link.probe.source label) hlabel
  have hmem : link.probe.source label ∈ labelled ++ [link.probe.source label] := by simp
  have hneutral {e : Expr} (he : e.isNeutral = true) :
      P ⟨g.sight (labelled ++ [link.probe.source label]), none⟩ e :=
    (Ground.Node.neutral he).holds hP hnamed'
  obtain ⟨qualifier, _, primary, r, hkey, hparent, hprimary, hr, rfl, hleads, hfield⟩ := hback
  have hparent' := Ground.sight_subset (List.subset_append_left _ [link.probe.source label]) hparent
  have hpointing : (Expr.binary (.column label link.relatedField) .eq link.parentKey).Everywhere P
      ⟨g.sight (labelled ++ [link.probe.source label]), none⟩ := by
    rw [hkey]
    refine ⟨?_, ?_, ?_⟩
    · exact (Ground.Node.linked (.pointing hmem hparent' hprimary hr hleads hfield)).holds hP
        hnamed'
    · exact everywhere_column hP hnamed' ⟨_, List.mem_cons_of_mem _ hmem, hlink.column⟩
    · exact everywhere_column hP hnamed' ⟨_, hparent', Schema.knows_primary hprimary⟩
  have hcount : Expr.AllEverywhere P ⟨g.sight (labelled ++ [link.probe.source label]), none⟩
      [.call "COUNT" [] true] :=
    ⟨⟨hneutral rfl, trivial⟩, trivial⟩
  have hsight : g.sight labelled ++ [link.probe.source label] ++ [] =
      g.sight (labelled ++ [link.probe.source label]) :=
    List.append_nil _
  unfold Link.countRows
  split
  · rename_i d hd
    refine ⟨(Ground.Node.neutral rfl).holds hP hnamed,
      Select.everywhere_of hsight trivial trivial hcount ?_⟩
    have hdiscriminates : (Link.discriminates label d).Everywhere P
        ⟨g.sight (labelled ++ [link.probe.source label]), none⟩ :=
      everywhere_discriminates hP hnamed' hmem (hlink.discriminator d hd)
    exact Expr.everywhereIfAny_group? (hneutral rfl)
      (List.forall_mem_cons.2 ⟨hpointing, List.forall_mem_singleton.2 hdiscriminates⟩)
  · exact ⟨(Ground.Node.neutral rfl).holds hP hnamed,
      Select.everywhere_of hsight trivial trivial hcount hpointing⟩

theorem everywhere_compared
    {c : Comparison} {place : Place} {relation : Option Relation}
    (hP : ∀ ctx e, g.Point ctx e → P ctx e) (hnamed : Named labelled)
    (h : place.In g labelled) (hcheck : place.check relation (.compare c) = .ok ())
    (hone : ∀ r ∈ relation, r.cardinality.leadsToMany = false) :
    place.compared.Everywhere P ⟨g.sight labelled, rows⟩ := by
  have hcolumn : place.column.Everywhere P ⟨g.sight labelled, rows⟩ :=
    everywhere_column hP hnamed h.refers
  have hmeasured (hfunction : place.segment.function ≠ none) :
      P ⟨g.sight labelled, rows⟩ place.compared :=
    (Ground.Node.measured h hcheck hone hfunction).holds hP hnamed
  unfold Place.compared at hmeasured ⊢
  cases hfunction : place.segment.function with
  | none => exact hcolumn
  | some function =>
      rw [hfunction] at hmeasured
      cases function with
      | count => exact ⟨hmeasured (by simp), hcolumn⟩
      | extract part => exact ⟨hmeasured (by simp), hcolumn⟩

theorem everywhere_subject
    {c : Comparison} {target : Expr}
    (hP : ∀ ctx e, g.Point ctx e → P ctx e) (hnamed : Named labelled)
    (h : g.Subject labelled c target) :
    target.Everywhere P ⟨g.sight labelled, rows⟩ := by
  cases h with
  | field hplace hcheck _ hone => exact everywhere_compared hP hnamed hplace hcheck hone
  | count hlink hlabel hback => exact everywhere_countRows hP hnamed hlink hlabel hback

theorem everywhere_rowTest
    {label : String} {document e : Expr}
    (hP : ∀ ctx e, g.Point ctx e → P ctx e) (hnamed : Named labelled)
    (hdocument : g.Document labelled document) (h : RowTest label e) :
    e.Everywhere P ⟨g.sight labelled, some (label, document)⟩ := by
  have hnode := (Ground.Node.rowTest rfl hdocument h).holds hP hnamed
  have hneutral {e : Expr} (he : e.isNeutral = true) :
      P ⟨g.sight labelled, some (label, document)⟩ e :=
    (Ground.Node.neutral he).holds hP hnamed
  obtain ⟨key, c, operand, criterion, -, he⟩ := h
  refine Expr.everywhere_apply he ⟨hneutral rfl, ?_⟩ hnode (hneutral rfl) fun v => hneutral rfl
  exact Ground.Node.holds (P := P) hP hnamed (.row rfl key)

/-- Every point of a compiled condition has the properties that points have. -/
theorem Ground.Emitted.everywhere
    {e : Expr}
    (hP : ∀ ctx e, g.Point ctx e → P ctx e) (h : g.Emitted labelled e) (hnamed : Named labelled)
    (rows : Option (String × Expr)) :
    e.Everywhere P ⟨g.sight labelled, rows⟩ := by
  induction h generalizing rows with
  | asked htarget hcriterion he =>
      refine Expr.everywhere_apply he (everywhere_subject hP hnamed htarget) ?_ ?_ fun v => ?_
      · exact (Ground.Node.test htarget hcriterion he).holds hP hnamed
      · exact (Ground.Node.neutral rfl).holds hP hnamed
      · exact (Ground.Node.neutral rfl).holds hP hnamed
  | @matched labelled document condition label conditions hdocument path hlabel hconditions
      hcondition =>
      have hnamed' := hnamed.concat ⟨label, none⟩ hlabel
      have hdocument' := hdocument.mono (List.subset_append_left labelled [⟨label, none⟩])
      obtain ⟨place, hplace, hjson, rfl⟩ := hdocument
      refine ⟨(Ground.Node.neutral rfl).holds hP hnamed, Select.everywhere_of
        (List.append_nil _) ?_ trivial ⟨?_, trivial⟩ ?_⟩
      · exact everywhere_column hP hnamed hplace.refers
      · exact Ground.Node.holds (P := P) hP hnamed' (.neutral rfl)
      · change Expr.EverywhereIfAny P _ (some condition)
        rw [← hcondition]
        exact Expr.everywhereIfAny_group? ((Ground.Node.neutral rfl).holds hP hnamed')
          fun e he => everywhere_rowTest hP hnamed' hdocument' (hconditions e he)
  | @among labelled probe label joins condition hprobe negated hlabel hjoins _ ih =>
      have hown := hnamed.concat (probe.source label) hlabel
      have hnamed' := hjoins.named hown
      have hmem : probe.source label ∈
          labelled ++ [probe.source label] ++ joins.map Join.source := by simp
      obtain ⟨qualifier, field, hkey, hrefers⟩ := hprobe.key
      refine ⟨(Ground.Node.neutral rfl).holds hP hnamed, ?_, Select.everywhere_of rfl trivial
        (everywhere_joins hP hjoins hown) ⟨?_, trivial⟩ ?_⟩
      · rw [hkey]
        exact everywhere_column hP hnamed hrefers
      · exact everywhere_column hP hnamed'
          ⟨_, List.mem_cons_of_mem _ hmem, hprobe.column⟩
      · rw [Probe.meeting_eq]
        refine Expr.everywhereIfAny_group? ((Ground.Node.neutral rfl).holds hP hnamed') ?_
        refine List.forall_mem_append.2 ⟨fun e he => ?_, fun e he => ?_⟩
        · exact ih e (Option.mem_toList.1 he) hnamed' none
        · obtain ⟨d, hd, rfl⟩ := Option.map_eq_some_iff.1 (Option.mem_toList.1 he)
          exact everywhere_discriminates hP hnamed' hmem (hprobe.discriminator d hd)
  | group op hlength hoperands ih =>
      refine ⟨(Ground.Node.neutral rfl).holds hP hnamed, Expr.allEverywhere_iff.2 ?_⟩
      exact fun e he => ih e he hnamed rows

end Points

/-- Properties that all points have hold everywhere in the joins and in the condition of
a compiled filter. -/
theorem everywhere_of_compile
    {s : Setting} {collection : String} {filter : Json} {c : Compiled}
    (h : s.compile collection filter = .ok c) :
    ∃ tree, ∃ htree : Filter.ofJson s.options.maxDepth filter = .ok tree,
      c.collection = collection ∧
      ∀ P : Context → Expr → Prop,
        (∀ ctx e, (Ground.ofFilter s collection htree).Point ctx e → P ctx e) →
        Join.AllEverywhere P [⟨collection, some collection⟩] c.joins ∧
        Expr.EverywhereIfAny P
          ⟨⟨collection, some collection⟩ :: c.joins.map Join.source, none⟩ c.condition := by
  obtain ⟨tree, htree, hcollection, hjoined, hemitted⟩ := emitted_of_compile h
  refine ⟨tree, htree, hcollection, fun P hP => ⟨?_, ?_⟩⟩
  · exact everywhere_joins hP hjoined named_nil
  · refine Expr.everywhereIfAny_iff.2 fun e he => ?_
    have hnamed : Named (c.joins.map Join.source) := hjoined.named named_nil
    exact (hemitted e he).everywhere hP hnamed none

end RowFilter
