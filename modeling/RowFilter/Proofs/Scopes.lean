import RowFilter.Proofs.Points

/-!
# References and the names in sight

A compiled filter refers to nothing that is not there: every column is one of a row
source in sight, and the rows of that source have it.  The labels in sight differ from
each other at every point.  The collection of the statement goes by its own name, though,
which can have the form of a label, and can then be hidden by one.

* `compile_refers_in_scope`: references.
* `selection_names_distinct`: names in sight.
* `selection_name_hidden`: a collection whose name is given out as a label.
-/

namespace RowFilter

open Sql (Context Expr Join Select Source)

/-! ## References -/

/-- A reference is qualified by the name of a row source in sight, of a collection whose
rows have the field.  Of JSON rows only those that the closest question asks about are
read. -/
def InScope (schema : Schema) (segments : List Segment) (ctx : Context) : Expr → Prop
  | .ident qualifier name => ∃ q collection, qualifier = some q ∧
      ⟨q, some collection⟩ ∈ ctx.sources ∧ schema.Knows segments collection name
  | .jsonValue source _ => ctx.rows.map Prod.fst = some source
  | _ => True

theorem inScope_of_apply
    {schema : Schema} {segments : List Segment} {ctx : Context} {criterion : Criterion}
    {target e : Expr}
    (h : criterion.apply target = some e) :
    InScope schema segments ctx e := by
  cases criterion with
  | always => cases h
  | _ =>
      cases h
      trivial

theorem Ground.Point.inScope
    {g : Ground} {ctx : Context} {e : Expr}
    (h : g.Point ctx e) :
    InScope g.schema g.segments ctx e := by
  obtain ⟨labelled, hsources, -, hnode⟩ := h
  cases hnode with
  | @reference qualifier field hrefers =>
      obtain ⟨collection, hsource, hknows⟩ := hrefers
      exact ⟨qualifier, collection, rfl, hsources ▸ hsource, hknows⟩
  | row hrows key => simp [InScope, hrows]
  | test _ _ he => exact inScope_of_apply he
  | rowTest _ _ he =>
      obtain ⟨_, _, _, _, _, he⟩ := he
      exact inScope_of_apply he
  | @measured _ place _ _ _ _ hfunction =>
      unfold Place.compared
      cases happlied : place.segment.function with
      | none => exact absurd happlied hfunction
      | some function => cases function <;> trivial
  | linked hkeyed => cases hkeyed <;> trivial
  | discriminated => trivial
  | neutral he =>
      cases e with
      | ident _ _ => cases he
      | jsonValue _ _ => cases he
      | _ => trivial

/-- **References are in scope.**  In a compiled filter every reference, in a join, in the
condition or in a query inside it, is to the collection of the statement or to a row
source of a join or a query around it, whose rows have the field.  The condition of a
join refers to nothing that is joined behind it. -/
theorem compile_refers_in_scope
    {s : Setting} {collection : String} {filter : Json} {c : Compiled}
    (h : s.compile collection filter = .ok c) :
    ∃ tree, Filter.ofJson s.options.maxDepth filter = .ok tree ∧
      Join.AllEverywhere (InScope s.schema tree.segments) [⟨collection, some collection⟩]
        c.joins ∧
      Expr.EverywhereIfAny (InScope s.schema tree.segments)
        ⟨⟨collection, some collection⟩ :: c.joins.map Join.source, none⟩ c.condition := by
  obtain ⟨tree, htree, -, hholds⟩ := everywhere_of_compile h
  exact ⟨tree, htree, hholds _ fun _ _ => Ground.Point.inScope⟩

/-- Projects with a leader, tasks, remarks of any kind and a document each. -/
def studio : Setting where
  schema := {
    collections := [
      ("projects", {
        primary := "id"
        fields := [
          ("lead", { type := .integer, specials := .ofFlags [] }),
          ("tasks", { type := .virtual, specials := .ofFlags [.oneToMany] }),
          ("remarks", { type := .virtual, specials := .ofFlags [.oneToMany] }),
          ("about", { type := .json, specials := .ofFlags [] })] }),
      ("people", {
        primary := "id"
        fields := [("name", { type := .string, specials := .ofFlags [] })] }),
      ("tasks", {
        primary := "id"
        fields := [("title", { type := .string, specials := .ofFlags [] })] }),
      ("comments", {
        primary := "id"
        fields := [
          ("body", { type := .text, specials := .ofFlags [] }),
          ("author", { type := .integer, specials := .ofFlags [] })] })]
    relations := [
      { collection := "projects", field := "lead", relatedCollection := some "people",
        relatedField := none, collectionField := none, allowed := [],
        cardinality := .manyToOne },
      { collection := "projects", field := "tasks", relatedCollection := some "tasks",
        relatedField := some "project", collectionField := none, allowed := [],
        cardinality := .oneToMany },
      { collection := "projects", field := "remarks", relatedCollection := none,
        relatedField := some "target", collectionField := some "kind",
        allowed := ["comments"], cardinality := .anyToMany },
      { collection := "comments", field := "author", relatedCollection := some "people",
        relatedField := none, collectionField := none, allowed := [],
        cardinality := .manyToOne }] }
  options := {}

/-- Projects of a leader that have many tasks, a remark by somebody, and a tag. -/
def busyProjects : Json :=
  .obj [
    ("lead", .obj [("name", .obj [("_eq", .str "Ada")])]),
    ("count(tasks)", .obj [("_gt", .num (.int 9))]),
    ("remarks:comments", .obj [("_some", .obj [
      ("author", .obj [("name", .obj [("_contains", .str "Lin")])])])]),
    ("about", .obj [("tags", .obj [("_in", .arr [.str "open", .str "late"])])])]

theorem compile_refers_in_scope_busyProjects :
    ∃ c tree, studio.compile "projects" busyProjects = .ok c ∧
      Filter.ofJson studio.options.maxDepth busyProjects = .ok tree ∧
      Expr.EverywhereIfAny (InScope studio.schema tree.segments)
        ⟨⟨"projects", some "projects"⟩ :: c.joins.map Join.source, none⟩ c.condition := by
  obtain ⟨c, hc⟩ := exists_of_isOk
    (show (studio.compile "projects" busyProjects).isOk = true by decide +kernel)
  obtain ⟨tree, htree, -, hcondition⟩ := compile_refers_in_scope hc
  exact ⟨c, tree, hc, htree, hcondition⟩

/-! ## Names -/

/-- The names in sight are that of the collection of the statement and labels, and no two
of the labels are the same. -/
def LabelsApart (collection : String) (ctx : Context) : Prop :=
  ∃ labels, ctx.names = collection :: labels ∧ labels.Nodup ∧
    ∀ label ∈ labels, Labels.IsLabel label

theorem LabelsApart.nodup
    {collection : String} {ctx : Context}
    (h : LabelsApart collection ctx) (hcollection : ¬ Labels.IsLabel collection) :
    ctx.names.Nodup := by
  obtain ⟨labels, hnames, hnodup, hlabels⟩ := h
  rw [hnames, List.nodup_cons]
  exact ⟨fun hmem => hcollection (hlabels collection hmem), hnodup⟩

theorem Named.labelsApart
    {g : Ground} {labelled : List Source} {rows : Option (String × Expr)}
    (h : Named labelled) :
    LabelsApart g.collection ⟨g.sight labelled, rows⟩ :=
  ⟨labelled.map Source.name, rfl, h.nodup, h.isLabel⟩

theorem Ground.Point.labelsApart
    {g : Ground} {ctx : Context} {e : Expr}
    (h : g.Point ctx e) :
    LabelsApart g.collection ctx := by
  obtain ⟨labelled, hsources, hnamed, -⟩ := h
  obtain ⟨sources, rows⟩ := ctx
  cases hsources
  exact hnamed.labelsApart

/-- What follows from the names in sight holds at every point of the selection of the
rows that match. -/
theorem everywhere_selection
    {s : Setting} {collection : String} {filter : Json} {c : Compiled}
    (h : s.compile collection filter = .ok c) {P : Context → Prop}
    (hP : ∀ ctx, LabelsApart collection ctx → P ctx) (names : List String) :
    (c.selection names).Everywhere (fun ctx _ => P ctx) [] none := by
  obtain ⟨tree, htree, hcollection, hjoined, hemitted⟩ := emitted_of_compile h
  have hpoint : ∀ ctx e, (Ground.ofFilter s collection htree).Point ctx e → P ctx :=
    fun ctx e hpoint => hP ctx hpoint.labelsApart
  have hnamed : Named (c.joins.map Join.source) := hjoined.named named_nil
  have hhere : P ⟨⟨collection, some collection⟩ :: c.joins.map Join.source, none⟩ :=
    hP _ (hnamed.labelsApart (g := Ground.ofFilter s collection htree))
  obtain ⟨c_collection, condition, joins, labels⟩ := c
  cases hcollection
  refine Select.everywhere_of rfl trivial ?_ ?_ ?_
  · exact everywhere_joins (P := fun ctx _ => P ctx) hpoint hjoined named_nil
  · refine Expr.allEverywhere_iff.2 fun e he => ?_
    cases names with
    | nil =>
        rw [List.mem_singleton.1 he]
        exact hhere
    | cons name rest =>
        obtain ⟨_, -, rfl⟩ := List.mem_map.1 he
        exact hhere
  · have hfilter : (Compiled.selection ⟨c_collection, condition, joins, labels⟩ names).condition =
        condition := by
      simp [Compiled.selection, Select.filter, Select.join, Select.of]
    rw [hfilter]
    exact Expr.everywhereIfAny_iff.2 fun e he =>
      (hemitted e he).everywhere (P := fun ctx _ => P ctx) hpoint hnamed none

/-- **Names in sight are distinct.**  At every point of the selection of the rows that
match a compiled filter, the row sources in sight besides the collection of the statement
go by labels, no two of them by the same.  So all names in sight are distinct unless the
collection itself has a name of the form of a label. -/
theorem selection_names_distinct
    {s : Setting} {collection : String} {filter : Json} {c : Compiled}
    (h : s.compile collection filter = .ok c) (names : List String) :
    (c.selection names).Everywhere (fun ctx _ => LabelsApart collection ctx) [] none ∧
      (¬ Labels.IsLabel collection →
        (c.selection names).Everywhere (fun ctx _ => ctx.names.Nodup) [] none) :=
  ⟨everywhere_selection h (fun _ hctx => hctx) names,
    fun hcollection => everywhere_selection h (fun _ hctx => hctx.nodup hcollection) names⟩

theorem selection_names_distinct_busyProjects :
    ∃ c, studio.compile "projects" busyProjects = .ok c ∧
      (c.selection ["id"]).Everywhere (fun ctx _ => ctx.names.Nodup) [] none := by
  obtain ⟨c, hc⟩ := exists_of_isOk
    (show (studio.compile "projects" busyProjects).isOk = true by decide +kernel)
  refine ⟨c, hc, (selection_names_distinct hc ["id"]).2 ?_⟩
  rintro ⟨base, n, hname⟩
  have hdigits := Labels.takeWhile_reverse_numbered base n
  rw [← hname] at hdigits
  have hnone : Decimal.digitChars n = [] := by simpa using hdigits.symm
  exact Nat.toDigits_ne_nil hnone

/-- Archives of orders, in a collection whose name ends in a number. -/
def archive : Setting where
  schema := {
    collections := [
      ("orders_1", {
        primary := "id"
        fields := [("items", { type := .virtual, specials := .ofFlags [.oneToMany] })] }),
      ("orders", { primary := "id", fields := [] })]
    relations := [
      { collection := "orders_1", field := "items", relatedCollection := some "orders",
        relatedField := some "owner", collectionField := none, allowed := [],
        cardinality := .oneToMany }] }
  options := {}

/-- Archives that own more than two orders. -/
def ownsMany : Json :=
  .obj [("count(items)", .obj [("_gt", .num (.int 2))])]

/-- The orders that are counted get the label that is the name of the archives, which
they hide. -/
theorem selection_name_hidden :
    ∃ c, archive.compile "orders_1" ownsMany = .ok c ∧
      ¬ (c.selection []).Everywhere (fun ctx _ => ctx.names.Nodup) [] none := by
  have hclash : (archive.compile "orders_1" ownsMany).toOption.any (fun c =>
      !decide ((c.selection []).Everywhere (fun ctx _ => ctx.names.Nodup) [] none)) = true := by
    decide +kernel
  obtain ⟨c, hc, hclash⟩ := exists_of_any_toOption hclash
  exact ⟨c, hc, by simpa using hclash⟩

end RowFilter
