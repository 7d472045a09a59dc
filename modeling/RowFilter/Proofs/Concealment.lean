import RowFilter.Proofs.Acceptance
import RowFilter.Proofs.Points

/-!
# Concealed fields

A concealed field may be asked whether it has a value, and nothing else: otherwise its
value could be found out by probing.  The check is made wherever a condition is put on
a field itself.  A path into a JSON document is not checked against the flag of the
field that holds the document.

* `compile_conceals`: comparisons of concealed fields ask for their presence, and what is
  compared with bound values is not concealed, documents apart.
* `concealed_document_compared`: a concealed document whose members are compared.
-/

namespace RowFilter

open Sql (Context Expr Join Source)

/-! ## What is compared -/

/-- What a value is read from. -/
inductive Origin where
  /-- A column of a row source. -/
  | column (qualifier name : String)
  /-- A JSON row. -/
  | row (label : String)
deriving DecidableEq

/-- The value is read from a column. -/
def Origin.isColumn : Origin → Bool
  | column _ _ => true
  | row _ => false

namespace Sql.Expr

/-- The left side of a comparison with bound values: by an operator, with a list or with
the bounds of a range. -/
def comparedWithValues? : Expr → Option Expr
  | .binary left _ (.value _) => some left
  | .inList left _ _ => some left
  | .between left _ _ _ => some left
  | _ => none

mutual

/-- What the value of an expression is read from.  A query finds its value by itself. -/
def origins : Expr → List Origin
  | .ident (some qualifier) name => [.column qualifier name]
  | .jsonValue source _ => [.row source]
  | .call _ args _ => originsOfAll args
  | .cast e _ => e.origins
  | .jsonLength e => e.origins
  | .datePart _ e => e.origins
  | _ => []

/-- What the values of expressions are read from. -/
def originsOfAll : List Expr → List Origin
  | [] => []
  | e :: rest => e.origins ++ originsOfAll rest

end

end Sql.Expr

/-- The label, the column and the text, where a column of a row source is asked to equal
a text. -/
def Sql.Expr.naming? : Expr → Option (String × String × String)
  | .binary (.ident (some label) name) .eq (.value (.str text)) => some (label, name, text)
  | _ => none

/-- The column of the document from which the JSON rows under a label come, if the closest
question is about them. -/
def Sql.Context.document? (ctx : Context) (label : String) : Option (String × String) :=
  match ctx.rows with
  | some (rows, .ident (some qualifier) name) =>
      if rows = label then some (qualifier, name) else none
  | _ => none

/-- A column of a field that is not concealed, in a row source in sight. -/
def Shown (schema : Schema) (ctx : Context) (qualifier name : String) : Prop :=
  ∃ source ∈ ctx.sources, source.name = qualifier ∧ ∃ collection ∈ source.collection,
    ∃ field ∈ schema.field? collection name, field.specials.conceal = false

/-- What is read from is not concealed; for a JSON row this is about the document that it
comes from. -/
def Origin.Shown (schema : Schema) (ctx : Context) : Origin → Prop
  | column qualifier name => RowFilter.Shown schema ctx qualifier name
  | row label => ∃ document ∈ ctx.document? label,
      RowFilter.Shown schema ctx document.1 document.2

/-- Rows in sight name the collection that they point to, in the field that a relation
declared on that collection has for this. -/
def NamesCollection (schema : Schema) (segments : List Segment) (ctx : Context) (e : Expr) :
    Prop :=
  ∃ naming ∈ e.naming?, ∃ source ∈ ctx.sources, source.name = naming.1 ∧
    ∃ collection ∈ source.collection, ∃ r ∈ schema.relations, r.LeadsTo segments collection ∧
      r.collectionField = some naming.2.1 ∧ r.collection = naming.2.2

/-- What is compared with bound values is read from nothing concealed, as far as it is to
be considered.  That rows name the collection that they point to is apart. -/
def Discreet (schema : Schema) (segments : List Segment) (considered : Origin → Bool)
    (ctx : Context) (e : Expr) : Prop :=
  ∀ left ∈ e.comparedWithValues?, NamesCollection schema segments ctx e ∨
    ∀ origin ∈ left.origins, considered origin = true → origin.Shown schema ctx

section Decidable

variable (schema : Schema) (segments : List Segment) (ctx : Context)

instance (qualifier name : String) : Decidable (Shown schema ctx qualifier name) :=
  inferInstanceAs (Decidable (∃ source ∈ ctx.sources, _ ∧ ∃ collection ∈ source.collection,
    ∃ field ∈ schema.field? collection name, field.specials.conceal = false))

instance : (origin : Origin) → Decidable (origin.Shown schema ctx)
  | .column qualifier name => inferInstanceAs (Decidable (Shown schema ctx qualifier name))
  | .row label => inferInstanceAs (Decidable (∃ document ∈ ctx.document? label, _))

instance (e : Expr) : Decidable (NamesCollection schema segments ctx e) :=
  inferInstanceAs (Decidable (∃ naming ∈ e.naming?, ∃ source ∈ ctx.sources, _ ∧
    ∃ collection ∈ source.collection, ∃ r ∈ schema.relations, _ ∧ _))

instance (considered : Origin → Bool) (e : Expr) :
    Decidable (Discreet schema segments considered ctx e) :=
  inferInstanceAs (Decidable (∀ left ∈ e.comparedWithValues?, _ ∨ ∀ origin ∈ left.origins, _ → _))

end Decidable

/-- What is compared with values is what the criterion is put on, or the text of it in
lower case, and the criterion asks more than whether there is a value. -/
theorem Criterion.origins_of_apply
    {criterion : Criterion} {target e left : Expr}
    (he : criterion.apply target = some e) (hleft : e.comparedWithValues? = some left) :
    (∀ negated, criterion ≠ .isNull negated) ∧ left.origins = target.origins := by
  refine ⟨?_, ?_⟩
  · rintro negated rfl
    cases he
    cases hleft
  · cases criterion with
    | like pattern negated caseless =>
        cases he
        cases hleft
        cases caseless with
        | true => exact List.append_nil _
        | false => rfl
    | isNull negated =>
        cases he
        cases hleft
    | never =>
        cases he
        cases hleft
    | always => cases he
    | _ =>
        cases he
        cases hleft
        rfl

theorem Place.origins_compared
    (place : Place) :
    place.compared.origins = [.column place.qualifier place.segment.name] := by
  unfold Place.compared
  split <;> rfl

theorem Link.origins_countRows
    (link : Link) (label : String) :
    (link.countRows label).origins = [] := by
  unfold Link.countRows
  split <;> rfl

/-! ## Comparisons that fit a concealed field -/

theorem Comparison.isNull_of_asksPresence
    {c : Comparison} {operand : Json} {criterion : Criterion}
    (hpresence : c.asksPresence = true) (h : c.criterion operand = .ok criterion) :
    ∃ negated, criterion = .isNull negated := by
  cases c with
  | null negated =>
      cases h
      exact ⟨_, rfl⟩
  | empty negated =>
      cases h
      exact ⟨_, rfl⟩
  | _ => cases hpresence

section Points

variable {g : Ground} {ctx : Context} {e : Expr} {labelled : List Source}

theorem Place.In.shown
    {place : Place}
    (h : place.In g labelled) (hsources : ctx.sources = g.sight labelled)
    (hconceal : place.field.specials.conceal = false) :
    Shown g.schema ctx place.qualifier place.segment.name :=
  ⟨_, hsources ▸ h.source, rfl, place.collection, rfl, place.field, h.field, hconceal⟩

/-- What a comparison is about is not concealed if it is compared with values. -/
theorem Ground.Subject.shown
    {c : Comparison} {operand : Json} {criterion : Criterion} {target : Expr}
    (h : g.Subject labelled c target) (hsources : ctx.sources = g.sight labelled)
    (hcriterion : c.criterion operand = .ok criterion)
    (hnull : ∀ negated, criterion ≠ .isNull negated) :
    ∀ origin ∈ target.origins, origin.Shown g.schema ctx := by
  cases h with
  | @field place relation hplace hcheck _ _ =>
      rw [Place.origins_compared]
      refine List.forall_mem_singleton.2 (hplace.shown hsources ?_)
      by_contra hconceal
      have hpresence := Field.asksPresence_of_check hcheck (by simpa using hconceal)
      obtain ⟨negated, hisNull⟩ := Comparison.isNull_of_asksPresence hpresence hcriterion
      exact hnull negated hisNull
  | count hlink hlabel _ =>
      rw [Link.origins_countRows]
      simp

/-- Points compare nothing concealed, provided that JSON rows are not considered, or that
no documents are concealed. -/
theorem Ground.Point.discreet
    {considered : Origin → Bool}
    (hconsidered : ∀ label, considered (.row label) = true →
      ∀ collection name field, g.schema.field? collection name = some field →
        field.type.isJson = true → field.specials.conceal = false)
    (h : g.Point ctx e) :
    Discreet g.schema g.segments considered ctx e := by
  obtain ⟨labelled, hsources, -, hnode⟩ := h
  intro left hleft
  cases hnode with
  | reference _ => cases hleft
  | row _ _ => cases hleft
  | test htarget hcriterion he =>
      obtain ⟨hnull, horigins⟩ := Criterion.origins_of_apply he hleft
      rw [horigins]
      exact .inr fun origin horigin _ => htarget.shown hsources hcriterion hnull origin horigin
  | @rowTest label document e hrows hdocument he =>
      obtain ⟨_, _, _, _, _, he⟩ := he
      rw [(Criterion.origins_of_apply he hleft).2]
      refine .inr (List.forall_mem_singleton.2 fun hrow => ?_)
      obtain ⟨place, hplace, hjson, rfl⟩ := hdocument
      have hconceal := hconsidered label hrow _ _ _ hplace.field hjson
      refine ⟨(place.qualifier, place.segment.name), ?_, hplace.shown hsources hconceal⟩
      simp [Sql.Context.document?, hrows, Place.column, Expr.column]
  | @measured _ place _ _ _ _ hfunction =>
      unfold Place.compared at hleft
      cases happlied : place.segment.function with
      | none => exact absurd happlied hfunction
      | some function =>
          rw [happlied] at hleft
          cases function <;> cases hleft
  | linked hkeyed => cases hkeyed <;> cases hleft
  | @discriminated label collection d r hsource hr hleads hfield hcollection =>
      exact .inl ⟨(label, d), rfl, ⟨label, some collection⟩,
        hsources ▸ List.mem_cons_of_mem _ hsource, rfl, collection, rfl, r, hr, hleads, hfield,
        hcollection⟩
  | neutral he =>
      cases e with
      | binary _ _ _ => cases he
      | inList _ _ _ => cases he
      | between _ _ _ _ => cases he
      | _ => cases hleft

end Points

/-- **Concealed fields are only asked for their presence.**  The comparisons of a compiled
filter whose paths end at a concealed field ask whether it has a value, all that were
built.  Nowhere in the condition is something read from a concealed column compared with
bound values.  In a schema that conceals no JSON field this goes for what is read from the
rows of documents as well. -/
theorem compile_conceals
    {s : Setting} {collection : String} {filter : Json} {c : Compiled}
    (h : s.compile collection filter = .ok c) :
    ∃ tree, Filter.ofJson s.options.maxDepth filter = .ok tree ∧
      (∃ a p, (s.account tree).run (Progress.start collection) = (.ok a, p) ∧
        a.filter = tree ∧ a.condition = c.condition ∧ a.Guarded s.schema collection) ∧
      Expr.EverywhereIfAny (Discreet s.schema tree.segments Origin.isColumn)
        ⟨⟨collection, some collection⟩ :: c.joins.map Join.source, none⟩ c.condition ∧
      ((∀ collection name field, s.schema.field? collection name = some field →
          field.type.isJson = true → field.specials.conceal = false) →
        Expr.EverywhereIfAny (Discreet s.schema tree.segments fun _ => true)
          ⟨⟨collection, some collection⟩ :: c.joins.map Join.source, none⟩ c.condition) := by
  obtain ⟨tree, htree, -, hholds⟩ := everywhere_of_compile h
  obtain ⟨tree', a, p, htree', haccount⟩ := guarded_of_compile h
  cases htree.symm.trans htree'
  refine ⟨tree, htree, ⟨a, p, haccount⟩, (hholds _ fun _ _ => Ground.Point.discreet ?_).2,
    fun hdocuments => ?_⟩
  · rintro label ⟨⟩
  · exact (hholds _ fun _ _ => Ground.Point.discreet fun _ _ => hdocuments).2

/-- Orders with a concealed code, and with a history that is concealed. -/
def vault : Setting where
  schema := {
    collections := [("orders", {
      primary := "id"
      fields := [
        ("code", { type := .string, specials := .ofFlags [.conceal] }),
        ("history", { type := .json, specials := .ofFlags [.castJson, .conceal] })] })]
    relations := [] }
  options := {}

/-- Orders that have a code. -/
def coded : Json :=
  .obj [("code", .obj [("_nnull", .bool true)])]

theorem compile_conceals_coded :
    ∃ c tree, vault.compile "orders" coded = .ok c ∧
      Filter.ofJson vault.options.maxDepth coded = .ok tree ∧
      (∃ a : Account, a.filter = tree ∧ a.condition = c.condition ∧
        a.Guarded vault.schema "orders") ∧
      Expr.EverywhereIfAny (Discreet vault.schema tree.segments Origin.isColumn)
        ⟨⟨"orders", some "orders"⟩ :: c.joins.map Join.source, none⟩ c.condition := by
  obtain ⟨c, hc⟩ := exists_of_isOk
    (show (vault.compile "orders" coded).isOk = true by decide +kernel)
  obtain ⟨tree, htree, ⟨a, p, -, haccount⟩, hcondition, -⟩ := compile_conceals hc
  exact ⟨c, tree, hc, htree, ⟨a, haccount⟩, hcondition⟩

/-- Orders with a token in their history. -/
def withToken : Json :=
  .obj [("history", .obj [("token", .obj [("_eq", .str "x")])])]

/-- The members of a concealed document are compared with whatever the filter says. -/
theorem concealed_document_compared :
    ∃ c tree, vault.compile "orders" withToken = .ok c ∧
      Filter.ofJson vault.options.maxDepth withToken = .ok tree ∧
      ¬ Expr.EverywhereIfAny (Discreet vault.schema tree.segments fun _ => true)
        ⟨⟨"orders", some "orders"⟩ :: c.joins.map Join.source, none⟩ c.condition := by
  have hprobed : (Filter.ofJson vault.options.maxDepth withToken).toOption.any (fun tree =>
      (vault.compile "orders" withToken).toOption.any fun c =>
        !decide (Expr.EverywhereIfAny (Discreet vault.schema tree.segments fun _ => true)
          ⟨⟨"orders", some "orders"⟩ :: c.joins.map Join.source, none⟩ c.condition)) = true := by
    decide +kernel
  obtain ⟨tree, htree, hprobed⟩ := exists_of_any_toOption hprobed
  obtain ⟨c, hc, hprobed⟩ := exists_of_any_toOption hprobed
  exact ⟨c, tree, hc, htree, by simpa using hprobed⟩

end RowFilter
