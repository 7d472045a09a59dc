import RowFilter.Proofs.Discovery
import RowFilter.Proofs.Evaluation
import RowFilter.Proofs.Points

/-!
# Some and none of the related rows

A quantifier on a field that leads to many rows asks whether the key of a row is among
the keys that the related rows hold, or that it is not.  By three-valued logic the second
is not the opposite of the first: it is unknown as soon as a related row that matches
holds no key.

* `Sql.Expr.selects_not_inQuery_iff`: when a key is found not to be among values.
* `none_selects_iff`: what a filter on none of the rows selects, compared with one on
  some of them.
-/

namespace RowFilter

open Sql (Database Engine Expr Join Scope Select Source)

/-! ## Three-valued membership -/

namespace Sql

theorem disjunction_eq_true_iff
    (ts : List (Option Bool)) :
    disjunction ts = some true ↔ some true ∈ ts := by
  unfold disjunction
  by_cases htrue : some true ∈ ts
  · simp [htrue]
  · by_cases hnone : none ∈ ts <;> simp [htrue, hnone]

theorem disjunction_eq_false_iff
    (ts : List (Option Bool)) :
    disjunction ts = some false ↔ some true ∉ ts ∧ none ∉ ts := by
  unfold disjunction
  by_cases htrue : some true ∈ ts
  · simp [htrue]
  · by_cases hnone : none ∈ ts <;> simp [htrue, hnone]

/-- The values of the first column of a selection. -/
def Select.values (g : Engine) (db : Database) (query : Select) (scope : Scope) : List Value :=
  (query.answer g db scope).filterMap List.head?

namespace Expr

variable {g : Engine} {db : Database} {key : Expr} {query : Select} {scope : Scope}

/-- What a condition on the rows of a query says about the key. -/
theorem selects_inQuery
    (negated : Bool) :
    Expr.selects g db (some (.inQuery key query negated)) scope = true ↔
      negateIf negated (g.isMember (key.eval g db scope) (query.values g db scope)) =
        some true := by
  rw [Expr.selects, beq_iff_eq, Expr.eval, Value.truth_ofTruth]
  rfl

/-- The key is found not to be among the values exactly if it is not found among them and
none of them is null. -/
theorem selects_not_inQuery_iff
    (hkey : (key.eval g db scope).isNull = false) :
    Expr.selects g db (some (.inQuery key query true)) scope = true ↔
      Expr.selects g db (some (.inQuery key query false)) scope = false ∧
        ∀ v ∈ query.values g db scope, v.isNull = false := by
  have hnull : none ∉ (query.values g db scope).map (g.compares .eq (key.eval g db scope)) ↔
      ∀ v ∈ query.values g db scope, v.isNull = false := by
    simp [Engine.compares, hkey]
  have htrue := disjunction_eq_true_iff
    ((query.values g db scope).map (g.compares .eq (key.eval g db scope)))
  have hfalse := disjunction_eq_false_iff
    ((query.values g db scope).map (g.compares .eq (key.eval g db scope)))
  rw [hnull, ← htrue] at hfalse
  rw [← Bool.not_eq_true, selects_inQuery, selects_inQuery, Engine.isMember]
  generalize disjunction _ = t at hfalse ⊢
  cases t with
  | none => simpa [negateIf] using hfalse
  | some b =>
      cases b with
      | true => simp [negateIf]
      | false => simpa [negateIf] using hfalse

end Expr

/-- Joins leave the row sources with other names where they are. -/
theorem Join.lookup_of_mem_scopes
    {g : Engine} {db : Database} {name : String} :
    ∀ {joins : List Join} {scope inner : Scope},
      name ∉ joins.map (fun join => join.source.name) →
      inner ∈ Join.scopes g db joins scope → inner.lookup name = scope.lookup name
  | [], scope, inner, _, hinner => by
      rw [Join.scopes, List.mem_singleton] at hinner
      rw [hinner]
  | ⟨t, label, condition⟩ :: rest, scope, inner, hname, hinner => by
      rw [List.map_cons, List.mem_cons, not_or] at hname
      obtain ⟨hfirst, hrest⟩ := hname
      have hother : (name == label.getD t.name) = false := beq_eq_false_iff_ne.2 hfirst
      rw [Join.scopes] at hinner
      obtain ⟨joined, hjoined, hinner⟩ := List.mem_flatMap.1 hinner
      have hbound : ∃ row, joined = scope.bind (some (label.getD t.name)) row := by
        split at hjoined
        · exact ⟨_, List.mem_singleton.1 hjoined⟩
        · obtain ⟨columns, -, rfl⟩ := List.mem_map.1 (List.mem_filter.1 hjoined).1
          exact ⟨_, rfl⟩
      obtain ⟨row, rfl⟩ := hbound
      rw [lookup_of_mem_scopes hrest hinner]
      simp [Scope.bind, List.lookup_cons, hother]

/-- The values of a column of a table are those of its rows, whatever is joined to them. -/
theorem Select.exists_of_mem_values
    {g : Engine} {db : Database} {label column : String} {t : Table} {joins : List Join}
    {condition : Option Expr} {scope : Scope} {v : Value}
    (hlabel : label ∉ joins.map (fun join => join.source.name))
    (hv : v ∈ Select.values g db
      ⟨[.column label column], some (.table t (some label)), joins, condition⟩ scope) :
    ∃ columns ∈ db t, v = columns column := by
  obtain ⟨answer, hanswer, hhead⟩ := List.mem_filterMap.1 hv
  rw [Select.answer] at hanswer
  change answer ∈ List.map _ _ at hanswer
  obtain ⟨inner, hinner, rfl⟩ := List.mem_map.1 hanswer
  obtain ⟨start, hstart, hinner⟩ := List.mem_flatMap.1 (List.mem_filter.1 hinner).1
  obtain ⟨columns, hcolumns, rfl⟩ := List.mem_map.1 hstart
  refine ⟨columns, hcolumns, ?_⟩
  have hlookup := Join.lookup_of_mem_scopes hlabel hinner
  cases hhead
  change ((inner.lookup label).map _).getD _ = _
  rw [hlookup]
  simp [Scope.bind, Row.column]

end Sql

/-! ## Reading quantified conditions -/

theorem Attempt.exists_of_run_bind_ok
    {σ α β : Type} {x : Attempt σ α} {f : α → Attempt σ β} {s t : σ} {b : β}
    (h : (x >>= f).run s = (.ok b, t)) :
    ∃ a u, x.run s = (.ok a, u) ∧ (f a).run u = (.ok b, t) := by
  cases hx : x.run s with
  | mk result u =>
      cases result with
      | error e =>
          rw [Attempt.run_bind_of_error f hx] at h
          cases h
      | ok a =>
          rw [Attempt.run_bind_of_ok f hx] at h
          exact ⟨a, u, rfl, h⟩

namespace Filter

/-- The document of a quantified condition on a field. -/
def quantified (key : String) (q : Quantifier) (inner : Json) : Json :=
  .obj [(key, .obj [(q.key, inner)])]

/-- An object with one member is the filter of that member. -/
theorem run_readMember_of_atDepth
    {limit depth n m : Nat} {path : List Segment} {key : String} {value : Json} {tree : Filter}
    (h : (atDepth limit depth (readMembers limit depth path [(key, value)])).run n =
      (.ok tree, m)) :
    (readMember limit depth path key value).run n = (.ok tree, m) := by
  unfold atDepth at h
  split at h
  · cases h
  · rw [readMembers, readMembers] at h
    obtain ⟨children, u, hchildren, h⟩ := Attempt.exists_of_run_bind_ok h
    obtain ⟨child, v, hchild, hchildren⟩ := Attempt.exists_of_run_bind_ok hchildren
    cases hchildren
    cases h
    exact hchild

theorem exists_of_readMember_quantifier
    {limit depth n m : Nat} {field : Segment} {q : Quantifier} {inner : Json} {tree : Filter}
    (h : (readMember limit depth [field] q.key inner).run n = (.ok tree, m)) :
    ∃ members body, inner = .obj members ∧
      (atDepth limit (depth + 1) (readMembers limit (depth + 1) [] members)).run n =
        (.ok body, m - 1) ∧
      tree = .quantify (m - 1) field q body := by
  have hoperator : operatorOf q.key = .quantify q := by
    cases q <;> decide +kernel
  have hand : q.key ≠ "_and" := by cases q <;> decide
  have hor : q.key ≠ "_or" := by cases q <;> decide
  have hunderscore : q.key.toList.head? = some '_' := by cases q <;> rfl
  cases inner with
  | obj members =>
      rw [readMember, if_neg hand, if_neg hor, if_pos hunderscore] at h
      obtain ⟨_, u, hcheck, h⟩ := Attempt.exists_of_run_bind_ok h
      cases hcheck
      rw [hoperator] at h
      obtain ⟨body, v, hbody, h⟩ := Attempt.exists_of_run_bind_ok h
      cases h
      exact ⟨members, body, rfl, hbody, rfl⟩
  | null | bool b | num x | str text | arr items =>
      rw [readMember, if_neg hand, if_neg hor, if_pos hunderscore] at h
      · obtain ⟨_, u, hcheck, h⟩ := Attempt.exists_of_run_bind_ok h
        cases hcheck
        rw [hoperator] at h
        cases h
      all_goals simp

/-- What is read from the document of a quantified condition.  Only the quantifier itself
depends on it. -/
theorem exists_of_ofJson_quantified
    {limit : Nat} {key : String} {field : Segment} {q : Quantifier} {inner : Json} {tree : Filter}
    (hkey : FieldPath.ofKey key = .ok [field])
    (h : ofJson limit (quantified key q inner) = .ok tree) :
    ∃ members body id, inner = .obj members ∧
      (atDepth limit 2 (readMembers limit 2 [] members)).run 0 = (.ok body, id) ∧
      tree = .quantify id field q body := by
  rw [quantified, ofJson] at h
  obtain ⟨m, hrun⟩ : ∃ m, (atDepth limit 0
      (readMembers limit 0 [] [(key, .obj [(q.key, inner)])])).run 0 = (.ok tree, m) :=
    ⟨_, Prod.ext h rfl⟩
  have hmember := run_readMember_of_atDepth hrun
  rw [readMember] at hmember
  split at hmember
  · cases hmember
  split at hmember
  · cases hmember
  split at hmember
  · obtain ⟨_, u, hcheck, -⟩ := Attempt.exists_of_run_bind_ok hmember
    cases hcheck
  · obtain ⟨segments, u, hsegments, hmember⟩ := Attempt.exists_of_run_bind_ok hmember
    rw [hkey] at hsegments
    cases hsegments
    obtain ⟨members, body, hinner, hbody, htree⟩ :=
      exists_of_readMember_quantifier (run_readMember_of_atDepth hmember)
    exact ⟨members, body, m - 1, hinner, hbody, htree⟩

end Filter

/-! ## Compiling quantified conditions -/

/-- The link of a field of a collection that leads to many rows, in the query of that
collection. -/
def LinkAt (schema : Schema) (collection : String) (field : Segment) (relation : Relation)
    (link : Link) : Prop :=
  ∃ f, schema.field? collection field.name = some f ∧
    Link.of schema ⟨collection, collection, field, f⟩ relation field.scope = .ok link

theorem LinkAt.unique
    {schema : Schema} {collection : String} {field : Segment} {relation : Relation}
    {link link' : Link}
    (h : LinkAt schema collection field relation link)
    (h' : LinkAt schema collection field relation link') :
    link = link' := by
  obtain ⟨f, hf, hlink⟩ := h
  obtain ⟨f', hf', hlink'⟩ := h'
  rw [hf] at hf'
  cases hf'
  rw [hlink] at hlink'
  cases hlink'
  rfl

/-- A field that leads to many rows is reached without joins. -/
theorem run_locate_toMany
    {schema : Schema} {collection : String} {field : Segment} {relation : Relation}
    {destination : Destination} {p : Progress}
    (hrelation : schema.relation? collection field.name = some relation)
    (hmany : relation.cardinality.leadsToMany = true)
    (h : (Compiling.locate schema [field]).run (Progress.start collection) =
      (.ok destination, p)) :
    p = Progress.start collection ∧ ∃ f, schema.field? collection field.name = some f ∧
      destination = .toMany ⟨collection, collection, field, f⟩ relation field.scope [] := by
  have hstep : ∀ step, schema.step collection collection field [] = .ok step →
      ∃ f, schema.field? collection field.name = some f ∧
        step = .arrive (.toMany ⟨collection, collection, field, f⟩ relation field.scope []) := by
    intro step hstep
    unfold Schema.step at hstep
    cases hf : schema.field? collection field.name with
    | none =>
        rw [hf] at hstep
        cases hstep
    | some f =>
        simp only [hf, hrelation] at hstep
        rcases Place.cases_of_relate hstep with ⟨scope, hscope, rfl⟩ | ⟨⟨-, hone⟩, -⟩
        · obtain ⟨rfl, -⟩ := Segment.scope_of_choose hscope
          exact ⟨f, rfl, rfl⟩
        · rw [hmany] at hone
          cases hone
  unfold Compiling.locate JoinPlan.locate at h
  rw [Attempt.run_focus, Attempt.run_bind_of_ok _ (Attempt.run_state _)] at h
  unfold JoinPlan.follow at h
  cases hs : schema.step collection collection field [] with
  | error e =>
      rw [Attempt.run_bind_of_error _ (congrArg (·, _) hs)] at h
      cases h
  | ok step =>
      obtain ⟨f, hf, rfl⟩ := hstep step hs
      rw [Attempt.run_bind_of_ok _ (congrArg (·, _) hs)] at h
      cases h
      exact ⟨rfl, f, hf, rfl⟩

/-- A compiled condition on the rows behind a field that leads to many rows. -/
theorem exists_rows_of_quantify
    {s : Setting} {collection : String} {field : Segment} {relation : Relation} {id : Nat}
    {q : Quantifier} {body : Filter} {c : Compiled}
    (hrelation : s.schema.relation? collection field.name = some relation)
    (hmany : relation.cardinality.leadsToMany = true)
    (h : s.compileTree collection (.quantify id field q body) = .ok c) :
    ∃ link rows p, LinkAt s.schema collection field relation link ∧
      (link.select s.schema do
        planJoins s body
        filterCondition s body).run (Progress.start collection) = (.ok rows, p) ∧
      c.condition = some (.inQuery link.parentKey rows (q == .none)) ∧ c.joins = [] := by
  unfold Setting.compileTree at h
  split at h
  · rename_i condition p hrun
    cases h
    obtain ⟨_, u, hplan, hrun⟩ := Attempt.exists_of_run_bind_ok hrun
    rw [planJoins] at hplan
    obtain ⟨_, v, hlocate, hplan⟩ := Attempt.exists_of_run_bind_ok hplan
    cases hplan
    obtain ⟨rfl, -⟩ := run_locate_toMany hrelation hmany hlocate
    rw [filterCondition, quantifiedCondition] at hrun
    obtain ⟨destination, u, hlocate, hrun⟩ := Attempt.exists_of_run_bind_ok hrun
    obtain ⟨rfl, f, hf, rfl⟩ := run_locate_toMany hrelation hmany hlocate
    obtain ⟨link, u, hlink, hrun⟩ := Attempt.exists_of_run_bind_ok hrun
    rw [Attempt.run_ofExcept, Prod.mk.injEq] at hlink
    obtain ⟨hlink, rfl⟩ := hlink
    obtain ⟨_, u, hcheck, hrun⟩ := Attempt.exists_of_run_bind_ok hrun
    rw [Attempt.run_ofExcept, Prod.mk.injEq] at hcheck
    obtain ⟨-, rfl⟩ := hcheck
    obtain ⟨rows, u, hrows, hrun⟩ := Attempt.exists_of_run_bind_ok hrun
    cases hrun
    have hplan := Compiling.keeps_selectColumn s.schema link.related link.relatedField
      link.discriminator (do planJoins s body; filterCondition s body) (Progress.start collection)
      rfl
    change ((link.select _ _).run _).2.plan = _ at hplan
    rw [hrows] at hplan
    refine ⟨link, rows, p, ⟨f, hf, hlink⟩, hrows, rfl, ?_⟩
    rw [hplan]
    rfl
  · cases h

/-- The rows behind a link are of its collection, and are asked for the field by which they
point back. -/
theorem Link.exists_of_run_select
    {link : Link} {schema : Schema} {step : Compiling (Option Expr)} {p q : Progress}
    {rows : Select}
    (h : (link.select schema step).run p = (.ok rows, q)) :
    ∃ label joins condition, rows = ⟨[.column label link.relatedField],
      some (.table { name := link.related } (some label)), joins, condition⟩ := by
  rw [Link.select, selectColumn] at h
  obtain ⟨_, _, -, h⟩ := Attempt.exists_of_run_bind_ok h
  obtain ⟨label, _, -, h⟩ := Attempt.exists_of_run_bind_ok h
  obtain ⟨⟨condition, joins⟩, _, -, h⟩ := Attempt.exists_of_run_bind_ok h
  cases h
  exact ⟨label, joins, _, rfl⟩

/-- The rows of a query go by a label that none of its joins has. -/
theorem Ground.Emitted.label_not_mem
    {g : Ground} {key : Expr} {label column : String} {source : Option Sql.RowSource}
    {joins : List Join} {condition : Option Expr} {negated : Bool}
    (h : g.Emitted [] (.inQuery key ⟨[.column label column], source, joins, condition⟩ negated)) :
    label ∉ joins.map (fun join => join.source.name) := by
  generalize he : Expr.inQuery key ⟨[.column label column], source, joins, condition⟩ negated = e
    at h
  generalize hnil : ([] : List Source) = labelled at h
  cases h with
  | @asked _ c operand criterion target e htarget hcriterion happly =>
      subst he
      cases criterion <;> cases happly
  | matched => cases he
  | @among _ probe label' joins' condition' hprobe negated hlabel hjoins hcondition =>
      subst hnil
      rw [Inquiry.predicate, Probe.meeting_eq] at he
      cases he
      have hnamed := (hjoins.named (named_nil.concat (probe.source label) hlabel)).nodup
      rw [List.nil_append, List.map_append, List.map_map] at hnamed
      exact (List.nodup_cons.1 hnamed).1
  | group => cases he

/-- What a document with a quantified condition is compiled to.  The link, the filter of the
rows and the rows do not depend on the quantifier. -/
theorem exists_rows_of_compile
    {s : Setting} {collection key : String} {field : Segment} {relation : Relation}
    {q : Quantifier} {inner : Json} {c : Compiled}
    (hkey : FieldPath.ofKey key = .ok [field])
    (hrelation : s.schema.relation? collection field.name = some relation)
    (hmany : relation.cardinality.leadsToMany = true)
    (h : s.compile collection (Filter.quantified key q inner) = .ok c) :
    ∃ members body id link rows p, inner = .obj members ∧
      (Filter.atDepth s.options.maxDepth 2
        (Filter.readMembers s.options.maxDepth 2 [] members)).run 0 = (.ok body, id) ∧
      LinkAt s.schema collection field relation link ∧
      (link.select s.schema do
        planJoins s body
        filterCondition s body).run (Progress.start collection) = (.ok rows, p) ∧
      c.condition = some (.inQuery link.parentKey rows (q == .none)) ∧ c.joins = [] := by
  unfold Setting.compile at h
  obtain ⟨_, -, h⟩ := exists_of_bind_ok h
  obtain ⟨tree, htree, h⟩ := exists_of_bind_ok h
  obtain ⟨members, body, id, hinner, hbody, rfl⟩ := Filter.exists_of_ofJson_quantified hkey htree
  obtain ⟨link, rows, p, hlink, hrows, hcondition⟩ := exists_rows_of_quantify hrelation hmany h
  exact ⟨members, body, id, link, rows, p, hinner, hbody, hlink, hrows, hcondition⟩

/-- **None against some.**  The filters on some and on none of the rows behind a field that
leads to many rows compile to one and the same question, whether the key of a row is among the
keys of related rows, once as it is and once negated.  None of the rows match by the second
exactly if none do by the first, and no related row that matches holds a null key.  So the
filters are opposite where related rows always hold a key. -/
theorem none_selects_iff
    {s : Setting} {collection key : String} {field : Segment} {relation : Relation} {inner : Json}
    {c c' : Compiled}
    (hkey : FieldPath.ofKey key = .ok [field])
    (hrelation : s.schema.relation? collection field.name = some relation)
    (hmany : relation.cardinality.leadsToMany = true)
    (hsome : s.compile collection (Filter.quantified key .some inner) = .ok c)
    (hnone : s.compile collection (Filter.quantified key .none inner) = .ok c') :
    ∃ primary related column rows,
      s.schema.primaryKey collection = .ok primary ∧
      relation.target field.scope = .ok related ∧ relation.relatedField = some column ∧
      c.condition = some (.inQuery (.column collection primary) rows false) ∧ c.joins = [] ∧
      c'.condition = some (.inQuery (.column collection primary) rows true) ∧ c'.joins = [] ∧
      ∀ (g : Engine) (db : Database) (row : String → Value), (row primary).isNull = false →
        (Expr.selects g db c'.condition [(collection, .record row)] = true ↔
          Expr.selects g db c.condition [(collection, .record row)] = false ∧
            ∀ v ∈ rows.values g db [(collection, .record row)], v.isNull = false) ∧
        ((∀ columns ∈ db { name := related }, (columns column).isNull = false) →
          Expr.selects g db c'.condition [(collection, .record row)] =
            !Expr.selects g db c.condition [(collection, .record row)]) := by
  obtain ⟨members, body, id, link, rows, p, rfl, hbody, hlink, hrows, hcondition, hjoins⟩ :=
    exists_rows_of_compile hkey hrelation hmany hsome
  obtain ⟨members', body', id', link', rows', p', hmembers, hbody', hlink', hrows', hcondition',
    hjoins'⟩ := exists_rows_of_compile hkey hrelation hmany hnone
  -- the two compilations ask about the same rows
  cases hmembers
  rw [hbody] at hbody'
  cases hbody'
  cases hlink.unique hlink'
  rw [hrows] at hrows'
  cases hrows'
  obtain ⟨f, -, hlink⟩ := hlink
  have hmade := Link.made_of_ok hlink
  obtain ⟨primary, hprimary, hparent⟩ := hmade.parentKey
  rw [hparent] at hcondition hcondition'
  refine ⟨primary, link.related, link.relatedField, rows, hprimary, hmade.related,
    hmade.relatedField, hcondition, hjoins, hcondition', hjoins', fun g db row hrow => ?_⟩
  have hiff : Expr.selects g db c'.condition [(collection, .record row)] = true ↔
      Expr.selects g db c.condition [(collection, .record row)] = false ∧
        ∀ v ∈ rows.values g db [(collection, .record row)], v.isNull = false := by
    rw [hcondition, hcondition']
    refine Sql.Expr.selects_not_inQuery_iff ?_
    simpa [Expr.eval, Expr.column, Scope.column, Sql.Row.column] using hrow
  refine ⟨hiff, fun hrelated => ?_⟩
  have hvalues : ∀ v ∈ rows.values g db [(collection, .record row)], v.isNull = false := by
    obtain ⟨label, joins, condition, rfl⟩ := Link.exists_of_run_select hrows
    obtain ⟨tree, htree, -, -, hemitted⟩ := emitted_of_compile hsome
    rw [hjoins] at hemitted
    have hlabel := (hemitted _ hcondition).label_not_mem
    intro v hv
    obtain ⟨columns, hcolumns, rfl⟩ := Sql.Select.exists_of_mem_values hlabel hv
    exact hrelated columns hcolumns
  cases hselects : Expr.selects g db c.condition [(collection, .record row)] with
  | false => exact hiff.2 ⟨hselects, hvalues⟩
  | true =>
      rw [Bool.not_true, ← Bool.not_eq_true]
      intro hselects'
      rw [(hiff.1 hselects').1] at hselects
      cases hselects

/-- Orders with their items. -/
def orderBook : Setting where
  schema := {
    collections := [
      ("orders", {
        primary := "id"
        fields := [("items", { type := .virtual, specials := .ofFlags [.oneToMany] })] }),
      ("items", {
        primary := "id"
        fields := [("price", { type := .integer, specials := .ofFlags [] })] })]
    relations := [
      { collection := "orders", field := "items", relatedCollection := some "items",
        relatedField := some "order", collectionField := none, allowed := [],
        cardinality := .oneToMany }] }
  options := {}

/-- A price above ten. -/
def expensive : Json :=
  .obj [("price", .obj [("_gt", .num (.int 10))])]

/-- Where every item belongs to an order, the orders without an expensive item are those
that are not orders with one. -/
theorem none_selects_iff_expensive :
    ∃ c c', orderBook.compile "orders" (Filter.quantified "items" .some expensive) = .ok c ∧
      orderBook.compile "orders" (Filter.quantified "items" .none expensive) = .ok c' ∧
      ∀ (g : Engine) (db : Database) (row : String → Value), (row "id").isNull = false →
        (∀ columns ∈ db { name := "items" }, (columns "order").isNull = false) →
        Expr.selects g db c'.condition [("orders", .record row)] =
          !Expr.selects g db c.condition [("orders", .record row)] := by
  obtain ⟨c, hsome⟩ := exists_of_isOk (show (orderBook.compile "orders"
    (Filter.quantified "items" .some expensive)).isOk = true by decide +kernel)
  obtain ⟨c', hnone⟩ := exists_of_isOk (show (orderBook.compile "orders"
    (Filter.quantified "items" .none expensive)).isOk = true by decide +kernel)
  have hkey : FieldPath.ofKey "items" = .ok [{ name := "items" }] := rfl
  obtain ⟨primary, related, column, rows, hprimary, hrelated, hcolumn, -, -, -, -, hselects⟩ :=
    none_selects_iff hkey rfl rfl hsome hnone
  cases hprimary
  cases hrelated
  cases hcolumn
  exact ⟨c, c', hsome, hnone, fun g db row hrow hitems => (hselects g db row hrow).2 hitems⟩

/-- A shop with one item, which belongs to no order. -/
def looseItem : Database := fun t =>
  if t.name = "items" then [fun column => if column = "id" then .int 1 else .null] else []

/-- An order. -/
def anOrder : String → Value := fun column =>
  if column = "id" then .int 1 else .null

/-- The orders that items belong to. -/
def itemOrders : Select :=
  ⟨[.column "items_1" "order"], some (.table { name := "items" } (some "items_1")), [], none⟩

/-- An item that belongs to no order hides every order, from those with some items as well as
from those with none. -/
theorem null_key_hides_rows :
    (∀ columns ∈ looseItem { name := "items" }, (columns "id").isNull = false) ∧
      (anOrder "id").isNull = false ∧
      ∃ c c', orderBook.compile "orders" (Filter.quantified "items" .some (.obj [])) = .ok c ∧
        orderBook.compile "orders" (Filter.quantified "items" .none (.obj [])) = .ok c' ∧
        ∀ g : Engine,
          Expr.selects g looseItem c.condition [("orders", .record anOrder)] = false ∧
          Expr.selects g looseItem c'.condition [("orders", .record anOrder)] = false := by
  have hcompile (q : Quantifier) :
      orderBook.compile "orders" (Filter.quantified "items" q (.obj [])) =
        .ok ⟨"orders", some (.inQuery (.column "orders" "id") itemOrders (q == .none)), [],
          { count := 1 }⟩ := by
    cases q <;> rfl
  exact ⟨by decide, by decide, _, _, hcompile .some, hcompile .none, fun g => ⟨rfl, rfl⟩⟩

end RowFilter
