import Mathlib.Data.List.Forall2
import RowFilter.Proofs.Dialects
import RowFilter.Proofs.Inquiries

/-!
# Conditions without labels

Two compilations of one filter can differ in the labels that they give out and in the
joins that they plan.  What is left of a condition without both is its skeleton.  Joins
are compared by the names that lead to their rows.

* `Sql.Expr.skeleton`: a condition without labels, and without the joins of its queries.
* `Sql.Join.Leads`: where the joins of a query lead.
* `Sql.Expr.Resembles`: conditions with one skeleton, where each query of the first has
  the joins of the corresponding query of the second.
-/

namespace RowFilter

open Sql (BinaryOp Connective Expr Join RowSource Select)

namespace Sql

/-! ## Skeletons -/

/-- The name of a row source in a skeleton: all labels become one, and only the name
`root` is kept. -/
def plainName (root name : String) : String :=
  if name = root then root else Labels.numbered "" 0

mutual

/-- The expression without labels and without the joins of its queries. -/
def Expr.skeleton (root : String) : Expr → Expr
  | .ident qualifier name => .ident (qualifier.map (plainName root)) name
  | .value v => .value v
  | .raw text => .raw text
  | .binary left op right => .binary (left.skeleton root) op (right.skeleton root)
  | .logical op operands => .logical op (Expr.listSkeleton root operands)
  | .call function args wildcard => .call function (Expr.listSkeleton root args) wildcard
  | .cast expr type => .cast (expr.skeleton root) type
  | .inList expr list negated =>
      .inList (expr.skeleton root) (Expr.listSkeleton root list) negated
  | .between expr low high negated =>
      .between (expr.skeleton root) (low.skeleton root) (high.skeleton root) negated
  | .isNull expr negated => .isNull (expr.skeleton root) negated
  | .existsRow query => .existsRow (query.skeleton root)
  | .inQuery expr query negated =>
      .inQuery (expr.skeleton root) (query.skeleton root) negated
  | .scalar query => .scalar (query.skeleton root)
  | .jsonValue source key => .jsonValue (plainName root source) key
  | .jsonLength expr => .jsonLength (expr.skeleton root)
  | .datePart part expr => .datePart part (expr.skeleton root)

/-- The skeletons of expressions. -/
def Expr.listSkeleton (root : String) : List Expr → List Expr
  | [] => []
  | e :: rest => e.skeleton root :: Expr.listSkeleton root rest

/-- The skeleton of a condition, if there is one. -/
def Expr.optionSkeleton (root : String) : Option Expr → Option Expr
  | none => none
  | some e => some (e.skeleton root)

/-- The skeleton of a selection. -/
def Select.skeleton (root : String) : Select → Select
  | ⟨columns, source, _, condition⟩ =>
      ⟨Expr.listSkeleton root columns, RowSource.optionSkeleton root source, [],
        Expr.optionSkeleton root condition⟩

/-- The skeleton of a row source. -/
def RowSource.skeleton (root : String) : RowSource → RowSource
  | .table table label => .table table (label.map (plainName root))
  | .jsonRows document path label =>
      .jsonRows (document.skeleton root) path (label.map (plainName root))

/-- The skeleton of a row source, if there is one. -/
def RowSource.optionSkeleton (root : String) : Option RowSource → Option RowSource
  | none => none
  | some source => some (source.skeleton root)

end

/-! ## The queries of a condition -/

mutual

/-- The selections inside an expression from left to right, each before those inside
it. -/
def Expr.queries : Expr → List Select
  | .ident _ _ => []
  | .value _ => []
  | .raw _ => []
  | .binary left _ right => left.queries ++ right.queries
  | .logical _ operands => Expr.listQueries operands
  | .call _ args _ => Expr.listQueries args
  | .cast expr _ => expr.queries
  | .inList expr list _ => expr.queries ++ Expr.listQueries list
  | .between expr low high _ => expr.queries ++ (low.queries ++ high.queries)
  | .isNull expr _ => expr.queries
  | .existsRow query => query.queries
  | .inQuery expr query _ => expr.queries ++ query.queries
  | .scalar query => query.queries
  | .jsonValue _ _ => []
  | .jsonLength expr => expr.queries
  | .datePart _ expr => expr.queries

/-- The selections inside expressions. -/
def Expr.listQueries : List Expr → List Select
  | [] => []
  | e :: rest => e.queries ++ Expr.listQueries rest

/-- The selections inside a condition, if there is one. -/
def Expr.optionQueries : Option Expr → List Select
  | none => []
  | some e => e.queries

/-- The selection and those inside it; joins hold none. -/
def Select.queries : Select → List Select
  | ⟨columns, source, joins, condition⟩ =>
      ⟨columns, source, joins, condition⟩ :: (Expr.listQueries columns ++
        (RowSource.optionQueries source ++ Expr.optionQueries condition))

/-- The selections inside a row source, if there is one. -/
def RowSource.optionQueries : Option RowSource → List Select
  | none => []
  | some (.table _ _) => []
  | some (.jsonRows document _ _) => document.queries

end

-- The equations are made here, once for all the proofs below.
attribute [local simp] Expr.skeleton Expr.queries

/-! ## Where joins lead -/

/-- The joins lead from the row source `source`, over relations to one row with these
names, to the row source behind the last of them. -/
inductive Join.Leads (joins : List Join) (source : String) : List String → String → Prop
  | start : Leads joins source [] source
  | cross {names : List String} {parent related label primary field : String}
      (h : Leads joins source names parent)
      (hjoin : JoinPlan.joinOf related label primary parent field ∈ joins) :
      Leads joins source (names ++ [field]) label

/-- The names are joined one behind the other, from a row source on. -/
def Join.Joined (joins : List Join) (source : String) (names : List String) : Prop :=
  ∃ label, Join.Leads joins source names label

/-- Without joins nothing is joined. -/
theorem Join.joined_nil
    {source : String} {names : List String} :
    Join.Joined [] source names ↔ names = [] := by
  constructor
  · rintro ⟨label, hleads⟩
    cases hleads with
    | start => rfl
    | cross _ hjoin => cases hjoin
  · rintro rfl
    exact ⟨source, .start⟩

/-- What the rows of a selection go by. -/
def Select.label? (q : Select) : Option String :=
  match q.source with
  | some (.table _ label) => label
  | some (.jsonRows _ _ label) => label
  | none => none

/-- All names that are joined in the second selection are joined in the first one. -/
def Select.Covers (q q' : Select) : Prop :=
  ∀ label' ∈ q'.label?, ∃ label ∈ q.label?, ∀ names,
    Join.Joined q'.joins label' names → Join.Joined q.joins label names

theorem Select.covers_refl
    (q : Select) :
    q.Covers q :=
  fun label hlabel => ⟨label, hlabel, fun _ h => h⟩

/-! ## Conditions that resemble each other -/

/-- The conditions have the same skeleton and bind the same, and each query inside the
first one covers its counterpart in the second. -/
structure Expr.Resembles (root : String) (e e' : Expr) : Prop where
  skeleton : e.skeleton root = e'.skeleton root
  queries : List.Forall₂ Select.Covers e.queries e'.queries
  items : ∀ d, e.items d false = e'.items d false

/-- The same for conditions that need not be there. -/
abbrev Expr.ResemblesIfAny (root : String) : Option Expr → Option Expr → Prop :=
  Option.Rel (Expr.Resembles root)

/-- The same for selections. -/
structure Select.Resembles (root : String) (q q' : Select) : Prop where
  skeleton : q.skeleton root = q'.skeleton root
  queries : List.Forall₂ Select.Covers q.queries q'.queries
  items : ∀ d, q.items d false = q'.items d false

namespace Expr

variable {root : String}

theorem resembles_refl
    (e : Expr) :
    e.Resembles root e :=
  ⟨rfl, List.forall₂_same.2 fun q _ => q.covers_refl, fun _ => rfl⟩

theorem resembles_column
    {qualifier qualifier' : String}
    (h : plainName root qualifier = plainName root qualifier') (name : String) :
    (column qualifier name).Resembles root (column qualifier' name) where
  skeleton := by simp [column, skeleton, h]
  queries := .nil
  items _ := rfl

theorem resembles_jsonValue
    {source source' : String}
    (h : plainName root source = plainName root source') (key : Option String) :
    (jsonValue source key).Resembles root (jsonValue source' key) where
  skeleton := by simp [skeleton, h]
  queries := .nil
  items d := by cases key <;> rfl

section Lists

variable {es fs : List Expr}

theorem listSkeleton_eq
    (h : List.Forall₂ (Resembles root) es fs) :
    listSkeleton root es = listSkeleton root fs := by
  induction h with
  | nil => rfl
  | cons hfirst _ ih => rw [listSkeleton, listSkeleton, hfirst.skeleton, ih]

theorem covers_listQueries
    (h : List.Forall₂ (Resembles root) es fs) :
    List.Forall₂ Select.Covers (listQueries es) (listQueries fs) := by
  induction h with
  | nil => exact .nil
  | cons hfirst _ ih =>
      rw [listQueries, listQueries]
      exact List.rel_append hfirst.queries ih

theorem listItems_eq_of_resembles
    (h : List.Forall₂ (Resembles root) es fs) (d : Dialect) :
    listItems d false es = listItems d false fs := by
  induction h with
  | nil => rfl
  | cons hfirst _ ih => rw [listItems, listItems, hfirst.items d, ih]

theorem resembles_logical
    (h : List.Forall₂ (Resembles root) es fs) (op : Connective) :
    (logical op es).Resembles root (logical op fs) where
  skeleton := by rw [skeleton, skeleton, listSkeleton_eq h]
  queries := by
    rw [queries, queries]
    exact covers_listQueries h
  items d := by rw [items, items, listItems_eq_of_resembles h d]

theorem resembles_group?
    (h : List.Forall₂ (Resembles root) es fs) (op : Connective) :
    ResemblesIfAny root (group? op es) (group? op fs) := by
  cases h with
  | nil => exact .none
  | cons hfirst hrest =>
      cases hrest with
      | nil => exact .some hfirst
      | cons hsecond hrest =>
          exact .some (resembles_logical (.cons hfirst (.cons hsecond hrest)) op)

end Lists

section Options

variable {condition condition' : Option Expr}

theorem optionSkeleton_eq
    (h : ResemblesIfAny root condition condition') :
    optionSkeleton root condition = optionSkeleton root condition' := by
  cases h with
  | none => rfl
  | some h => rw [optionSkeleton, optionSkeleton, h.skeleton]

theorem covers_optionQueries
    (h : ResemblesIfAny root condition condition') :
    List.Forall₂ Select.Covers (optionQueries condition) (optionQueries condition') := by
  cases h with
  | none => exact .nil
  | some h => exact h.queries

theorem optionItems_eq_of_resembles
    (h : ResemblesIfAny root condition condition') (d : Dialect) :
    optionItems d false condition = optionItems d false condition' := by
  cases h with
  | none => rfl
  | some h => exact h.items d

theorem resembles_toList
    (h : ResemblesIfAny root condition condition') :
    List.Forall₂ (Resembles root) condition.toList condition'.toList := by
  cases h with
  | none => exact .nil
  | some h => exact .cons h .nil

end Options

variable {e e' : Expr}

theorem Resembles.binary
    (h : e.Resembles root e') (op : BinaryOp) {f f' : Expr} (hright : f.Resembles root f') :
    (Expr.binary e op f).Resembles root (.binary e' op f') where
  skeleton := by rw [Expr.skeleton, Expr.skeleton, h.skeleton, hright.skeleton]
  queries := by
    rw [Expr.queries, Expr.queries]
    exact List.rel_append h.queries hright.queries
  items d := by rw [Expr.items, Expr.items, h.items d, hright.items d]

/-- A form with one operand keeps what its operands have in common. -/
theorem Resembles.wrapped
    (h : e.Resembles root e') (wrap : Expr → Expr)
    (hskeleton : ∀ f, (wrap f).skeleton root = wrap (f.skeleton root))
    (hqueries : ∀ f, (wrap f).queries = f.queries)
    (hitems : ∀ d f, (wrap f).items d false = f.items d false) :
    (wrap e).Resembles root (wrap e') where
  skeleton := by rw [hskeleton, hskeleton, h.skeleton]
  queries := by
    rw [hqueries, hqueries]
    exact h.queries
  items d := by rw [hitems, hitems, h.items d]

theorem Resembles.cast
    (h : e.Resembles root e') (type : CastType) :
    (Expr.cast e type).Resembles root (.cast e' type) :=
  h.wrapped (.cast · type) (fun _ => rfl) (fun _ => rfl) fun _ _ => rfl

theorem resembles_scalar
    {q q' : Select}
    (h : q.Resembles root q') :
    (scalar q).Resembles root (scalar q') where
  skeleton := congrArg scalar h.skeleton
  queries := h.queries
  items := h.items

theorem Resembles.inQuery
    {q q' : Select}
    (h : e.Resembles root e') (hquery : q.Resembles root q') (negated : Bool) :
    (Expr.inQuery e q negated).Resembles root (.inQuery e' q' negated) where
  skeleton := by rw [Expr.skeleton, Expr.skeleton, h.skeleton, hquery.skeleton]
  queries := by
    rw [Expr.queries, Expr.queries]
    exact List.rel_append h.queries hquery.queries
  items d := by rw [Expr.items, Expr.items, h.items d, hquery.items d]

theorem Resembles.lowered
    (h : e.Resembles root e') (caseless : Bool) :
    (if caseless then Expr.call "LOWER" [e] false else e).Resembles root
      (if caseless then .call "LOWER" [e'] false else e') := by
  cases caseless with
  | false => exact h
  | true =>
      have hlist : List.Forall₂ (Resembles root) [e] [e'] := .cons h .nil
      refine ⟨?_, ?_, fun d => ?_⟩
      · simp only [if_true, Expr.skeleton, listSkeleton_eq hlist]
      · simp only [if_true, Expr.queries]
        exact covers_listQueries hlist
      · simp only [if_true, Expr.items, listItems_eq_of_resembles hlist d]

end Expr

end Sql

/-- A criterion puts resembling conditions on resembling expressions. -/
theorem Criterion.resembles_apply
    {root : String} {e e' : Expr}
    (c : Criterion) (h : e.Resembles root e') :
    Expr.ResemblesIfAny root (c.apply e) (c.apply e') := by
  cases c with
  | compare op v => exact .some (h.binary op (Expr.resembles_refl _))
  | like pattern negated caseless =>
      exact .some ((h.lowered caseless).binary _ (Expr.resembles_refl _))
  | inList vs negated =>
      refine .some ⟨?_, ?_, fun d => ?_⟩
      · rw [Expr.skeleton, Expr.skeleton, h.skeleton]
      · rw [Expr.queries, Expr.queries]
        exact List.rel_append h.queries (List.forall₂_same.2 fun q _ => q.covers_refl)
      · rw [Expr.items, Expr.items, h.items d]
  | between low high negated =>
      refine .some ⟨?_, ?_, fun d => ?_⟩
      · simp only [Expr.skeleton, h.skeleton]
      · rw [Expr.queries, Expr.queries]
        exact List.rel_append h.queries .nil
      · simp only [Expr.items, h.items d]
  | isNull negated =>
      exact .some (h.wrapped (.isNull · negated) (fun _ => rfl) (fun _ => rfl)
        fun _ _ => rfl)
  | never => exact .some (Expr.resembles_refl _)
  | always => exact .none

/-- A place is compared alike in row sources that have one name in skeletons. -/
theorem Place.resembles_compared
    {root qualifier qualifier' : String}
    (h : Sql.plainName root qualifier = Sql.plainName root qualifier') (place : Place) :
    ({ place with qualifier := qualifier }.compared).Resembles root
      { place with qualifier := qualifier' }.compared := by
  have hcolumn := Expr.resembles_column h place.segment.name
  obtain ⟨_, _, segment, _⟩ := place
  unfold Place.compared
  cases hfunction : segment.function with
  | none =>
      simpa only [hfunction, Place.column] using hcolumn
  | some function =>
      cases function with
      | count =>
          have hlength := hcolumn.wrapped .jsonLength (fun _ => rfl) (fun _ => rfl)
            fun _ _ => rfl
          simpa only [hfunction, Place.column] using hlength
      | extract part =>
          have hpart := hcolumn.wrapped (.datePart part) (fun _ => rfl) (fun _ => rfl)
            fun _ _ => rfl
          simpa only [hfunction, Place.column] using hpart

section Labels

variable {root label label' : String}

theorem DocumentTest.resembles_condition?
    (h : Sql.plainName root label = Sql.plainName root label') (key : Option String)
    (c : Criterion) :
    Expr.ResemblesIfAny root (condition? label key c) (condition? label' key c) :=
  c.casted.resembles_apply ((Expr.resembles_jsonValue h key).cast c.castType)

/-- The tests of a shared element. -/
theorem DocumentTest.resembles_conditions
    (h : Sql.plainName root label = Sql.plainName root label')
    (asked : List (String × Criterion)) :
    List.Forall₂ (Expr.Resembles root)
      (asked.filterMap fun (key, c) => condition? label (some key) c)
      (asked.filterMap fun (key, c) => condition? label' (some key) c) := by
  induction asked with
  | nil => exact .nil
  | cons x rest ih =>
      obtain ⟨key, c⟩ := x
      have hfirst := resembles_condition? h (some key) c
      simp only [List.filterMap_cons]
      generalize condition? label (some key) c = e at hfirst ⊢
      generalize condition? label' (some key) c = e' at hfirst ⊢
      cases hfirst with
      | none => exact ih
      | some hfirst => exact .cons hfirst ih

theorem DocumentTest.resembles_existsMatch
    {document document' condition condition' : Expr}
    (hlabel : Sql.plainName root label = Sql.plainName root label')
    (hdocument : document.Resembles root document')
    (hcondition : condition.Resembles root condition') (path : Sql.PathArg) :
    (existsMatch document path label condition).Resembles root
      (existsMatch document' path label' condition') := by
  have hcovers : Select.Covers
      ⟨[.raw "1"], some (.jsonRows document path (some label)), [], some condition⟩
      ⟨[.raw "1"], some (.jsonRows document' path (some label')), [], some condition'⟩ := by
    rintro _ ⟨⟩
    exact ⟨label, rfl, fun names => by simp only [Join.joined_nil, imp_self]⟩
  constructor
  · simp [existsMatch, Select.of, Select.filter, Expr.skeleton, Select.skeleton,
      Expr.listSkeleton, RowSource.optionSkeleton, RowSource.skeleton, Expr.optionSkeleton, hlabel,
      hdocument.skeleton, hcondition.skeleton]
  · exact .cons hcovers (List.rel_append .nil
      (List.rel_append hdocument.queries hcondition.queries))
  · intro d
    simp [existsMatch, Select.of, Select.filter, Expr.items, Select.items, Expr.listItems,
      RowSource.optionItems, RowSource.items, Join.listItems, Expr.optionItems,
      hdocument.items d, hcondition.items d]

theorem DocumentTest.resembles_map_existsMatch
    {document document' : Expr} {condition condition' : Option Expr}
    (hlabel : Sql.plainName root label = Sql.plainName root label')
    (hdocument : document.Resembles root document')
    (hcondition : Expr.ResemblesIfAny root condition condition') (path : Sql.PathArg) :
    Expr.ResemblesIfAny root (condition.map (existsMatch document path label))
      (condition'.map (existsMatch document' path label')) := by
  cases hcondition with
  | none => exact .none
  | some h => exact .some (resembles_existsMatch hlabel hdocument h path)

theorem Link.resembles_discriminators
    (h : Sql.plainName root label = Sql.plainName root label')
    (discriminator : Option (String × String)) :
    List.Forall₂ (Expr.Resembles root) (discriminator.map (Link.discriminates label)).toList
      (discriminator.map (Link.discriminates label')).toList := by
  cases discriminator with
  | none => exact .nil
  | some d => exact .cons ((Expr.resembles_column h d.1).binary .eq (Expr.resembles_refl _)) .nil

/-- Selections from one table resemble each other, if their parts do and the first has the
joins of the second. -/
theorem Sql.Select.resembles_table
    {columns columns' : List Expr} {joins joins' : List Join} {condition condition' : Option Expr}
    (hlabel : Sql.plainName root label = Sql.plainName root label') (table : Sql.Table)
    (hcolumns : List.Forall₂ (Expr.Resembles root) columns columns')
    (hcovers : ∀ names, Join.Joined joins' label' names → Join.Joined joins label names)
    (hjoins : ∀ join ∈ joins, join.IsPlanned) (hjoins' : ∀ join ∈ joins', join.IsPlanned)
    (hcondition : Expr.ResemblesIfAny root condition condition') :
    Select.Resembles root ⟨columns, some (.table table (some label)), joins, condition⟩
      ⟨columns', some (.table table (some label')), joins', condition'⟩ := by
  have hfirst : Select.Covers ⟨columns, some (.table table (some label)), joins, condition⟩
      ⟨columns', some (.table table (some label')), joins', condition'⟩ := by
    rintro _ ⟨⟩
    exact ⟨label, rfl, hcovers⟩
  constructor
  · simp only [Select.skeleton, Expr.listSkeleton_eq hcolumns, RowSource.optionSkeleton,
      RowSource.skeleton, Option.map_some, hlabel, Expr.optionSkeleton_eq hcondition]
  · exact .cons hfirst (List.rel_append (Expr.covers_listQueries hcolumns)
      (List.rel_append .nil (Expr.covers_optionQueries hcondition)))
  · intro d
    simp only [Select.items, Expr.listItems_eq_of_resembles hcolumns d, RowSource.optionItems,
      RowSource.items, Sql.Join.listItems_of_isPlanned d hjoins,
      Sql.Join.listItems_of_isPlanned d hjoins', Expr.optionItems_eq_of_resembles hcondition d]

/-- Links that are the same but for the row source of the key to which they point. -/
structure Link.Resembles (root : String) (link link' : Link) : Prop where
  parentKey : link.parentKey.Resembles root link'.parentKey
  others : link' = { link with parentKey := link'.parentKey }

theorem Link.countRows_eq
    (link : Link) (label : String) :
    link.countRows label =
      .scalar ⟨[.call "COUNT" [] true], some (.table { name := link.related } (some label)), [],
        Expr.group? .and (.binary (.column label link.relatedField) .eq link.parentKey ::
          (link.discriminator.map (Link.discriminates label)).toList)⟩ := by
  unfold Link.countRows
  cases link.discriminator <;> rfl

theorem Link.resembles_countRows
    {link link' : Link}
    (hlink : link.Resembles root link') (h : Sql.plainName root label = Sql.plainName root label') :
    (link.countRows label).Resembles root (link'.countRows label') := by
  obtain ⟨hkey, hothers⟩ := hlink
  rw [hothers, Link.countRows_eq, Link.countRows_eq]
  have hback := (Expr.resembles_column h link.relatedField).binary .eq hkey
  refine Expr.resembles_scalar (Select.resembles_table h _
    (.cons (Expr.resembles_refl _) .nil) ?_ (by simp) (by simp)
    (Expr.resembles_group? (.cons hback (Link.resembles_discriminators h _)) .and))
  simp only [Join.joined_nil, imp_self, implies_true]

/-- Probes that are the same but for the row source of the key that is looked up. -/
structure Probe.Resembles (root : String) (probe probe' : Probe) : Prop where
  key : probe.key.Resembles root probe'.key
  others : probe' = { probe with key := probe'.key }

theorem Link.Resembles.probe
    {link link' : Link}
    (h : link.Resembles root link') :
    link.probe.Resembles root link'.probe := by
  obtain ⟨hkey, hothers⟩ := h
  rw [hothers]
  exact ⟨hkey, rfl⟩

/-- Resembling keys are looked up among resembling rows. -/
theorem Probe.resembles_predicate
    {probe probe' : Probe} {joins joins' : List Join} {condition condition' : Option Expr}
    (hprobe : probe.Resembles root probe')
    (hlabel : Sql.plainName root label = Sql.plainName root label')
    (hcovers : ∀ names, Join.Joined joins' label' names → Join.Joined joins label names)
    (hjoins : ∀ join ∈ joins, join.IsPlanned) (hjoins' : ∀ join ∈ joins', join.IsPlanned)
    (hcondition : Expr.ResemblesIfAny root condition condition') (negated : Bool) :
    ((probe.inquiry label joins).predicate probe.key negated condition).Resembles root
      ((probe'.inquiry label' joins').predicate probe'.key negated condition') := by
  obtain ⟨hkey, hothers⟩ := hprobe
  refine hkey.inQuery ?_ negated
  rw [hothers, Probe.meeting_eq, Probe.meeting_eq]
  exact Select.resembles_table hlabel _ (.cons (Expr.resembles_column hlabel _) .nil) hcovers
    hjoins hjoins' (Expr.resembles_group? (List.rel_append
      (Expr.resembles_toList hcondition) (Link.resembles_discriminators hlabel _)) .and)

end Labels

end RowFilter
