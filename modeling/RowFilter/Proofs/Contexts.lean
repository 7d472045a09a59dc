import RowFilter.Compilation.Basic

/-!
# Points of a statement

What can be referred to differs from point to point of a statement.  A query sees
the row sources of the queries around it and its own; the condition of a join sees
the joins before it and its own row source, but not those behind it.

* `Context`: the row sources in sight, and the JSON rows that are asked about.
* `Expr.Everywhere`, `Select.Everywhere`: a property holds at every point, each in
  its own context.  Where the property can be decided, so can this.
-/

namespace RowFilter
namespace Sql

/-- A row source that names can refer to. -/
structure Source where
  /-- What it goes by. -/
  name : String
  /-- The collection that its rows are of; none for the rows of a JSON document. -/
  collection : Option String

/-- What can be referred to at a point of a statement. -/
structure Context where
  /-- The row sources in sight, those of the outermost query first. -/
  sources : List Source
  /-- The label of the JSON rows of which the closest question asks for one, and the
  document that they come from. -/
  rows : Option (String × Expr)

/-- The names in sight. -/
def Context.names (ctx : Context) : List String :=
  ctx.sources.map Source.name

/-- What names can refer to if a selection starts from a row source: a table by its
label, or else by its own name, and JSON rows by their label only. -/
def RowSource.sources? : Option RowSource → List Source
  | none => []
  | some (.table t label) => [⟨label.getD t.name, some t.name⟩]
  | some (.jsonRows _ _ label) => label.toList.map (⟨·, none⟩)

/-- The row source of a join. -/
def Join.source (j : Join) : Source :=
  ⟨j.label.getD j.table.name, some j.table.name⟩

/-- The JSON rows that a selection is made from, with their document. -/
def Select.rows? (q : Select) : Option (String × Expr) :=
  match q.source with
  | some (.jsonRows document _ (some label)) => some (label, document)
  | _ => none

mutual

/-- A property holds at every point of an expression. -/
def Expr.Everywhere (P : Context → Expr → Prop) (ctx : Context) : Expr → Prop
  | .ident qualifier name => P ctx (.ident qualifier name)
  | .value v => P ctx (.value v)
  | .raw text => P ctx (.raw text)
  | .binary left op right =>
      P ctx (.binary left op right) ∧ left.Everywhere P ctx ∧ right.Everywhere P ctx
  | .logical op operands => P ctx (.logical op operands) ∧ Expr.AllEverywhere P ctx operands
  | .call function args wildcard =>
      P ctx (.call function args wildcard) ∧ Expr.AllEverywhere P ctx args
  | .cast expr type => P ctx (.cast expr type) ∧ expr.Everywhere P ctx
  | .inList expr list negated =>
      P ctx (.inList expr list negated) ∧ expr.Everywhere P ctx ∧ Expr.AllEverywhere P ctx list
  | .between expr low high negated =>
      P ctx (.between expr low high negated) ∧ expr.Everywhere P ctx ∧ low.Everywhere P ctx ∧
        high.Everywhere P ctx
  | .isNull expr negated => P ctx (.isNull expr negated) ∧ expr.Everywhere P ctx
  | .existsRow query =>
      P ctx (.existsRow query) ∧ query.Everywhere P ctx.sources query.rows?
  | .inQuery expr query negated =>
      P ctx (.inQuery expr query negated) ∧ expr.Everywhere P ctx ∧
        query.Everywhere P ctx.sources none
  | .scalar query => P ctx (.scalar query) ∧ query.Everywhere P ctx.sources none
  | .jsonValue source key => P ctx (.jsonValue source key)
  | .jsonLength expr => P ctx (.jsonLength expr) ∧ expr.Everywhere P ctx
  | .datePart part expr => P ctx (.datePart part expr) ∧ expr.Everywhere P ctx

/-- A property holds at every point of expressions. -/
def Expr.AllEverywhere (P : Context → Expr → Prop) (ctx : Context) : List Expr → Prop
  | [] => True
  | e :: rest => e.Everywhere P ctx ∧ Expr.AllEverywhere P ctx rest

/-- A property holds at every point of an expression, if there is one. -/
def Expr.EverywhereIfAny (P : Context → Expr → Prop) (ctx : Context) : Option Expr → Prop
  | none => True
  | some e => e.Everywhere P ctx

/-- A property holds at every point of a selection inside queries with the row
sources `outer`. -/
def Select.Everywhere (P : Context → Expr → Prop) (outer : List Source)
    (rows : Option (String × Expr)) : Select → Prop
  | ⟨columns, source, joins, condition⟩ =>
      RowSource.EverywhereIfAny P outer source ∧
        Join.AllEverywhere P (outer ++ RowSource.sources? source) joins ∧
        Expr.AllEverywhere P
          ⟨outer ++ RowSource.sources? source ++ joins.map Join.source, rows⟩ columns ∧
        Expr.EverywhereIfAny P
          ⟨outer ++ RowSource.sources? source ++ joins.map Join.source, rows⟩ condition

/-- A property holds at every point of a row source. -/
def RowSource.Everywhere (P : Context → Expr → Prop) (outer : List Source) : RowSource → Prop
  | .table _ _ => True
  | .jsonRows document _ _ => document.Everywhere P ⟨outer, none⟩

/-- A property holds at every point of a row source, if there is one. -/
def RowSource.EverywhereIfAny (P : Context → Expr → Prop) (outer : List Source) :
    Option RowSource → Prop
  | none => True
  | some source => source.Everywhere P outer

/-- A property holds at every point of joins behind the row sources `before`. -/
def Join.AllEverywhere (P : Context → Expr → Prop) (before : List Source) : List Join → Prop
  | [] => True
  | ⟨table, label, condition⟩ :: rest =>
      condition.Everywhere P ⟨before ++ [Join.source ⟨table, label, condition⟩], none⟩ ∧
        Join.AllEverywhere P (before ++ [Join.source ⟨table, label, condition⟩]) rest

end

/-! ## What holds at the points of compounds -/

section Everywhere

variable {P : Context → Expr → Prop} {ctx : Context}

theorem Expr.allEverywhere_iff
    {es : List Expr} :
    Expr.AllEverywhere P ctx es ↔ ∀ e ∈ es, e.Everywhere P ctx := by
  induction es with
  | nil => simp [Expr.AllEverywhere]
  | cons e rest ih => simp [Expr.AllEverywhere, ih]

theorem Expr.everywhereIfAny_iff
    {condition : Option Expr} :
    Expr.EverywhereIfAny P ctx condition ↔ ∀ e ∈ condition, e.Everywhere P ctx := by
  cases condition with
  | none => simp [Expr.EverywhereIfAny]
  | some e => simp [Expr.EverywhereIfAny]

/-- A property of groups and of the points of all operands holds at every point of the
group. -/
theorem Expr.everywhereIfAny_group?
    {op : Connective} {operands : List Expr}
    (hgroup : P ctx (.logical op operands)) (h : ∀ e ∈ operands, e.Everywhere P ctx) :
    Expr.EverywhereIfAny P ctx (Expr.group? op operands) := by
  match operands, hgroup, h with
  | [], _, _ => trivial
  | [_], _, h => exact h _ List.mem_cons_self
  | _ :: _ :: _, hgroup, h => exact ⟨hgroup, Expr.allEverywhere_iff.2 h⟩

theorem Join.allEverywhere_cons
    {before : List Source} {join : Join} {rest : List Join} :
    Join.AllEverywhere P before (join :: rest) ↔
      join.condition.Everywhere P ⟨before ++ [join.source], none⟩ ∧
        Join.AllEverywhere P (before ++ [join.source]) rest := by
  cases join
  rw [Join.AllEverywhere]

/-- The points of a selection, with the row sources in sight of its columns and its
condition. -/
theorem Select.everywhere_of
    {outer sources : List Source} {rows : Option (String × Expr)} {q : Select}
    (hsources : outer ++ RowSource.sources? q.source ++ q.joins.map Join.source = sources)
    (hsource : RowSource.EverywhereIfAny P outer q.source)
    (hjoins : Join.AllEverywhere P (outer ++ RowSource.sources? q.source) q.joins)
    (hcolumns : Expr.AllEverywhere P ⟨sources, rows⟩ q.columns)
    (hcondition : Expr.EverywhereIfAny P ⟨sources, rows⟩ q.condition) :
    q.Everywhere P outer rows := by
  cases q
  subst hsources
  exact ⟨hsource, hjoins, hcolumns, hcondition⟩

/-- Where a criterion is put on an expression, only the expression itself, the condition
and the values are points. -/
theorem Expr.everywhere_apply
    {criterion : Criterion} {target e : Expr}
    (he : criterion.apply target = some e) (htarget : target.Everywhere P ctx)
    (hcondition : P ctx e) (hlower : P ctx (.call "LOWER" [target] false))
    (hvalue : ∀ v, P ctx (.value v)) :
    e.Everywhere P ctx := by
  cases criterion with
  | compare op v =>
      cases he
      exact ⟨hcondition, htarget, hvalue v⟩
  | like pattern negated caseless =>
      cases he
      refine ⟨hcondition, ?_, hvalue pattern⟩
      cases caseless with
      | true => exact ⟨hlower, htarget, trivial⟩
      | false => exact htarget
  | inList values negated =>
      cases he
      refine ⟨hcondition, htarget, Expr.allEverywhere_iff.2 fun e he => ?_⟩
      obtain ⟨v, -, rfl⟩ := List.mem_map.1 he
      exact hvalue v
  | between low high negated =>
      cases he
      exact ⟨hcondition, htarget, hvalue low, hvalue high⟩
  | isNull negated =>
      cases he
      exact ⟨hcondition, htarget⟩
  | never =>
      cases he
      exact hcondition
  | always => cases he

end Everywhere

/-! ## Deciding what holds at every point -/

section Decidable

variable (P : Context → Expr → Prop) [∀ ctx e, Decidable (P ctx e)]

mutual

/-- Whether a property that can be decided holds at every point of an expression. -/
def Expr.decidableEverywhere (ctx : Context) : (e : Expr) → Decidable (e.Everywhere P ctx)
  | .ident qualifier name => inferInstanceAs (Decidable (P ctx (.ident qualifier name)))
  | .value v => inferInstanceAs (Decidable (P ctx (.value v)))
  | .raw text => inferInstanceAs (Decidable (P ctx (.raw text)))
  | .binary left _ right =>
      have := left.decidableEverywhere ctx
      have := right.decidableEverywhere ctx
      inferInstanceAs (Decidable (_ ∧ _ ∧ _))
  | .logical _ operands =>
      have := Expr.decidableAllEverywhere ctx operands
      inferInstanceAs (Decidable (_ ∧ _))
  | .call _ args _ =>
      have := Expr.decidableAllEverywhere ctx args
      inferInstanceAs (Decidable (_ ∧ _))
  | .cast expr _ =>
      have := expr.decidableEverywhere ctx
      inferInstanceAs (Decidable (_ ∧ _))
  | .inList expr list _ =>
      have := expr.decidableEverywhere ctx
      have := Expr.decidableAllEverywhere ctx list
      inferInstanceAs (Decidable (_ ∧ _ ∧ _))
  | .between expr low high _ =>
      have := expr.decidableEverywhere ctx
      have := low.decidableEverywhere ctx
      have := high.decidableEverywhere ctx
      inferInstanceAs (Decidable (_ ∧ _ ∧ _ ∧ _))
  | .isNull expr _ =>
      have := expr.decidableEverywhere ctx
      inferInstanceAs (Decidable (_ ∧ _))
  | .existsRow query =>
      have := query.decidableEverywhere ctx.sources query.rows?
      inferInstanceAs (Decidable (_ ∧ _))
  | .inQuery expr query _ =>
      have := expr.decidableEverywhere ctx
      have := query.decidableEverywhere ctx.sources none
      inferInstanceAs (Decidable (_ ∧ _ ∧ _))
  | .scalar query =>
      have := query.decidableEverywhere ctx.sources none
      inferInstanceAs (Decidable (_ ∧ _))
  | .jsonValue source key => inferInstanceAs (Decidable (P ctx (.jsonValue source key)))
  | .jsonLength expr =>
      have := expr.decidableEverywhere ctx
      inferInstanceAs (Decidable (_ ∧ _))
  | .datePart _ expr =>
      have := expr.decidableEverywhere ctx
      inferInstanceAs (Decidable (_ ∧ _))

/-- Whether it holds at every point of expressions. -/
def Expr.decidableAllEverywhere (ctx : Context) :
    (es : List Expr) → Decidable (Expr.AllEverywhere P ctx es)
  | [] => .isTrue trivial
  | e :: rest =>
      have := e.decidableEverywhere ctx
      have := Expr.decidableAllEverywhere ctx rest
      inferInstanceAs (Decidable (_ ∧ _))

/-- Whether it holds at every point of an expression, if there is one. -/
def Expr.decidableEverywhereIfAny (ctx : Context) :
    (condition : Option Expr) → Decidable (Expr.EverywhereIfAny P ctx condition)
  | none => .isTrue trivial
  | some e => e.decidableEverywhere ctx

/-- Whether it holds at every point of a selection. -/
def Select.decidableEverywhere (outer : List Source) (rows : Option (String × Expr)) :
    (q : Select) → Decidable (q.Everywhere P outer rows)
  | ⟨columns, source, joins, condition⟩ =>
      have := RowSource.decidableEverywhereIfAny outer source
      have := Join.decidableAllEverywhere (outer ++ RowSource.sources? source) joins
      have := Expr.decidableAllEverywhere
        ⟨outer ++ RowSource.sources? source ++ joins.map Join.source, rows⟩ columns
      have := Expr.decidableEverywhereIfAny
        ⟨outer ++ RowSource.sources? source ++ joins.map Join.source, rows⟩ condition
      inferInstanceAs (Decidable (_ ∧ _ ∧ _ ∧ _))

/-- Whether it holds at every point of a row source. -/
def RowSource.decidableEverywhere (outer : List Source) :
    (source : RowSource) → Decidable (source.Everywhere P outer)
  | .table _ _ => .isTrue trivial
  | .jsonRows document _ _ => document.decidableEverywhere ⟨outer, none⟩

/-- Whether it holds at every point of a row source, if there is one. -/
def RowSource.decidableEverywhereIfAny (outer : List Source) :
    (source : Option RowSource) → Decidable (RowSource.EverywhereIfAny P outer source)
  | none => .isTrue trivial
  | some source => source.decidableEverywhere outer

/-- Whether it holds at every point of joins. -/
def Join.decidableAllEverywhere (before : List Source) :
    (joins : List Join) → Decidable (Join.AllEverywhere P before joins)
  | [] => .isTrue trivial
  | ⟨table, label, condition⟩ :: rest =>
      have := condition.decidableEverywhere
        ⟨before ++ [Join.source ⟨table, label, condition⟩], none⟩
      have := Join.decidableAllEverywhere (before ++ [Join.source ⟨table, label, condition⟩]) rest
      inferInstanceAs (Decidable (_ ∧ _))

end

instance (ctx : Context) (condition : Option Expr) :
    Decidable (Expr.EverywhereIfAny P ctx condition) :=
  Expr.decidableEverywhereIfAny P ctx condition

instance (outer : List Source) (rows : Option (String × Expr)) (q : Select) :
    Decidable (q.Everywhere P outer rows) :=
  q.decidableEverywhere P outer rows

end Decidable

end Sql
end RowFilter
