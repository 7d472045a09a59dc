import RowFilter.Proofs.Closures
import RowFilter.Proofs.PathReading

/-!
# Values of expressions

What a database computes for an expression.  Conditions follow three-valued logic: a truth
value is unknown where a null value is compared, and a row is selected only if its condition
is true.  How texts are read as numbers, compared or brought to lower case is up to the
engine, as long as null stays null.

* `Sql.Expr.eval`: the value of an expression, in a scope that says which row each row
  source stands at.
* `Sql.Select.answer`: the rows that a selection gives.
* `Criterion.asks`: what a criterion says about a value.
* `Criterion.truth_apply`: the condition of a criterion says it about the value of its
  expression.
* `DocumentTest.holds_existsMatch_iff`: a match of a path meets a condition.
-/

namespace RowFilter

namespace Value

def isNull : Value → Bool
  | .null => true
  | _ => false

/-- A truth value as a value; the unknown one is null. -/
def ofTruth : Option Bool → Value
  | some b => .bool b
  | none => .null

/-- The truth value of a condition with this value. -/
def truth : Value → Option Bool
  | .bool b => some b
  | _ => none

@[simp] theorem truth_ofTruth
    (t : Option Bool) :
    (ofTruth t).truth = t := by
  cases t <;> rfl

end Value

namespace Sql

/-! ## Three-valued logic -/

/-- False as soon as one is false, true if all are true, else unknown. -/
def conjunction (ts : List (Option Bool)) : Option Bool :=
  if some false ∈ ts then some false else if none ∈ ts then none else some true

/-- True as soon as one is true, false if all are false, else unknown. -/
def disjunction (ts : List (Option Bool)) : Option Bool :=
  if some true ∈ ts then some true else if none ∈ ts then none else some false

def Connective.join : Connective → List (Option Bool) → Option Bool
  | .and => conjunction
  | .or => disjunction

/-- The truth value, or the opposite one; the unknown one has no other. -/
def negateIf (negated : Bool) (t : Option Bool) : Option Bool :=
  t.map (xor negated)

theorem conjunction_eq_true_iff
    (ts : List (Option Bool)) :
    conjunction ts = some true ↔ ∀ t ∈ ts, t = some true := by
  unfold conjunction
  constructor
  · intro h t ht
    by_cases hfalse : some false ∈ ts
    · simp [hfalse] at h
    by_cases hnone : none ∈ ts
    · simp [hfalse, hnone] at h
    cases t with
    | none => exact absurd ht hnone
    | some b =>
        cases b with
        | false => exact absurd ht hfalse
        | true => rfl
  · intro h
    have hfalse : some false ∉ ts := fun hmem => by cases h _ hmem
    have hnone : none ∉ ts := fun hmem => by cases h _ hmem
    rw [if_neg hfalse, if_neg hnone]

/-! ## Engines -/

/-- What a database decides by itself. -/
structure Engine where
  /-- A member is also looked for in the elements of elements of an array. -/
  deep : Bool
  /-- The text of a JSON value. -/
  text : Json → String
  cast : CastType → Value → Value
  compare : BinaryOp → Value → Value → Bool
  call : String → List Value → Value
  length : Value → Value
  part : DatePart → Value → Value

namespace Engine

/-- A comparison is unknown if a side is null. -/
def compares (g : Engine) (op : BinaryOp) (x y : Value) : Option Bool :=
  if x.isNull || y.isNull then none else some (g.compare op x y)

/-- The value is one of the list. -/
def isMember (g : Engine) (x : Value) (list : List Value) : Option Bool :=
  disjunction (list.map (g.compares .eq x))

/-- The value lies between two others. -/
def isBetween (g : Engine) (x low high : Value) : Option Bool :=
  conjunction [g.compares .gtEq x low, g.compares .ltEq x high]

/-- The text of a JSON value; null if there is none, or if it is null. -/
def textOf (g : Engine) : Option Json → Value
  | none => .null
  | some .null => .null
  | some j => .str (g.text j)

end Engine

/-- The result of a function whose arguments must not be null. -/
def strictly (args : List Value) (result : Value) : Value :=
  if args.any Value.isNull then .null else result

/-! ## Scopes -/

/-- The row at which a row source stands. -/
inductive Row where
  | record (columns : String → Value)
  | document (j : Json)

namespace Row

def column (name : String) : Row → Value
  | record columns => columns name
  | document _ => .null

/-- The JSON value of the row, or its member `key`. -/
def json? (key : Option String) : Row → Option Json
  | record _ => none
  | document j =>
      match key with
      | none => some j
      | some key => j.get? key

end Row

/-- The row sources in scope, the innermost first. -/
abbrev Scope := List (String × Row)

/-- The rows of the tables. -/
abbrev Database := Table → List (String → Value)

/-- The scope with a row source at a row. -/
def Scope.bind (scope : Scope) (label : Option String) (row : Row) : Scope :=
  label.toList.map (·, row) ++ scope

/-- The scopes that the rows of a table give. -/
def Database.scopes (db : Database) (t : Table) (label : Option String) (scope : Scope) :
    List Scope :=
  (db t).map fun columns => scope.bind (some (label.getD t.name)) (.record columns)

/-- The value of a name; without a qualifier, in the innermost row source. -/
def Scope.column (scope : Scope) (name : String) : Option String → Value
  | some qualifier => ((scope.lookup qualifier).map (Row.column name)).getD .null
  | none => (scope.head?.map fun source => source.2.column name).getD .null

/-! ## Evaluation -/

/-- The value of a fragment; only the condition that never holds has one. -/
def rawValue (text : String) : Value :=
  if text = "1 = 0" then .bool false else .null

/-- The columns ask for the number of rows. -/
def countsRows : List Expr → Bool
  | [.call function _ true] => function == "COUNT"
  | _ => false

def PathArg.path : PathArg → String
  | .bound path => path
  | .inline path => path

mutual

/-- The value of an expression. -/
def Expr.eval (g : Engine) (db : Database) : Expr → Scope → Value
  | .ident qualifier name, scope => scope.column name qualifier
  | .value v, _ => v
  | .raw text, _ => rawValue text
  | .binary left op right, scope =>
      .ofTruth (g.compares op (left.eval g db scope) (right.eval g db scope))
  | .logical op operands, scope =>
      .ofTruth (op.join ((Expr.evalAll g db operands scope).map Value.truth))
  | .call function args _, scope =>
      strictly (Expr.evalAll g db args scope) (g.call function (Expr.evalAll g db args scope))
  | .cast expr type, scope =>
      strictly [expr.eval g db scope] (g.cast type (expr.eval g db scope))
  | .inList expr list negated, scope =>
      .ofTruth (negateIf negated
        (g.isMember (expr.eval g db scope) (Expr.evalAll g db list scope)))
  | .between expr low high negated, scope =>
      .ofTruth (negateIf negated
        (g.isBetween (expr.eval g db scope) (low.eval g db scope) (high.eval g db scope)))
  | .isNull expr negated, scope => .bool (xor negated (expr.eval g db scope).isNull)
  | .existsRow query, scope => .bool !(query.answer g db scope).isEmpty
  | .inQuery expr query negated, scope =>
      .ofTruth (negateIf negated
        (g.isMember (expr.eval g db scope) ((query.answer g db scope).filterMap List.head?)))
  | .scalar query, scope => ((query.answer g db scope).head?.bind List.head?).getD .null
  | .jsonValue source key, scope => g.textOf ((scope.lookup source).bind (Row.json? key))
  | .jsonLength expr, scope => strictly [expr.eval g db scope] (g.length (expr.eval g db scope))
  | .datePart part expr, scope =>
      strictly [expr.eval g db scope] (g.part part (expr.eval g db scope))

/-- The values of expressions. -/
def Expr.evalAll (g : Engine) (db : Database) : List Expr → Scope → List Value
  | [], _ => []
  | e :: rest, scope => e.eval g db scope :: Expr.evalAll g db rest scope

/-- The rows that a selection gives. -/
def Select.answer (g : Engine) (db : Database) : Select → Scope → List (List Value)
  | ⟨columns, source, joins, condition⟩, scope =>
      let rows := ((RowSource.scopesOf g db source scope).flatMap fun inner =>
        Join.scopes g db joins inner).filter fun inner => Expr.selects g db condition inner
      if countsRows columns then [[.int rows.length]]
      else rows.map fun inner => Expr.evalAll g db columns inner

/-- A row is selected if the condition is true. -/
def Expr.selects (g : Engine) (db : Database) : Option Expr → Scope → Bool
  | none, _ => true
  | some e, scope => (e.eval g db scope).truth == some true

/-- The scopes that the rows of a source give. -/
def RowSource.scopes (g : Engine) (db : Database) : RowSource → Scope → List Scope
  | .table t label, scope => db.scopes t label scope
  | .jsonRows document path label, scope =>
      match document.eval g db scope with
      | .json j => (JsonPath.found g.deep path.path j).map fun m => scope.bind label (.document m)
      | _ => []

/-- The scopes that the rows of a source give; without a source there is one row. -/
def RowSource.scopesOf (g : Engine) (db : Database) : Option RowSource → Scope → List Scope
  | none, scope => [scope]
  | some source, scope => source.scopes g db scope

/-- The scopes that joins give: a row without a match is joined to a row of nulls. -/
def Join.scopes (g : Engine) (db : Database) : List Join → Scope → List Scope
  | [], scope => [scope]
  | ⟨t, label, condition⟩ :: rest, scope =>
      let matched := (db.scopes t label scope).filter fun inner =>
        (condition.eval g db inner).truth == some true
      let joined :=
        if matched.isEmpty then
          [scope.bind (some (label.getD t.name)) (.record fun _ => .null)]
        else matched
      joined.flatMap fun inner => Join.scopes g db rest inner

end

/-- The condition is true. -/
def Expr.holds (g : Engine) (db : Database) (scope : Scope) (e : Expr) : Bool :=
  (e.eval g db scope).truth == some true

section

variable (g : Engine) (db : Database)

theorem Expr.holds_iff
    {scope : Scope} {e : Expr} :
    e.holds g db scope = true ↔ (e.eval g db scope).truth = some true :=
  beq_iff_eq

theorem Expr.evalAll_eq_map
    (es : List Expr) (scope : Scope) :
    Expr.evalAll g db es scope = es.map fun e => e.eval g db scope := by
  induction es with
  | nil => rfl
  | cons e es ih => rw [Expr.evalAll, ih, List.map_cons]

/-- Conditions under one conjunction are true together. -/
theorem Expr.holds_group?_and
    {es : List Expr} {e : Expr} {scope : Scope}
    (h : Expr.group? .and es = some e) :
    e.holds g db scope = true ↔ ∀ x ∈ es, x.holds g db scope = true := by
  match es, h with
  | [], h => cases h
  | [_], h =>
      cases h
      simp
  | x :: y :: rest, h =>
      cases h
      simp only [Expr.holds_iff]
      rw [Expr.eval, Value.truth_ofTruth, Connective.join, conjunction_eq_true_iff,
        Expr.evalAll_eq_map, List.map_map, List.forall_mem_map]
      rfl

/-- A selection of all rows of a source that meet a condition. -/
theorem Select.answer_filter_of
    {columns : List Expr} (source : RowSource) (condition : Expr) (scope : Scope)
    (h : countsRows columns = false) :
    ((Select.of columns source).filter (some condition)).answer g db scope =
      ((source.scopes g db scope).filter (condition.holds g db)).map fun inner =>
        Expr.evalAll g db columns inner := by
  have hjoins : ((source.scopes g db scope).flatMap fun inner => Join.scopes g db [] inner) =
      source.scopes g db scope := by
    simp [Join.scopes]
  have hselect : (Select.of columns source).filter (some condition) =
      ⟨columns, some source, [], some condition⟩ := rfl
  rw [hselect, Select.answer, RowSource.scopesOf, hjoins, h]
  rfl

/-- The rows of a path in a document. -/
theorem RowSource.mem_scopes_jsonRows
    {document : Expr} {path : PathArg} {label : Option String} {scope inner : Scope} :
    inner ∈ (RowSource.jsonRows document path label).scopes g db scope ↔
      ∃ j, document.eval g db scope = .json j ∧ ∃ m ∈ JsonPath.found g.deep path.path j,
        scope.bind label (.document m) = inner := by
  rw [RowSource.scopes]
  cases document.eval g db scope with
  | json j => simp
  | int | float | str | bool | null => simp

end

end Sql

open Sql (BinaryOp Database Engine Expr PathArg Row Scope Select strictly)

/-! ## Criteria -/

namespace Criterion

/-- What a criterion says about a value. -/
def asks (g : Engine) (x : Value) : Criterion → Option Bool
  | compare op v => g.compares op x v
  | like pattern negated caseless =>
      g.compares (if negated then .notLike else .like)
        (if caseless then strictly [x] (g.call "LOWER" [x]) else x) pattern
  | inList vs negated => Sql.negateIf negated (g.isMember x vs)
  | between low high negated => Sql.negateIf negated (g.isBetween x low high)
  | isNull negated => some (xor negated x.isNull)
  | never => some false
  | always => some true

variable (g : Engine)

/-- The condition of a criterion says it about the value of its expression. -/
theorem truth_apply
    (db : Database) (scope : Scope) {c : Criterion} {target e : Expr}
    (h : c.apply target = some e) :
    (e.eval g db scope).truth = c.asks g (target.eval g db scope) := by
  cases c with
  | compare op v =>
      cases h
      rw [Expr.eval, Value.truth_ofTruth]
      rfl
  | like pattern negated caseless =>
      cases h
      rw [Expr.eval, Value.truth_ofTruth]
      cases caseless with
      | true => rfl
      | false => rfl
  | inList vs negated =>
      cases h
      have hvalues : (vs.map Expr.value).map (fun e => e.eval g db scope) = vs := by
        rw [List.map_map]
        exact List.map_id vs
      rw [Expr.eval, Value.truth_ofTruth, Expr.evalAll_eq_map, hvalues]
      rfl
  | between low high negated =>
      cases h
      rw [Expr.eval, Value.truth_ofTruth]
      rfl
  | isNull negated =>
      cases h
      rfl
  | never =>
      cases h
      rfl
  | always => cases h

/-- A null value is found by the test for null only. -/
theorem eq_of_asks_null
    {c : Criterion}
    (hlists : c.ListsValues) (halways : c.isAlways = false)
    (h : c.asks g .null = some true) :
    c = .isNull false := by
  cases c with
  | compare op v => cases h
  | like pattern negated caseless =>
      cases caseless with
      | true => cases h
      | false => cases h
  | inList vs negated =>
      cases vs with
      | nil => exact absurd rfl (hlists [] negated rfl)
      | cons v vs =>
          have hunknown : g.isMember .null (v :: vs) = none := by
            unfold Engine.isMember Sql.disjunction
            have hnone : ∀ y, g.compares .eq .null y = none := fun _ => rfl
            simp [hnone]
          rw [asks, hunknown] at h
          cases h
  | between low high negated =>
      have hunknown : g.isBetween .null low high = none := rfl
      rw [asks, hunknown] at h
      cases h
  | isNull negated =>
      cases negated with
      | true => cases h
      | false => rfl
  | never => cases h
  | always => cases halways

theorem eq_isNull_of_casted
    {c : Criterion} {negated : Bool}
    (h : c.casted = .isNull negated) :
    c = .isNull negated := by
  have hmap : ∀ f, c.map f = .isNull negated → c = .isNull negated := by
    intro f hf
    cases c with
    | isNull => exact hf
    | _ => cases hf
  unfold casted at h
  split at h
  · exact hmap _ h
  · exact hmap _ h

end Criterion

/-! ## Tests of documents -/

namespace DocumentTest

variable (g : Engine) (db : Database)

/-- What a criterion says about a JSON value that is read as a text. -/
def meets (c : Criterion) (j : Option Json) : Option Bool :=
  c.casted.asks g (strictly [g.textOf j] (g.cast c.castType (g.textOf j)))

/-- The condition on a row says it about the value of the row, or its member. -/
theorem truth_condition?
    {scope : Scope} {label : String} {key : Option String} {c : Criterion} {e : Expr}
    (h : condition? label key c = some e) (row : Row) :
    (e.eval g db (scope.bind (some label) row)).truth = meets g c (row.json? key) := by
  have hvalue : (Expr.jsonValue label key).eval g db (scope.bind (some label) row) =
      g.textOf (row.json? key) := by
    simp [Expr.eval, Scope.bind]
  rw [Criterion.truth_apply g db _ h, Expr.eval, hvalue]
  rfl

/-- The question for a match is true if the column holds a document, and the condition is
true of one of the values that the path leads to in it. -/
theorem holds_existsMatch_iff
    {scope : Scope} {document condition : Expr} {path : PathArg} {label : String} :
    (existsMatch document path label condition).holds g db scope = true ↔
      ∃ j, document.eval g db scope = .json j ∧ ∃ m ∈ JsonPath.found g.deep path.path j,
        condition.holds g db (scope.bind (some label) (.document m)) = true := by
  rw [existsMatch, Expr.holds_iff, Expr.eval, Select.answer_filter_of g db _ _ _ rfl]
  have hsome : ∀ (rows : List Scope) (f : Scope → List Value),
      (Value.bool !((rows.filter (condition.holds g db)).map f).isEmpty).truth = some true ↔
        ∃ inner ∈ rows, condition.holds g db inner = true := by
    simp [Value.truth]
  rw [hsome]
  constructor
  · rintro ⟨inner, hinner, hholds⟩
    obtain ⟨j, hj, m, hm, rfl⟩ := (Sql.RowSource.mem_scopes_jsonRows g db).1 hinner
    exact ⟨j, hj, m, hm, hholds⟩
  · rintro ⟨j, hj, m, hm, hholds⟩
    exact ⟨_, (Sql.RowSource.mem_scopes_jsonRows g db).2 ⟨j, hj, m, hm, rfl⟩, hholds⟩

end DocumentTest
end RowFilter
