import RowFilter.Proofs.Emission
import RowFilter.Proofs.Legibility

/-!
# Statements determine conditions

Conditions of compiled filters are legible: no list of values is empty, no group has
less than two operands, every join and every row source has a label.  So two compiled
filters whose conditions are written the same have the same condition.

* `Ground.Emitted.legible`: compiled conditions are legible.
* `clause_determines_condition`: the text and the parameters determine the condition,
  and with it everything that is asked in it.
-/

namespace RowFilter

open Sql (Dialect Expr Join Legible Select Source Term)

/-! ## What is asked in a condition -/

namespace Sql

/-- A question that a condition asks: of what, how, and with which values. -/
structure Question where
  field : Expr
  operator : Continuation
  values : List Value

/-- The question with all JSON paths changed. -/
def Question.mapPaths (f : PathArg → PathArg) (a : Question) : Question :=
  { a with field := a.field.mapPaths f }

/-- The value, where the expression is one. -/
def Expr.value? : Expr → Option Value
  | .value v => some v
  | _ => none

mutual

/-- The questions that are asked with values, or for a value, anywhere in an expression. -/
def Expr.asked : Expr → List Question
  | .ident _ _ => []
  | .value _ => []
  | .raw _ => []
  | .binary left op right =>
      right.value?.toList.map (fun v => ⟨left, .binary op, [v]⟩) ++ (left.asked ++ right.asked)
  | .logical _ operands => Expr.allAsked operands
  | .call _ args _ => Expr.allAsked args
  | .cast expr _ => expr.asked
  | .inList expr list negated =>
      ⟨expr, .among negated, list.filterMap Expr.value?⟩ :: (expr.asked ++ Expr.allAsked list)
  | .between expr low high negated =>
      ⟨expr, .between negated, [low, high].filterMap Expr.value?⟩ ::
        (expr.asked ++ (low.asked ++ high.asked))
  | .isNull expr negated => ⟨expr, .isNull negated, []⟩ :: expr.asked
  | .existsRow query => query.asked
  | .inQuery expr query _ => expr.asked ++ query.asked
  | .scalar query => query.asked
  | .jsonValue _ _ => []
  | .jsonLength expr => expr.asked
  | .datePart _ expr => expr.asked

/-- The questions in expressions. -/
def Expr.allAsked : List Expr → List Question
  | [] => []
  | e :: rest => e.asked ++ Expr.allAsked rest

/-- The questions in an expression, if there is one. -/
def Expr.askedIfAny : Option Expr → List Question
  | none => []
  | some e => e.asked

/-- The questions in a selection. -/
def Select.asked : Select → List Question
  | ⟨columns, source, joins, condition⟩ =>
      Expr.allAsked columns ++ (RowSource.askedIfAny source ++
        (Join.allAsked joins ++ Expr.askedIfAny condition))

/-- The questions in a row source. -/
def RowSource.asked : RowSource → List Question
  | .table _ _ => []
  | .jsonRows document _ _ => document.asked

/-- The questions in a row source, if there is one. -/
def RowSource.askedIfAny : Option RowSource → List Question
  | none => []
  | some source => source.asked

/-- The questions in joins. -/
def Join.allAsked : List Join → List Question
  | [] => []
  | ⟨_, _, condition⟩ :: rest => condition.asked ++ Join.allAsked rest

end

theorem Expr.value?_mapPaths
    (f : PathArg → PathArg) (e : Expr) :
    (e.mapPaths f).value? = e.value? := by
  cases e <;> rfl

theorem Expr.filterMap_value?_mapAllPaths
    (f : PathArg → PathArg) (es : List Expr) :
    (Expr.mapAllPaths f es).filterMap Expr.value? = es.filterMap Expr.value? := by
  rw [Expr.mapAllPaths_eq_map, List.filterMap_map]
  exact List.filterMap_congr fun e _ => e.value?_mapPaths f

mutual

/-- Changing the paths changes nothing in the questions but the paths. -/
theorem Expr.asked_mapPaths (f : PathArg → PathArg) :
    ∀ e : Expr, (e.mapPaths f).asked = e.asked.map (Question.mapPaths f)
  | .ident .. | .value _ | .raw _ | .jsonValue .. => rfl
  | .binary left op right => by
      rw [Expr.mapPaths, Expr.asked, Expr.asked, Expr.value?_mapPaths, left.asked_mapPaths f,
        right.asked_mapPaths f, List.map_append, List.map_append, List.map_map]
      rfl
  | .logical _ operands => Expr.allAsked_mapAllPaths f operands
  | .call _ args _ => Expr.allAsked_mapAllPaths f args
  | .cast expr _ => expr.asked_mapPaths f
  | .inList expr list negated => by
      rw [Expr.mapPaths, Expr.asked, Expr.asked, Expr.filterMap_value?_mapAllPaths,
        expr.asked_mapPaths f, Expr.allAsked_mapAllPaths f list, List.map_cons, List.map_append]
      rfl
  | .between expr low high negated => by
      rw [Expr.mapPaths, Expr.asked, Expr.asked, expr.asked_mapPaths f, low.asked_mapPaths f,
        high.asked_mapPaths f, List.map_cons, List.map_append, List.map_append]
      have hvalues := Expr.filterMap_value?_mapAllPaths f [low, high]
      rw [Expr.mapAllPaths, Expr.mapAllPaths, Expr.mapAllPaths] at hvalues
      rw [hvalues]
      rfl
  | .isNull expr negated => by
      rw [Expr.mapPaths, Expr.asked, Expr.asked, expr.asked_mapPaths f, List.map_cons]
      rfl
  | .existsRow query => query.asked_mapPaths f
  | .inQuery expr query _ => by
      rw [Expr.mapPaths, Expr.asked, Expr.asked, expr.asked_mapPaths f, query.asked_mapPaths f,
        List.map_append]
  | .scalar query => query.asked_mapPaths f
  | .jsonLength expr => expr.asked_mapPaths f
  | .datePart _ expr => expr.asked_mapPaths f

theorem Expr.allAsked_mapAllPaths (f : PathArg → PathArg) :
    ∀ es : List Expr,
      Expr.allAsked (Expr.mapAllPaths f es) = (Expr.allAsked es).map (Question.mapPaths f)
  | [] => rfl
  | e :: rest => by
      rw [Expr.mapAllPaths, Expr.allAsked, Expr.allAsked, e.asked_mapPaths f,
        Expr.allAsked_mapAllPaths f rest, List.map_append]

theorem Expr.askedIfAny_mapPathsIfAny (f : PathArg → PathArg) :
    ∀ e : Option Expr,
      Expr.askedIfAny (Expr.mapPathsIfAny f e) = (Expr.askedIfAny e).map (Question.mapPaths f)
  | none => rfl
  | some e => e.asked_mapPaths f

theorem Select.asked_mapPaths (f : PathArg → PathArg) :
    ∀ q : Select, (q.mapPaths f).asked = q.asked.map (Question.mapPaths f)
  | ⟨columns, source, joins, condition⟩ => by
      rw [Select.mapPaths, Select.asked, Select.asked, Expr.allAsked_mapAllPaths f columns,
        RowSource.askedIfAny_mapPathsIfAny f source, Join.allAsked_mapAllPaths f joins,
        Expr.askedIfAny_mapPathsIfAny f condition, List.map_append, List.map_append,
        List.map_append]

theorem RowSource.asked_mapPaths (f : PathArg → PathArg) :
    ∀ source : RowSource, (source.mapPaths f).asked = source.asked.map (Question.mapPaths f)
  | .table .. => rfl
  | .jsonRows document _ _ => document.asked_mapPaths f

theorem RowSource.askedIfAny_mapPathsIfAny (f : PathArg → PathArg) :
    ∀ source : Option RowSource, RowSource.askedIfAny (RowSource.mapPathsIfAny f source) =
      (RowSource.askedIfAny source).map (Question.mapPaths f)
  | none => rfl
  | some source => source.asked_mapPaths f

theorem Join.allAsked_mapAllPaths (f : PathArg → PathArg) :
    ∀ joins : List Join,
      Join.allAsked (Join.mapAllPaths f joins) = (Join.allAsked joins).map (Question.mapPaths f)
  | [] => rfl
  | ⟨_, _, condition⟩ :: rest => by
      rw [Join.mapAllPaths, Join.allAsked, Join.allAsked, condition.asked_mapPaths f,
        Join.allAsked_mapAllPaths f rest, List.map_append]

end

end Sql

/-! ## Compiled conditions are legible -/

section Legibility

variable {d : Dialect} {g : Ground} {labelled : List Source}

theorem legible_apply
    {criterion : Criterion} {target e : Expr}
    (htarget : Legible d (.expr target)) (hlists : criterion.ListsValues)
    (he : criterion.apply target = some e) :
    Legible d (.expr e) := by
  cases criterion with
  | compare op v =>
      cases he
      exact Sql.legible_binary htarget op (Sql.legible_value v)
  | like pattern negated caseless =>
      cases he
      refine Sql.legible_binary ?_ _ (Sql.legible_value pattern)
      cases caseless with
      | true => exact Sql.legible_lower htarget
      | false => exact htarget
  | inList vs negated =>
      cases he
      cases vs with
      | nil => exact absurd rfl (hlists [] negated rfl)
      | cons v vs =>
          refine Sql.legible_inList negated htarget fun item hitem => ?_
          rw [← List.map_cons] at hitem
          obtain ⟨v, -, rfl⟩ := List.mem_map.1 hitem
          exact Sql.legible_value v
  | between low high negated =>
      cases he
      exact Sql.legible_between negated htarget (Sql.legible_value low) (Sql.legible_value high)
  | isNull negated =>
      cases he
      exact Sql.legible_isNull negated htarget
  | never =>
      cases he
      exact Sql.legible_never
  | always => cases he

theorem legible_group?
    {op : Sql.Connective} {operands : List Expr} {e : Expr}
    (h : ∀ e ∈ operands, Legible d (.expr e)) (he : Expr.group? op operands = some e) :
    Legible d (.expr e) := by
  match operands, h, he with
  | [], _, he => cases he
  | [_], h, he =>
      cases he
      exact h _ List.mem_cons_self
  | _ :: _ :: _, h, he =>
      cases he
      exact Sql.legible_logical op h

theorem legible_compared
    (place : Place) :
    Legible d (.expr place.compared) := by
  unfold Place.compared
  split
  · exact Sql.legible_column _ _
  · exact Sql.legible_jsonLength (Sql.legible_column _ _)
  · exact Sql.legible_datePart _ (Sql.legible_column _ _)

theorem legible_discriminates
    (label : String) (discriminator : String × String) :
    Legible d (.expr (Link.discriminates label discriminator)) :=
  Sql.legible_binary (Sql.legible_column _ _) .eq (Sql.legible_value _)

theorem legible_countRows
    {link : Link}
    (hkey : ∃ qualifier field, link.parentKey = .column qualifier field) (label : String) :
    Legible d (.expr (link.countRows label)) := by
  obtain ⟨qualifier, field, hkey⟩ := hkey
  have hpointing : Legible d
      (.expr (.binary (.column label link.relatedField) .eq link.parentKey)) := by
    rw [hkey]
    exact Sql.legible_binary (Sql.legible_column _ _) .eq (Sql.legible_column _ _)
  have hrows : ∀ condition, Legible d (.expr condition) → Legible d (.query
      ⟨[.call "COUNT" [] true], some (.table { name := link.related } (some label)), [],
        some condition⟩) := by
    intro condition h
    refine Sql.legible_query Sql.decodes_columns_count (Sql.decodes_source_table _ _)
      (by simp) ?_
    rintro e ⟨⟩
    exact h
  unfold Link.countRows
  split
  · refine Sql.legible_scalar (hrows _ (Sql.legible_logical .and ?_))
    exact List.forall_mem_cons.2
      ⟨hpointing, List.forall_mem_singleton.2 (legible_discriminates label _)⟩
  · exact Sql.legible_scalar (hrows _ hpointing)

theorem Ground.Subject.legible
    {c : Comparison} {target : Expr}
    (h : g.Subject labelled c target) :
    Legible d (.expr target) := by
  cases h with
  | field _ _ _ _ => exact legible_compared _
  | count hlink _ _ =>
      obtain ⟨qualifier, field, hkey, -⟩ := hlink.key
      exact legible_countRows ⟨qualifier, field, hkey⟩ _

theorem RowTest.legible
    {label : String} {e : Expr}
    (h : RowTest label e) :
    Legible d (.expr e) := by
  obtain ⟨key, c, operand, criterion, hcriterion, he⟩ := h
  refine legible_apply ?_ (Comparison.listsValues_of_criterion hcriterion).casted he
  exact Sql.legible_cast _ (Sql.legible_jsonValue label key)

theorem Ground.Joined.legible :
    ∀ {joins : List Join} {labelled : List Source}, g.Joined labelled joins →
      ∀ j ∈ joins, j.IsLabelled ∧ Legible d (.expr j.condition)
  | [], _, _, _, hj => absurd hj List.not_mem_nil
  | first :: rest, labelled, hjoined, j, hj => by
      obtain ⟨hfirst, hrest⟩ := hjoined
      rcases List.mem_cons.1 hj with rfl | hj
      · cases hfirst with
        | joinOf _ _ _ =>
            refine ⟨⟨_, _, rfl, rfl⟩, ?_⟩
            exact Sql.legible_binary (Sql.legible_column _ _) .eq (Sql.legible_column _ _)
      · exact hrest.legible j hj

/-- Conditions that filters become can be read off their texts. -/
theorem Ground.Emitted.legible
    {e : Expr}
    (h : g.Emitted labelled e) :
    Legible d (.expr e) := by
  induction h with
  | asked htarget hcriterion he =>
      exact legible_apply htarget.legible (Comparison.listsValues_of_criterion hcriterion) he
  | @matched _ _ condition _ _ hdocument path _ hconditions hcondition =>
      obtain ⟨place, -, -, rfl⟩ := hdocument
      refine Sql.legible_existsRow (Sql.legible_query Sql.decodes_columns_one
        (Sql.decodes_source_jsonRows _ _ path _) (by simp [Select.of]) ?_)
      rintro e he
      cases he
      exact legible_group? (fun e he => (hconditions e he).legible) hcondition
  | @among _ probe label joins condition hprobe negated _ hjoins _ ih =>
      obtain ⟨qualifier, field, hkey, -⟩ := hprobe.key
      unfold Inquiry.predicate
      rw [hkey, Probe.meeting_eq]
      refine Sql.legible_inQuery negated (Sql.legible_column _ _) (Sql.legible_query
        (Sql.decodes_columns_column _ _) (Sql.decodes_source_table _ _) hjoins.legible ?_)
      intro e he
      refine legible_group? (List.forall_mem_append.2 ⟨fun e he => ?_, fun e he => ?_⟩) he
      · exact ih e (Option.mem_toList.1 he)
      · obtain ⟨discriminator, -, rfl⟩ := Option.map_eq_some_iff.1 (Option.mem_toList.1 he)
        exact legible_discriminates label discriminator
  | @group _ operands op hlength _ ih =>
      obtain _ | ⟨first, _ | ⟨second, rest⟩⟩ := operands
      · cases hlength
      · simp at hlength
      · exact Sql.legible_logical op ih

end Legibility

theorem legible_of_compile
    {s : Setting} {collection : String} {filter : Json} {c : Compiled}
    (h : s.compile collection filter = .ok c) (d : Dialect) :
    ∀ e ∈ c.condition, Legible d (.expr e) := by
  obtain ⟨_, _, -, -, hemitted⟩ := emitted_of_compile h
  exact fun e he => (hemitted e he).legible

/-- Conditions that are written the same are the same as far as can be seen. -/
theorem asRead_eq_of_clause_eq
    {c c' : Compiled} {d : Dialect}
    (h : ∀ e ∈ c.condition, Legible d (.expr e)) (h' : ∀ e ∈ c'.condition, Legible d (.expr e))
    (heq : c.clause d = c'.clause d) :
    c.condition.map (Expr.asRead d) = c'.condition.map (Expr.asRead d) := by
  unfold Compiled.clause at heq
  cases hc : c.condition with
  | none =>
      cases hc' : c'.condition with
      | none => rfl
      | some e' =>
          rw [hc, hc'] at heq
          exact absurd (congrArg Sql.Clause.sql heq.symm) (h' e' hc').sql_ne_empty
  | some e =>
      cases hc' : c'.condition with
      | none =>
          rw [hc, hc'] at heq
          exact absurd (congrArg Sql.Clause.sql heq) (h e hc).sql_ne_empty
      | some e' =>
          rw [hc, hc'] at heq
          have hread := (h e hc).asRead_eq (h' e' hc') heq
          exact congrArg some (Term.expr.inj hread)

/-- The text and the parameters that conditions are written as determine the conditions.
Where paths are not bound, this is up to how paths are passed.  So they determine what is
asked in the conditions: of what, how, and with which values. -/
theorem clause_determines_condition
    {s s' : Setting} {collection collection' : String} {filter filter' : Json} {c c' : Compiled}
    (h : s.compile collection filter = .ok c) (h' : s'.compile collection' filter' = .ok c') :
    (c.clause .postgres = c'.clause .postgres → c.condition = c'.condition) ∧
    (c.clause .mysql = c'.clause .mysql →
      c.condition.map (Expr.mapPaths Sql.PathArg.inlined) =
        c'.condition.map (Expr.mapPaths Sql.PathArg.inlined)) ∧
    ∀ d : Dialect, c.clause d = c'.clause d →
      (Expr.askedIfAny c.condition).map (Sql.Question.mapPaths d.pathAsRead) =
        (Expr.askedIfAny c'.condition).map (Sql.Question.mapPaths d.pathAsRead) := by
  have hread : ∀ d : Dialect, c.clause d = c'.clause d →
      c.condition.map (Expr.asRead d) = c'.condition.map (Expr.asRead d) := fun d =>
    asRead_eq_of_clause_eq (legible_of_compile h d) (legible_of_compile h' d)
  refine ⟨fun heq => ?_, hread .mysql, fun d heq => ?_⟩
  · have hid : Expr.asRead .postgres = id := funext Expr.mapPaths_id
    simpa [hid] using hread .postgres heq
  · rw [← Expr.askedIfAny_mapPathsIfAny, ← Expr.askedIfAny_mapPathsIfAny,
      Expr.mapPathsIfAny_eq_map, Expr.mapPathsIfAny_eq_map]
    exact congrArg Expr.askedIfAny (hread d heq)

/-- A collection whose fields have names that look like parts of a condition. -/
def oddNames : Setting where
  schema := {
    collections := [
      ("a\".\"b", {
        primary := "id"
        fields := [
          ("x\" IS NULL", { type := .string, specials := .ofFlags [] }),
          ("\" AND \"", { type := .integer, specials := .ofFlags [] }),
          ("y", { type := .string, specials := .ofFlags [] })] })]
    relations := [] }
  options := {}

/-- All of the first, and one of the others. -/
def firstAndOther : Json :=
  .obj [("_and", .arr [
    .obj [("x\" IS NULL", .obj [("_eq", .str "$2")])],
    .obj [("_or", .arr [
      .obj [("\" AND \"", .obj [("_between", .arr [.num (.int 1), .num (.int 5)])])],
      .obj [("y", .obj [("_null", .bool true)])]])]])]

/-- Both of the first, or the last. -/
def bothOrLast : Json :=
  .obj [("_or", .arr [
    .obj [("_and", .arr [
      .obj [("x\" IS NULL", .obj [("_eq", .str "$2")])],
      .obj [("\" AND \"", .obj [("_between", .arr [.num (.int 1), .num (.int 5)])])]])],
    .obj [("y", .obj [("_null", .bool true)])]])]

/-- The connective of a group. -/
def Sql.Expr.connective? : Expr → Option Sql.Connective
  | .logical op _ => some op
  | _ => none

/-- The same three questions in two groupings are not written the same. -/
theorem clause_determines_condition_oddNames :
    ∃ c c', oddNames.compile "a\".\"b" firstAndOther = .ok c ∧
      oddNames.compile "a\".\"b" bothOrLast = .ok c' ∧
      c.clause .postgres ≠ c'.clause .postgres := by
  obtain ⟨c, hc, hand⟩ := exists_of_any_toOption
    (show (oddNames.compile "a\".\"b" firstAndOther).toOption.any
      (fun c => c.condition.bind Expr.connective? == some .and) = true by decide +kernel)
  obtain ⟨c', hc', hor⟩ := exists_of_any_toOption
    (show (oddNames.compile "a\".\"b" bothOrLast).toOption.any
      (fun c => c.condition.bind Expr.connective? == some .or) = true by decide +kernel)
  refine ⟨c, c', hc, hc', fun heq => ?_⟩
  rw [(clause_determines_condition hc hc').1 heq, beq_iff_eq, beq_iff_eq.1 hor] at hand
  cases hand

end RowFilter
