import RowFilter.Proofs.Dialects
import RowFilter.Proofs.Templates

/-!
# What conditions bind

A comparison and an operand are mapped to a template and values, except that there is no
pattern for null.  There is a value for each placeholder, so the condition on an expression is
built, and it binds what the expression binds and then these values.  Two templates do not
compare at all: a list of no values holds nothing, so membership in it holds of no row and
absence from it of every row.

* `Json.ListsNothing`: operands that list no values.
* `Comparison.error_mapped_iff`: comparisons that cannot be mapped.
* `Comparison.template_of_mapped`: comparisons with no values to compare with.
* `MappedOperator.Filled.params_apply`: what a condition binds.
* `mapped_operator_binds_values`: all of this for every comparison and operand.
-/

namespace RowFilter

open Sql (Dialect Expr)

/-! ## Operands -/

/-- The operand lists no values: it is null, an empty array or a blank text. -/
def Json.ListsNothing : Json → Prop
  | .null => True
  | .arr items => items = []
  | .str s => ∀ c ∈ s.toList, Text.isBlank c = true
  | _ => False

instance : DecidablePred Json.ListsNothing
  | .null => isTrue trivial
  | .arr items => decidable_of_iff (items.isEmpty = true) List.isEmpty_iff
  | .str s => decidable_of_iff (s.toList.all Text.isBlank = true) List.all_eq_true
  | .bool _ => isFalse id
  | .num _ => isFalse id
  | .obj _ => isFalse id

theorem Text.trim_eq_nil_iff
    (cs : List Char) :
    trim cs = [] ↔ ∀ c ∈ cs, isBlank c = true := by
  constructor
  · intro h c hc
    by_contra hblank
    rw [Bool.not_eq_true] at hblank
    have hmem := mem_trim hblank hc
    rw [h] at hmem
    cases hmem
  · intro h
    have hstart : trimStart cs = [] := List.dropWhile_eq_nil_iff.2 h
    rw [trim, hstart, trimEnd_nil]

namespace Comparison

theorem listOperand_eq_nil_iff
    (operand : Json) :
    listOperand operand = [] ↔ operand.ListsNothing := by
  cases operand with
  | str s =>
      rw [listOperand, Json.ListsNothing, ← Text.trim_eq_nil_iff]
      by_cases hblank : Text.trim s.toList = []
      · simp [hblank]
      · simp [hblank, List.splitOn_ne_nil]
  | _ => simp [listOperand, Json.ListsNothing]

theorem toText?_ofJson_eq_none_iff
    (operand : Json) :
    (Value.ofJson operand).toText? = none ↔ operand = .null := by
  cases operand with
  | num n =>
      cases n with
      | int i => by_cases hfits : Decimal.fitsInt64 i = true <;>
          simp [Value.ofJson, Value.ofNumber, Value.toText?, hfits]
      | float x => simp [Value.ofJson, Value.ofNumber, Value.toText?]
  | _ => simp [Value.ofJson, Value.toText?]

/-- Only a pattern cannot be made, and only of null. -/
theorem error_mapped_iff
    (c : Comparison) (operand : Json) :
    (∃ e, c.mapped operand = .error e) ↔ c.isPattern = true ∧ operand = .null := by
  cases c with
  | pattern p =>
      rw [← toText?_ofJson_eq_none_iff, mapped]
      cases htext : (Value.ofJson operand).toText? with
      | none => simp [isPattern]
      | some text => simp
  | equal negated =>
      rw [mapped]
      split <;> simp [isPattern]
  | _ => simp [mapped, isPattern]

/-- Everything or nothing is asked for just if the comparison is with the members of an
operand that lists none. -/
theorem template_of_mapped
    {c : Comparison} {operand : Json} {m : MappedOperator}
    (h : c.mapped operand = .ok m) :
    (m.template = .always ↔ c = .member true ∧ operand.ListsNothing) ∧
      (m.template = .never ↔ c = .member false ∧ operand.ListsNothing) := by
  cases c with
  | member negated =>
      cases h
      rw [← listOperand_eq_nil_iff]
      cases listOperand operand with
      | nil => cases negated <;> simp
      | cons v rest => simp
  | equal negated =>
      rw [mapped] at h
      split at h
      · cases h
        simp
      · cases h
        simp
  | pattern p =>
      rw [mapped] at h
      split at h
      · cases h
        simp
      · cases h
  | _ =>
      cases h
      simp

end Comparison

/-! ## Conditions -/

/-- A condition binds what the expression binds, if it looks at it, and then the values. -/
theorem Criterion.params_apply
    {k : Criterion} {target e : Expr}
    (h : k.apply target = some e) (d : Dialect) :
    (e.clause d).params =
      (if k.compares then (target.clause d).params else []) ++ k.values := by
  have hparams (f : Expr) : (f.clause d).params = (f.items d false).map (Sql.Item.param d) :=
    f.params_eq d
  rw [hparams, hparams, k.items_apply d h, List.map_append, List.map_map]
  by_cases hcompares : k.compares = true
  · simp [hcompares, Function.comp_def, Sql.Item.param]
  · simp [hcompares, Function.comp_def, Sql.Item.param]

namespace MappedOperator

/-- A condition binds what the expression binds and then the values, unless it is a
constant. -/
theorem Filled.params_apply
    {m : MappedOperator} {target e : Expr}
    (h : m.Filled) (he : m.apply target = some e) (hnever : m.template ≠ .never) (d : Dialect) :
    (e.clause d).params = (target.clause d).params ++ m.values := by
  obtain ⟨k, rfl⟩ := m.filled_iff.1 h
  rw [k.apply_mapped] at he
  have hcompares : k.compares = true := by
    cases k with
    | never => exact absurd rfl hnever
    | always => cases he
    | _ => rfl
  rw [k.params_apply he d, if_pos hcompares, k.values_mapped]

theorem clause_of_never
    {m : MappedOperator} {target e : Expr}
    (h : m.template = .never) (he : m.apply target = some e) (d : Dialect) :
    e.clause d = ⟨"1 = 0", []⟩ := by
  rw [apply, h] at he
  cases he
  rfl

end MappedOperator

/-- **Conditions bind the values of their operands.**  A comparison can be mapped with every
operand, except for a pattern of null.  The template, also after the values were brought to the
type of a cast, has as many placeholders as there are values.  It puts a condition on every
expression, unless it is absence from a list of no values; and the condition binds the
parameters of the expression and then the values in order, unless it is membership in a list of
no values, which is a constant. -/
theorem mapped_operator_binds_values
    (c : Comparison) (operand : Json) :
    ((∃ e, (Operator.compare c).mapped operand = .error e) ↔
      c.isPattern = true ∧ operand = .null) ∧
    (Comparison.listOperand operand = [] ↔ operand.ListsNothing) ∧
    ∀ m, (Operator.compare c).mapped operand = .ok m → ∀ m', m' = m ∨ m' = m.casted →
      m'.text.toList.count '?' = m'.values.length ∧
      ∀ target : Expr,
        (m'.apply target = none ↔ c = .member true ∧ operand.ListsNothing) ∧
        ∀ e, m'.apply target = some e → ∀ d : Dialect,
          if c = .member false ∧ operand.ListsNothing then
            e.clause d = ⟨"1 = 0", []⟩
          else
            (e.clause d).params = (target.clause d).params ++ m'.values := by
  refine ⟨c.error_mapped_iff operand, Comparison.listOperand_eq_nil_iff operand, ?_⟩
  intro m hm m' hm'
  have hmapped : m.Filled := Operator.filled_of_mapped hm
  obtain ⟨halways, hnever⟩ := Comparison.template_of_mapped hm
  have hfilled : m'.Filled := by
    rcases hm' with rfl | rfl
    · exact hmapped
    · exact hmapped.casted
  have htemplate : m'.template = m.template := by
    rcases hm' with rfl | rfl
    · rfl
    · exact m.template_casted
  rw [← htemplate] at halways hnever
  refine ⟨hfilled, fun target => ⟨?_, ?_⟩⟩
  · rw [hfilled.apply_eq_none_iff, halways]
  · intro e he d
    split_ifs with hnothing
    · exact MappedOperator.clause_of_never (hnever.2 hnothing) he d
    · exact hfilled.params_apply he (fun h => hnothing (hnever.1 h)) d

/-- An array with null in it, which is cast as a text and keeps its two values. -/
def mixedItems : Json :=
  .arr [.num (.int 3), .null]

theorem mapped_operator_binds_values_mixedItems :
    (Operator.compare (.member true)).mapped mixedItems =
        .ok ⟨.inList true, [.int 3, .null]⟩ ∧
      (MappedOperator.mk (.inList true) [.int 3, .null]).text = "NOT IN (?, ?)" ∧
      (MappedOperator.mk (.inList true) [.int 3, .null]).casted =
        ⟨.inList true, [.str "3", .null]⟩ ∧
      ∃ e, (MappedOperator.mk (.inList true) [.int 3, .null]).casted.apply
          (.cast (.jsonValue "t" (some "k")) .text) = some e ∧
        (e.clause .postgres).params = [.str "k", .str "3", .null] := by
  refine ⟨rfl, by decide +kernel, rfl, ?_⟩
  have hbinds := (mapped_operator_binds_values (.member true) mixedItems).2.2 _ rfl _ (.inr rfl)
  obtain ⟨hnone, hparams⟩ := hbinds.2 (.cast (.jsonValue "t" (some "k")) .text)
  obtain ⟨e, he⟩ := Option.ne_none_iff_exists'.1 fun h => absurd (hnone.1 h) (by decide)
  have hsome := hparams e he .postgres
  rw [if_neg (by decide)] at hsome
  exact ⟨e, he, hsome⟩

end RowFilter
