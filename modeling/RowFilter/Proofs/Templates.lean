import Mathlib.Data.List.Basic
import RowFilter.MappedOperator

/-!
# Templates and their values

A mapped operator may have any number of values.  If it has one for each placeholder of its
template then it is a criterion, and no condition is lost for want of a value.  The mapping of
operators only gives such.

* `MappedOperator.Filled`: as many values as placeholders.
* `Criterion.mapped`: the template and the values of a criterion.
* `MappedOperator.filled_iff`: what is filled is a criterion.
* `Comparison.mapped_eq`: an operator is mapped to the template and the values of its criterion.
* `MappedOperator.Filled.apply_eq_none_iff`: a filled template builds its condition.
-/

namespace RowFilter

open Sql (Expr)

/-- There is a value for each placeholder, and no other. -/
def MappedOperator.Filled (m : MappedOperator) : Prop :=
  m.text.toList.count '?' = m.values.length

namespace Criterion

/-! ## Criteria as templates with values -/

/-- The template and the values of a criterion. -/
def mapped : Criterion → MappedOperator
  | compare op v => ⟨.compare op, [v]⟩
  | like pattern negated caseless => ⟨.like negated caseless, [pattern]⟩
  | inList vs negated => ⟨.inList negated, vs⟩
  | between low high negated => ⟨.between negated, [low, high]⟩
  | isNull negated => ⟨.isNull negated, []⟩
  | never => ⟨.never, []⟩
  | always => ⟨.always, []⟩

@[simp] theorem values_mapped
    (k : Criterion) :
    k.mapped.values = k.values := by
  cases k <;> rfl

theorem text_mapped
    (k : Criterion) :
    k.mapped.text = k.template := by
  cases k with
  | inList vs negated => simp [mapped, MappedOperator.text, template, List.map_const']
  | _ => rfl

theorem castType_mapped
    (k : Criterion) :
    k.mapped.castType = k.castType := by
  rw [MappedOperator.castType, values_mapped, castType]

theorem mapped_map
    (f : Value → Value) (k : Criterion) :
    (k.map f).mapped = { k.mapped with values := k.mapped.values.map f } := by
  cases k <;> rfl

theorem casted_mapped
    (k : Criterion) :
    k.mapped.casted = k.casted.mapped := by
  rw [MappedOperator.casted, castType_mapped, casted]
  cases k.castType with
  | numeric => exact (mapped_map Value.asNumber k).symm
  | text => exact (mapped_map Value.asText k).symm

theorem apply_mapped
    (target : Expr) (k : Criterion) :
    k.mapped.apply target = k.apply target := by
  cases k <;> rfl

theorem template_mapped_eq_always_iff
    (k : Criterion) :
    k.mapped.template = .always ↔ k.isAlways = true := by
  cases k <;> simp [mapped, isAlways]

/-! ## Placeholders -/

/-- One mark for each item of a list. -/
theorem count_marks
    (vs : List Value) :
    ([',', ' '].intercalate (vs.map fun _ => ['?'])).count '?' = vs.length := by
  induction vs with
  | nil => rfl
  | cons v rest ih =>
      cases rest with
      | nil => rfl
      | cons next others =>
          rw [List.map_cons] at ih
          rw [List.map_cons, List.map_cons, List.intercalate_cons_cons, List.count_append,
            List.count_append, ih, List.length_cons]
          exact Nat.add_comm _ _

/-- A criterion has a placeholder for each of its values. -/
theorem count_template
    (k : Criterion) :
    k.template.toList.count '?' = k.values.length := by
  cases k with
  | compare op v =>
      have hcount : (op.symbol ++ " ?").toList.count '?' = 1 := by
        cases op <;> decide
      exact hcount
  | like pattern negated caseless =>
      have hcount : (if negated then "NOT LIKE ?" else "LIKE ?").toList.count '?' = 1 := by
        cases negated <;> decide
      exact hcount
  | inList vs negated =>
      have hkeyword : (if negated then "NOT IN" else "IN").toList.count '?' = 0 := by
        cases negated <;> decide
      have hmarks := count_marks vs
      rw [template, String.toList_append, String.toList_append, String.toList_append,
        String.toList_intercalate, List.map_map]
      simpa [values, hkeyword, Function.comp_def] using hmarks
  | between low high negated =>
      have hcount : (if negated then "NOT BETWEEN ? AND ?" else
          "BETWEEN ? AND ?").toList.count '?' = 2 := by
        cases negated <;> decide
      exact hcount
  | isNull negated => cases negated <;> decide
  | never => decide
  | always => rfl

theorem filled_mapped
    (k : Criterion) :
    k.mapped.Filled := by
  rw [MappedOperator.Filled, text_mapped, values_mapped, count_template]

end Criterion

namespace MappedOperator

/-- A template with a value for each placeholder is a criterion.  The text of a template has
the same placeholders for all values, that of a list apart, so their number is the one that
the criterion has with any values. -/
theorem Filled.exists_criterion
    {m : MappedOperator}
    (h : m.Filled) :
    ∃ k : Criterion, m = k.mapped := by
  obtain ⟨template, values⟩ := m
  cases template with
  | compare op =>
      have hcount := (Criterion.compare op .null).count_template
      obtain ⟨v, rfl⟩ := List.length_eq_one_iff.1 (h.symm.trans hcount)
      exact ⟨.compare op v, rfl⟩
  | like negated caseless =>
      have hcount := (Criterion.like .null negated caseless).count_template
      obtain ⟨pattern, rfl⟩ := List.length_eq_one_iff.1 (h.symm.trans hcount)
      exact ⟨.like pattern negated caseless, rfl⟩
  | inList negated => exact ⟨.inList values negated, rfl⟩
  | between negated =>
      have hcount := (Criterion.between .null .null negated).count_template
      obtain ⟨low, high, rfl⟩ := List.length_eq_two.1 (h.symm.trans hcount)
      exact ⟨.between low high negated, rfl⟩
  | isNull negated =>
      have hcount := (Criterion.isNull negated).count_template
      cases List.length_eq_zero_iff.1 (h.symm.trans hcount)
      exact ⟨.isNull negated, rfl⟩
  | never =>
      cases List.length_eq_zero_iff.1 (h.symm.trans Criterion.never.count_template)
      exact ⟨.never, rfl⟩
  | always =>
      cases List.length_eq_zero_iff.1 (h.symm.trans Criterion.always.count_template)
      exact ⟨.always, rfl⟩

/-- Criteria are the templates with a value for each placeholder. -/
theorem filled_iff
    (m : MappedOperator) :
    m.Filled ↔ ∃ k : Criterion, m = k.mapped := by
  constructor
  · exact Filled.exists_criterion
  · rintro ⟨k, rfl⟩
    exact k.filled_mapped

@[simp] theorem template_casted
    (m : MappedOperator) :
    m.casted.template = m.template := by
  unfold casted
  split <;> rfl

theorem Filled.casted
    {m : MappedOperator}
    (h : m.Filled) :
    m.casted.Filled := by
  obtain ⟨k, rfl⟩ := m.filled_iff.1 h
  rw [k.casted_mapped]
  exact k.casted.filled_mapped

/-- No condition is lost for want of a value. -/
theorem Filled.apply_eq_none_iff
    {m : MappedOperator}
    (h : m.Filled) (target : Expr) :
    m.apply target = none ↔ m.template = .always := by
  obtain ⟨k, rfl⟩ := m.filled_iff.1 h
  rw [k.apply_mapped, k.apply_eq_none_iff, k.template_mapped_eq_always_iff]

-- without its upper bound a range asks nothing
example (target : Expr) : apply target ⟨.between false, [.int 1]⟩ = none := rfl

end MappedOperator

/-! ## The mapping -/

/-- A comparison is mapped to the template and the values of its criterion. -/
theorem Comparison.mapped_eq
    (c : Comparison) (operand : Json) :
    c.mapped operand = (c.criterion operand).map Criterion.mapped := by
  unfold mapped criterion
  cases c with
  | equal negated => cases Value.ofJson operand <;> rfl
  | member negated =>
      cases listOperand operand with
      | nil => cases negated <;> rfl
      | cons v rest => rfl
  | pattern p => cases (Value.ofJson operand).toText? <;> rfl
  | _ => rfl

theorem Operator.mapped_eq
    (op : Operator) (operand : Json) :
    op.mapped operand = (op.criterion operand).map Criterion.mapped := by
  cases op with
  | compare c => exact c.mapped_eq operand
  | quantify q => rfl

/-- The template that holds of everything stands for the criterion that everything meets. -/
theorem Operator.mapped_eq_always_iff
    {op : Operator} {operand : Json} :
    op.mapped operand = .ok ⟨.always, []⟩ ↔ op.criterion operand = .ok .always := by
  rw [op.mapped_eq]
  cases op.criterion operand with
  | error e => simp [Except.map]
  | ok k => cases k <;> simp [Except.map, Criterion.mapped]

/-- An operator is mapped to a template with a value for each placeholder. -/
theorem Operator.filled_of_mapped
    {op : Operator} {operand : Json} {m : MappedOperator}
    (h : op.mapped operand = .ok m) :
    m.Filled := by
  rw [op.mapped_eq] at h
  cases hk : op.criterion operand with
  | error e =>
      rw [hk] at h
      cases h
  | ok k =>
      rw [hk] at h
      cases h
      exact k.filled_mapped

end RowFilter
