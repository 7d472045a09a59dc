import RowFilter.Criterion
import RowFilter.Proofs.Numerals

/-!
# Casts of criteria

What is taken out of a JSON document is a text, and a criterion on it decides to which type
it is cast before it is compared: to a number if there are values and all of them read as
numbers, else to a text.  The values are then brought to that type.  Both sides of the
comparison agree after that, and doing it a second time changes nothing.

* `Value.IsNumber` and `Value.IsText`: values of the two types.
* `Value.isNumber_asNumber_str_iff`: texts that read as numbers are those that become one.
* `Value.readsAsNumber_asText`: what does not read as a number does not as a text either.
* `casts_agree_with_values`: casts and values of every criterion.
-/

namespace RowFilter

namespace Value

/-- An integer of 64 bits or a finite double. -/
def IsNumber : Value → Prop
  | .int i => Decimal.fitsInt64 i = true
  | .float x => x.isFinite = true
  | _ => False

/-- A text or null. -/
def IsText : Value → Prop
  | .str _ => True
  | .null => True
  | _ => False

/-- The values that operands have: an integer has 64 bits, and only arrays and objects stay
documents. -/
def OfOperand : Value → Prop
  | .int i => Decimal.fitsInt64 i = true
  | .json (.arr _) => True
  | .json (.obj _) => True
  | .json _ => False
  | _ => True

/-! ## Numbers -/

theorem isNumber_of_readNumber?
    {s : String} {v : Value}
    (h : readNumber? s = some v) :
    v.IsNumber := by
  simp only [readNumber?] at h
  split at h
  · rename_i i hi
    cases h
    exact (Decimal.digits_of_readInt? hi).2
  · split at h
    · split_ifs at h with hfinite
      cases h
      exact hfinite
    · cases h

/-- The reader of integers and doubles accepts the texts that the reader of doubles judges to
be numbers. -/
theorem isSome_readNumber?
    (s : String) :
    (readNumber? s).isSome = (Value.str s).readsAsNumber := by
  rw [readsAsNumber, toDouble?]
  simp only [readNumber?]
  cases hint : Decimal.readInt? (Text.trim s.toList) with
  | some i =>
      obtain ⟨x, hx, hfinite⟩ := Decimal.exists_finite_of_readInt? hint
      rw [hx, Option.any_some, hfinite]
      rfl
  | none =>
      cases hdouble : Decimal.readDouble? (Text.trim s.toList) with
      | none => rfl
      | some x => cases hfinite : x.isFinite <;> simp [hfinite]

/-- A text reads as a number exactly if it becomes one. -/
theorem isNumber_asNumber_str_iff
    (s : String) :
    (Value.str s).asNumber.IsNumber ↔ (Value.str s).readsAsNumber = true := by
  rw [← isSome_readNumber?, asNumber]
  cases hread : readNumber? s with
  | none => simp [IsNumber]
  | some v => simp [isNumber_of_readNumber? hread]

theorem isNumber_asNumber
    {v : Value}
    (hv : v.OfOperand) (h : v.readsAsNumber = true) :
    v.asNumber.IsNumber := by
  cases v with
  | int i => exact hv
  | float x => exact h
  | str s => exact (isNumber_asNumber_str_iff s).2 h
  | bool b => cases h
  | null => cases h
  | json j =>
      cases j with
      | num n => cases hv
      | _ => cases h

theorem readsAsNumber_of_isNumber
    {v : Value}
    (h : v.IsNumber) :
    v.readsAsNumber = true := by
  cases v with
  | int i => exact Double.isFinite_ofInt h
  | float x => exact h
  | _ => cases h

theorem asNumber_of_isNumber
    {v : Value}
    (h : v.IsNumber) :
    v.asNumber = v := by
  cases v with
  | str s => cases h
  | _ => rfl

/-! ## Texts -/

theorem isText_asText
    (v : Value) :
    v.asText.IsText := by
  unfold asText
  split <;> trivial

theorem asText_of_isText
    {v : Value}
    (h : v.IsText) :
    v.asText = v := by
  cases v with
  | str s => rfl
  | null => rfl
  | _ => cases h

/-- A text with a character that no number is written with does not read as one. -/
theorem readsAsNumber_str_of_mem
    {c : Char} {s : String}
    (hblank : Text.isBlank c = false) (hc : Decimal.isNumeral c = false) (h : c ∈ s.toList) :
    (Value.str s).readsAsNumber = false := by
  rw [readsAsNumber, toDouble?, Decimal.readDouble?_eq_none hc (Text.mem_trim hblank h)]
  rfl

/-- What is no number in a double is none in its text. -/
theorem readsAsNumber_text_of_not_isFinite
    {x : Double}
    (h : x.isFinite = false) :
    (Value.str (doubleLayout.text x)).readsAsNumber = false := by
  have hwords : ∀ word ∈ ["NaN", "inf", "-inf"], (Value.str word).readsAsNumber = false := by
    decide +kernel
  refine hwords _ ?_
  unfold Decimal.Layout.text
  split
  · exact List.mem_cons_self
  · rw [if_neg (by simp [h])]
    cases x.isNegative <;> decide

/-- What does not read as a number does not so when it is made a text. -/
theorem readsAsNumber_asText
    {v : Value}
    (hv : v.OfOperand) (h : v.readsAsNumber = false) :
    v.asText.readsAsNumber = false := by
  cases v with
  | int i =>
      rw [readsAsNumber_of_isNumber (show (Value.int i).IsNumber from hv)] at h
      cases h
  | float x => exact readsAsNumber_text_of_not_isFinite h
  | str s => exact h
  | bool b => cases b <;> decide +kernel
  | null => rfl
  | json j =>
      cases j with
      | arr items =>
          refine readsAsNumber_str_of_mem (c := '[') (by decide) (by decide) ?_
          simp [Json.compact]
      | obj members =>
          refine readsAsNumber_str_of_mem (c := '\x7b') (by decide) (by decide) ?_
          simp [Json.compact]
      | _ => cases hv

/-! ## Values of operands -/

theorem ofOperand_ofJson
    (operand : Json) :
    (ofJson operand).OfOperand := by
  cases operand with
  | num n =>
      cases n with
      | int i =>
          rw [ofJson, ofNumber]
          split_ifs with hfits
          · exact hfits
          · trivial
      | float x => trivial
  | _ => trivial

theorem OfOperand.asNumber
    {v : Value}
    (h : v.OfOperand) :
    v.asNumber.OfOperand := by
  cases v with
  | str s =>
      rw [Value.asNumber]
      cases hread : readNumber? s with
      | none => trivial
      | some w =>
          have hw := isNumber_of_readNumber? hread
          cases w with
          | int i => exact hw
          | float x => trivial
          | _ => cases hw
  | _ => exact h

end Value

namespace Comparison

theorem ofOperand_of_mem_listOperand
    {operand : Json} {v : Value}
    (h : v ∈ listOperand operand) :
    v.OfOperand := by
  cases operand with
  | arr items =>
      obtain ⟨item, -, rfl⟩ := List.mem_map.1 h
      exact Value.ofOperand_ofJson item
  | str s =>
      rw [listOperand] at h
      split_ifs at h
      · cases h
      · obtain ⟨part, -, rfl⟩ := List.mem_map.1 h
        trivial
  | null => cases h
  | _ =>
      rw [List.mem_singleton.1 h]
      exact Value.ofOperand_ofJson _

theorem ofOperand_bound
    {v? : Option Value} {default : Value}
    (h : ∀ v ∈ v?, v.OfOperand) (hdefault : default.OfOperand) :
    ((v?.bind bound?).getD default).OfOperand := by
  cases v? with
  | none => exact hdefault
  | some v =>
      cases v with
      | null => exact hdefault
      | _ => exact (h _ rfl).asNumber

theorem ofOperand_bounds
    {values : List Value}
    (h : ∀ v ∈ values, v.OfOperand) :
    (bounds values).1.OfOperand ∧ (bounds values).2.OfOperand := by
  have hlow : (bounds values).1.OfOperand :=
    ofOperand_bound (fun v hv => h v (List.mem_of_mem_head? hv)) rfl
  have htail : ∀ v ∈ values.tail.head?, v.OfOperand := fun v hv =>
    h v (List.mem_of_mem_tail (List.mem_of_mem_head? hv))
  exact ⟨hlow, ofOperand_bound htail hlow⟩

/-- The values of a criterion are values of operands. -/
theorem ofOperand_of_criterion
    {c : Comparison} {operand : Json} {k : Criterion}
    (h : c.criterion operand = .ok k) :
    ∀ v ∈ k.values, v.OfOperand := by
  have hoperand := Value.ofOperand_ofJson operand
  have hlist : ∀ v ∈ listOperand operand, v.OfOperand := fun v => ofOperand_of_mem_listOperand
  cases c with
  | equal negated =>
      rw [criterion] at h
      split at h
      · cases h
        simp [Criterion.values]
      · cases h
        simpa [Criterion.values] using hoperand
  | inequality i =>
      cases h
      simpa [Criterion.values] using hoperand.asNumber
  | member negated =>
      rw [criterion] at h
      split at h
      · cases h
        cases negated <;> simp [Criterion.values]
      · cases h
        exact hlist
  | between negated =>
      cases h
      obtain ⟨hlow, hhigh⟩ := ofOperand_bounds hlist
      exact List.forall_mem_cons.2 ⟨hlow, List.forall_mem_singleton.2 hhigh⟩
  | pattern p =>
      rw [criterion] at h
      split at h
      · cases h
        simp [Criterion.values, Value.OfOperand]
      · cases h
  | _ =>
      cases h
      simp [Criterion.values]

/-- A pattern holds a character that no number is written with. -/
theorem values_of_pattern
    {p : Pattern} {operand : Json} {k : Criterion}
    (h : (pattern p).criterion operand = .ok k) :
    ∃ s : String, k.values = [.str s] ∧ '%' ∈ s.toList := by
  rw [criterion] at h
  split at h
  · cases h
    refine ⟨_, rfl, ?_⟩
    cases p.anchor <;> simp [Anchor.around]
  · cases h

end Comparison

/-! ## Criteria -/

namespace Criterion

theorem castType_eq_numeric_iff
    (k : Criterion) :
    k.castType = .numeric ↔ k.values ≠ [] ∧ ∀ v ∈ k.values, v.readsAsNumber = true := by
  unfold castType
  split_ifs with h
  · simpa [imp_iff_or_not, or_comm] using h
  · simpa using h

theorem casted_of_numeric
    {k : Criterion}
    (h : k.castType = .numeric) :
    k.casted = k.map Value.asNumber := by
  rw [casted, h]

theorem casted_of_text
    {k : Criterion}
    (h : k.castType = .text) :
    k.casted = k.map Value.asText := by
  rw [casted, h]

theorem map_eq_self
    {f : Value → Value} {k : Criterion}
    (h : ∀ v ∈ k.values, f v = v) :
    k.map f = k := by
  cases k with
  | inList vs negated =>
      have hvalues : vs.map f = vs := (List.map_congr_left h).trans (List.map_id' vs)
      rw [map, hvalues]
  | _ => simp_all [map, values]

section Operands

variable {k : Criterion}

theorem values_casted_ne_nil
    (hcast : k.castType = .numeric) :
    k.casted.values ≠ [] := by
  have hne := ((castType_eq_numeric_iff k).1 hcast).1
  simpa [casted_of_numeric hcast] using hne

/-- After a cast to numbers all values are numbers. -/
theorem isNumber_of_mem_casted
    (hk : ∀ v ∈ k.values, v.OfOperand) (hcast : k.castType = .numeric) :
    ∀ v ∈ k.casted.values, v.IsNumber := by
  obtain ⟨-, hnumbers⟩ := (castType_eq_numeric_iff k).1 hcast
  rw [casted_of_numeric hcast, values_map, List.forall_mem_map]
  exact fun v hv => Value.isNumber_asNumber (hk v hv) (hnumbers v hv)

/-- After a cast to texts all values are texts or null. -/
theorem isText_of_mem_casted
    (hcast : k.castType = .text) :
    ∀ v ∈ k.casted.values, v.IsText := by
  rw [casted_of_text hcast, values_map, List.forall_mem_map]
  exact fun v _ => v.isText_asText

/-- The values after a cast ask for the same cast. -/
theorem castType_casted
    (hk : ∀ v ∈ k.values, v.OfOperand) :
    k.casted.castType = k.castType := by
  cases hcast : k.castType with
  | numeric =>
      refine (castType_eq_numeric_iff _).2 ⟨values_casted_ne_nil hcast, fun v hv => ?_⟩
      exact Value.readsAsNumber_of_isNumber (isNumber_of_mem_casted hk hcast v hv)
  | text =>
      -- a value that is no number is none as a text
      cases hcasted : k.casted.castType with
      | text => rfl
      | numeric =>
          obtain ⟨hne, hnumbers⟩ := (castType_eq_numeric_iff _).1 hcasted
          rw [casted_of_text hcast, values_map] at hne hnumbers
          rw [List.forall_mem_map] at hnumbers
          have hnumeric : k.castType = .numeric := by
            refine (castType_eq_numeric_iff k).2 ⟨by simpa using hne, fun v hv => ?_⟩
            by_contra hno
            rw [Bool.not_eq_true] at hno
            have htext := Value.readsAsNumber_asText (hk v hv) hno
            rw [hnumbers v hv] at htext
            cases htext
          rw [hnumeric] at hcast
          cases hcast

/-- A second cast changes nothing. -/
theorem casted_casted
    (hk : ∀ v ∈ k.values, v.OfOperand) :
    k.casted.casted = k.casted := by
  have hagain := castType_casted hk
  cases hcast : k.castType with
  | numeric =>
      rw [hcast] at hagain
      rw [casted_of_numeric hagain]
      exact map_eq_self fun v hv =>
        Value.asNumber_of_isNumber (isNumber_of_mem_casted hk hcast v hv)
  | text =>
      rw [hcast] at hagain
      rw [casted_of_text hagain]
      exact map_eq_self fun v hv => Value.asText_of_isText (isText_of_mem_casted hcast v hv)

end Operands

/-- A pattern is compared as the text that it is. -/
theorem casted_of_pattern
    {p : Pattern} {operand : Json} {k : Criterion}
    (h : (Comparison.pattern p).criterion operand = .ok k) :
    k.castType = .text ∧ k.casted = k := by
  obtain ⟨s, hvalues, hmem⟩ := Comparison.values_of_pattern h
  have hno : (Value.str s).readsAsNumber = false :=
    Value.readsAsNumber_str_of_mem (by decide) (by decide) hmem
  have hcast : k.castType = .text := by
    simp [castType, hvalues, hno]
  refine ⟨hcast, ?_⟩
  rw [casted_of_text hcast]
  refine map_eq_self ?_
  rw [hvalues]
  exact List.forall_mem_singleton.2 rfl

end Criterion

/-- **Casts and values agree.**  For every operator and operand that have a criterion: if the
cast is to numbers then there are values, and after it all of them are integers or finite
doubles; if it is to texts then all of them are texts or null; a pattern is always cast to a
text and keeps its value; and the criterion after the cast asks for the same cast, which leaves
it as it is.  A text reads as a number exactly if it is made one. -/
theorem casts_agree_with_values :
    (∀ (op : Operator) (operand : Json) (k : Criterion), op.criterion operand = .ok k →
      (k.castType = .numeric → k.casted.values ≠ [] ∧ ∀ v ∈ k.casted.values, v.IsNumber) ∧
      (k.castType = .text → ∀ v ∈ k.casted.values, v.IsText) ∧
      (op.isPattern = true → k.castType = .text ∧ k.casted = k) ∧
      k.casted.castType = k.castType ∧ k.casted.casted = k.casted) ∧
    ∀ s : String, (Value.str s).readsAsNumber = true ↔ (Value.str s).asNumber.IsNumber := by
  constructor
  · intro op operand k h
    cases op with
    | quantify q => cases h
    | compare c =>
        have hk := Comparison.ofOperand_of_criterion h
        refine ⟨fun hcast => ?_, Criterion.isText_of_mem_casted, fun hpattern => ?_,
          Criterion.castType_casted hk, Criterion.casted_casted hk⟩
        · exact ⟨Criterion.values_casted_ne_nil hcast, Criterion.isNumber_of_mem_casted hk hcast⟩
        · cases c with
          | pattern p => exact Criterion.casted_of_pattern h
          | _ => cases hpattern
  · exact fun s => (Value.isNumber_asNumber_str_iff s).symm

/-- A list with a sign, a power of ten and an integer that needs more than 64 bits. -/
def writtenNumbers : Json :=
  .str "+7, -1e3,9223372036854775808"

theorem casts_agree_with_values_writtenNumbers :
    ∃ k : Criterion, (Operator.compare (.member false)).criterion writtenNumbers = .ok k ∧
      k.values = [.str "+7", .str "-1e3", .str "9223372036854775808"] ∧
      k.castType = .numeric ∧ (∀ v ∈ k.casted.values, v.IsNumber) ∧
      k.casted.casted = k.casted := by
  have hcast : (Criterion.inList [.str "+7", .str "-1e3", .str "9223372036854775808"]
      false).castType = .numeric := by decide +kernel
  obtain ⟨hnumbers, -, -, -, hagain⟩ :=
    casts_agree_with_values.1 (.compare (.member false)) writtenNumbers _ rfl
  exact ⟨_, rfl, rfl, hcast, (hnumbers hcast).2, hagain⟩

end RowFilter
