import RowFilter.Proofs.BoundValues
import RowFilter.Proofs.KeyGrammar

/-!
# Lists that are written as texts

A list of items can be given as an array, or as one text with commas between the items and
blanks around them.  Both list the same values, except for the list of one empty text, which
as a text lists nothing.  Integers in a text are values of another kind than integers in an
array, but as bounds of a range they are the same numbers.

* `Text.trim_of_pads`: blanks around a text do not count.
* `Comparison.listOperand_commas`: the values that a text with commas lists.
* `Decimal.readInt?_intChars`: integers are read as they were written.
* `comma_texts_list_alike`: texts with commas and arrays.
-/

namespace RowFilter

/-! ## Blanks around texts -/

namespace Text

/-- The text with blanks around it. -/
def Pads (cs padded : List Char) : Prop :=
  ∃ left right, padded = left ++ cs ++ right ∧ (∀ c ∈ left, isBlank c = true) ∧
    ∀ c ∈ right, isBlank c = true

theorem trimEnd_append_of_blank
    (cs : List Char) {right : List Char}
    (h : ∀ c ∈ right, isBlank c = true) :
    trimEnd (cs ++ right) = trimEnd cs := by
  have hreverse : ∀ c ∈ right.reverse, isBlank c = true := by simpa using h
  rw [trimEnd, List.reverse_append, List.dropWhile_append_of_pos hreverse, trimEnd]

theorem trim_append_of_blank
    (cs : List Char) {right : List Char}
    (h : ∀ c ∈ right, isBlank c = true) :
    trim (cs ++ right) = trim cs := by
  rw [trim, trimStart, List.dropWhile_append]
  split
  · rename_i hblank
    rw [List.isEmpty_iff] at hblank
    rw [trim, trimStart, hblank, List.dropWhile_eq_nil_iff.2 h]
  · rw [trimEnd_append_of_blank _ h, trim, trimStart]

/-- Blanks around a text do not count. -/
theorem trim_of_pads
    {cs padded : List Char}
    (h : Pads cs padded) :
    trim padded = trim cs := by
  obtain ⟨left, right, rfl, hleft, hright⟩ := h
  rw [trim_append_of_blank _ hright, trim, trimStart, List.dropWhile_append_of_pos hleft, trim,
    trimStart]

theorem not_mem_of_pads
    {c : Char} {cs padded : List Char}
    (h : Pads cs padded) (hblank : isBlank c = false) (hc : c ∉ cs) :
    c ∉ padded := by
  obtain ⟨left, right, rfl, hleft, hright⟩ := h
  intro hmem
  rcases List.mem_append.1 hmem with hmem | hmem
  · rcases List.mem_append.1 hmem with hmem | hmem
    · simp [hleft c hmem] at hblank
    · exact hc hmem
  · simp [hright c hmem] at hblank

/-- The items of a list with blanks around them. -/
abbrev PadsEach (xs ys : List String) : Prop :=
  List.Forall₂ (fun x y => Pads x.toList y.toList) xs ys

theorem not_mem_of_padsEach
    {c : Char} {xs ys : List String}
    (h : PadsEach xs ys) (hblank : isBlank c = false) (hc : ∀ x ∈ xs, c ∉ x.toList) :
    ∀ y ∈ ys, c ∉ y.toList := by
  induction h with
  | nil => simp
  | cons hpads _ ih =>
      obtain ⟨hx, hxs⟩ := List.forall_mem_cons.1 hc
      exact List.forall_mem_cons.2 ⟨not_mem_of_pads hpads hblank hx, ih hxs⟩

end Text

/-! ## Texts with commas -/

namespace Comparison

variable {xs ys : List String}

theorem trimmed_of_padsEach
    (h : Text.PadsEach xs ys) (htrim : ∀ x ∈ xs, Text.trim x.toList = x.toList) :
    ys.map (fun y => Value.str (String.ofList (Text.trim y.toList))) = xs.map .str := by
  induction h with
  | nil => rfl
  | @cons x y xs ys hpads _ ih =>
      obtain ⟨hx, hxs⟩ := List.forall_mem_cons.1 htrim
      rw [List.map_cons, List.map_cons, ih hxs, Text.trim_of_pads hpads, hx, String.ofList_toList]

/-- The text of a list is blank only if there is no item, or one that is empty. -/
theorem trim_commas_ne_nil
    (h : Text.PadsEach xs ys) (htrim : ∀ x ∈ xs, Text.trim x.toList = x.toList)
    (hne : xs ≠ []) (hempty : xs ≠ [""]) :
    Text.trim (",".intercalate ys).toList ≠ [] := by
  cases h with
  | nil => exact absurd rfl hne
  | @cons x y xs ys hpads hrest =>
      cases hrest with
      | nil =>
          rw [String.intercalate_singleton, Text.trim_of_pads hpads, htrim x List.mem_cons_self]
          intro hx
          exact hempty (by rw [String.toList_eq_nil_iff.1 hx])
      | @cons x' y' xs ys _ _ =>
          have hcomma : ',' ∈ (",".intercalate (y :: y' :: ys)).toList := by
            rw [String.intercalate_cons_cons]
            simp
          exact List.ne_nil_of_mem (Text.mem_trim (by decide) hcomma)

/-- A text with commas lists the items between them. -/
theorem listOperand_commas
    (h : Text.PadsEach xs ys) (hcommas : ∀ x ∈ xs, ',' ∉ x.toList)
    (htrim : ∀ x ∈ xs, Text.trim x.toList = x.toList) (hempty : xs ≠ [""]) :
    listOperand (.str (",".intercalate ys)) = xs.map .str := by
  by_cases hne : xs = []
  · subst hne
    cases h
    rfl
  · have hys : ys ≠ [] := by
      rintro rfl
      cases h
      exact hne rfl
    have hcomma : ∀ y ∈ ys, ',' ∉ y.toList := Text.not_mem_of_padsEach h (by decide) hcommas
    have hseparator : ",".toList = [','] := rfl
    have hsplit := splitOn_intercalate hseparator hys hcomma
    rw [listOperand, if_neg (by simpa using trim_commas_ne_nil h htrim hne hempty), hsplit,
      List.map_map]
    exact trimmed_of_padsEach h htrim

/-- Membership and ranges look at the values that the operand lists only. -/
theorem criterion_eq_of_listOperand
    {c : Comparison} {negated : Bool} {operand operand' : Json}
    (hc : c = .member negated ∨ c = .between negated)
    (h : listOperand operand = listOperand operand') :
    c.criterion operand = c.criterion operand' := by
  rcases hc with rfl | rfl
  · rw [criterion, criterion, h]
  · rw [criterion, criterion, h]

theorem listOperand_texts
    (xs : List String) :
    listOperand (.arr (xs.map .str)) = xs.map .str := by
  rw [listOperand, List.map_map]
  rfl

/-- The list of one empty text is another list if it is written as a text. -/
theorem criterion_ne_of_empty
    {c : Comparison} {negated : Bool} {ys : List String}
    (hc : c = .member negated ∨ c = .between negated) (h : Text.PadsEach [""] ys) :
    c.criterion (.str (",".intercalate ys)) ≠ c.criterion (.arr [.str ""]) := by
  have hnothing : listOperand (.str (",".intercalate ys)) = listOperand .null := by
    cases h with
    | cons hpads hrest =>
        cases hrest
        rw [String.intercalate_singleton, listOperand, Text.trim_of_pads hpads]
        rfl
  rw [criterion_eq_of_listOperand hc hnothing]
  rcases hc with rfl | rfl
  · cases negated <;> simp [criterion, listOperand]
  · have hempty : (Value.str "").asNumber = .str "" := rfl
    simp [criterion, listOperand, bounds, bound?, Value.ofJson, hempty]

end Comparison

/-! ## Integers -/

namespace Decimal

theorem splitSign_digitChars
    (n : Nat) :
    splitSign (digitChars n) = (false, digitChars n) := by
  unfold splitSign
  split
  · rename_i rest hminus
    have hsign := isDigit_of_mem_digitChars (n := n) (d := '-') (by simp [hminus])
    cases hsign
  · rename_i rest hplus
    have hsign := isDigit_of_mem_digitChars (n := n) (d := '+') (by simp [hplus])
    cases hsign
  · rfl

/-- An integer of 64 bits is read as it was written. -/
theorem readInt?_intChars
    {i : Int}
    (h : fitsInt64 i = true) :
    readInt? (intChars i) = some i := by
  by_cases hnegative : i < 0
  · have hi : -(i.natAbs : Int) = i := by omega
    rw [intChars, if_pos hnegative]
    simp only [readInt?, splitSign, readDigits?_digitChars, if_true, hi, h]
  · have hi : (i.natAbs : Int) = i := by omega
    rw [intChars, if_neg hnegative]
    simp [readInt?, splitSign_digitChars, readDigits?_digitChars, hi, h]

theorem of_mem_intChars
    {i : Int} {c : Char}
    (h : c ∈ intChars i) :
    c = '-' ∨ c.isDigit = true := by
  unfold intChars at h
  split at h
  · rcases List.mem_cons.1 h with rfl | h
    · exact .inl rfl
    · exact .inr (Nat.isDigit_of_mem_toDigits (by decide) (by decide) h)
  · exact .inr (Nat.isDigit_of_mem_toDigits (by decide) (by decide) h)

theorem intChars_ne_nil
    (i : Int) :
    intChars i ≠ [] := by
  unfold intChars
  split
  · simp
  · exact Nat.toDigits_ne_nil

theorem trim_intChars
    (i : Int) :
    Text.trim (intChars i) = intChars i := by
  have hblank : ∀ c ∈ intChars i, Text.isBlank c = false := by
    intro c hc
    rcases of_mem_intChars hc with rfl | hdigit
    · decide
    · exact Text.not_isBlank_of_isDigit hdigit
  exact Text.trim_eq_self (fun c hc => hblank c (List.mem_of_mem_head? hc))
    fun c hc => hblank c (List.mem_of_getLast? hc)

/-- The decimal text of an integer. -/
def intText (i : Int) : String :=
  String.ofList (intChars i)

end Decimal

namespace Comparison

/-- The integer is the same bound in a text and in an array. -/
theorem bound?_intText
    {i : Int}
    (h : Decimal.fitsInt64 i = true) :
    bound? (.str (Decimal.intText i)) = some (.int i) := by
  have hread : Value.readNumber? (Decimal.intText i) = some (.int i) := by
    simp [Value.readNumber?, Decimal.intText, Decimal.trim_intChars, Decimal.readInt?_intChars h]
  simp [bound?, Value.asNumber, hread]

/-- The bounds of a range of integers: those that are missing are filled in. -/
theorem bounds_of_integers
    {values : List Value} {ints : List Int}
    (h : List.Forall₂ (fun i v => bound? v = some (.int i)) ints values) :
    bounds values = (.int (ints.headD 0), .int (ints.tail.headD (ints.headD 0))) := by
  cases h with
  | nil => rfl
  | cons hlow hrest =>
      cases hrest with
      | nil => simp [bounds, hlow]
      | cons hhigh _ => simp [bounds, hlow, hhigh]

variable {ints : List Int}

theorem bounds_integerTexts
    (h : ∀ i ∈ ints, Decimal.fitsInt64 i = true)
    (hpads : Text.PadsEach (ints.map Decimal.intText) ys) :
    bounds (listOperand (.str (",".intercalate ys))) =
      (.int (ints.headD 0), .int (ints.tail.headD (ints.headD 0))) := by
  have hcommas : ∀ x ∈ ints.map Decimal.intText, ',' ∉ x.toList := by
    intro x hx hcomma
    obtain ⟨i, -, rfl⟩ := List.mem_map.1 hx
    rw [Decimal.intText, String.toList_ofList] at hcomma
    rcases Decimal.of_mem_intChars hcomma with hminus | hdigit
    · exact absurd hminus (by decide)
    · exact absurd hdigit (by decide)
  have htrim : ∀ x ∈ ints.map Decimal.intText, Text.trim x.toList = x.toList := by
    simp [Decimal.intText, Decimal.trim_intChars]
  have hempty : ints.map Decimal.intText ≠ [""] := by
    intro heq
    obtain ⟨i, -, hi⟩ := List.mem_map.1 (heq ▸ List.mem_singleton_self "")
    exact Decimal.intChars_ne_nil i (by simpa [Decimal.intText] using congrArg String.toList hi)
  rw [listOperand_commas hpads hcommas htrim hempty, List.map_map]
  refine bounds_of_integers ?_
  rw [List.forall₂_map_right_iff, List.forall₂_same]
  exact fun i hi => bound?_intText (h i hi)

theorem bounds_integerItems
    (h : ∀ i ∈ ints, Decimal.fitsInt64 i = true) :
    bounds (listOperand (.arr (ints.map fun i => .num (.int i)))) =
      (.int (ints.headD 0), .int (ints.tail.headD (ints.headD 0))) := by
  rw [listOperand, List.map_map]
  refine bounds_of_integers ?_
  rw [List.forall₂_map_right_iff, List.forall₂_same]
  intro i hi
  simp [Value.ofJson, Value.ofNumber, h i hi, bound?, Value.asNumber]

end Comparison

/-- **Texts with commas and arrays.**  Let a list of texts without commas and without blanks at
their ends be given as an array, and as one text with commas between them and any blanks around
them.  Membership and ranges, negated or not, make the same of both, except for the list of one
empty text.  A range makes the same of integers of 64 bits in an array and of their decimal
texts: the first two are the bounds, where zero stands for a missing lower bound and the lower
bound for a missing upper one. -/
theorem comma_texts_list_alike
    (negated : Bool) :
    (∀ c : Comparison, c = .member negated ∨ c = .between negated →
      ∀ xs ys : List String, (∀ x ∈ xs, ',' ∉ x.toList ∧ Text.trim x.toList = x.toList) →
        Text.PadsEach xs ys →
        ((Operator.compare c).criterion (.str (",".intercalate ys)) =
          (Operator.compare c).criterion (.arr (xs.map .str)) ↔ xs ≠ [""])) ∧
    ∀ (ints : List Int) (ys : List String), (∀ i ∈ ints, Decimal.fitsInt64 i = true) →
      Text.PadsEach (ints.map Decimal.intText) ys →
      ∀ operand, operand = .str (",".intercalate ys) ∨
          operand = .arr (ints.map fun i => .num (.int i)) →
        (Operator.compare (.between negated)).criterion operand =
          .ok (.between (.int (ints.headD 0)) (.int (ints.tail.headD (ints.headD 0))) negated) := by
  constructor
  · intro c hc xs ys hxs hpads
    constructor
    · rintro heq rfl
      exact Comparison.criterion_ne_of_empty hc hpads heq
    · intro hempty
      have hlists : Comparison.listOperand (.str (",".intercalate ys)) =
          Comparison.listOperand (.arr (xs.map .str)) := by
        rw [Comparison.listOperand_texts]
        exact Comparison.listOperand_commas hpads (fun x hx => (hxs x hx).1)
          (fun x hx => (hxs x hx).2) hempty
      exact Comparison.criterion_eq_of_listOperand hc hlists
  · intro ints ys hfits hpads operand hoperand
    have hbounds : Comparison.bounds (Comparison.listOperand operand) =
        (.int (ints.headD 0), .int (ints.tail.headD (ints.headD 0))) := by
      rcases hoperand with rfl | rfl
      · exact Comparison.bounds_integerTexts hfits hpads
      · exact Comparison.bounds_integerItems hfits
    rw [Operator.criterion, Comparison.criterion, hbounds]

theorem comma_texts_list_alike_paddedItems :
    (Operator.compare (.member true)).criterion (.str " a,\t,b c\n") =
        (Operator.compare (.member true)).criterion (.arr [.str "a", .str "", .str "b c"]) ∧
      (Operator.compare (.between true)).criterion (.str " -5 ") =
        .ok (.between (.int (-5)) (.int (-5)) true) := by
  have hitems : Text.PadsEach ["a", "", "b c"] [" a", "\t", "b c\n"] :=
    .cons ⟨[' '], [], rfl, by simp [Text.isBlank], by simp⟩
      (.cons ⟨['\t'], [], rfl, by simp [Text.isBlank], by simp⟩
        (.cons ⟨[], ['\n'], rfl, by simp, by simp [Text.isBlank]⟩ .nil))
  have hints : Text.PadsEach ([-5].map Decimal.intText) [" -5 "] :=
    .cons ⟨[' '], [' '], rfl, by simp [Text.isBlank], by simp [Text.isBlank]⟩ .nil
  obtain ⟨htexts, hintegers⟩ := comma_texts_list_alike true
  exact ⟨(htexts _ (.inl rfl) _ _ (by decide) hitems).2 (by decide),
    hintegers [-5] _ (by decide) hints _ (.inl rfl)⟩

end RowFilter
