import Mathlib.Data.Nat.Digits.Defs
import RowFilter.Proofs.Segments

/-!
# Numbers in texts

A text is judged to be a number by reading it as a double, and it becomes a number by reading
it as an integer first.  An integer of 64 bits has a finite double next to it, so whatever is
read as an integer passes the judgment.  A text with a character that no number is written
with does not pass.

* `Double.isFinite_ofInt`: the doubles nearest to integers of 64 bits.
* `Decimal.exists_finite_of_readInt?`: what is read as an integer is read as a double.
* `Decimal.readDouble?_eq_none`: what is not read as a double.
-/

namespace RowFilter

/-! ## Doubles nearest to integers -/

namespace Double

theorem magnitude_ofMagnitude
    (negative : Bool) {m : Nat}
    (h : m < Nat.pow 2 63) :
    (ofMagnitude negative m).magnitude = m := by
  have hbits : (ofMagnitude negative m).bits.toNat =
      (m + if negative then Nat.pow 2 63 else 0) % 2 ^ 64 := by
    rw [ofMagnitude, Nat.mod_eq_of_lt h]
    exact UInt64.toNat_ofNat'
  rw [magnitude, hbits]
  have hpow : Nat.pow 2 63 = 2 ^ 63 := rfl
  rw [hpow] at h ⊢
  split <;> omega

theorem isFinite_ofMagnitude
    (negative : Bool) {m : Nat}
    (h : m < infinityBits) :
    (ofMagnitude negative m).isFinite = true := by
  have hbits : infinityBits < Nat.pow 2 63 := by decide
  rw [isFinite, magnitude_ofMagnitude negative (h.trans hbits)]
  exact decide_eq_true h

theorem roundHalfEven_le
    (num den : Nat) :
    roundHalfEven num den ≤ num / den + 1 := by
  simp only [roundHalfEven]
  split_ifs <;> omega

theorem floorLog2_one
    {num : Nat}
    (h : num ≠ 0) :
    floorLog2 num 1 = num.log2 := by
  have hone : Nat.log2 1 = 0 := by decide
  have hneg : (-(num.log2 : Int)).toNat = 0 := by omega
  have hlow : ¬num * Nat.pow 2 0 < 1 * Nat.pow 2 num.log2 := by
    rw [Nat.one_mul, Nat.not_lt]
    exact (Nat.log2_self_le h).trans_eq (Nat.mul_one num).symm
  simp only [floorLog2, hone, Int.natCast_zero, Int.sub_zero, hneg, Int.toNat_natCast]
  exact if_neg hlow

/-- A natural that is scaled to 53 binary digits rounds to 2^53 at most. -/
theorem roundHalfEven_scaled_le
    (num : Nat) :
    roundHalfEven (num * Nat.pow 2 (52 - num.log2)) (1 * Nat.pow 2 (num.log2 - 52)) ≤
      2 ^ 53 := by
  have hbelow : num * 2 ^ (52 - num.log2) < 2 ^ (num.log2 - 52) * 2 ^ 53 :=
    calc num * 2 ^ (52 - num.log2)
        < 2 ^ (num.log2 + 1) * 2 ^ (52 - num.log2) :=
          Nat.mul_lt_mul_of_pos_right Nat.lt_log2_self (Nat.two_pow_pos _)
      _ = 2 ^ (num.log2 - 52) * 2 ^ 53 := by
          rw [← Nat.pow_add, ← Nat.pow_add]
          congr 1
          omega
  rw [Nat.one_mul]
  exact (roundHalfEven_le _ _).trans (Nat.div_lt_of_lt_mul hbelow)

/-- The double nearest to an integer of 64 bits is finite. -/
theorem isFinite_ofRatio_one
    (negative : Bool) {num : Nat}
    (h : num < 2 ^ 64) :
    (ofRatio negative num 1).isFinite = true := by
  by_cases hzero : num = 0
  · subst hzero
    exact isFinite_ofMagnitude negative (by decide)
  · have hlog : num.log2 < 64 := (Nat.log2_lt hzero).2 h
    have hq : max ((num.log2 : Int) - 52) (-1074) = (num.log2 : Int) - 52 := by omega
    have hnegative : (-((num.log2 : Int) - 52)).toNat = 52 - num.log2 := by omega
    have hpositive : ((num.log2 : Int) - 52).toNat = num.log2 - 52 := by omega
    have hexponent : ((num.log2 : Int) - 52 + 1074).toNat ≤ 1085 := by omega
    have hsignificand := roundHalfEven_scaled_le num
    simp only [ofRatio, beq_iff_eq, hzero, if_false, floorLog2_one hzero, hq, hnegative,
      hpositive]
    refine isFinite_ofMagnitude negative ((Nat.min_le_left _ _).trans_lt ?_)
    calc ((num.log2 : Int) - 52 + 1074).toNat * 2 ^ 52 +
          roundHalfEven (num * Nat.pow 2 (52 - num.log2)) (1 * Nat.pow 2 (num.log2 - 52))
        ≤ 1085 * 2 ^ 52 + 2 ^ 53 :=
          Nat.add_le_add (Nat.mul_le_mul_right _ hexponent) hsignificand
      _ < infinityBits := by decide

theorem natAbs_lt_of_fitsInt64
    {i : Int}
    (h : Decimal.fitsInt64 i = true) :
    i.natAbs < 2 ^ 64 := by
  have hpow : (Nat.pow 2 63 : Int) = 2 ^ 63 := rfl
  rw [Decimal.fitsInt64, Bool.and_eq_true, decide_eq_true_eq, decide_eq_true_eq, hpow] at h
  omega

theorem isFinite_ofInt
    {i : Int}
    (h : Decimal.fitsInt64 i = true) :
    (ofInt i).isFinite = true :=
  isFinite_ofRatio_one _ (natAbs_lt_of_fitsInt64 h)

theorem isFinite_ofDecimal_zero
    (negative : Bool) {n : Nat}
    (h : n < 2 ^ 64) :
    (ofDecimal negative n 0).isFinite = true := by
  have hdigits : (Nat.toDigits 10 n).length ≤ 20 :=
    Nat.toDigits_length 10 n 20 (by decide) (h.trans (by decide))
  have hlarge : ¬((Nat.toDigits 10 n).length : Int) + 0 > 400 := by omega
  have hsmall : ¬((Nat.toDigits 10 n).length : Int) + 0 < -400 := by omega
  have hone : n * Nat.pow 10 (Int.toNat 0) = n := Nat.mul_one n
  rw [ofDecimal]
  split_ifs
  · exact isFinite_ofMagnitude negative (by decide)
  · rw [hone]
    exact isFinite_ofRatio_one negative h

end Double

/-! ## Reading -/

namespace Decimal

theorem readDigits?_eq_some
    {cs : List Char} {n : Nat}
    (h : readDigits? cs = some n) :
    cs ≠ [] ∧ (∀ c ∈ cs, isDigit c = true) ∧ digitsValue cs = n := by
  unfold readDigits? at h
  split_ifs at h with hdigits
  rw [Bool.and_eq_true, decide_eq_true_eq, List.all_eq_true] at hdigits
  exact ⟨hdigits.1, hdigits.2, Option.some.inj h⟩

theorem digits_of_readInt?
    {cs : List Char} {i : Int}
    (h : readInt? cs = some i) :
    readDigits? (splitSign cs).2 = some i.natAbs ∧ fitsInt64 i = true := by
  simp only [readInt?] at h
  cases hdigits : readDigits? (splitSign cs).2 with
  | none => simp [hdigits] at h
  | some n =>
      simp only [hdigits, Option.ite_none_right_eq_some, Option.some.injEq] at h
      obtain ⟨hfits, rfl⟩ := h
      refine ⟨?_, hfits⟩
      cases (splitSign cs).1 <;> simp

theorem toLower_of_isDigit
    {c : Char}
    (h : isDigit c = true) :
    c.toLower = c := by
  unfold Char.toLower
  split
  · rename_i hupper
    rw [isDigit, Bool.and_eq_true, decide_eq_true_eq, decide_eq_true_eq, Char.le_def, Char.le_def] at h
    exact absurd (UInt32.le_trans hupper.1 h.2) (by decide)
  · rfl

/-- Digits spell none of the words. -/
theorem map_toLower_ne
    {cs : List Char} {word : String}
    (h : ∀ c ∈ cs, isDigit c = true) (hword : word.toList.any (fun c => !isDigit c) = true) :
    cs.map Char.toLower ≠ word.toList := by
  rw [List.map_congr_left fun c hc => toLower_of_isDigit (h c hc), List.map_id']
  rintro rfl
  obtain ⟨c, hc, hdigit⟩ := List.any_eq_true.1 hword
  simp [h c hc] at hdigit

/-- A row of digits is read whole, as the integer that it spells. -/
theorem readDouble?_of_digits
    {cs : List Char} {n : Nat}
    (h : readDigits? (splitSign cs).2 = some n) :
    readDouble? cs = some (Double.ofDecimal (splitSign cs).1 n 0) := by
  obtain ⟨hne, hdigits, rfl⟩ := readDigits?_eq_some h
  have hword (word : String) (hword : word.toList.any (fun c => !isDigit c) = true) :=
    map_toLower_ne hdigits hword
  have htake : (splitSign cs).2.takeWhile isDigit = (splitSign cs).2 :=
    List.takeWhile_eq_self_iff.2 hdigits
  have hdrop : (splitSign cs).2.dropWhile isDigit = [] := List.dropWhile_eq_nil_iff.2 hdigits
  simp only [readDouble?, hword "inf" (by decide), hword "infinity" (by decide),
    hword "nan" (by decide), decide_false, Bool.or_self, Bool.false_eq_true, if_false,
    readUnsigned?, htake, hdrop, splitFraction]
  simp [hne, readExponent?]

/-- What is read as an integer is also read as a double, and that is finite. -/
theorem exists_finite_of_readInt?
    {cs : List Char} {i : Int}
    (h : readInt? cs = some i) :
    ∃ x, readDouble? cs = some x ∧ x.isFinite = true := by
  obtain ⟨hdigits, hfits⟩ := digits_of_readInt? h
  have hsmall := Double.natAbs_lt_of_fitsInt64 hfits
  exact ⟨_, readDouble?_of_digits hdigits, Double.isFinite_ofDecimal_zero _ hsmall⟩

/-- The characters that numbers are written with. -/
def isNumeral (c : Char) : Bool :=
  isDigit c || "+-.einfaty".toList.contains c.toLower

section Strangers

variable {c : Char} {cs : List Char}

theorem isDigit_of_not_isNumeral
    (hc : isNumeral c = false) :
    isDigit c = false :=
  (Bool.or_eq_false_iff.1 hc).1

theorem mem_splitSign
    (hc : isNumeral c = false) (h : c ∈ cs) :
    c ∈ (splitSign cs).2 := by
  unfold splitSign
  split
  · rcases List.mem_cons.1 h with rfl | h
    · cases hc
    · exact h
  · rcases List.mem_cons.1 h with rfl | h
    · cases hc
    · exact h
  · exact h

theorem readDigits?_eq_none
    (hc : isNumeral c = false) (h : c ∈ cs) :
    readDigits? cs = none := by
  cases hread : readDigits? cs with
  | none => rfl
  | some n =>
      have hdigit := (readDigits?_eq_some hread).2.1 c h
      rw [isDigit_of_not_isNumeral hc] at hdigit
      cases hdigit

theorem readExponent?_eq_none
    (hc : isNumeral c = false) (h : c ∈ cs) :
    readExponent? cs = none := by
  cases cs with
  | nil => cases h
  | cons mark rest =>
      rw [readExponent?]
      split_ifs with hmark
      · have hrest : c ∈ rest := by
          rcases List.mem_cons.1 h with rfl | h
          · rw [Bool.or_eq_true, beq_iff_eq, beq_iff_eq] at hmark
            rcases hmark with rfl | rfl <;> cases hc
          · exact h
        simp [readDigits?_eq_none hc (mem_splitSign hc hrest)]
      · rfl

theorem mem_splitFraction
    (hc : isNumeral c = false) (h : c ∈ cs) :
    c ∈ (splitFraction cs).2 := by
  unfold splitFraction
  split
  · rcases List.mem_cons.1 h with rfl | h
    · cases hc
    · exact Text.mem_dropWhile (isDigit_of_not_isNumeral hc) h
  · exact h

theorem readUnsigned?_eq_none
    (negative : Bool) (hc : isNumeral c = false) (h : c ∈ cs) :
    readUnsigned? negative cs = none := by
  have hrest := mem_splitFraction hc (Text.mem_dropWhile (isDigit_of_not_isNumeral hc) h)
  simp only [readUnsigned?, readExponent?_eq_none hc hrest, Option.map_none, ite_self]

theorem map_toLower_ne_of_mem
    {word : String}
    (hc : isNumeral c = false) (h : c ∈ cs) (hword : word.toList ⊆ "+-.einfaty".toList) :
    cs.map Char.toLower ≠ word.toList := by
  intro heq
  have hmem : c.toLower ∈ "+-.einfaty".toList := hword (heq ▸ List.mem_map_of_mem h)
  rw [isNumeral, List.contains_iff_mem.2 hmem, Bool.or_true] at hc
  cases hc

/-- A text with another character in it is no number. -/
theorem readDouble?_eq_none
    (hc : isNumeral c = false) (h : c ∈ cs) :
    readDouble? cs = none := by
  have hbody := mem_splitSign hc h
  have hword (word : String) (hword : word.toList ⊆ "+-.einfaty".toList) :=
    map_toLower_ne_of_mem hc hbody hword
  simp only [readDouble?, hword "inf" (by decide), hword "infinity" (by decide),
    hword "nan" (by decide), decide_false, Bool.or_self, Bool.false_eq_true, if_false,
    readUnsigned?_eq_none _ hc hbody]

end Strangers

end Decimal
end RowFilter
