import Mathlib.Data.List.Infix
import RowFilter.Proofs.Casts
import RowFilter.Proofs.Evaluation

/-!
# Patterns and the texts that they match

A database reads a pattern part by part: a percent sign stands for any text, an underscore for
any one character, and a backslash for the character behind it.  The operand of a search for a
text is written into the pattern as it is, so it is read as a pattern too: the search finds a
part of the text that matches the operand.  This is a search for the operand itself exactly if
no character of the operand has a meaning of its own.

* `Like.read?`: the parts of a pattern.
* `Like.fits`: the texts that the parts stand for.
* `Like.fits_append`: the parts are met one after the other.
* `Anchor.fits_parts_iff`: a part of the text matches the operand.
* `Anchor.exists_fits_of_not_isPlain`: a text that shows that an operand is not read literally.
* `pattern_search_literal_iff_plain`: what a search for a text accepts.
-/

namespace RowFilter

/-! ## Patterns as a database reads them -/

namespace Like

/-- A part of a pattern. -/
inductive Part where
  /-- Any text. -/
  | run
  /-- Any one character. -/
  | one
  | char (c : Char)

/-- The parts of a pattern; none if the last character is a backslash with nothing behind it to
stand for. -/
def read? : List Char → Option (List Part)
  | [] => some []
  | '%' :: rest => (read? rest).map (.run :: ·)
  | '_' :: rest => (read? rest).map (.one :: ·)
  | ['\\'] => none
  | '\\' :: c :: rest => (read? rest).map (.char c :: ·)
  | c :: rest => (read? rest).map (.char c :: ·)

/-- The parts stand for the text. -/
def fits : List Part → List Char → Bool
  | [], s => s.isEmpty
  | .run :: rest, s => s.tails.any (fits rest)
  | .one :: _, [] => false
  | .one :: rest, _ :: s => fits rest s
  | .char _ :: _, [] => false
  | .char c :: rest, d :: s => c == d && fits rest s

/-- The character stands for itself wherever it is in a pattern. -/
def isPlainChar (c : Char) : Bool :=
  c != '%' && c != '_' && c != '\\'

/-- All characters stand for themselves. -/
def isPlain (cs : List Char) : Bool :=
  cs.all isPlainChar

theorem read?_cons_of_isPlainChar
    {c : Char}
    (h : isPlainChar c = true) (rest : List Char) :
    read? (c :: rest) = (read? rest).map (.char c :: ·) := by
  rw [read?.eq_def]
  split <;> simp_all [isPlainChar]

/-- A character is plain if it is read by none of the special cases of `read?`. -/
theorem isPlainChar_of_not_special
    {c : Char} {cs : List Char}
    (hrun : c = '%' → False) (hone : c = '_' → False) (hlone : c = '\\' → cs = [] → False)
    (hescape : ∀ d rest, c = '\\' → cs = d :: rest → False) :
    isPlainChar c = true := by
  have hbackslash : c ≠ '\\' := by
    intro hc
    cases cs with
    | nil => exact hlone hc rfl
    | cons d rest => exact hescape d rest hc rfl
  simp [isPlainChar, hbackslash, show c ≠ '%' from hrun, show c ≠ '_' from hone]

theorem read?_of_isPlain
    {cs : List Char}
    (h : isPlain cs = true) :
    read? cs = some (cs.map .char) := by
  induction cs with
  | nil => rfl
  | cons c rest ih =>
      rw [isPlain, List.all_cons, Bool.and_eq_true] at h
      rw [read?_cons_of_isPlainChar h.1, ih h.2]
      rfl

/-- A pattern that can be read is read up to its end, whatever follows it. -/
theorem read?_append
    {cs : List Char} {ps : List Part}
    (h : read? cs = some ps) (rest : List Char) :
    read? (cs ++ rest) = (read? rest).map (ps ++ ·) := by
  fun_induction read? cs generalizing ps with
  | case1 =>
      cases h
      simp
  | case2 cs ih =>
      obtain ⟨qs, hqs, rfl⟩ := Option.map_eq_some_iff.1 h
      rw [List.cons_append, read?, ih hqs, Option.map_map]
      rfl
  | case3 cs ih =>
      obtain ⟨qs, hqs, rfl⟩ := Option.map_eq_some_iff.1 h
      rw [List.cons_append, read?, ih hqs, Option.map_map]
      rfl
  | case4 => cases h
  | case5 c cs ih =>
      obtain ⟨qs, hqs, rfl⟩ := Option.map_eq_some_iff.1 h
      rw [List.cons_append, List.cons_append, read?, ih hqs, Option.map_map]
      rfl
  | case6 c cs hrun hone hlone hescape ih =>
      obtain ⟨qs, hqs, rfl⟩ := Option.map_eq_some_iff.1 h
      have hplain := isPlainChar_of_not_special hrun hone hlone hescape
      rw [List.cons_append, read?_cons_of_isPlainChar hplain, ih hqs, Option.map_map]
      rfl

theorem read?_followed
    {cs : List Char} {ps : List Part}
    (h : read? cs = some ps) :
    read? (cs ++ ['%']) = some (ps ++ [.run]) :=
  read?_append h ['%']

theorem fits_run_iff
    {ps : List Part} {s : List Char} :
    fits (.run :: ps) s = true ↔ ∃ t, t <:+ s ∧ fits ps t = true := by
  simp [fits]

theorem fits_one_iff
    {ps : List Part} {s : List Char} :
    fits (.one :: ps) s = true ↔ ∃ c t, s = c :: t ∧ fits ps t = true := by
  cases s <;> simp [fits]

theorem fits_char_iff
    {c : Char} {ps : List Part} {s : List Char} :
    fits (.char c :: ps) s = true ↔ ∃ t, s = c :: t ∧ fits ps t = true := by
  cases s with
  | nil => simp [fits]
  | cons d t =>
      simp only [fits, Bool.and_eq_true, beq_iff_eq, List.cons.injEq]
      constructor
      · rintro ⟨rfl, ht⟩
        exact ⟨t, ⟨rfl, rfl⟩, ht⟩
      · rintro ⟨_, ⟨rfl, rfl⟩, ht⟩
        exact ⟨rfl, ht⟩

/-- The parts are met one after the other. -/
theorem fits_append
    {ps qs : List Part} {s : List Char} :
    fits (ps ++ qs) s = true ↔ ∃ a b, a ++ b = s ∧ fits ps a = true ∧ fits qs b = true := by
  induction ps generalizing s with
  | nil => simp [fits]
  | cons p ps ih =>
      cases p with
      | run =>
          rw [List.cons_append, fits_run_iff]
          constructor
          · rintro ⟨t, ⟨front, rfl⟩, ht⟩
            obtain ⟨a, b, rfl, ha, hb⟩ := ih.1 ht
            exact ⟨front ++ a, b, List.append_assoc _ _ _,
              fits_run_iff.2 ⟨a, List.suffix_append _ _, ha⟩, hb⟩
          · rintro ⟨a, b, rfl, ha, hb⟩
            obtain ⟨t, ⟨front, rfl⟩, ht⟩ := fits_run_iff.1 ha
            exact ⟨t ++ b, ⟨front, (List.append_assoc _ _ _).symm⟩, ih.2 ⟨t, b, rfl, ht, hb⟩⟩
      | one =>
          rw [List.cons_append, fits_one_iff]
          constructor
          · rintro ⟨c, t, rfl, ht⟩
            obtain ⟨a, b, rfl, ha, hb⟩ := ih.1 ht
            exact ⟨c :: a, b, rfl, ha, hb⟩
          · rintro ⟨a, b, rfl, ha, hb⟩
            obtain ⟨c, t, rfl, ht⟩ := fits_one_iff.1 ha
            exact ⟨c, t ++ b, rfl, ih.2 ⟨t, b, rfl, ht, hb⟩⟩
      | char c =>
          rw [List.cons_append, fits_char_iff]
          constructor
          · rintro ⟨t, rfl, ht⟩
            obtain ⟨a, b, rfl, ha, hb⟩ := ih.1 ht
            exact ⟨c :: a, b, rfl, fits_char_iff.2 ⟨a, rfl, ha⟩, hb⟩
          · rintro ⟨a, b, rfl, ha, hb⟩
            obtain ⟨t, rfl, ht⟩ := fits_char_iff.1 ha
            exact ⟨t ++ b, rfl, ih.2 ⟨t, b, rfl, ht, hb⟩⟩

theorem fits_chars_iff
    {cs s : List Char} :
    fits (cs.map .char) s = true ↔ s = cs := by
  induction cs generalizing s with
  | nil => simp [fits]
  | cons c cs ih => simp [fits_char_iff, ih]

/-! ## Samples -/

/-- A text that the parts stand for, without a character too many. -/
def sample : List Part → List Char
  | [] => []
  | .run :: rest => sample rest
  | .one :: rest => 'a' :: sample rest
  | .char c :: rest => c :: sample rest

theorem fits_sample
    (ps : List Part) :
    fits ps (sample ps) = true := by
  induction ps with
  | nil => rfl
  | cons p ps ih =>
      cases p with
      | run => exact fits_run_iff.2 ⟨_, List.suffix_rfl, ih⟩
      | one => exact ih
      | char c => exact fits_char_iff.2 ⟨_, rfl, ih⟩

theorem sample_append
    (ps qs : List Part) :
    sample (ps ++ qs) = sample ps ++ sample qs := by
  induction ps with
  | nil => rfl
  | cons p ps ih => cases p <;> simp [sample, ih]

/-- Before a percent sign every text is a pattern.  A sample of it is no longer than the text,
and it is the text only if that is plain. -/
theorem sample_of_followed
    (cs : List Char) :
    ∃ ps, read? (cs ++ ['%']) = some ps ∧ (sample ps).length ≤ cs.length ∧
      (sample ps = cs → isPlain cs = true) := by
  fun_induction read? cs with
  | case1 => exact ⟨[.run], rfl, Nat.le_refl _, fun _ => rfl⟩
  | case2 cs ih =>
      obtain ⟨ps, hps, hlength, -⟩ := ih
      have hshort : (sample (.run :: ps)).length < ('%' :: cs).length := Nat.lt_succ_of_le hlength
      exact ⟨.run :: ps, by simp [read?, hps], hshort.le,
        fun h => absurd (congrArg List.length h) hshort.ne⟩
  | case3 cs ih =>
      obtain ⟨ps, hps, hlength, -⟩ := ih
      exact ⟨.one :: ps, by simp [read?, hps], Nat.succ_le_succ hlength, by simp [sample]⟩
  | case4 => exact ⟨[.char '%'], rfl, Nat.le_refl _, by simp [sample]⟩
  | case5 c cs ih =>
      obtain ⟨ps, hps, hlength, -⟩ := ih
      have hshort : (sample (.char c :: ps)).length < ('\\' :: c :: cs).length :=
        Nat.succ_lt_succ (Nat.lt_succ_of_le hlength)
      exact ⟨.char c :: ps, by simp [read?, hps], hshort.le,
        fun h => absurd (congrArg List.length h) hshort.ne⟩
  | case6 c cs hrun hone hlone hescape ih =>
      obtain ⟨ps, hps, hlength, hplain⟩ := ih
      have hc := isPlainChar_of_not_special hrun hone hlone hescape
      refine ⟨.char c :: ps, ?_, Nat.succ_le_succ hlength, fun h => ?_⟩
      · rw [List.cons_append, read?_cons_of_isPlainChar hc, hps]
        rfl
      · rw [isPlain, List.all_cons, hc]
        exact hplain (List.cons.inj h).2

end Like

/-! ## Operands in patterns -/

namespace Anchor

/-- A text holds another one at the anchor. -/
def Finds : Anchor → List Char → List Char → Prop
  | anywhere, t, s => t <:+: s
  | start, t, s => t <+: s
  | finish, t, s => t <:+ s

instance : ∀ (anchor : Anchor) (t s : List Char), Decidable (anchor.Finds t s)
  | anywhere, t, s => inferInstanceAs (Decidable (t <:+: s))
  | start, t, s => inferInstanceAs (Decidable (t <+: s))
  | finish, t, s => inferInstanceAs (Decidable (t <:+ s))

/-- The parts of the pattern around an operand with these parts. -/
def parts (ps : List Like.Part) : Anchor → List Like.Part
  | anywhere => .run :: (ps ++ [.run])
  | start => ps ++ [.run]
  | finish => .run :: ps

theorem Finds.isInfix
    {anchor : Anchor} {t s : List Char}
    (h : anchor.Finds t s) :
    t <:+: s := by
  cases anchor with
  | anywhere => exact h
  | start => exact List.IsPrefix.isInfix h
  | finish => exact List.IsSuffix.isInfix h

theorem read?_around
    (anchor : Anchor) {v : String} {ps : List Like.Part}
    (h : Like.read? v.toList = some ps) :
    Like.read? (anchor.around v).toList = some (anchor.parts ps) := by
  have hfollowed := Like.read?_followed h
  cases anchor with
  | anywhere => simpa [around, parts, Like.read?] using hfollowed
  | start => simpa [around, parts] using hfollowed
  | finish => simpa [around, parts, Like.read?] using h

/-- A text matches the pattern around an operand if a part of it matches the operand. -/
theorem fits_parts_iff
    (anchor : Anchor) {ps : List Like.Part} {s : List Char} :
    Like.fits (anchor.parts ps) s = true ↔
      ∃ t, anchor.Finds t s ∧ Like.fits ps t = true := by
  have hrun (t : List Char) : Like.fits [.run] t = true :=
    Like.fits_run_iff.2 ⟨[], List.nil_suffix, rfl⟩
  have hfollowed (s : List Char) : Like.fits (ps ++ [.run]) s = true ↔
      ∃ t, t <+: s ∧ Like.fits ps t = true := by
    rw [Like.fits_append]
    constructor
    · rintro ⟨t, rest, rfl, ht, -⟩
      exact ⟨t, List.prefix_append t rest, ht⟩
    · rintro ⟨t, ⟨rest, rfl⟩, ht⟩
      exact ⟨t, rest, rfl, ht, hrun rest⟩
  cases anchor with
  | start => exact hfollowed s
  | finish => exact Like.fits_run_iff
  | anywhere =>
      rw [parts, Like.fits_run_iff]
      constructor
      · rintro ⟨r, hr, hfits⟩
        obtain ⟨t, ht, hmatch⟩ := (hfollowed r).1 hfits
        exact ⟨t, List.infix_iff_prefix_suffix.2 ⟨r, ht, hr⟩, hmatch⟩
      · rintro ⟨t, ht, hmatch⟩
        obtain ⟨r, hprefix, hr⟩ := List.infix_iff_prefix_suffix.1 ht
        exact ⟨r, hr, (hfollowed r).2 ⟨t, hprefix, hmatch⟩⟩

/-- The pattern around an operand that is not plain matches a text without the operand. -/
theorem exists_fits_of_not_isPlain
    {anchor : Anchor} {v : String}
    (hplain : Like.isPlain v.toList = false)
    (hwhole : anchor = finish → Like.read? v.toList ≠ none) :
    ∃ ps s, Like.read? (anchor.around v).toList = some ps ∧ Like.fits ps s = true ∧
      ¬anchor.Finds v.toList s := by
  obtain ⟨ps, hps, hlength, hsample⟩ := Like.sample_of_followed v.toList
  have hmissing : ¬anchor.Finds v.toList (Like.sample ps) := by
    intro hfound
    have heq := hfound.isInfix.sublist.eq_of_length_le hlength
    rw [hsample heq.symm] at hplain
    cases hplain
  have hfits := Like.fits_sample ps
  cases anchor with
  | anywhere =>
      refine ⟨.run :: ps, Like.sample ps, ?_, ?_, hmissing⟩
      · simp [around, Like.read?, hps]
      · exact Like.fits_run_iff.2 ⟨_, List.suffix_rfl, hfits⟩
  | start => exact ⟨ps, Like.sample ps, by simpa [around] using hps, hfits, hmissing⟩
  | finish =>
      -- the sample is one of the operand alone
      obtain ⟨qs, hqs⟩ := Option.ne_none_iff_exists'.1 (hwhole rfl)
      obtain rfl : qs ++ [.run] = ps := Option.some.inj ((Like.read?_followed hqs).symm.trans hps)
      have hsame : Like.sample (qs ++ [.run]) = Like.sample qs := by
        simp [Like.sample_append, Like.sample]
      rw [hsame] at hmissing
      exact ⟨.run :: qs, Like.sample qs, read?_around finish hqs,
        Like.fits_run_iff.2 ⟨_, List.suffix_rfl, Like.fits_sample qs⟩, hmissing⟩

end Anchor

/-- The search accepts the text: the operand is found in it, or must not be and is not. -/
def Pattern.Accepts (p : Pattern) (v s : List Char) : Prop :=
  p.negated = true ↔ ¬p.anchor.Finds v s

open Sql (Database Engine Expr Scope)

/-- The engine reads patterns part by part.  What it makes of a pattern that cannot be read is
up to the engine. -/
structure Sql.Engine.ReadsPatterns (g : Engine) : Prop where
  like : ∀ {pattern : String} {ps : List Like.Part}, Like.read? pattern.toList = some ps →
    ∀ s : String, g.compare .like (.str s) (.str pattern) = Like.fits ps s.toList
  notLike : ∀ {pattern : String} {ps : List Like.Part}, Like.read? pattern.toList = some ps →
    ∀ s : String, g.compare .notLike (.str s) (.str pattern) = !Like.fits ps s.toList

/-- A search asks whether the text matches the pattern. -/
theorem Criterion.asks_like_iff
    {g : Engine} {pattern : String} {ps : List Like.Part}
    (hg : g.ReadsPatterns) (h : Like.read? pattern.toList = some ps) (negated : Bool) (s : String) :
    (Criterion.like (.str pattern) negated false).asks g (.str s) = some true ↔
      (negated = true ↔ ¬Like.fits ps s.toList = true) := by
  cases negated with
  | false => simp [asks, Engine.compares, Value.isNull, hg.like h]
  | true => simp [asks, Engine.compares, Value.isNull, hg.notLike h]

/-- **Searches for a text.**  Every search for a text that heeds letter case has a criterion,
which is the same for members of documents, and its condition holds of the texts that the
criterion accepts.  The operand is read as a pattern: these are the texts with a part (any, the
first or the last one) that matches the operand, or for a negated search the other texts.  The
criterion accepts the texts with the operand itself there, or the texts without it, exactly if
the operand holds no percent sign, no underscore and no backslash.  (A search at the end puts
nothing behind the operand; if that ends with a backslash which stands for nothing then the
database decides what the pattern means.) -/
theorem pattern_search_literal_iff_plain
    {g : Engine} {p : Pattern} {operand : Json} {v : String}
    (hg : g.ReadsPatterns) (hcase : p.caseless = false)
    (hv : (Value.ofJson operand).toText? = some v) :
    ∃ k, (Operator.compare (.pattern p)).criterion operand = .ok k ∧ k.casted = k ∧
      (∀ target : Expr, ∃ e, k.apply target = some e ∧
        ∀ (db : Database) (scope : Scope) (s : String), target.eval g db scope = .str s →
          (e.holds g db scope = true ↔ k.asks g (.str s) = some true)) ∧
      (∀ ps, Like.read? v.toList = some ps → ∀ s : String, k.asks g (.str s) = some true ↔
        (p.negated = true ↔ ¬∃ t, p.anchor.Finds t s.toList ∧ Like.fits ps t = true)) ∧
      ((p.anchor = .finish → Like.read? v.toList ≠ none) →
        ((∀ s : String, k.asks g (.str s) = some true ↔ p.Accepts v.toList s.toList) ↔
          Like.isPlain v.toList = true)) := by
  obtain ⟨anchor, negated, caseless⟩ := p
  obtain rfl : caseless = false := hcase
  have hk : (Comparison.pattern ⟨anchor, negated, false⟩).criterion operand =
      .ok (.like (.str (anchor.around v)) negated false) := by
    simp [Comparison.criterion, hv]
  have hasks (ps) (hps : Like.read? v.toList = some ps) (s : String) :
      (Criterion.like (.str (anchor.around v)) negated false).asks g (.str s) = some true ↔
        (negated = true ↔ ¬∃ t, anchor.Finds t s.toList ∧ Like.fits ps t = true) := by
    rw [Criterion.asks_like_iff hg (anchor.read?_around hps), anchor.fits_parts_iff]
  refine ⟨_, hk, (Criterion.casted_of_pattern hk).2, fun target => ?_, hasks,
    fun hwhole => ⟨fun hliteral => ?_, fun hplain s => ?_⟩⟩
  · obtain ⟨e, he⟩ : ∃ e, (Criterion.like (.str (anchor.around v)) negated false).apply target =
      some e := ⟨_, rfl⟩
    refine ⟨e, he, fun db scope s hs => ?_⟩
    rw [Expr.holds_iff, Criterion.truth_apply g db scope he, hs]
  · by_contra hplain
    rw [Bool.not_eq_true] at hplain
    obtain ⟨ps, s, hps, hfits, hmissing⟩ := Anchor.exists_fits_of_not_isPlain hplain hwhole
    have hs := hliteral (String.ofList s)
    rw [Criterion.asks_like_iff hg hps, Pattern.Accepts, String.toList_ofList] at hs
    simp [hfits, hmissing] at hs
  · rw [hasks _ (Like.read?_of_isPlain hplain), Pattern.Accepts]
    simp [Like.fits_chars_iff]

/-- An engine that compares texts with patterns only. -/
def patternEngine : Engine where
  deep := false
  text := Json.compact
  cast _ := Value.asText
  compare
    | .like, .str s, .str pattern => (Like.read? pattern.toList).any (Like.fits · s.toList)
    | .notLike, .str s, .str pattern => !(Like.read? pattern.toList).any (Like.fits · s.toList)
    | _, _, _ => false
  call _ _ := .null
  length _ := .null
  part _ _ := .null

theorem readsPatterns_patternEngine :
    patternEngine.ReadsPatterns where
  like h s := by
    simp [patternEngine, h]
  notLike h s := by
    simp [patternEngine, h]

theorem pattern_search_literal_iff_plain_notFifty :
    patternEngine.ReadsPatterns ∧ (Value.ofJson (.num (.int 50))).toText? = some "50" ∧
      ∃ k, (Operator.compare (.pattern ⟨.finish, true, false⟩)).criterion (.num (.int 50)) =
          .ok k ∧
        ∀ s : String, k.asks patternEngine (.str s) = some true ↔ ¬"50".toList <:+ s.toList := by
  have hv : (Value.ofJson (.num (.int 50))).toText? = some "50" := by decide +kernel
  obtain ⟨k, hk, -, -, -, hliteral⟩ :=
    pattern_search_literal_iff_plain readsPatterns_patternEngine
      (rfl : (⟨.finish, true, false⟩ : Pattern).caseless = false) hv
  refine ⟨readsPatterns_patternEngine, hv, k, hk, fun s => ?_⟩
  have hs := (hliteral fun _ => by decide +kernel).2 (by decide) s
  simpa [Pattern.Accepts, Anchor.Finds] using hs

/-- A percent sign in the operand matches any text, so a text without the operand is found. -/
theorem percent_sign_is_wildcard :
    (Value.ofJson (.str "50%")).toText? = some "50%" ∧
      (Operator.compare (.pattern ⟨.anywhere, false, false⟩)).criterion (.str "50%") =
        .ok (.like (.str "%50%%") false false) ∧
      (Criterion.like (.str "%50%%") false false).asks patternEngine (.str "500") = some true ∧
      ¬Anchor.anywhere.Finds "50%".toList "500".toList :=
  ⟨rfl, rfl, by decide +kernel, by decide⟩

end RowFilter
