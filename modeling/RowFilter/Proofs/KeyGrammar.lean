import Mathlib.Algebra.Group.Nat.Defs
import Mathlib.Data.List.Basic
import RowFilter.Proofs.Segments
import RowFilter.Proofs.Tables

/-!
# The grammar of field keys

A segment is written as its name, a colon and its scope, and its position in brackets, with
its function around them; a key is segments with dots between them.  Reading cuts a key into
parts first, then each part from the outside inwards.  What is read never holds the
characters at which a key is cut, and what is written is read as it was.

* `Segment.written`, `FieldPath.spell`: how segments and keys are written.
* `FieldPath.splitKey_append_dot`: behind a key that is complete a dot starts the next one.
* `FieldPath.key_grammar`: reading and writing.
-/

namespace RowFilter

namespace Text

/-- Where no blank stands at an end, nothing is trimmed. -/
theorem trim_eq_self
    {cs : List Char}
    (hfirst : ∀ c ∈ cs.head?, isBlank c = false) (hlast : ∀ c ∈ cs.getLast?, isBlank c = false) :
    trim cs = cs := by
  have hkeep (ds : List Char) (h : ∀ c ∈ ds.head?, isBlank c = false) :
      ds.dropWhile isBlank = ds := by
    cases ds with
    | nil => rfl
    | cons c ds => rw [List.dropWhile_cons, if_neg (by simp [h c rfl])]
  rw [trim, trimStart, hkeep cs hfirst, trimEnd, hkeep _ (by simpa using hlast)]
  exact List.reverse_reverse cs

theorem not_isBlank_of_isDigit
    {c : Char}
    (h : c.isDigit = true) :
    isBlank c = false := by
  have hrange : 48 ≤ c.toNat ∧ c.toNat ≤ 57 := by
    simpa [Char.isDigit, UInt32.le_iff_toNat_le] using h
  simp only [isBlank, Bool.or_eq_false_iff, Bool.and_eq_false_iff, decide_eq_false_iff_not,
    beq_eq_false_iff_ne]
  omega

theorem cutFirst?_eq_none
    {c : Char} {cs : List Char}
    (h : c ∉ cs) :
    cutFirst? c cs = none := by
  induction cs with
  | nil => rfl
  | cons x rest ih =>
      rw [List.mem_cons, not_or] at h
      rw [cutFirst?, if_neg (by simpa using fun hx => h.1 hx.symm), ih h.2]
      rfl

theorem cutFirst?_append
    {c : Char} {before : List Char} (after : List Char)
    (h : c ∉ before) :
    cutFirst? c (before ++ c :: after) = some (before, after) := by
  induction before with
  | nil => simp [cutFirst?]
  | cons x rest ih =>
      rw [List.mem_cons, not_or] at h
      rw [List.cons_append, cutFirst?, if_neg (by simpa using fun hx => h.1 hx.symm), ih h.2]
      rfl

theorem cutLast?_append
    {c : Char} {after : List Char} (before : List Char)
    (h : c ∉ after) :
    cutLast? c (before ++ c :: after) = some (before, after) := by
  have hreverse : (before ++ c :: after).reverse = after.reverse ++ c :: before.reverse := by simp
  rw [cutLast?, hreverse, cutFirst?_append _ (by simpa using h)]
  simp

theorem not_mem_of_cutFirst?
    {c : Char} {cs before after : List Char}
    (h : cutFirst? c cs = some (before, after)) :
    c ∉ before := by
  induction cs generalizing before with
  | nil => cases h
  | cons x rest ih =>
      rw [cutFirst?] at h
      split at h
      · cases h
        simp
      · rename_i hx
        obtain ⟨⟨start, finish⟩, hrest, heq⟩ := Option.map_eq_some_iff.1 h
        cases heq
        rw [List.mem_cons, not_or]
        exact ⟨fun hc => hx (by simp [hc]), ih hrest⟩

theorem stripLast?_concat
    (c : Char) (cs : List Char) :
    stripLast? c (cs ++ [c]) = some cs := by
  simp [stripLast?]

theorem stripLast?_eq_none
    {c : Char} {cs : List Char}
    (h : cs.getLast? ≠ some c) :
    stripLast? c cs = none := by
  simp [stripLast?, h]

theorem eq_of_stripLast?
    {c : Char} {cs inner : List Char}
    (h : stripLast? c cs = some inner) :
    cs = inner ++ [c] := by
  unfold stripLast? at h
  split at h
  · rename_i hlast
    cases h
    exact (List.dropLast_append_getLast? c (by simpa using hlast)).symm
  · cases h

end Text

namespace Decimal

theorem isDigit_of_mem_digitChars
    {n : Nat} {d : Char}
    (hd : d ∈ digitChars n) :
    isDigit d = true := by
  have hd := Nat.isDigit_of_mem_toDigits (by decide) (by decide) hd
  simpa [isDigit, Char.isDigit, Char.le_def] using hd

theorem readDigits?_digitChars
    (n : Nat) :
    readDigits? (digitChars n) = some n := by
  have hdigits : ∀ d ∈ digitChars n, isDigit d = true := fun d => isDigit_of_mem_digitChars
  have hvalue : Nat.ofDigitChars 10 (digitChars n) 0 = n := by simp [digitChars]
  have hne : digitChars n ≠ [] := Nat.toDigits_ne_nil
  rw [readDigits?, if_pos (by simpa [hne] using hdigits)]
  exact congrArg some hvalue

/-- The digits of a number are read as the number, if it is not too large. -/
theorem readIndex?_digitChars
    {n : Nat}
    (h : n < 2 ^ 64) :
    readIndex? (digitChars n) = some n := by
  unfold readIndex?
  split
  · -- a sign is no digit
    rename_i rest hplus
    have hsign := isDigit_of_mem_digitChars (n := n) (d := '+') (by simp [hplus])
    cases hsign
  · simp only [readDigits?_digitChars]
    exact if_pos h

end Decimal

/-! ## How keys are written -/

namespace Segment

/-- The field of a segment with its scope and its position. -/
def bare (s : Segment) : List Char :=
  s.stepName.toList ++
    match s.index with
    | some n => '[' :: (Decimal.digitChars n ++ [']'])
    | none => []

/-- A segment as it is written. -/
def written (s : Segment) : List Char :=
  match s.function with
  | some function => function.name.toList ++ '(' :: (s.bare ++ [')'])
  | none => s.bare

/-- The segment can be written: neither its name nor its scope holds a character at which
keys are cut, its position has 64 bits, and it does not begin or end with a blank, unless a
function stands around it. -/
structure Writable (s : Segment) : Prop where
  name_ne : s.name ≠ ""
  name : ∀ c ∈ s.name.toList, FieldPath.isBracket c = false ∧ c ≠ '.' ∧ c ≠ ':'
  scope_ne : s.scope ≠ some ""
  scope : ∀ scope ∈ s.scope, ∀ c ∈ scope.toList, FieldPath.isBracket c = false ∧ c ≠ '.'
  index : ∀ n ∈ s.index, n < 2 ^ 64
  first : s.function = none → ∀ c ∈ s.written.head?, Text.isBlank c = false
  last : s.function = none → ∀ c ∈ s.written.getLast?, Text.isBlank c = false

instance (s : Segment) : Decidable s.Writable :=
  decidable_of_iff
    (s.name ≠ "" ∧ s.scope ≠ some "" ∧
      s.name.toList.all (fun c => !FieldPath.isBracket c && (c != '.' && c != ':')) ∧
      s.scope.all (fun scope => scope.toList.all fun c => !FieldPath.isBracket c && c != '.') ∧
      s.index.all (fun n => decide (n < 2 ^ 64)) ∧
      (s.function.isNone → s.written.head?.all (!Text.isBlank ·)) ∧
      (s.function.isNone → s.written.getLast?.all (!Text.isBlank ·))) (by
    simp only [List.all_eq_true, Option.all_eq_true, Bool.and_eq_true, Bool.not_eq_true',
      bne_iff_ne, decide_eq_true_eq, Option.isNone_iff_eq_none]
    constructor
    · rintro ⟨hname_ne, hscope_ne, hname, hscope, hindex, hfirst, hlast⟩
      exact ⟨hname_ne, hname, hscope_ne, hscope, hindex, hfirst, hlast⟩
    · rintro ⟨hname_ne, hname, hscope_ne, hscope, hindex, hfirst, hlast⟩
      exact ⟨hname_ne, hscope_ne, hname, hscope, hindex, hfirst, hlast⟩)

end Segment

namespace FieldPath

/-- The key of a path. -/
def spell (segments : List Segment) : String :=
  String.ofList (['.'].intercalate (segments.map Segment.written))

/-! ## Cutting keys into parts -/

theorem foldr_consHead
    (cs part : List Char) (parts : List (List Char)) :
    cs.foldr consHead (part :: parts) = (cs ++ part) :: parts := by
  induction cs with
  | nil => rfl
  | cons c cs ih => rw [List.foldr_cons, ih, consHead, List.cons_append]

/-- There is at least one part. -/
theorem ne_nil_of_splitKey
    {key : String} {depth : Nat} {cs : List Char} {parts : List (List Char)}
    (h : splitKey key depth cs = .ok parts) :
    parts ≠ [] := by
  have hcons (c : Char) (rest : List (List Char)) : consHead c rest ≠ [] := by
    cases rest <;> simp [consHead]
  cases cs with
  | nil =>
      rw [splitKey] at h
      split_ifs at h
      cases h
      simp
  | cons c cs =>
      rw [splitKey] at h
      split_ifs at h
      all_goals
        obtain ⟨rest, -, rfl⟩ := exists_of_map_ok h
      · exact hcons c rest
      · exact hcons c rest
      · simp
      · exact hcons c rest

theorem consHead_append
    {parts : List (List Char)} (c : Char) (more : List (List Char))
    (h : parts ≠ []) :
    consHead c (parts ++ more) = consHead c parts ++ more := by
  cases parts with
  | nil => exact absurd rfl h
  | cons part parts => rfl

/-- Behind a complete key a dot starts the next one. -/
theorem splitKey_append_dot
    {key : String} {depth : Nat} {cs : List Char} {parts : List (List Char)}
    (h : splitKey key depth cs = .ok parts) (key' : String) (rest : List Char) :
    splitKey key' depth (cs ++ '.' :: rest) = (splitKey key' 0 rest).map (parts ++ ·) := by
  have hmap (c : Char) {before : List (List Char)} (hbefore : before ≠ []) :
      ((splitKey key' 0 rest).map (before ++ ·)).map (consHead c) =
        (splitKey key' 0 rest).map (consHead c before ++ ·) := by
    cases splitKey key' 0 rest with
    | error e => rfl
    | ok more => exact congrArg Except.ok (consHead_append c more hbefore)
  induction cs generalizing depth parts with
  | nil =>
      rw [splitKey] at h
      split_ifs at h with hdepth
      cases h
      simp [splitKey, hdepth]
  | cons c cs ih =>
      rw [splitKey] at h
      rw [List.cons_append, splitKey]
      split_ifs at h ⊢
      all_goals
        obtain ⟨before, hbefore, rfl⟩ := exists_of_map_ok h
        rw [ih hbefore]
      · exact hmap c (ne_nil_of_splitKey hbefore)
      · exact hmap c (ne_nil_of_splitKey hbefore)
      · cases splitKey key' 0 rest <;> rfl
      · exact hmap c (ne_nil_of_splitKey hbefore)

/-- Characters that neither open, close nor end a part belong to it. -/
theorem splitKey_append_plain
    {cs : List Char} (key : String) (depth : Nat) (rest : List Char)
    (h : ∀ c ∈ cs, c ≠ '(' ∧ c ≠ ')' ∧ c ≠ '.') :
    splitKey key depth (cs ++ rest) = (splitKey key depth rest).map (cs.foldr consHead) := by
  induction cs with
  | nil => cases hrest : splitKey key depth rest <;> simp [hrest, Except.map]
  | cons c cs ih =>
      obtain ⟨⟨hopen, hclose, hdot⟩, hcs⟩ := List.forall_mem_cons.1 h
      rw [List.cons_append, splitKey, if_neg hopen, if_neg hclose, if_neg (fun h => hdot h.1),
        ih hcs]
      cases splitKey key depth rest <;> rfl

/-! ## Reading what was written -/

theorem plain_of_not_isBracket
    {c : Char}
    (h : isBracket c = false) :
    c ≠ '(' ∧ c ≠ ')' ∧ c ≠ '[' ∧ c ≠ ']' := by
  simpa [isBracket, and_assoc] using h

theorem plain_name
    (function : FieldFunction) :
    ∀ c ∈ function.name.toList, c ≠ '(' ∧ c ≠ ')' ∧ c ≠ '.' := by
  have hall : function.name.toList.all (fun c => c != '(' && (c != ')' && c != '.')) = true := by
    cases function with
    | extract part => cases part <;> decide +kernel
    | count => decide +kernel
  intro c hc
  simpa using List.all_eq_true.1 hall c hc

theorem plain_digitChars
    (n : Nat) :
    ∀ c ∈ Decimal.digitChars n, isBracket c = false ∧ c ≠ '.' := by
  intro c hc
  have hdigit := Nat.isDigit_of_mem_toDigits (by decide) (by decide) hc
  refine ⟨?_, ?_⟩
  · rw [Bool.eq_false_iff]
    intro hbracket
    simp only [isBracket, Bool.or_eq_true, beq_iff_eq] at hbracket
    rcases hbracket with ((rfl | rfl) | rfl) | rfl <;> cases hdigit
  · rintro rfl
    cases hdigit

end FieldPath

namespace Segment

open FieldPath (isBracket)

variable {s : Segment}

theorem toList_stepName
    (s : Segment) :
    s.stepName.toList = s.name.toList ++
      match s.scope with
      | some scope => ':' :: scope.toList
      | none => [] := by
  unfold stepName
  cases s.scope <;> simp

theorem Writable.plain_stepName
    (h : s.Writable) :
    ∀ c ∈ s.stepName.toList, isBracket c = false ∧ c ≠ '.' := by
  rw [toList_stepName]
  refine List.forall_mem_append.2 ⟨fun c hc => ⟨(h.name c hc).1, (h.name c hc).2.1⟩, ?_⟩
  cases hscope : s.scope with
  | none => simp
  | some scope => exact List.forall_mem_cons.2 ⟨by decide, h.scope scope hscope⟩

theorem Writable.plain_bare
    (h : s.Writable) :
    ∀ c ∈ s.bare, c ≠ '(' ∧ c ≠ ')' ∧ c ≠ '.' := by
  have hplain {c : Char} (hc : isBracket c = false ∧ c ≠ '.') : c ≠ '(' ∧ c ≠ ')' ∧ c ≠ '.' :=
    have hbracket := FieldPath.plain_of_not_isBracket hc.1
    ⟨hbracket.1, hbracket.2.1, hc.2⟩
  refine List.forall_mem_append.2 ⟨fun c hc => hplain (h.plain_stepName c hc), ?_⟩
  cases s.index with
  | none => simp
  | some n =>
      refine List.forall_mem_cons.2 ⟨by decide, List.forall_mem_append.2 ⟨?_, by simp⟩⟩
      exact fun c hc => hplain (FieldPath.plain_digitChars n c hc)

end Segment

namespace FieldPath

variable {s : Segment}

theorem splitKey_written
    (key : String) (h : s.Writable) :
    splitKey key 0 s.written = .ok [s.written] := by
  have hbare (depth : Nat) (rest : List Char) := splitKey_append_plain key depth rest h.plain_bare
  unfold Segment.written
  cases s.function with
  | none =>
      have hend := hbare 0 []
      rw [List.append_nil] at hend
      rw [hend, splitKey, if_pos rfl, Except.map, foldr_consHead, List.append_nil]
  | some function =>
      -- one parenthesis is open while the field is read
      dsimp only
      rw [splitKey_append_plain key 0 _ (plain_name function), splitKey, if_pos rfl, hbare]
      simp [splitKey, Except.map, consHead, foldr_consHead]

theorem splitKey_spell
    (key : String) :
    ∀ {segments : List Segment}, segments ≠ [] → (∀ s ∈ segments, s.Writable) →
      splitKey key 0 (['.'].intercalate (segments.map Segment.written)) =
        .ok (segments.map Segment.written)
  | [], hne, _ => absurd rfl hne
  | [s], _, h => by
      simpa [List.intercalate] using splitKey_written key (h s List.mem_cons_self)
  | s :: t :: rest, _, h => by
      obtain ⟨hs, hrest⟩ := List.forall_mem_cons.1 h
      have hjoin : ['.'].intercalate ((s :: t :: rest).map Segment.written) =
          s.written ++ '.' :: ['.'].intercalate ((t :: rest).map Segment.written) := by
        simp [List.intercalate]
      rw [hjoin, splitKey_append_dot (splitKey_written key hs), splitKey_spell key (by simp) hrest]
      rfl

theorem splitFunction_written
    (h : s.Writable) :
    splitFunction s.written = .ok (s.function, s.bare) := by
  have hopen : '(' ∉ s.bare := fun hmem => (h.plain_bare _ hmem).1 rfl
  have hdot : '.' ∉ s.bare := fun hmem => (h.plain_bare _ hmem).2.2 rfl
  unfold splitFunction Segment.written
  cases s.function with
  | none => simp only [Text.cutFirst?_eq_none hopen]
  | some function =>
      have hname : '(' ∉ function.name.toList := fun hmem => (plain_name function _ hmem).1 rfl
      simp only [Text.cutFirst?_append _ hname, Text.stripLast?_concat, String.ofList_toList,
        FieldFunction.ofName?_name, if_neg hdot]

theorem splitIndex_bare
    (h : s.Writable) :
    splitIndex s.bare = (s.stepName.toList, s.index.map Decimal.digitChars) := by
  unfold splitIndex
  cases hindex : s.index with
  | none =>
      have hbare : s.bare = s.stepName.toList := by simp [Segment.bare, hindex]
      have hlast : s.stepName.toList.getLast? ≠ some ']' := fun hlast => by
        have hplain := (h.plain_stepName _ (List.mem_of_getLast? hlast)).1
        cases hplain
      rw [hbare, Text.stripLast?_eq_none hlast]
      rfl
  | some n =>
      have hbare : s.bare = (s.stepName.toList ++ '[' :: Decimal.digitChars n) ++ [']'] := by
        simp [Segment.bare, hindex]
      have hdigits : '[' ∉ Decimal.digitChars n := fun hmem => by
        have hplain := (plain_digitChars n _ hmem).1
        cases hplain
      rw [hbare, Text.stripLast?_concat, Option.bind_some, Text.cutLast?_append _ hdigits]
      rfl

theorem readIndex_digitChars
    (raw : List Char) (h : s.Writable) :
    readIndex raw (s.index.map Decimal.digitChars) = .ok s.index := by
  cases hindex : s.index with
  | none => rfl
  | some n =>
      have hblank : ∀ c ∈ Decimal.digitChars n, Text.isBlank c = false := fun c hc =>
        Text.not_isBlank_of_isDigit
          (Nat.isDigit_of_mem_toDigits (by decide) (by decide) hc)
      have htrim : Text.trim (Decimal.digitChars n) = Decimal.digitChars n :=
        Text.trim_eq_self (fun c hc => hblank c (List.mem_of_head? hc))
          fun c hc => hblank c (List.mem_of_getLast? hc)
      rw [Option.map_some, readIndex, htrim, Decimal.readIndex?_digitChars (h.index n hindex)]

theorem splitScope_stepName
    (h : s.Writable) :
    splitScope s.stepName.toList = (s.name.toList, s.scope.map String.toList) := by
  have hcolon : ':' ∉ s.name.toList := fun hmem => (h.name _ hmem).2.2 rfl
  rw [Segment.toList_stepName]
  unfold splitScope
  cases s.scope with
  | none => rw [List.append_nil, Text.cutFirst?_eq_none hcolon]; rfl
  | some scope => rw [Text.cutFirst?_append _ hcolon]; rfl

theorem trim_written
    (h : s.Writable) :
    Text.trim s.written = s.written := by
  cases hfunction : s.function with
  | none => exact Text.trim_eq_self (h.first hfunction) (h.last hfunction)
  | some function =>
      have hwritten : s.written = function.name.toList ++ '(' :: (s.bare ++ [')']) := by
        rw [Segment.written, hfunction]
      have hname : ∃ c cs, function.name.toList = c :: cs ∧ Text.isBlank c = false := by
        cases function with
        | extract part => cases part <;> exact ⟨_, _, rfl, rfl⟩
        | count => exact ⟨_, _, rfl, rfl⟩
      obtain ⟨c, cs, hcs, hblank⟩ := hname
      rw [hwritten, hcs]
      refine Text.trim_eq_self ?_ ?_
      · simpa using hblank
      · have hlast : c :: cs ++ '(' :: (s.bare ++ [')']) = (c :: cs ++ '(' :: s.bare) ++ [')'] := by
          simp
        rw [hlast, List.getLast?_concat]
        rintro _ ⟨⟩
        rfl

/-- A segment is read as it was written. -/
theorem readSegment_written
    (h : s.Writable) :
    readSegment s.written = .ok s := by
  have hname : s.name.toList.isEmpty = false := by simpa using h.name_ne
  have hscope : (s.scope.map String.toList == some []) = false := by
    cases hscope : s.scope with
    | none => rfl
    | some scope =>
        have hne : scope ≠ "" := fun hempty => h.scope_ne (by rw [hscope, hempty])
        simpa using hne
  have hbracket : s.name.toList.any isBracket = false := by
    simpa using fun c hc => (h.name c hc).1
  have hback : (s.scope.map String.toList).map String.ofList = s.scope := by
    cases s.scope <;> simp
  simp only [readSegment, trim_written h, splitFunction_written h, bind, Except.bind,
    splitIndex_bare h, readIndex_digitChars _ h, splitScope_stepName h, hname, hscope, hbracket,
    Bool.or_self, Bool.false_eq_true, if_false, String.ofList_toList, hback]

/-- A key is read as it was written. -/
theorem ofKey_spell
    {segments : List Segment}
    (hne : segments ≠ []) (h : ∀ s ∈ segments, s.Writable) :
    ofKey (spell segments) = .ok segments := by
  unfold ofKey spell
  rw [String.toList_ofList, splitKey_spell _ hne h]
  exact mapM_written fun s hs => readSegment_written (h s hs)

/-! ## What is read -/

/-- A part is read in three cuts: at its function, its position and its scope. -/
theorem cuts_of_readSegment
    {part : List Char}
    (h : readSegment part = .ok s) :
    ∃ inner name scope, splitFunction (Text.trim part) = .ok (s.function, inner) ∧
      splitScope (splitIndex inner).1 = (name, scope) ∧
      (name ≠ [] ∧ scope ≠ some [] ∧ ∀ c ∈ name, isBracket c = false) ∧
      s.name = String.ofList name ∧ s.scope = scope.map String.ofList := by
  unfold readSegment at h
  obtain ⟨⟨function, inner⟩, hfunction, h⟩ := exists_of_bind_ok h
  obtain ⟨index, -, h⟩ := exists_of_bind_ok h
  dsimp only at h
  split_ifs at h with hbad
  cases h
  simp only [Bool.or_eq_true, not_or, List.isEmpty_iff, beq_iff_eq, List.any_eq_true] at hbad
  refine ⟨inner, _, _, hfunction, rfl, ⟨hbad.1.1, hbad.1.2, fun c hc => ?_⟩, rfl, rfl⟩
  rw [Bool.eq_false_iff]
  exact fun hbracket => hbad.2 ⟨c, hc, hbracket⟩

/-- A part is what is read of it, with its function around it. -/
theorem eq_of_splitFunction
    {raw inner : List Char} {function : Option FieldFunction}
    (h : splitFunction raw = .ok (function, inner)) :
    raw = inner ∨ ∃ f : FieldFunction, raw = f.name.toList ++ '(' :: (inner ++ [')']) := by
  unfold splitFunction at h
  split at h
  · cases h
    exact .inl rfl
  · rename_i name rest hcut
    split at h
    · cases h
    · rename_i stripped hstrip
      split at h
      · cases h
      · rename_i f hf
        split at h
        · cases h
        · cases h
          have hname : f.name = String.ofList name := by
            simpa [FieldFunction.ofName?] using List.find?_some hf
          refine .inr ⟨f, ?_⟩
          rw [Text.eq_of_cutFirst? hcut, Text.eq_of_stripLast? hstrip, hname,
            String.toList_ofList]

/-- A part that is read holds no dot: one outside parentheses would have ended it, and one
inside them is refused. -/
theorem not_mem_of_readSegment
    {part : List Char}
    (hdots : '.' ∈ part → '(' ∈ part) (h : readSegment part = .ok s) :
    '.' ∉ part := by
  have hraw : '.' ∈ Text.trim part → '(' ∈ Text.trim part := fun hdot =>
    Text.mem_trim (by decide) (hdots (Text.subset_trim part hdot))
  obtain ⟨inner, _, _, hfunction, -⟩ := cuts_of_readSegment h
  have hinner := dotless_of_splitFunction hraw hfunction
  intro hdot
  have hmem := Text.mem_trim (by decide) hdot
  rcases eq_of_splitFunction hfunction with heq | ⟨f, heq⟩
  · exact hinner (heq ▸ hmem)
  · rw [heq, List.mem_append, List.mem_cons, List.mem_append] at hmem
    rcases hmem with hname | hparen | hinside | hclose
    · exact (plain_name f _ hname).2.2 rfl
    · cases hparen
    · exact hinner hinside
    · cases List.mem_singleton.1 hclose

/-- What holds of a segment that is read. -/
structure Readable (s : Segment) : Prop where
  name_ne : s.name ≠ ""
  name : ∀ c ∈ s.name.toList, isBracket c = false ∧ c ≠ '.' ∧ c ≠ ':'
  scope : ∀ scope ∈ s.scope, scope ≠ "" ∧ '.' ∉ scope.toList

theorem readable_of_readSegment
    {part : List Char}
    (hdots : '.' ∈ part → '(' ∈ part) (h : readSegment part = .ok s) :
    Readable s := by
  have hdot := not_mem_of_readSegment hdots h
  obtain ⟨inner, name, scope, hfunction, hcut, ⟨hne, hscope, hbracket⟩, hname, hscoped⟩ :=
    cuts_of_readSegment h
  have hinner : '.' ∉ inner := dotless_of_splitFunction
    (fun hmem => absurd (Text.subset_trim part hmem) hdot) hfunction
  have hindex : '.' ∉ (splitIndex inner).1 := fun hmem => hinner (subset_splitIndex inner hmem)
  have hparts : ':' ∉ name ∧ '.' ∉ name ∧ ∀ cs ∈ scope, '.' ∉ cs := by
    unfold splitScope at hcut
    split at hcut
    · rename_i before after hcolon
      cases hcut
      rw [Text.eq_of_cutFirst? hcolon, List.mem_append, List.mem_cons, not_or, not_or] at hindex
      refine ⟨Text.not_mem_of_cutFirst? hcolon, hindex.1, ?_⟩
      rintro _ ⟨⟩
      exact hindex.2.2
    · rename_i hcolon
      cases hcut
      exact ⟨Text.not_mem_of_cutFirst?_eq_none hcolon, hindex, by rintro _ ⟨⟩⟩
  obtain ⟨hcolon, hdotless, hscopes⟩ := hparts
  refine ⟨?_, ?_, ?_⟩
  · rw [hname]
    simpa using hne
  · intro c hc
    rw [hname, String.toList_ofList] at hc
    exact ⟨hbracket c hc, fun h => hdotless (h ▸ hc), fun h => hcolon (h ▸ hc)⟩
  · intro text htext
    rw [hscoped] at htext
    obtain ⟨cs, hcs, rfl⟩ := Option.map_eq_some_iff.1 htext
    refine ⟨fun hempty => hscope ?_, ?_⟩
    · rw [hcs, String.ofList_eq_empty_iff.1 hempty]
    · rw [String.toList_ofList]
      exact hscopes cs hcs

/-- Where no part holds a dot, there is one more than the key has dots. -/
theorem length_of_splitKey
    {key : String} {depth : Nat} {cs : List Char} {parts : List (List Char)}
    (h : splitKey key depth cs = .ok parts) (hparts : ∀ part ∈ parts, '.' ∉ part) :
    parts.length = cs.count '.' + 1 := by
  have hcons (c : Char) {rest : List (List Char)} (hne : rest ≠ [])
      (hdotless : ∀ part ∈ consHead c rest, '.' ∉ part) :
      c ≠ '.' ∧ (∀ part ∈ rest, '.' ∉ part) ∧ (consHead c rest).length = rest.length := by
    cases rest with
    | nil => exact absurd rfl hne
    | cons part rest =>
        obtain ⟨hfirst, hrest⟩ := List.forall_mem_cons.1 hdotless
        rw [List.mem_cons, not_or] at hfirst
        exact ⟨fun hc => hfirst.1 hc.symm, List.forall_mem_cons.2 ⟨hfirst.2, hrest⟩, rfl⟩
  -- a character that goes to the first part is no dot and adds no part
  have hstep (c : Char) {rest : List (List Char)} {depth : Nat} {cs : List Char}
      (hrest : splitKey key depth cs = .ok rest)
      (hdotless : ∀ part ∈ consHead c rest, '.' ∉ part)
      (ih : (∀ part ∈ rest, '.' ∉ part) → rest.length = cs.count '.' + 1) :
      (consHead c rest).length = (c :: cs).count '.' + 1 := by
    obtain ⟨hc, hparts, hlength⟩ := hcons c (ne_nil_of_splitKey hrest) hdotless
    rw [hlength, List.count_cons_of_ne hc, ih hparts]
  induction cs generalizing depth parts with
  | nil =>
      rw [splitKey] at h
      split_ifs at h
      cases h
      rfl
  | cons c cs ih =>
      rw [splitKey] at h
      split_ifs at h with _ _ _ hdot
      all_goals obtain ⟨rest, hrest, rfl⟩ := exists_of_map_ok h
      · exact hstep c hrest hparts (ih hrest)
      · exact hstep c hrest hparts (ih hrest)
      · have hlength := ih hrest fun part hpart => hparts part (List.mem_cons_of_mem _ hpart)
        rw [hdot.1, List.length_cons, hlength, List.count_cons_self]
      · exact hstep c hrest hparts (ih hrest)

/-- Every item gives one result. -/
theorem results_of_mapM_ok
    {ε α β : Type} {f : α → Except ε β} :
    ∀ {as : List α} {bs : List β}, as.mapM f = .ok bs →
      bs.length = as.length ∧ ∀ a ∈ as, ∃ b, f a = .ok b
  | [], bs, h => by
      cases h
      simp
  | a :: as, bs, h => by
      rw [List.mapM_cons] at h
      obtain ⟨b, hb, h⟩ := exists_of_bind_ok h
      obtain ⟨rest, hrest, h⟩ := exists_of_bind_ok h
      cases h
      obtain ⟨hlength, hresults⟩ := results_of_mapM_ok hrest
      exact ⟨by simp [hlength], List.forall_mem_cons.2 ⟨⟨b, hb⟩, hresults⟩⟩

/-- **The grammar of field keys.**  A key that can be read has one segment more than it has
dots; names are not empty and hold no parenthesis, bracket, dot or colon, and scopes are not
empty and hold no dot.  Segments that can be written are read back from their key. -/
theorem key_grammar :
    (∀ key segments, ofKey key = .ok segments →
      segments.length = key.toList.count '.' + 1 ∧ ∀ s ∈ segments, Readable s) ∧
    ∀ segments, segments ≠ [] → (∀ s ∈ segments, s.Writable) →
      ofKey (spell segments) = .ok segments := by
  refine ⟨fun key segments h => ?_, fun segments => ofKey_spell⟩
  obtain ⟨parts, hparts, h⟩ := exists_of_bind_ok h
  have hdots : ∀ part ∈ parts, '.' ∈ part → '(' ∈ part := by
    obtain ⟨hhead, htail⟩ := dots_of_splitKey hparts
    cases parts with
    | nil => simp
    | cons first others => exact List.forall_mem_cons.2 ⟨hhead rfl first rfl, htail⟩
  obtain ⟨hlength, hresults⟩ := results_of_mapM_ok h
  have hdotless : ∀ part ∈ parts, '.' ∉ part := fun part hpart => by
    obtain ⟨s, hs⟩ := hresults part hpart
    exact not_mem_of_readSegment (hdots part hpart) hs
  refine ⟨?_, forall_of_mapM_ok (fun _ _ => readable_of_readSegment) h hdots⟩
  rw [hlength, length_of_splitKey hparts hdotless]

/-- A scoped relation, an item of a list, and the year of a field whose name begins with a
blank. -/
def oddPath : List Segment :=
  [{ name := "parts", scope := some "a:b" }, { name := "2nd tags", index := some 12 },
    { name := " since", scope := some "x ", function := some (.extract .year), index := some 0 }]

theorem key_grammar_oddPath :
    spell oddPath = "parts:a:b.2nd tags[12].year( since:x [0])" ∧
      ofKey (spell oddPath) = .ok oddPath ∧
      oddPath.length = (spell oddPath).toList.count '.' + 1 := by
  have hwritable : ∀ s ∈ oddPath, s.Writable := by
    decide +kernel
  have hread := key_grammar.2 oddPath (by simp [oddPath]) hwritable
  exact ⟨by decide +kernel, hread, (key_grammar.1 _ _ hread).1⟩

end FieldPath

end RowFilter
