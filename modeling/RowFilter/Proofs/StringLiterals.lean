import RowFilter.Proofs.Decoding
import RowFilter.Proofs.Evaluation

/-!
# String literals as they are read

A JSON path that is not bound stands in the statement as a string literal, with its single
quotes doubled.  Where the database takes a backslash for itself, such a literal is read as
the path.  Where the database takes it for the beginning of an escape sequence, the escape
sequences of the path are gone before the path is read: the literal still ends where it was
closed, since a path has a backslash only before a backslash or a double quote, but names
that hold one of these arrive as other names, or not at all.  Member keys are bound, and
escaped for the path only, so they arrive as they are.

* `Dialect.literal?`: what the literal at the beginning of a text denotes.
* `Dialect.literal?_path`: the literals of paths end where they were closed.
* `Dialect.denoted_path_iff`: the paths that are read as they were written.
* `inlined_paths_as_read`: paths and member keys as they arrive.
* `doubled_backslash_lost`: a name that arrives as another one.
-/

namespace RowFilter
namespace Sql

/-! ## Reading -/

/-- Where the reader of a string literal stands. -/
inductive LiteralPlace where
  | inside
  /-- Behind a quote, which ends the literal unless another one follows. -/
  | quote
  /-- Behind a backslash that begins an escape sequence. -/
  | escape

/-- What an escape sequence stands for: quotes and the backslash stand for themselves, and
`others` says what the other sequences stand for. -/
def escapeValue (others : Char → List Char) (c : Char) : List Char :=
  if c = '\\' ∨ c = '\'' ∨ c = '"' then [c] else others c

/-- The text with every escape sequence replaced by the character that it escapes. -/
def withoutEscapes : List Char → List Char
  | [] => []
  | [c] => [c]
  | c :: next :: rest =>
      if c = '\\' then next :: withoutEscapes rest else c :: withoutEscapes (next :: rest)

namespace Dialect

/-- A backslash in a string literal begins an escape sequence. -/
def escapesLiterals : Dialect → Bool
  | .postgres => false
  | .mysql => true

/-- What a literal denotes from a place on, and what follows it. -/
def literalFrom (d : Dialect) (others : Char → List Char) :
    LiteralPlace → List Char → Option (List Char × List Char)
  | .inside, [] => none
  | .inside, c :: cs =>
      if c = '\'' then
        d.literalFrom others .quote cs
      else if c = '\\' ∧ d.escapesLiterals = true then
        d.literalFrom others .escape cs
      else
        (d.literalFrom others .inside cs).map (Prod.map (c :: ·) id)
  | .quote, [] => some ([], [])
  | .quote, c :: cs =>
      if c = '\'' then
        (d.literalFrom others .inside cs).map (Prod.map (c :: ·) id)
      else
        some ([], c :: cs)
  | .escape, [] => none
  | .escape, c :: cs =>
      (d.literalFrom others .inside cs).map (Prod.map (escapeValue others c ++ ·) id)

/-- What the literal at the beginning of a text denotes, and what follows its closing
quote. -/
def literal? (d : Dialect) (others : Char → List Char) :
    List Char → Option (List Char × List Char)
  | '\'' :: cs => d.literalFrom others .inside cs
  | _ => none

/-- The text that a literal with doubled quotes denotes, if the text it was written for has
a backslash only before a backslash or a double quote. -/
def denoted : Dialect → List Char → List Char
  | .postgres, cs => cs
  | .mysql, cs => withoutEscapes cs

section Literals

variable {d : Dialect} {others : Char → List Char} {rest : List Char}

/-- A character that begins no escape sequence, with a quote doubled. -/
theorem literalFrom_plain
    {c : Char} (cs : List Char)
    (hc : c = '\\' → d = .postgres) :
    d.literalFrom others .inside ((if c == '\'' then [c, c] else [c]) ++ cs) =
      (d.literalFrom others .inside cs).map (Prod.map (c :: ·) id) := by
  by_cases hquote : c = '\''
  · subst hquote
    simp [literalFrom]
  · have hescape : ¬(c = '\\' ∧ d.escapesLiterals = true) := by
      rintro ⟨hbackslash, hescapes⟩
      rw [hc hbackslash] at hescapes
      cases hescapes
    simp [literalFrom, hquote, hescape]

theorem literalFrom_escape
    (c : Char) (cs : List Char) :
    mysql.literalFrom others .inside ('\\' :: c :: cs) =
      (mysql.literalFrom others .inside cs).map (Prod.map (escapeValue others c ++ ·) id) := by
  simp [literalFrom, escapesLiterals]

theorem literalFrom_close
    (hrest : '\'' ∉ rest.head?) :
    d.literalFrom others .inside ('\'' :: rest) = some ([], rest) := by
  cases rest with
  | nil => simp [literalFrom]
  | cons c cs =>
      have hc : c ≠ '\'' := by simpa [eq_comm] using hrest
      simp [literalFrom, hc]

/-- Without escape sequences every literal is read as the text it was written for. -/
theorem literalFrom_postgres
    (hrest : '\'' ∉ rest.head?) (cs : List Char) :
    postgres.literalFrom others .inside
        (cs.flatMap (fun c => if c == '\'' then [c, c] else [c]) ++ '\'' :: rest) =
      some (cs, rest) := by
  induction cs with
  | nil => exact literalFrom_close hrest
  | cons c cs ih =>
      rw [List.flatMap_cons, List.append_assoc, literalFrom_plain _ fun _ => rfl, ih]
      rfl

end Literals
end Dialect

/-! ## Texts with escape sequences -/

/-- A text that has a backslash only before a double quote or a backslash, which it
escapes. -/
inductive Escaping : List Char → Prop
  | nil : Escaping []
  | plain {c : Char} {cs : List Char} (hc : c ≠ '\\') (h : Escaping cs) : Escaping (c :: cs)
  | escape {c : Char} {cs : List Char} (hc : c = '"' ∨ c = '\\') (h : Escaping cs) :
      Escaping ('\\' :: c :: cs)

theorem withoutEscapes_plain
    {c : Char} (cs : List Char)
    (hc : c ≠ '\\') :
    withoutEscapes (c :: cs) = c :: withoutEscapes cs := by
  cases cs with
  | nil => rfl
  | cons next rest => rw [withoutEscapes, if_neg hc]

theorem withoutEscapes_escape
    (c : Char) (cs : List Char) :
    withoutEscapes ('\\' :: c :: cs) = c :: withoutEscapes cs := by
  rw [withoutEscapes, if_pos rfl]

theorem length_withoutEscapes_le
    {cs : List Char}
    (h : Escaping cs) :
    (withoutEscapes cs).length ≤ cs.length := by
  induction h with
  | nil => simp [withoutEscapes]
  | plain hc _ ih =>
      rw [withoutEscapes_plain _ hc, List.length_cons, List.length_cons]
      omega
  | escape hc _ ih =>
      rw [withoutEscapes_escape, List.length_cons, List.length_cons, List.length_cons]
      omega

/-- A text stays as it is exactly if it has no escape sequences. -/
theorem withoutEscapes_eq_self_iff
    {cs : List Char}
    (h : Escaping cs) :
    withoutEscapes cs = cs ↔ '\\' ∉ cs := by
  induction h with
  | nil => simp [withoutEscapes]
  | plain hc _ ih =>
      rw [withoutEscapes_plain _ hc, List.cons.injEq, List.mem_cons, not_or, ih]
      simp [hc.symm]
  | @escape c cs hc h ih =>
      constructor
      · intro heq
        -- an escape sequence makes the text shorter
        have hlength := congrArg List.length heq
        have hle := length_withoutEscapes_le h
        rw [withoutEscapes_escape, List.length_cons, List.length_cons, List.length_cons] at hlength
        omega
      · intro hmem
        simp at hmem

theorem Escaping.append
    {first second : List Char}
    (hfirst : Escaping first) (hsecond : Escaping second) :
    Escaping (first ++ second) := by
  induction hfirst with
  | nil => exact hsecond
  | plain hc _ ih => exact .plain hc ih
  | escape hc _ ih => exact .escape hc ih

theorem escaping_of_not_mem
    {cs : List Char}
    (h : '\\' ∉ cs) :
    Escaping cs := by
  induction cs with
  | nil => exact .nil
  | cons c cs ih =>
      rw [List.mem_cons, not_or] at h
      exact .plain (Ne.symm h.1) (ih h.2)

/-- A text with escape sequences is read without them, up to where its literal was
closed. -/
theorem Dialect.literalFrom_mysql
    {others : Char → List Char} {cs rest : List Char}
    (h : Escaping cs) (hrest : '\'' ∉ rest.head?) :
    mysql.literalFrom others .inside
        (cs.flatMap (fun c => if c == '\'' then [c, c] else [c]) ++ '\'' :: rest) =
      some (withoutEscapes cs, rest) := by
  induction h with
  | nil => exact literalFrom_close hrest
  | plain hc _ ih =>
      rw [List.flatMap_cons, List.append_assoc, literalFrom_plain _ fun h => absurd h hc, ih,
        withoutEscapes_plain _ hc]
      rfl
  | @escape c cs hc _ ih =>
      have hquote : c ≠ '\'' := by
        rcases hc with rfl | rfl <;> decide
      have hvalue : escapeValue others c = [c] := by
        rcases hc with rfl | rfl <;> rfl
      have hchars : ('\\' :: c :: cs).flatMap (fun c => if c == '\'' then [c, c] else [c]) =
          '\\' :: c :: cs.flatMap (fun c => if c == '\'' then [c, c] else [c]) := by
        simp [hquote]
      rw [hchars, List.cons_append, List.cons_append, literalFrom_escape, ih, hvalue,
        withoutEscapes_escape]
      rfl

end Sql

/-! ## The texts of paths -/

namespace JsonPath

open Sql (Escaping escaping_of_not_mem)

theorem escaping_escaped
    (name : List Char) :
    Escaping (name.flatMap escapeChar) := by
  induction name with
  | nil => exact .nil
  | cons c name ih =>
      rw [List.flatMap_cons]
      by_cases hc : c = '"' ∨ c = '\\'
      · rw [escapeChar_special hc]
        exact .escape hc ih
      · rw [escapeChar_plain hc]
        exact .plain (not_or.1 hc).2 ih

theorem mem_escaped_iff
    (name : List Char) :
    '\\' ∈ name.flatMap escapeChar ↔ '"' ∈ name ∨ '\\' ∈ name := by
  induction name with
  | nil => simp
  | cons c name ih =>
      rw [List.flatMap_cons, List.mem_append, ih, List.mem_cons, List.mem_cons]
      by_cases hc : c = '"' ∨ c = '\\'
      · rw [escapeChar_special hc]
        rcases hc with rfl | rfl <;> simp
      · rw [escapeChar_plain hc]
        rw [not_or] at hc
        simp [Ne.symm hc.1, Ne.symm hc.2]

/-- A name without quotes holds none. -/
theorem plain_of_isIdentifier
    {name : List Char} {c : Char}
    (h : isIdentifier name = true) (hc : c ∈ name) :
    c ≠ '"' ∧ c ≠ '\\' := by
  cases name with
  | nil => cases hc
  | cons first others =>
      simp only [isIdentifier, Bool.and_eq_true, List.all_eq_true] at h
      rcases List.mem_cons.1 hc with rfl | hc
      · constructor
        · rintro rfl
          cases h.1
        · rintro rfl
          cases h.1
      · constructor
        · rintro rfl
          cases h.2 _ hc
        · rintro rfl
          cases h.2 _ hc

theorem escaping_member
    (name : List Char) :
    Escaping (member name) := by
  unfold member
  split
  · rename_i hidentifier
    refine .plain (by decide) (escaping_of_not_mem fun hmem => ?_)
    exact (plain_of_isIdentifier hidentifier hmem).2 rfl
  · refine .plain (by decide) (.plain (by decide) ?_)
    exact (escaping_escaped name).append (.plain (by decide) .nil)

theorem mem_member_iff
    (name : List Char) :
    '\\' ∈ member name ↔ '"' ∈ name ∨ '\\' ∈ name := by
  unfold member
  split
  · rename_i hidentifier
    have hquote : '"' ∉ name := fun hmem => (plain_of_isIdentifier hidentifier hmem).1 rfl
    have hbackslash : '\\' ∉ name := fun hmem => (plain_of_isIdentifier hidentifier hmem).2 rfl
    simp [hquote, hbackslash]
  · rw [← mem_escaped_iff]
    simp

theorem not_mem_stepBehind
    (openEnd : Bool) (s : Segment) (rest : List Segment) :
    '\\' ∉ stepBehind openEnd s rest := by
  unfold stepBehind
  cases s.index with
  | some n =>
      intro hmem
      have hdigit : '\\' ∈ Decimal.digitChars n := by simpa [element] using hmem
      cases Nat.isDigit_of_mem_toDigits (by decide) (by decide) hdigit
  | none =>
      by_cases hend : (rest.isEmpty && !openEnd) = true
      · simp [hend]
      · simp [hend, elements]

theorem escaping_steps
    (openEnd : Bool) (segments : List Segment) :
    Escaping (steps openEnd segments) := by
  induction segments with
  | nil => exact .nil
  | cons s rest ih =>
      have hbehind := escaping_of_not_mem (not_mem_stepBehind openEnd s rest)
      rw [steps_cons]
      exact ((escaping_member s.name.toList).append hbehind).append ih

theorem mem_steps_iff
    (openEnd : Bool) (segments : List Segment) :
    '\\' ∈ steps openEnd segments ↔
      ∃ s ∈ segments, '"' ∈ s.name.toList ∨ '\\' ∈ s.name.toList := by
  induction segments with
  | nil => simp [steps]
  | cons s rest ih =>
      have hbehind := not_mem_stepBehind openEnd s rest
      rw [steps_cons, List.mem_append, List.mem_append, mem_member_iff, ih]
      simp [hbehind]

/-- A path has a backslash only where it escapes a character of a name. -/
theorem escaping_text
    (segments : List Segment) (openEnd : Bool) :
    Escaping (text segments openEnd).toList := by
  rw [text, String.toList_ofList, chars]
  refine .plain (by decide) (Escaping.append ?_ (escaping_steps openEnd segments))
  split
  · exact escaping_of_not_mem (by decide)
  · exact .nil

/-- A path has a backslash exactly if a name holds a double quote or a backslash. -/
theorem mem_text_iff
    (segments : List Segment) (openEnd : Bool) :
    '\\' ∈ (text segments openEnd).toList ↔
      ∃ s ∈ segments, '"' ∈ s.name.toList ∨ '\\' ∈ s.name.toList := by
  have hroot : '\\' ∉ (if (segments.isEmpty && openEnd) = true then elements else []) := by
    split <;> decide
  rw [text, String.toList_ofList, chars, List.mem_cons, List.mem_append, or_iff_right hroot,
    mem_steps_iff]
  simp

/-- The path of a member of the document, with the name in quotes. -/
def quotedMember (name : String) : String :=
  String.ofList ('$' :: '.' :: '"' :: (name.toList.flatMap escapeChar ++ ['"']))

theorem read?_quotedMember
    (name : String) :
    read? (quotedMember name) = some [.member name] := by
  have hread := Mode.read_quoted name.toList [] []
  rw [read?, quotedMember, String.toList_ofList]
  show Mode.between.read _ = _
  rw [Mode.read_cons_none rfl, Mode.read_cons_none rfl, hread, List.nil_append,
    String.ofList_toList]
  rfl

end JsonPath

namespace Sql

/-! ## Paths and keys as they arrive -/

namespace Dialect

/-- The literal of a path ends where it was closed. -/
theorem literal?_path
    (d : Dialect) (others : Char → List Char) (segments : List Segment) (openEnd : Bool)
    {rest : List Char} (hrest : '\'' ∉ rest.head?) :
    d.literal? others ((stringLiteral (JsonPath.text segments openEnd)).toList ++ rest) =
      some (d.denoted (JsonPath.text segments openEnd).toList, rest) := by
  rw [stringLiteral, inQuotes, String.toList_ofList, List.cons_append, List.append_assoc]
  cases d with
  | postgres => exact literalFrom_postgres hrest _
  | mysql => exact literalFrom_mysql (JsonPath.escaping_text segments openEnd) hrest

/-- A path arrives as it was written, unless backslashes begin escape sequences and a name
holds a double quote or a backslash. -/
theorem denoted_path_iff
    (d : Dialect) (segments : List Segment) (openEnd : Bool) :
    d.denoted (JsonPath.text segments openEnd).toList = (JsonPath.text segments openEnd).toList ↔
      d = .postgres ∨ ∀ s ∈ segments, '"' ∉ s.name.toList ∧ '\\' ∉ s.name.toList := by
  cases d with
  | postgres => simp [denoted]
  | mysql =>
      rw [denoted, withoutEscapes_eq_self_iff (JsonPath.escaping_text segments openEnd),
        JsonPath.mem_text_iff]
      simp

/-- The text that a concatenation of a literal, a parameter and another literal gives, and
what follows the call. -/
def concat? (others : Char → List Char) (param : List Char) (text : List Char) :
    Option (List Char × List Char) := do
  let text ← stripped "CONCAT(".toList text
  let (first, text) ← mysql.literal? others text
  let text ← stripped ", ?, ".toList text
  let (last, text) ← mysql.literal? others text
  let text ← stripped ")".toList text
  return (first ++ param ++ last, text)

end Dialect

namespace PathArg

/-- The path is written as a literal. -/
def isInlined (d : Dialect) : PathArg → Bool
  | .bound _ => d.boundPath?.isNone
  | .inline _ => true

theorem pieces_of_isInlined
    {d : Dialect} {arg : PathArg}
    (h : arg.isInlined d = true) :
    arg.pieces d = [.text (stringLiteral arg.path)] := by
  cases arg with
  | inline path => rfl
  | bound path =>
      cases d with
      | postgres => cases h
      | mysql => rfl

end PathArg

theorem not_mem_head?_jsonRows_closing
    (d : Dialect) (label : Option String) :
    '\'' ∉ (d.jsonRows.closing ++ labelText d label).toList.head? := by
  rw [String.toList_append]
  cases d <;> simp [Dialect.jsonRows]

/-- The text of a row source up to the literal of its path, the literal, and the rest. -/
theorem write_jsonRows
    {d : Dialect} {arg : PathArg} (n : Nat) (document : Expr) (label : Option String)
    (h : arg.isInlined d = true) :
    Piece.write d n ((RowSource.jsonRows document arg label).pieces d) =
      "FROM " ++ d.jsonRows.opening ++ Piece.write d n (document.pieces d) ++ ", " ++
        (stringLiteral arg.path ++ (d.jsonRows.closing ++ labelText d label)) := by
  rw [RowSource.pieces, PathArg.pieces_of_isInlined h, Piece.write, Piece.write_append]
  simp [Piece.write, String.append_assoc]

/-- The call that puts the key of a member together with the text around it. -/
def memberCall : String :=
  "CONCAT('$.\"', ?, '\"')"

/-- The text of a member of a JSON row up to the call for its path, the call, and the rest. -/
theorem write_member_mysql
    (n : Nat) (source key : String) :
    Piece.write .mysql n (jsonValuePieces .mysql source (some key)) =
      "JSON_UNQUOTE(JSON_EXTRACT(" ++ Dialect.mysql.quoted source ++ ".`value`, " ++
        (memberCall ++ "))") := by
  have hopening (row : String) : (Dialect.mysql.memberText row).opening =
      "JSON_UNQUOTE(JSON_EXTRACT(" ++ row ++ ".`value`, CONCAT('$.\"', " := rfl
  have hclosing (row : String) : (Dialect.mysql.memberText row).closing = ", '\"')))" := rfl
  have htext : ".`value`, CONCAT('$.\"', " ++ ("?" ++ ", '\"')))") =
      ".`value`, " ++ (memberCall ++ "))") := by
    decide +kernel
  rewrite [jsonValuePieces, Piece.write, Piece.write, Piece.write, Piece.write,
    String.append_empty, hopening, hclosing, Dialect.placeholder]
  rewrite [String.append_assoc, htext, ← String.append_assoc]
  rfl

/-- The key arrives as the name of the member, in quotes. -/
theorem concat?_memberKey
    (others : Char → List Char) (key : String) :
    Dialect.concat? others (Dialect.mysql.memberKey key).toList (memberCall ++ "))").toList =
      some ((JsonPath.quotedMember key).toList, "))".toList) := by
  have hcall (param : List Char) :
      Dialect.concat? others param (memberCall ++ "))").toList =
        some ('$' :: '.' :: '"' :: (param ++ ['"']), "))".toList) := by
    rfl
  rw [hcall, JsonPath.quotedMember, Dialect.memberKey, escapedMember]
  simp only [String.toList_ofList]
  rfl

/-- **Paths and member keys as they arrive.**  Where a path is written as a literal, the
literal is read up to where it was closed.  It denotes the path exactly if backslashes do not
begin escape sequences, or no name holds a double quote or a backslash.  The key of a member
is bound, and the text around it makes it the path of exactly that member. -/
theorem inlined_paths_as_read
    (others : Char → List Char) :
    (∀ (d : Dialect) (arg : PathArg) (segments : List Segment) (openEnd : Bool),
      arg.isInlined d = true → arg.path = JsonPath.text segments openEnd →
      (∀ n document label,
        Piece.write d n ((RowSource.jsonRows document arg label).pieces d) =
          "FROM " ++ d.jsonRows.opening ++ Piece.write d n (document.pieces d) ++ ", " ++
            (stringLiteral arg.path ++ (d.jsonRows.closing ++ labelText d label)) ∧
        d.literal? others
            (stringLiteral arg.path ++ (d.jsonRows.closing ++ labelText d label)).toList =
          some (d.denoted arg.path.toList, (d.jsonRows.closing ++ labelText d label).toList)) ∧
      (d.denoted arg.path.toList = arg.path.toList ↔
        d = .postgres ∨ ∀ s ∈ segments, '"' ∉ s.name.toList ∧ '\\' ∉ s.name.toList)) ∧
    ∀ n source key,
      Piece.write .mysql n (jsonValuePieces .mysql source (some key)) =
        "JSON_UNQUOTE(JSON_EXTRACT(" ++ Dialect.mysql.quoted source ++ ".`value`, " ++
          (memberCall ++ "))") ∧
      ∃ param, Piece.values (jsonValuePieces .mysql source (some key)) = [.str param] ∧
        Dialect.concat? others param.toList (memberCall ++ "))").toList =
          some ((JsonPath.quotedMember key).toList, "))".toList) ∧
        JsonPath.read? (JsonPath.quotedMember key) = some [.member key] := by
  constructor
  · intro d arg segments openEnd hinlined hpath
    constructor
    · intro n document label
      have hclosing := not_mem_head?_jsonRows_closing d label
      refine ⟨write_jsonRows n document label hinlined, ?_⟩
      rw [hpath, String.toList_append]
      exact d.literal?_path others segments openEnd hclosing
    · rw [hpath]
      exact d.denoted_path_iff segments openEnd
  · intro n source key
    refine ⟨write_member_mysql n source key, Dialect.mysql.memberKey key, rfl, ?_⟩
    exact ⟨concat?_memberKey others key, JsonPath.read?_quotedMember key⟩

/-- Names with a blank and with a single quote. -/
def quotedNames : List Segment :=
  [{ name := "first name" }, { name := "it's", index := some 3 }]

theorem inlined_paths_as_read_quotedNames :
    JsonPath.text quotedNames true = "$.\"first name\"[*].\"it's\"[3]" ∧
      Dialect.mysql.literal? (fun c => [c])
          (stringLiteral (JsonPath.text quotedNames true) ++
            (Dialect.mysql.jsonRows.closing ++ labelText .mysql (some "t"))).toList =
        some ((JsonPath.text quotedNames true).toList,
          (Dialect.mysql.jsonRows.closing ++ labelText .mysql (some "t")).toList) := by
  have harrives := (inlined_paths_as_read fun c => [c]).1 .mysql
    (.bound (JsonPath.text quotedNames true)) quotedNames true rfl rfl
  have hplain : ∀ s ∈ quotedNames, '"' ∉ s.name.toList ∧ '\\' ∉ s.name.toList := by decide
  refine ⟨by decide +kernel, ?_⟩
  have hread := (harrives.1 0 (.column "t" "c") (some "t")).2
  rwa [harrives.2.2 (.inr hplain)] at hread

/-- A name that holds two backslashes. -/
def twoBackslashes : List Segment :=
  [{ name := "a\\\\b" }]

/-- The literal of a path to a name with two backslashes is read as the path to the name with
one of them. -/
theorem doubled_backslash_lost :
    Dialect.mysql.literal? (fun c => [c])
        ((stringLiteral (JsonPath.text twoBackslashes false)).toList ++ [' ']) =
      some ("$.\"a\\\\b\"".toList, [' ']) ∧
    JsonPath.text twoBackslashes false ≠ "$.\"a\\\\b\"" ∧
    JsonPath.read? (JsonPath.text twoBackslashes false) = some [.member "a\\\\b"] ∧
    JsonPath.read? "$.\"a\\\\b\"" = some [.member "a\\b"] := by
  decide +kernel

end Sql
end RowFilter
