import Mathlib.Order.Filter.AtTopBot.Basic
import Mathlib.Order.Filter.Finite
import RowFilter.Proofs.Terms

/-!
# Legible terms

A term is legible if the decoder reads it off its pieces.  There is one lemma for each
way of making a term from others: what is made from legible parts is legible.

* `Legible.asRead_eq`: legible terms with the same text and the same parameters are the
  same as far as can be seen.
-/

open Filter (atTop eventually_all_finite eventually_atTop eventually_ge_atTop eventually_gt_atTop)

namespace RowFilter
namespace Sql

/-- A term that is read off its pieces, if the limit of levels is large enough. -/
def Legible (d : Dialect) (t : Term) : Prop :=
  ∀ᶠ limit in atTop, Decodes d (Decoder.term d limit) (t.pieces d) (t.asRead d)

-- The equations are made here, once for all the rules below.
attribute [local simp] Expr.pieces

section Rules

variable {d : Dialect} {ps qs : List Piece}

/-- What is decoded depends on the text and the values only. -/
theorem Decodes.congr
    {α : Type} {x : Decoder α} {a : α}
    (h : Decodes d x ps a) (hwrite : ∀ n, Piece.write d n qs = Piece.write d n ps)
    (hvalues : Piece.values qs = Piece.values ps) :
    Decodes d x qs a := by
  intro n text values htext
  rw [hwrite, hvalues]
  exact h n text values htext

/-- Two closing parentheses can stand in one text. -/
theorem Decodes.close
    {α : Type} {x : Decoder α} {a : α}
    (h : Decodes d x (ps ++ [.text ")"] ++ [.text ")"]) a) :
    Decodes d x (ps ++ [.text "))"]) a := by
  refine h.congr (fun n => ?_) (by simp [Piece.values_append])
  simp [Piece.write_append, Piece.write]

theorem Decodes.expr
    {x : Decoder Term} {e : Expr}
    (h : Decodes d x ps (.expr e)) :
    Decodes d x.expr ps e :=
  h.bind_pure rfl

theorem Decodes.query
    {x : Decoder Term} {q : Select}
    (h : Decodes d x ps (.query q)) :
    Decodes d x.query ps q :=
  h.bind_pure rfl

theorem decodes_choose
    {α κ : Type} {choices : List κ} {opening : κ → String} {x : κ → Decoder α} {k : κ} {a : α}
    (hmem : k ∈ choices) (hclash : Clashing (choices.map opening)) (h : Decodes d (x k) ps a) :
    Decodes d (Decoder.choose choices opening x) (.text (opening k) :: ps) a := by
  refine decodes_branch (List.mem_map_of_mem hmem) ?_ h
  rwa [List.map_map]

/-! ### Names and columns -/

theorem Dialect.identifierQuote_eq
    (d : Dialect) :
    d.identifierQuote = '"' ∨ d.identifierQuote = '\'' ∨ d.identifierQuote = Char.ofNat 0x60 := by
  cases d with
  | postgres => exact .inl rfl
  | mysql => exact .inr (.inr rfl)

theorem decodes_identifier
    {α : Type} {f : String → Decoder α} {name : String} {a : α}
    (h : Decodes d (f name) ps a) (hps : StartsUnquoted d ps) :
    Decodes d (Decoder.name d.identifierQuote >>= f)
      (.text (quotedTail d.identifierQuote name) :: ps) a :=
  decodes_name h d.identifierQuote_eq hps

/-- A column is written as its first quote and what follows it. -/
theorem decodes_identifierText
    {α : Type} {x : Decoder α} {qualifier name : String} {a : α}
    (h : Decodes d x (.text d.quote :: .text (quotedTail d.identifierQuote qualifier) ::
      .text ("." ++ d.quote) :: .text (quotedTail d.identifierQuote name) :: ps) a) :
    Decodes d x (.text (identifierText d (some qualifier) name) :: ps) a := by
  refine h.congr (fun n => ?_) (by simp)
  simp only [Piece.write, identifierText, Dialect.quoted, Dialect.quote, inQuotes_eq,
    String.append_assoc]

theorem clashing_references
    (d : Dialect) (source : String) :
    Clashing ((Decoder.references d source).map Prod.fst) := by
  change Clashing ["." ++ d.quote, " #>> '\x7b\x7d'", " ->> "]
  cases d <;> decide

theorem decodes_reference_column
    (qualifier name : String) :
    Decodes d (Decoder.reference d) [.text (quotedTail d.identifierQuote qualifier),
      .text ("." ++ d.quote), .text (quotedTail d.identifierQuote name)]
      (.column qualifier name) := by
  refine decodes_identifier ?_ (startsUnquoted_text _ (by cases d <;> decide))
  refine decodes_branch List.mem_cons_self (clashing_references d qualifier) ?_
  exact decodes_identifier (decodes_pure _) startsUnquoted_nil

/-! ### Terms -/

/-- A term goes on behind its opening. -/
theorem eventually_decodes_opening
    {t : Term} (o : Opening)
    (h : ∀ᶠ limit in atTop, Decodes d (o.rest d (Decoder.term d limit) limit) ps t) :
    ∀ᶠ limit in atTop, Decodes d (Decoder.term d limit) (.text (o.text d) :: ps) t := by
  obtain ⟨k, hk⟩ := eventually_atTop.1 h
  refine eventually_atTop.2 ⟨k + 1, fun limit hlimit => ?_⟩
  cases limit with
  | zero => exact absurd hlimit (Nat.not_succ_le_zero k)
  | succ limit =>
      exact decodes_choose o.mem_all (Opening.clashing_all d)
        (hk limit (Nat.le_of_succ_le_succ hlimit))

theorem legible_of_opening
    {t : Term} (o : Opening)
    (hpieces : t.pieces d = .text (o.text d) :: ps)
    (h : ∀ᶠ limit in atTop, Decodes d (o.rest d (Decoder.term d limit) limit) ps (t.asRead d)) :
    Legible d t := by
  rw [Legible, hpieces]
  exact eventually_decodes_opening o h

/-- A term without terms inside, whose pieces can be cut elsewhere. -/
theorem legible_of_cut
    {t : Term} (o : Opening) (qs ps : List Piece)
    (hpieces : t.pieces d = qs)
    (hwrite : ∀ n, Piece.write d n qs = Piece.write d n (.text (o.text d) :: ps))
    (hvalues : Piece.values qs = Piece.values ps)
    (h : ∀ inner limit, Decodes d (o.rest d inner limit) ps (t.asRead d)) :
    Legible d t := by
  filter_upwards [eventually_decodes_opening o (.of_forall fun limit => h _ limit)] with limit h
  rw [hpieces]
  exact h.congr hwrite hvalues

/-- An expression goes on behind its first operand. -/
theorem legible_of_continuation
    {e left : Expr} (c : Continuation)
    (hpieces : e.pieces d = .text "(" :: (left.pieces d ++ .text c.text :: qs))
    (hleft : Legible d (.expr left))
    (h : ∀ᶠ limit in atTop,
      Decodes d (c.rest (Decoder.term d limit) limit (left.asRead d)) qs (e.asRead d)) :
    Legible d (.expr e) := by
  refine legible_of_opening .group hpieces ?_
  filter_upwards [hleft, h] with limit hleft h
  have hrest := decodes_choose c.mem_all Continuation.clashing_all h
  exact hleft.bind (hrest.map Term.expr) (startsUnquoted_text _ c.beginsUnquoted_text)

/-- An expression between an opening and a fixed end. -/
theorem legible_of_frame
    {e inner : Expr} {closing : String} {f : Expr → Expr} (o : Opening)
    (hpieces : e.pieces d = .text (o.text d) :: (inner.pieces d ++ [.text closing]))
    (hclosing : BeginsUnquoted closing)
    (hrest : ∀ x limit, o.rest d x limit = (do
      let e ← x.expr
      Decoder.expect closing
      return .expr (f e)))
    (hread : e.asRead d = f (inner.asRead d))
    (hinner : Legible d (.expr inner)) :
    Legible d (.expr e) := by
  refine legible_of_opening o hpieces ?_
  filter_upwards [hinner] with limit hinner
  rw [hrest, Term.asRead, hread]
  exact hinner.expr.bind (decodes_expect (decodes_pure _)) (startsUnquoted_text _ hclosing)

theorem legible_column
    (qualifier name : String) :
    Legible d (.expr (.column qualifier name)) := by
  have hrest := (decodes_reference_column (d := d) qualifier name).map Term.expr
  filter_upwards [eventually_decodes_opening .name (.of_forall fun _ => hrest)] with limit h
  exact decodes_identifierText h

theorem legible_value
    (v : Value) :
    Legible d (.expr (.value v)) := by
  refine eventually_atTop.2 ⟨1, fun limit hlimit => ?_⟩
  cases limit with
  | zero => exact absurd hlimit (Nat.not_succ_le_zero 0)
  | succ limit =>
      refine decodes_branch_hole (List.mem_map_of_mem (Opening.mem_all .value)) ?_ (decodes_pure _)
      rw [List.map_map]
      exact Opening.clashing_all d

theorem legible_never :
    Legible d (.expr (.raw "1 = 0")) :=
  legible_of_opening .never (by rw [Term.pieces, Expr.pieces]; rfl)
    (.of_forall fun _ => decodes_pure _)

theorem legible_binary
    {left right : Expr}
    (hleft : Legible d (.expr left)) (op : BinaryOp) (hright : Legible d (.expr right)) :
    Legible d (.expr (.binary left op right)) := by
  refine legible_of_continuation (.binary op) (by rw [Expr.pieces]; rfl) hleft ?_
  filter_upwards [hright] with limit hright
  exact hright.expr.bind (decodes_expect (decodes_pure _)) (startsUnquoted_close _)

theorem legible_between
    {e low high : Expr} (negated : Bool)
    (he : Legible d (.expr e)) (hlow : Legible d (.expr low)) (hhigh : Legible d (.expr high)) :
    Legible d (.expr (.between e low high negated)) := by
  refine legible_of_continuation (.between negated) (by rw [Expr.pieces]; rfl) he ?_
  filter_upwards [hlow, hhigh] with limit hlow hhigh
  refine hlow.expr.bind (decodes_expect ?_) (startsUnquoted_text _ (by decide))
  exact hhigh.expr.bind (decodes_expect (decodes_pure _)) (startsUnquoted_close _)

theorem legible_isNull
    {e : Expr} (negated : Bool)
    (he : Legible d (.expr e)) :
    Legible d (.expr (.isNull e negated)) :=
  legible_of_continuation (.isNull negated) (by rw [Expr.pieces]; rfl) he
    (.of_forall fun _ => decodes_pure _)

theorem legible_lower
    {e : Expr}
    (he : Legible d (.expr e)) :
    Legible d (.expr (.call "LOWER" [e] false)) :=
  legible_of_frame .lower (by simp [Expr.pieces, Expr.rows, Piece.separated]; rfl) (by decide)
    (fun _ _ => rfl) rfl he

theorem legible_jsonLength
    {e : Expr}
    (he : Legible d (.expr e)) :
    Legible d (.expr (.jsonLength e)) :=
  legible_of_frame .arrayLength (by rw [Expr.pieces]; rfl) (by decide) (fun _ _ => rfl) rfl he

theorem legible_datePart
    {e : Expr} (part : DatePart)
    (he : Legible d (.expr e)) :
    Legible d (.expr (.datePart part e)) :=
  legible_of_frame (.datePart part) (by rw [Expr.pieces]; rfl)
    (by cases d <;> cases part <;> decide)
    (fun _ _ => rfl) rfl he

theorem legible_cast
    {e : Expr} (type : CastType)
    (he : Legible d (.expr e)) :
    Legible d (.expr (.cast e type)) := by
  refine legible_of_opening .cast (by rw [Term.pieces, Expr.pieces]; rfl) ?_
  filter_upwards [he] with limit he
  refine he.expr.bind ?_ (startsUnquoted_text _ (by cases d <;> cases type <;> decide))
  have htype : type ∈ [CastType.numeric, .text] := by cases type <;> decide
  exact (decodes_choose htype (by cases d <;> decide) (decodes_pure type)).map _

theorem eventually_decodes_all
    {es : List Expr}
    (h : ∀ e ∈ es, Legible d (.expr e)) :
    ∀ᶠ limit in atTop, es.length ≤ limit ∧
      ∀ e ∈ es, Decodes d (Decoder.term d limit).expr (e.pieces d) (e.asRead d) := by
  have hall := (eventually_all_finite es.finite_toSet).2 h
  filter_upwards [hall, eventually_ge_atTop es.length] with limit hall hlimit
  exact ⟨hlimit, fun e he => (hall e he).expr⟩

theorem legible_logical
    {first second : Expr} {others : List Expr} (op : Connective)
    (h : ∀ e ∈ first :: second :: others, Legible d (.expr e)) :
    Legible d (.expr (.logical op (first :: second :: others))) := by
  obtain ⟨hfirst, hothers⟩ := List.forall_mem_cons.1 h
  have hpieces : (Expr.logical op (first :: second :: others)).pieces d = .text "(" ::
      (first.pieces d ++ .text (" " ++ op.keyword ++ " ") ::
        (Piece.separated (" " ++ op.keyword ++ " ") ((second :: others).map (Expr.pieces d)) ++
          [.text ")"])) := by
    rw [Expr.pieces, Expr.rows_eq_map, List.map_cons, List.map_cons, Piece.separated_cons_cons,
      List.append_assoc, List.cons_append]
  refine legible_of_continuation (.logical op) hpieces hfirst ?_
  filter_upwards [eventually_decodes_all hothers] with limit hothers
  have hlist := decodes_listOf (" " ++ op.keyword ++ " ")
    (by cases op <;> decide) (by cases op <;> decide) (List.cons_ne_nil second others)
    hothers.1 hothers.2
  rw [Expr.asRead_logical]
  exact hlist.map (fun rest => Expr.logical op (first.asRead d :: rest))

theorem legible_inList
    {e first : Expr} {others : List Expr} (negated : Bool)
    (he : Legible d (.expr e)) (h : ∀ item ∈ first :: others, Legible d (.expr item)) :
    Legible d (.expr (.inList e (first :: others) negated)) := by
  obtain ⟨hfirst, hothers⟩ := List.forall_mem_cons.1 h
  refine legible_of_continuation (.among negated) (by rw [Expr.pieces]; rfl) he ?_
  filter_upwards [hfirst, eventually_decodes_all hothers] with limit hfirst hothers
  have hclash : Clashing ["))", ", "] := by decide
  rw [Expr.asRead_inList, Expr.rows_eq_map]
  cases others with
  | nil =>
      have hsingle : Piece.separated ", " ([first].map (Expr.pieces d)) = first.pieces d := by
        simp [Piece.separated, List.intercalate]
      rw [hsingle]
      refine hfirst.bind ?_ (startsUnquoted_text _ (by decide))
      exact decodes_branch List.mem_cons_self hclash (decodes_pure _)
  | cons second others =>
      rw [List.map_cons, List.map_cons, Piece.separated_cons_cons, List.append_assoc,
        List.cons_append]
      refine hfirst.bind ?_ (startsUnquoted_text _ (by decide))
      refine decodes_branch (List.mem_cons_of_mem _ List.mem_cons_self) hclash ?_
      have hlist := decodes_listOf ", " (by decide) (by decide)
        (List.cons_ne_nil second others) hothers.1 hothers.2
      exact (hlist.bind (decodes_expect (decodes_pure _)) (startsUnquoted_close _)).close

/-! ### JSON rows -/

theorem unescaped_escaped
    (cs : List Char) :
    unescaped (cs.flatMap fun c => if c == '"' || c == '\\' then ['\\', c] else [c]) = cs := by
  induction cs with
  | nil => rfl
  | cons c cs ih =>
      rw [List.flatMap_cons]
      by_cases hc : c = '"' ∨ c = '\\'
      · have hescape : (c == '"' || c == '\\') = true := by simpa using hc
        rw [if_pos hescape, List.cons_append, List.cons_append, List.nil_append, unescaped,
          if_pos rfl, ih]
      · have hescape : ¬ (c == '"' || c == '\\') = true := by simpa using hc
        rw [if_neg hescape, List.cons_append, List.nil_append]
        -- A text of one character is read apart from longer ones.
        cases hrest : cs.flatMap fun c => if c == '"' || c == '\\' then ['\\', c] else [c] with
        | nil =>
            rw [hrest] at ih
            rw [← ih, unescaped, unescaped]
        | cons next more =>
            rw [hrest] at ih
            rw [unescaped, if_neg (fun h => hc (.inr h)), ih]

theorem legible_jsonValue_postgres
    (source : String) (key : Option String) :
    Legible .postgres (.expr (.jsonValue source key)) := by
  cases key with
  | none =>
      refine legible_of_cut .name
        [.text (Dialect.postgres.quoted source ++ " #>> '\x7b\x7d'")]
        [.text (quotedTail Dialect.postgres.identifierQuote source),
          .text " #>> '\x7b\x7d'"]
        (by rw [Term.pieces, Expr.pieces]; rfl) (fun n => ?_) (by simp)
        fun _ _ => Decodes.map ?_ Term.expr
      · simp only [Dialect.quoted, inQuotes_eq, Piece.write, String.append_assoc, Opening.text,
          Dialect.quote]
      · refine decodes_identifier ?_ (startsUnquoted_text _ (by decide))
        exact decodes_branch (List.mem_cons_of_mem _ List.mem_cons_self)
          (clashing_references .postgres source) (decodes_pure _)
  | some key =>
      refine legible_of_cut .name
        [.text (Dialect.postgres.quoted source ++ " ->> "), .hole (.str key), .text ""]
        [.text (quotedTail Dialect.postgres.identifierQuote source), .text " ->> ",
          .hole (.str key)]
        (by rw [Term.pieces, Expr.pieces]; rfl) (fun n => ?_) (by simp)
        fun _ _ => Decodes.map ?_ Term.expr
      · simp only [Dialect.quoted, inQuotes_eq, Piece.write, String.append_assoc, Opening.text,
          Dialect.quote, String.append_empty]
      · refine decodes_identifier ?_ (startsUnquoted_text _ (by decide))
        refine decodes_branch
          (List.mem_cons_of_mem _ (List.mem_cons_of_mem _ List.mem_cons_self))
          (clashing_references .postgres source) ?_
        exact decodes_textHole (decodes_pure _)

theorem clashing_rowTexts :
    Clashing ((Decoder.rowTexts .mysql).map Prod.fst) := by
  change Clashing [Dialect.mysql.quote, "JSON_EXTRACT(" ++ Dialect.mysql.quote]
  decide

theorem legible_jsonValue_mysql
    (source : String) (key : Option String) :
    Legible .mysql (.expr (.jsonValue source key)) := by
  cases key with
  | none =>
      refine legible_of_cut .rowText
        [.text ("JSON_UNQUOTE(" ++ Dialect.mysql.quoted source ++ ".`value`)")]
        [.text Dialect.mysql.quote,
          .text (quotedTail Dialect.mysql.identifierQuote source), .text ".`value`)"]
        (by rw [Term.pieces, Expr.pieces]; rfl) (fun n => ?_) (by simp)
        fun _ _ => Decodes.map ?_ Term.expr
      · simp only [Dialect.quoted, inQuotes_eq, Piece.write, String.append_assoc, Opening.text,
          Dialect.quote]
      · refine decodes_branch List.mem_cons_self clashing_rowTexts ?_
        exact decodes_identifier (decodes_expect (decodes_pure _))
          (startsUnquoted_text _ (by decide))
  | some key =>
      refine legible_of_cut .rowText
        [.text ("JSON_UNQUOTE(" ++ "JSON_EXTRACT(" ++ Dialect.mysql.quoted source ++
          ".`value`, CONCAT('$.\"', "), .hole (.str (escapedMember key)), .text ", '\"')))"]
        [.text ("JSON_EXTRACT(" ++ Dialect.mysql.quote),
          .text (quotedTail Dialect.mysql.identifierQuote source),
          .text ".`value`, CONCAT('$.\"', ", .hole (.str (escapedMember key)), .text ", '\"')))"]
        (by rw [Term.pieces, Expr.pieces]; rfl) (fun n => ?_) (by simp)
        fun _ _ => Decodes.map ?_ Term.expr
      · simp only [Dialect.quoted, inQuotes_eq, Piece.write, String.append_assoc, Opening.text,
          Dialect.quote]
      · refine decodes_branch (List.mem_cons_of_mem _ List.mem_cons_self) clashing_rowTexts ?_
        refine decodes_identifier (decodes_expect ?_) (startsUnquoted_text _ (by decide))
        refine decodes_textHole (decodes_expect ?_)
        rw [escapedMember, String.toList_ofList, unescaped_escaped, String.ofList_toList]
        exact decodes_pure _

theorem legible_jsonValue
    (source : String) (key : Option String) :
    Legible d (.expr (.jsonValue source key)) := by
  cases d with
  | postgres => exact legible_jsonValue_postgres source key
  | mysql => exact legible_jsonValue_mysql source key

/-! ### Selections -/

/-- The join is of a table by its bare name, under a label. -/
def Join.IsLabelled (j : Join) : Prop :=
  ∃ name label, j.table = { name := name } ∧ j.label = some label

theorem clashing_columns
    (d : Dialect) :
    Clashing ((Decoder.columns d).map Prod.fst) := by
  change Clashing [d.quote, "1", "COUNT("]
  cases d <;> decide

theorem decodes_columns_column
    (qualifier name : String) :
    Decodes d (Decoder.branch (Decoder.columns d)) ((Expr.column qualifier name).pieces d)
      (.column qualifier name) := by
  refine decodes_identifierText ?_
  exact decodes_branch List.mem_cons_self (clashing_columns d)
    (decodes_reference_column qualifier name)

theorem decodes_columns_one :
    Decodes d (Decoder.branch (Decoder.columns d)) ((Expr.raw "1").pieces d) (.raw "1") := by
  rw [Expr.pieces]
  exact decodes_branch (List.mem_cons_of_mem _ List.mem_cons_self) (clashing_columns d)
    (decodes_pure _)

theorem decodes_columns_count :
    Decodes d (Decoder.branch (Decoder.columns d)) ((Expr.call "COUNT" [] true).pieces d)
      (.call "COUNT" [] true) := by
  rw [Expr.pieces]
  refine decodes_branch (List.mem_cons_of_mem _ (List.mem_cons_of_mem _ List.mem_cons_self))
    (clashing_columns d) ?_
  exact decodes_expect (decodes_expect (decodes_pure _))

theorem clashing_sources
    (d : Dialect) :
    Clashing ((Decoder.sources d).map Prod.fst) := by
  change Clashing [d.quote, d.jsonRows.opening]
  cases d <;> decide

theorem beginsUnquoted_label
    (d : Dialect) :
    BeginsUnquoted (" AS " ++ d.quote) := by
  cases d <;> decide

theorem decodes_source_table
    (name label : String) :
    Decodes d (Decoder.source d) ((RowSource.table { name := name } (some label)).pieces d)
      (.table { name := name } (some label)) := by
  have hcut : Decodes d (Decoder.source d) [.text "FROM ", .text d.quote,
      .text (quotedTail d.identifierQuote name), .text (" AS " ++ d.quote),
      .text (quotedTail d.identifierQuote label)] (.table { name := name } (some label)) := by
    refine decodes_expect (decodes_branch List.mem_cons_self (clashing_sources d) ?_)
    refine decodes_identifier (decodes_expect ?_) (startsUnquoted_text _ (beginsUnquoted_label d))
    exact decodes_identifier (decodes_pure _) startsUnquoted_nil
  refine hcut.congr (fun n => ?_) ?_
  · simp only [RowSource.pieces, Table.text, identifierText, labelText, Piece.write,
      Dialect.quoted, Dialect.quote, inQuotes_eq, String.append_assoc]
  · rw [RowSource.pieces]
    rfl

theorem clashing_paths
    (d : Dialect) :
    Clashing ((Decoder.paths d).map Prod.fst) := by
  change Clashing ["'", "CAST("]
  decide

/-- A path is read as far as it can be seen. -/
theorem decodes_path
    (path : PathArg) :
    Decodes d (Decoder.branch (Decoder.paths d)) (path.pieces d) (d.pathAsRead path) := by
  have hinline : ∀ path, Decodes d (Decoder.branch (Decoder.paths d))
      [.text (stringLiteral path)] (.inline path) := by
    intro path
    rw [stringLiteral, inQuotes_eq, decodes_text_append]
    refine decodes_branch List.mem_cons_self (clashing_paths d) ?_
    exact decodes_name (decodes_pure _) (.inr (.inl rfl)) startsUnquoted_nil
  cases path with
  | inline path => cases d <;> exact hinline path
  | bound path =>
      cases d with
      | postgres =>
          refine decodes_branch (List.mem_cons_of_mem _ List.mem_cons_self)
            (clashing_paths .postgres) ?_
          exact decodes_textHole (decodes_expect (decodes_pure _))
      | mysql => exact hinline path

theorem decodes_source_jsonRows
    (qualifier name : String) (path : PathArg) (label : String) :
    Decodes d (Decoder.source d)
      ((RowSource.jsonRows (.column qualifier name) path (some label)).pieces d)
      (.jsonRows (.column qualifier name) (d.pathAsRead path) (some label)) := by
  have hcut : Decodes d (Decoder.source d) (.text "FROM " :: .text d.jsonRows.opening ::
      .text d.quote :: .text (quotedTail d.identifierQuote qualifier) ::
      .text ("." ++ d.quote) :: .text (quotedTail d.identifierQuote name) :: .text ", " ::
      (path.pieces d ++ [.text d.jsonRows.closing, .text (" AS " ++ d.quote),
        .text (quotedTail d.identifierQuote label)]))
      (.jsonRows (.column qualifier name) (d.pathAsRead path) (some label)) := by
    refine decodes_expect (decodes_branch (List.mem_cons_of_mem _ List.mem_cons_self)
      (clashing_sources d) (decodes_expect ?_))
    refine (decodes_reference_column qualifier name).bind (decodes_expect ?_)
      (startsUnquoted_text _ (by decide))
    refine (decodes_path path).bind (decodes_expect (decodes_expect ?_))
      (startsUnquoted_text _ (by cases d <;> decide))
    exact decodes_identifier (decodes_pure _) startsUnquoted_nil
  have hpieces : (RowSource.jsonRows (.column qualifier name) path (some label)).pieces d =
      .text ("FROM " ++ d.jsonRows.opening) :: .text (identifierText d (some qualifier) name) ::
        .text ", " ::
          (path.pieces d ++ [.text (d.jsonRows.closing ++ labelText d (some label))]) := by
    rw [RowSource.pieces, Expr.column, Expr.pieces]
    rfl
  rw [hpieces]
  refine hcut.congr (fun n => ?_) (by simp [Piece.values_append])
  simp only [Piece.write, Piece.write_append, identifierText, labelText, Dialect.quoted,
    Dialect.quote, inQuotes_eq, String.append_assoc]

theorem startsUnquoted_ending
    (joins : List Join) (condition : Option Expr) :
    StartsUnquoted d
      (Join.listPieces d joins ++ (Expr.conditionPieces d condition ++ [.text ")"])) := by
  cases joins with
  | nil =>
      cases condition with
      | none => exact startsUnquoted_close []
      | some e => exact startsUnquoted_text _ (by decide)
  | cons j rest => exact startsUnquoted_text _ (by decide)

theorem clashing_ending
    (d : Dialect) :
    Clashing [")", " WHERE ", " LEFT JOIN " ++ d.quote] := by
  cases d <;> decide

theorem decodes_ending
    {inner : Decoder Term} {joins : List Join} {condition : Option Expr} {limit : Nat}
    (hlimit : joins.length < limit)
    (hjoins : ∀ j ∈ joins, j.IsLabelled ∧
      Decodes d inner.expr (j.condition.pieces d) (j.condition.asRead d))
    (hcondition : ∀ e ∈ condition, Decodes d inner.expr (e.pieces d) (e.asRead d)) :
    Decodes d (Decoder.ending d inner limit)
      (Join.listPieces d joins ++ (Expr.conditionPieces d condition ++ [.text ")"]))
      (Join.mapAllPaths d.pathAsRead joins, Expr.mapPathsIfAny d.pathAsRead condition) := by
  induction joins generalizing limit with
  | nil =>
      obtain ⟨limit, rfl⟩ := Nat.exists_eq_add_one.2 hlimit
      cases condition with
      | none => exact decodes_branch List.mem_cons_self (clashing_ending d) (decodes_pure _)
      | some e =>
          refine decodes_branch (List.mem_cons_of_mem _ List.mem_cons_self) (clashing_ending d) ?_
          exact (hcondition e rfl).bind (decodes_expect (decodes_pure _)) (startsUnquoted_close _)
  | cons j rest ih =>
      obtain ⟨limit, rfl⟩ := Nat.exists_eq_add_one.2 (Nat.zero_lt_of_lt hlimit)
      obtain ⟨⟨⟨name, label, htable, hlabel⟩, hj⟩, hrest⟩ := List.forall_mem_cons.1 hjoins
      obtain ⟨table, label?, on⟩ := j
      subst htable hlabel
      have hothers := ih (Nat.lt_of_succ_lt_succ hlimit) hrest
      have hcut : Decodes d (Decoder.ending d inner (limit + 1))
          (.text (" LEFT JOIN " ++ d.quote) :: .text (quotedTail d.identifierQuote name) ::
            .text (" AS " ++ d.quote) :: .text (quotedTail d.identifierQuote label) ::
            .text " ON " :: (on.pieces d ++ (Join.listPieces d rest ++
              (Expr.conditionPieces d condition ++ [.text ")"]))))
          (Join.mapAllPaths d.pathAsRead (⟨{ name := name }, some label, on⟩ :: rest),
            Expr.mapPathsIfAny d.pathAsRead condition) := by
        refine decodes_branch
          (List.mem_cons_of_mem _ (List.mem_cons_of_mem _ List.mem_cons_self))
          (clashing_ending d) ?_
        refine decodes_identifier (decodes_expect ?_)
          (startsUnquoted_text _ (beginsUnquoted_label d))
        refine decodes_identifier (decodes_expect ?_) (startsUnquoted_text _ (by decide))
        refine hj.bind ?_ (startsUnquoted_ending rest condition)
        exact hothers.bind_pure rfl
      refine hcut.congr (fun n => ?_) ?_
      · have hopening : " LEFT JOIN " = " " ++ "LEFT JOIN " := rfl
        simp only [Join.listPieces, Join.pieces, Table.text, identifierText, labelText,
          Piece.write, Dialect.quoted, Dialect.quote, inQuotes_eq, String.append_assoc, hopening,
          List.cons_append, List.append_assoc]
      · simp [Join.listPieces, Join.pieces, Piece.values_append]

theorem legible_query
    {column : Expr} {source : RowSource} {joins : List Join} {condition : Option Expr}
    (hcolumn : Decodes d (Decoder.branch (Decoder.columns d)) (column.pieces d) (column.asRead d))
    (hsource : Decodes d (Decoder.source d) (source.pieces d) (source.mapPaths d.pathAsRead))
    (hjoins : ∀ j ∈ joins, j.IsLabelled ∧ Legible d (.expr j.condition))
    (hcondition : ∀ e ∈ condition, Legible d (.expr e)) :
    Legible d (.query ⟨[column], some source, joins, condition⟩) := by
  have hpieces : (Term.query ⟨[column], some source, joins, condition⟩).pieces d =
      .text "SELECT " :: (column.pieces d ++ .text " " :: (source.pieces d ++
        (Join.listPieces d joins ++ (Expr.conditionPieces d condition ++ [.text ")"])))) := by
    simp [Term.pieces, Select.pieces, Expr.rows, Piece.separated, RowSource.optionPieces]
  refine legible_of_opening .select hpieces ?_
  have hjoins' := (eventually_all_finite joins.finite_toSet).2 fun j hj => (hjoins j hj).2
  have hcondition' := (eventually_all_finite condition.toList.finite_toSet).2 fun e he =>
    hcondition e (Option.mem_toList.1 he)
  filter_upwards [hjoins', hcondition', eventually_gt_atTop joins.length]
    with limit hjoins' hcondition' hlimit
  have hending := decodes_ending hlimit (fun j hj => ⟨(hjoins j hj).1, (hjoins' j hj).expr⟩)
    fun e he => (hcondition' e (Option.mem_toList.2 he)).expr
  refine Decodes.map ?_ Term.query
  refine hcolumn.bind (decodes_expect ?_) (startsUnquoted_text _ (by decide))
  refine hsource.bind ?_ (startsUnquoted_ending joins condition)
  exact hending.bind_pure rfl

theorem legible_existsRow
    {q : Select}
    (hq : Legible d (.query q)) :
    Legible d (.expr (.existsRow q)) := by
  refine legible_of_opening .existsRow (by rw [Term.pieces, Expr.pieces]; rfl) ?_
  filter_upwards [hq] with limit hq
  exact hq.query.map fun q => Term.expr (.existsRow q)

theorem legible_scalar
    {q : Select}
    (hq : Legible d (.query q)) :
    Legible d (.expr (.scalar q)) := by
  refine legible_of_opening .group (by rw [Term.pieces, Expr.pieces]; rfl) ?_
  filter_upwards [hq] with limit hq
  exact hq.bind_pure rfl

theorem legible_inQuery
    {e : Expr} {q : Select} (negated : Bool)
    (he : Legible d (.expr e)) (hq : Legible d (.query q)) :
    Legible d (.expr (.inQuery e q negated)) := by
  refine legible_of_continuation (.among negated) (by rw [Expr.pieces]; rfl) he ?_
  filter_upwards [hq] with limit hq
  exact (hq.bind (decodes_expect (decodes_pure _)) (startsUnquoted_close _)).close

/-! ### What a text determines -/

/-- Terms that are written as the same statement are read as the same term. -/
theorem Legible.asRead_eq
    {t u : Term}
    (ht : Legible d t) (hu : Legible d u)
    (h : Clause.ofPieces d (t.pieces d) = Clause.ofPieces d (u.pieces d)) :
    t.asRead d = u.asRead d := by
  obtain ⟨limit, ht, hu⟩ := (ht.and hu).exists
  obtain ⟨hsql, hparams⟩ := Clause.mk.inj h
  have hread := ht 0 [] [] (by decide)
  rw [hsql, Piece.values, hparams] at hread
  have hread' := hu 0 [] [] (by decide)
  rw [Piece.values, hread] at hread'
  exact (Prod.mk.inj (Option.some.inj hread')).1

/-- A term has a text. -/
theorem Legible.sql_ne_empty
    {t : Term}
    (h : Legible d t) :
    (Clause.ofPieces d (t.pieces d)).sql ≠ "" := by
  intro hempty
  obtain ⟨limit, h⟩ := h.exists
  have hread := h 0 [] [] (by decide)
  rw [show Piece.write d 0 (t.pieces d) = "" from hempty] at hread
  cases limit with
  | zero => cases hread
  | succ limit =>
      have hopenings : ∀ o ∈ Opening.all, (o.text d).toList ≠ [] := by cases d <;> decide
      rw [Decoder.term, Decoder.choose, List.append_nil, String.toList_empty, branch_nil] at hread
      · cases hread
      · simpa using hopenings

end Rules

end Sql
end RowFilter
