import RowFilter.Proofs.Dialects
import RowFilter.Proofs.Discovery

/-!
# Clauses inside selections

The clause of a filter is meant to be put into a statement behind `WHERE`, and a selection
does just that.  Placeholders count the parameters before them, so the clause could not stay
as it is if anything before it were bound.  But the columns of a selection are names, and a
planned join compares two of them, whatever chain of relations it belongs to.

* `Sql.Piece.Fixed`: pieces that bind nothing and are written in one way everywhere.
* `Sql.Select.clause_eq`: a selection, from what stands before its condition.
* `selectionHead`: what stands before the condition of a filter.
* `selection_continues_clause`: selections and clauses of filters.
-/

namespace RowFilter
namespace Sql

/-! ## Pieces without holes -/

namespace Piece

/-- The pieces hold no values, and are written as the text wherever they stand. -/
structure Fixed (d : Dialect) (pieces : List Piece) (text : String) : Prop where
  values : values pieces = []
  write : ∀ n, write d n pieces = text

variable {d : Dialect}

theorem fixed_nil :
    Fixed d [] "" :=
  ⟨rfl, fun _ => rfl⟩

theorem Fixed.text_cons
    {pieces : List Piece} {text : String}
    (s : String) (h : Fixed d pieces text) :
    Fixed d (.text s :: pieces) (s ++ text) :=
  ⟨h.values, fun n => congrArg (s ++ ·) (h.write n)⟩

/-- What comes after fixed pieces is numbered as if it stood alone. -/
theorem Fixed.write_append
    {pieces : List Piece} {text : String}
    (h : Fixed d pieces text) (n : Nat) (rest : List Piece) :
    Piece.write d n (pieces ++ rest) = text ++ Piece.write d n rest := by
  have hcount : (pieces.filterMap value?).length = 0 := congrArg List.length h.values
  rw [Piece.write_append, h.write, hcount, Nat.add_zero]

theorem Fixed.append
    {pieces pieces' : List Piece} {text text' : String}
    (h : Fixed d pieces text) (h' : Fixed d pieces' text') :
    Fixed d (pieces ++ pieces') (text ++ text') := by
  refine ⟨by rw [values_append, h.values, h'.values]; rfl, fun n => ?_⟩
  rw [h.write_append, h'.write]

/-- Pieces without values are fixed. -/
theorem fixed_of_values_eq_nil
    {pieces : List Piece}
    (h : values pieces = []) :
    Fixed d pieces (Piece.write d 0 pieces) := by
  induction pieces with
  | nil => exact fixed_nil
  | cons piece rest ih =>
      cases piece with
      | text s => exact (ih h).text_cons s
      | hole v => cases h

theorem fixed_separated
    {α : Type} {row : α → List Piece} {text : α → String}
    (separator : String) (h : ∀ a, Fixed d (row a) (text a)) (as : List α) :
    Fixed d (separated separator (as.map row)) (separator.intercalate (as.map text)) := by
  induction as with
  | nil => exact fixed_nil
  | cons a rest ih =>
      cases rest with
      | nil => simpa [separated] using h a
      | cons next others =>
          rw [List.map_cons, List.map_cons, separated_cons_cons, List.map_cons, List.map_cons,
            String.intercalate_cons_cons, String.append_assoc]
          exact (h a).append (ih.text_cons separator)

end Piece

open Piece (Fixed)

/-! ## Selections -/

variable {d : Dialect}

/-- Joins that bind nothing are written one after the other. -/
theorem Join.fixed_listPieces
    {joins : List Join}
    (h : ∀ join ∈ joins, (join.clause d).params = []) :
    Fixed d (Join.listPieces d joins)
      (String.join (joins.map fun join => " " ++ (join.clause d).sql)) := by
  induction joins with
  | nil => exact Piece.fixed_nil
  | cons join rest ih =>
      obtain ⟨hjoin, hrest⟩ := List.forall_mem_cons.1 h
      rw [Join.listPieces, List.map_cons, String.join_cons, String.append_assoc]
      exact ((Piece.fixed_of_values_eq_nil hjoin).append (ih hrest)).text_cons " "

/-- A selection is written as what stands before its condition and then the condition, if what
stands before it binds nothing. -/
theorem Select.clause_eq
    {columns : List Expr} {source : Option RowSource} {joins : List Join} {head : String}
    (h : Fixed d (Select.pieces d ⟨columns, source, joins, none⟩) head)
    (condition : Option Expr) :
    Select.clause d ⟨columns, source, joins, condition⟩ =
      ⟨head ++ (condition.elim "" fun e => " WHERE " ++ (e.clause d).sql),
        condition.elim [] fun e => (e.clause d).params⟩ := by
  have hpieces : Select.pieces d ⟨columns, source, joins, condition⟩ =
      Select.pieces d ⟨columns, source, joins, none⟩ ++ Expr.conditionPieces d condition := by
    simp [Select.pieces, Expr.conditionPieces]
  have hparams : Piece.values (Select.pieces d ⟨columns, source, joins, condition⟩) =
      Piece.values (Expr.conditionPieces d condition) := by
    rw [hpieces, Piece.values_append, h.values, List.nil_append]
  rw [Select.clause, Clause.ofPieces, ← Piece.values, hparams, hpieces, h.write_append]
  cases condition with
  | none => rfl
  | some e => rfl

end Sql

open Sql (Dialect Join)

/-! ## Selections of filters -/

/-- The columns of a selection; a star if none are listed. -/
def columnTexts (d : Dialect) (collection : String) : List String → List String
  | [] => ["*"]
  | names => names.map fun name => d.quoted collection ++ "." ++ d.quoted name

/-- What stands before the condition of a selection: its columns, its collection and its joins
one after the other. -/
def selectionHead (d : Dialect) (collection : String) (names : List String)
    (joins : List Join) : String :=
  "SELECT " ++ ", ".intercalate (columnTexts d collection names) ++ " FROM " ++
    d.quoted collection ++ String.join (joins.map fun join => " " ++ (join.clause d).sql)

/-- A planned join binds nothing. -/
theorem Sql.Join.params_of_isPlanned
    {join : Join}
    (h : join.IsPlanned) (d : Dialect) :
    (join.clause d).params = [] := by
  obtain ⟨related, label, primary, parent, field, rfl⟩ := h
  rfl

theorem Compiled.fixed_columns
    (c : Compiled) (names : List String) (d : Dialect) :
    Sql.Piece.Fixed d (Sql.Piece.separated ", " (Sql.Expr.rows d (c.columns names)))
      (", ".intercalate (columnTexts d c.collection names)) := by
  rw [Sql.Expr.rows_eq_map]
  cases names with
  | nil => exact Sql.Piece.fixed_nil.text_cons "*"
  | cons name rest =>
      have hcolumn (name : String) :
          Sql.Piece.Fixed d ((Sql.Expr.column c.collection name).pieces d)
            (d.quoted c.collection ++ "." ++ d.quoted name) :=
        ⟨rfl, fun _ => String.append_empty⟩
      rw [columns, List.map_map, columnTexts]
      · exact Sql.Piece.fixed_separated ", " hcolumn (name :: rest)
      all_goals simp

/-- What stands before the condition of a selection binds nothing. -/
theorem Compiled.fixed_selectionHead
    {c : Compiled}
    (hjoins : ∀ join ∈ c.joins, join.IsPlanned) (names : List String) (d : Dialect) :
    Sql.Piece.Fixed d
      (Sql.Select.pieces d
        ⟨c.columns names, some (.table { name := c.collection } none), c.joins, none⟩)
      (selectionHead d c.collection names c.joins) := by
  have htable : Sql.Piece.Fixed d
      (Sql.RowSource.optionPieces d (some (.table { name := c.collection } none)))
      (" FROM " ++ d.quoted c.collection) :=
    ⟨rfl, fun _ => by simp [Sql.RowSource.optionPieces, Sql.RowSource.pieces, Sql.Piece.write,
      Sql.Table.text, Sql.identifierText, Sql.labelText, ← String.append_assoc]⟩
  have hlist := Sql.Join.fixed_listPieces fun join hjoin =>
    Sql.Join.params_of_isPlanned (hjoins join hjoin) d
  have hhead := (((c.fixed_columns names d).append htable).append hlist).text_cons "SELECT "
  simpa [Sql.Select.pieces, Sql.Expr.conditionPieces, selectionHead, String.append_assoc]
    using hhead

theorem Compiled.clause_selection
    {c : Compiled}
    (hjoins : ∀ join ∈ c.joins, join.IsPlanned) (names : List String) (d : Dialect) :
    (c.selection names).clause d =
      ⟨selectionHead d c.collection names c.joins ++
          (if c.isMatchAll then "" else " WHERE " ++ (c.clause d).sql),
        (c.clause d).params⟩ := by
  have hselection : c.selection names =
      ⟨c.columns names, some (.table { name := c.collection } none), c.joins, c.condition⟩ := by
    simp [selection, Sql.Select.of, Sql.Select.join, Sql.Select.filter]
  rw [hselection, Sql.Select.clause_eq (c.fixed_selectionHead hjoins names d), isMatchAll, clause]
  cases c.condition with
  | none => rfl
  | some e => rfl

/-- **Selections continue clauses.**  If a filter compiles then it has a clause and, for every
list of columns, a selection.  The selection binds the parameters of the clause, and its text
is told by the dialect, the collection, the columns and the planned joins, none of which binds
anything, up to the condition; then comes the text of the clause after `WHERE`, or nothing if
every row matches.  So the placeholders of the clause mean the same in the selection. -/
theorem selection_continues_clause
    (s : Setting) (collection : String) (names : List String) (filter : Json) (c : Compiled)
    (h : s.compile collection filter = .ok c) :
    ∃ clause statement : Sql.Clause,
      s.clause collection filter = .ok clause ∧
      s.select collection names filter = .ok statement ∧
      statement.params = clause.params ∧
      statement.sql = selectionHead s.options.dialect collection names c.joins ++
        (if c.isMatchAll then "" else " WHERE " ++ clause.sql) ∧
      (c.isMatchAll = true → clause = .empty) ∧
      ∀ join ∈ c.joins, (join.clause s.options.dialect).params = [] := by
  obtain ⟨-, hjoins⟩ := carrying_of_compile h
  have hcollection : c.collection = collection := by
    obtain ⟨tree, a, p, -, -, -, rfl⟩ := account_of_compile h
    rfl
  have hclause : s.clause collection filter = .ok (c.clause s.options.dialect) := by
    rewrite [Setting.clause, h]
    rfl
  have hselect : s.select collection names filter =
      .ok ((c.selection names).clause s.options.dialect) := by
    rewrite [Setting.select, h]
    rfl
  rw [Compiled.clause_selection hjoins, hcollection] at hselect
  refine ⟨_, _, hclause, hselect, rfl, rfl, fun hall => ?_, fun join hjoin => ?_⟩
  · rewrite [Compiled.clause, Option.isNone_iff_eq_none.1 hall]
    rfl
  · exact Sql.Join.params_of_isPlanned (hjoins join hjoin) _

/-- Letters by people of two names from a town. -/
def letterFromTown : Json :=
  .obj [("sender", .obj [
    ("town.name", .obj [("_eq", .str "Ghent")]),
    ("name", .obj [("_in", .str "Kim, Lee")])])]

theorem selection_continues_clause_letterFromTown :
    ∃ c, post.compile "letters" letterFromTown = .ok c ∧ c.joins.length = 2 ∧
      ∃ clause statement : Sql.Clause,
        post.clause "letters" letterFromTown = .ok clause ∧
        post.select "letters" ["id"] letterFromTown = .ok statement ∧
        statement.params = clause.params ∧
        statement.sql = selectionHead .postgres "letters" ["id"] c.joins ++
          (" WHERE " ++ clause.sql) := by
  obtain ⟨c, hcompile, htest⟩ := exists_of_any_toOption
    (show (post.compile "letters" letterFromTown).toOption.any
      (fun c => c.joins.length == 2 && !c.isMatchAll) = true by decide +kernel)
  rw [Bool.and_eq_true, beq_iff_eq, Bool.not_eq_true'] at htest
  obtain ⟨clause, statement, hclause, hselect, hparams, hsql, -⟩ :=
    selection_continues_clause post "letters" ["id"] letterFromTown c hcompile
  rw [htest.2] at hsql
  exact ⟨c, hcompile, htest.1, clause, statement, hclause, hselect, hparams, hsql⟩

end RowFilter
