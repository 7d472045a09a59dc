import RowFilter.Proofs.Placeholders

/-!
# What a statement binds

The items that an expression or a selection binds, from left to right: values,
keys of JSON members, and JSON paths where the dialect takes them as
parameters.  They are listed from the tree alone.

* `Expr.params_eq`, `Select.params_eq`: the parameters of a written statement
  are its items.
* `Expr.readable`, `Select.readable`: if no text that is written as it stands
  holds a mark, the placeholders found in the statement are those of its holes.
-/

namespace RowFilter
namespace Sql

/-- Something that a statement binds. -/
inductive Item where
  | value (v : Value)
  /-- The key of a member of a JSON row. -/
  | memberKey (key : String)
  /-- A path into a JSON document. -/
  | path (text : String)

/-- The parameter that an item becomes. -/
def Item.param (d : Dialect) : Item → Value
  | value v => v
  | memberKey key => .str (d.memberKey key)
  | path text => .str text

/-- A path is an item if it is to be bound and the dialect can do so. -/
def PathArg.items : Dialect → PathArg → List Item
  | .postgres, .bound path => [.path path]
  | _, _ => []

mutual

/-- The items of an expression.  Arguments that a star stands for are counted
only if `starred` is set. -/
def Expr.items (d : Dialect) (starred : Bool) : Expr → List Item
  | .ident _ _ => []
  | .value v => [.value v]
  | .raw _ => []
  | .binary left _ right => left.items d starred ++ right.items d starred
  | .logical _ operands => Expr.listItems d starred operands
  | .call _ args wildcard =>
      if wildcard && !starred then [] else Expr.listItems d starred args
  | .cast expr _ => expr.items d starred
  | .inList expr list _ => expr.items d starred ++ Expr.listItems d starred list
  | .between expr low high _ =>
      expr.items d starred ++ (low.items d starred ++ high.items d starred)
  | .isNull expr _ => expr.items d starred
  | .existsRow query => query.items d starred
  | .inQuery expr query _ => expr.items d starred ++ query.items d starred
  | .scalar query => query.items d starred
  | .jsonValue _ none => []
  | .jsonValue _ (some key) => [.memberKey key]
  | .jsonLength expr => expr.items d starred
  | .datePart _ expr => expr.items d starred

/-- The items of expressions. -/
def Expr.listItems (d : Dialect) (starred : Bool) : List Expr → List Item
  | [] => []
  | e :: rest => e.items d starred ++ Expr.listItems d starred rest

/-- The items of a condition, if there is one. -/
def Expr.optionItems (d : Dialect) (starred : Bool) : Option Expr → List Item
  | none => []
  | some e => e.items d starred

/-- The items of a selection. -/
def Select.items (d : Dialect) (starred : Bool) : Select → List Item
  | ⟨columns, source, joins, condition⟩ =>
      Expr.listItems d starred columns ++ (RowSource.optionItems d starred source ++
        (Join.listItems d starred joins ++ Expr.optionItems d starred condition))

/-- The items of a row source. -/
def RowSource.items (d : Dialect) (starred : Bool) : RowSource → List Item
  | .table _ _ => []
  | .jsonRows document path _ => document.items d starred ++ path.items d

/-- The items of a row source, if there is one. -/
def RowSource.optionItems (d : Dialect) (starred : Bool) : Option RowSource → List Item
  | none => []
  | some source => source.items d starred

/-- The items of joins. -/
def Join.listItems (d : Dialect) (starred : Bool) : List Join → List Item
  | [] => []
  | ⟨_, _, condition⟩ :: rest => condition.items d starred ++ Join.listItems d starred rest

end

mutual

/-- The texts of an expression that are written as they stand. -/
def Expr.verbatim : Expr → List String
  | .ident _ _ => []
  | .value _ => []
  | .raw text => [text]
  | .binary left _ right => left.verbatim ++ right.verbatim
  | .logical _ operands => Expr.listVerbatim operands
  | .call function args _ => function :: Expr.listVerbatim args
  | .cast expr _ => expr.verbatim
  | .inList expr list _ => expr.verbatim ++ Expr.listVerbatim list
  | .between expr low high _ => expr.verbatim ++ (low.verbatim ++ high.verbatim)
  | .isNull expr _ => expr.verbatim
  | .existsRow query => query.verbatim
  | .inQuery expr query _ => expr.verbatim ++ query.verbatim
  | .scalar query => query.verbatim
  | .jsonValue _ _ => []
  | .jsonLength expr => expr.verbatim
  | .datePart _ expr => expr.verbatim

/-- The texts of expressions that are written as they stand. -/
def Expr.listVerbatim : List Expr → List String
  | [] => []
  | e :: rest => e.verbatim ++ Expr.listVerbatim rest

/-- The texts of a condition that are written as they stand. -/
def Expr.optionVerbatim : Option Expr → List String
  | none => []
  | some e => e.verbatim

/-- The texts of a selection that are written as they stand. -/
def Select.verbatim : Select → List String
  | ⟨columns, source, joins, condition⟩ =>
      Expr.listVerbatim columns ++ (RowSource.optionVerbatim source ++
        (Join.listVerbatim joins ++ Expr.optionVerbatim condition))

/-- The texts of a row source that are written as they stand. -/
def RowSource.verbatim : RowSource → List String
  | .table _ _ => []
  | .jsonRows document _ _ => document.verbatim

/-- The texts of a row source, if there is one. -/
def RowSource.optionVerbatim : Option RowSource → List String
  | none => []
  | some source => source.verbatim

/-- The texts of joins that are written as they stand. -/
def Join.listVerbatim : List Join → List String
  | [] => []
  | ⟨_, _, condition⟩ :: rest => condition.verbatim ++ Join.listVerbatim rest

end

section Params

variable (d : Dialect)

theorem PathArg.params_eq
    (path : PathArg) :
    Piece.values (path.pieces d) = (path.items d).map (Item.param d) := by
  cases d <;> cases path <;>
    simp [PathArg.pieces, PathArg.items, Dialect.boundPath?, Item.param]

mutual

/-- The parameters of an expression are its items. -/
theorem Expr.params_eq :
    (e : Expr) →
      Piece.values (e.pieces d) = (e.items d false).map (Item.param d)
  | .ident _ _ => by simp [Expr.pieces, Expr.items]
  | .value _ => by simp [Expr.pieces, Expr.items, Item.param]
  | .raw _ => by simp [Expr.pieces, Expr.items]
  | .binary left _ right => by
      simp [Expr.pieces, Expr.items, Expr.params_eq left, Expr.params_eq right]
  | .logical _ operands => by
      simp [Expr.pieces, Expr.items,
        Expr.listParams_eq operands]
  | .call _ args wildcard => by
      cases wildcard <;>
        simp [Expr.pieces, Expr.items,
          Expr.listParams_eq args]
  | .cast expr _ => by
      simp [Expr.pieces, Expr.items, Expr.params_eq expr]
  | .inList expr list _ => by
      simp [Expr.pieces, Expr.items,
        Expr.params_eq expr, Expr.listParams_eq list]
  | .between expr low high _ => by
      simp [Expr.pieces, Expr.items, Expr.params_eq expr,
        Expr.params_eq low, Expr.params_eq high]
  | .isNull expr _ => by
      simp [Expr.pieces, Expr.items, Expr.params_eq expr]
  | .existsRow query => by
      simp [Expr.pieces, Expr.items, Select.params_eq query]
  | .inQuery expr query _ => by
      simp [Expr.pieces, Expr.items, Expr.params_eq expr,
        Select.params_eq query]
  | .scalar query => by
      simp [Expr.pieces, Expr.items, Select.params_eq query]
  | .jsonValue _ none => by
      simp [Expr.pieces, Expr.items, jsonValuePieces]
  | .jsonValue _ (some _) => by
      simp [Expr.pieces, Expr.items, jsonValuePieces, Item.param]
  | .jsonLength expr => by
      simp [Expr.pieces, Expr.items, Expr.params_eq expr]
  | .datePart _ expr => by
      simp [Expr.pieces, Expr.items, Expr.params_eq expr]

theorem Expr.listParams_eq :
    (list : List Expr) →
      (Expr.rows d list).flatMap Piece.values =
        (Expr.listItems d false list).map (Item.param d)
  | [] => by simp [Expr.rows, Expr.listItems]
  | e :: rest => by
      simp [Expr.rows, Expr.listItems, Expr.params_eq e, Expr.listParams_eq rest]

theorem Expr.optionParams_eq :
    (condition : Option Expr) →
      Piece.values (Expr.conditionPieces d condition) =
        (Expr.optionItems d false condition).map (Item.param d)
  | none => by simp [Expr.conditionPieces, Expr.optionItems]
  | some e => by
      simp [Expr.conditionPieces, Expr.optionItems, Expr.params_eq e]

/-- The parameters of a selection are its items. -/
theorem Select.params_eq :
    (s : Select) →
      Piece.values (s.pieces d) = (s.items d false).map (Item.param d)
  | ⟨columns, source, joins, condition⟩ => by
      simp [Select.pieces, Select.items,
        Expr.listParams_eq columns, RowSource.optionParams_eq source,
        Join.listParams_eq joins, Expr.optionParams_eq condition]

theorem RowSource.params_eq :
    (source : RowSource) →
      Piece.values (source.pieces d) = (source.items d false).map (Item.param d)
  | .table _ _ => by simp [RowSource.pieces, RowSource.items]
  | .jsonRows document path _ => by
      simp [RowSource.pieces, RowSource.items, Expr.params_eq document,
        PathArg.params_eq d path]

theorem RowSource.optionParams_eq :
    (source : Option RowSource) →
      Piece.values (RowSource.optionPieces d source) =
        (RowSource.optionItems d false source).map (Item.param d)
  | none => by simp [RowSource.optionPieces, RowSource.optionItems]
  | some source => by
      simp [RowSource.optionPieces, RowSource.optionItems,
        RowSource.params_eq source]

theorem Join.listParams_eq :
    (joins : List Join) →
      Piece.values (Join.listPieces d joins) =
        (Join.listItems d false joins).map (Item.param d)
  | [] => by simp [Join.listPieces, Join.listItems]
  | ⟨_, _, condition⟩ :: rest => by
      simp [Join.listPieces, Join.pieces, Join.listItems,
        Expr.params_eq condition, Join.listParams_eq rest]

end

end Params

section Names

variable {d : Dialect}

theorem reads_identifierText
    (qualifier : Option String) (name : String) :
    Reads d (identifierText d qualifier name) [] := by
  cases qualifier with
  | none =>
      exact reads_quoted name
  | some q =>
      have hdot : Opens d "." := opens_of_unmarked (by decide)
      have hq := (reads_quoted q).append_opens hdot rfl (by decide)
      exact hq.append_reads (reads_quoted name)

theorem reads_labelText
    (label : Option String) :
    Reads d (labelText d label) [] := by
  cases label with
  | none =>
      exact (opens_of_unmarked (by simp [Unmarked, labelText])).reads
  | some name =>
      exact (opens_of_unmarked (by decide)).append_reads (reads_quoted name)

theorem parted_labelText
    (label : Option String) :
    Parted (labelText d label) := by
  cases label with
  | none => exact (by decide : Parted "")
  | some name => exact parted_append rfl (by decide) _

/-- The start of a join, up to its condition. -/
theorem opens_join
    (table : Table) (label : Option String) :
    Opens d ("LEFT JOIN " ++ table.text d ++ labelText d label ++ " ON ") := by
  have hjoin : Opens d "LEFT JOIN " := opens_of_unmarked (by decide)
  have hon : Opens d " ON " := opens_of_unmarked (by decide)
  have htable := hjoin.append_reads (reads_identifierText table.schema table.name)
  have hnamed := htable.append (reads_labelText label) (parted_labelText label)
  exact hnamed.append_opens hon rfl (by decide)

theorem readable_table
    (table : Table) (label : Option String) :
    Piece.Readable d [.text ("FROM " ++ table.text d ++ labelText d label)] := by
  have hfrom : Opens d "FROM " := opens_of_unmarked (by decide)
  have htable := hfrom.append_reads (reads_identifierText table.schema table.name)
  exact Piece.readable_text (htable.append (reads_labelText label) (parted_labelText label))

theorem reads_jsonRows_closing :
    Reads d d.jsonRows.closing [] := by
  cases d with
  | postgres =>
      exact (opens_of_unmarked (by decide)).reads
  | mysql =>
      have hcolumns : Opens .mysql " COLUMNS (" := opens_of_unmarked (by decide)
      have hjson : Opens .mysql " JSON PATH " := opens_of_unmarked (by decide)
      have hclose : Opens .mysql "))" := opens_of_unmarked (by decide)
      have hvalue := hcolumns.append_reads (reads_quoted "value")
      have hpath := (hvalue.append_opens hjson rfl (by decide)).append_reads
        (reads_stringLiteral "$")
      have htext :
          Dialect.mysql.jsonRows.closing =
            " COLUMNS (" ++ Dialect.mysql.quoted "value" ++ " JSON PATH " ++
              stringLiteral "$" ++ "))" := by
        decide
      rw [htext]
      exact (hpath.append_opens hclose rfl (by decide)).reads

/-- The end of a JSON row source. -/
theorem readable_jsonRows_closing
    (label : Option String) :
    Piece.Readable d [.text (d.jsonRows.closing ++ labelText d label)] :=
  Piece.readable_text
    (reads_jsonRows_closing.append (reads_labelText label) (parted_labelText label))

theorem apart_jsonRows_closing
    (label : Option String) :
    Piece.Apart d [.text (d.jsonRows.closing ++ labelText d label)] := by
  cases d with
  | postgres =>
      exact Piece.apart_text (c := ')') (by simp [Dialect.jsonRows]) (by decide) []
  | mysql =>
      exact Piece.apart_text (c := ' ') (by simp [Dialect.jsonRows]) (by decide) []

theorem readable_path
    (path : PathArg) :
    Piece.Readable d (path.pieces d) := by
  have hliteral : ∀ text, Piece.Readable d [.text (stringLiteral text)] :=
    fun text => Piece.readable_text (reads_stringLiteral text)
  cases path with
  | inline text =>
      exact hliteral text
  | bound text =>
      cases d with
      | mysql =>
          exact hliteral text
      | postgres =>
          have hcast : Opens .postgres "CAST(" := opens_of_unmarked (by decide)
          have hend : Piece.Readable .postgres [.text " AS jsonpath)"] :=
            Piece.readable_text (opens_of_unmarked (by decide)).reads
          have hpieces := (Piece.readable_hole (.str text)).append hend
            (Piece.apart_text rfl (by decide) [])
          exact hpieces.cons hcast

theorem readable_jsonValue_postgres
    (source : String) (key : Option String) :
    Piece.Readable .postgres (jsonValuePieces .postgres source key) := by
  have hsource := reads_quoted (d := .postgres) source
  cases key with
  | none =>
      have harrow : Opens .postgres " #>> " := opens_of_unmarked (by decide)
      have hempty := harrow.append_reads (reads_stringLiteral "\x7b\x7d")
      have htext : Dialect.postgres.rowText (Dialect.postgres.quoted source) =
          Dialect.postgres.quoted source ++ (" #>> " ++ stringLiteral "\x7b\x7d") :=
        congrArg (Dialect.postgres.quoted source ++ ·) (by decide)
      apply Piece.readable_text
      rw [htext]
      exact hsource.append hempty (parted_append rfl (by decide) _)
  | some key =>
      have harrow : Opens .postgres " ->> " := opens_of_unmarked (by decide)
      have hend : Piece.Readable .postgres [.text ""] :=
        Piece.readable_text (opens_of_unmarked (by decide)).reads
      have hpieces := (Piece.readable_hole (.str key)).append hend
        (fun _ => by simp [Piece.write, Parted])
      exact hpieces.cons (hsource.append_opens harrow rfl (by decide))

/-- The column of a JSON row, in the dialect where such rows have one. -/
theorem opens_rowColumn
    {rest : String} {c : Char}
    (hrest : Opens .mysql rest) (hhead : rest.toList.head? = some c) (hc : c ∈ separators) :
    Opens .mysql ("." ++ Dialect.mysql.quoted "value" ++ rest) := by
  have hdot : Opens .mysql "." := opens_of_unmarked (by decide)
  exact (hdot.append_reads (reads_quoted "value")).append_opens hrest hhead hc

theorem reads_rowText_mysql
    (source : String) :
    Reads .mysql (Dialect.mysql.rowText (Dialect.mysql.quoted source)) [] := by
  have hopen : Opens .mysql "JSON_UNQUOTE(" := opens_of_unmarked (by decide)
  have hclose : Opens .mysql ")" := opens_of_unmarked (by decide)
  have htext : ".`value`)" = "." ++ Dialect.mysql.quoted "value" ++ ")" := by
    decide
  have hcolumn : Opens .mysql ".`value`)" := by
    rw [htext]
    exact opens_rowColumn hclose rfl (by decide)
  have hrow := hopen.append_reads (reads_quoted source)
  exact (hrow.append_opens hcolumn rfl (by decide)).reads

theorem opens_memberText_mysql
    (source : String) :
    Opens .mysql (Dialect.mysql.memberText (Dialect.mysql.quoted source)).opening := by
  have hopen : Opens .mysql "JSON_UNQUOTE(JSON_EXTRACT(" := opens_of_unmarked (by decide)
  have hconcat : Opens .mysql ", CONCAT(" := opens_of_unmarked (by decide)
  have hcomma : Opens .mysql ", " := opens_of_unmarked (by decide)
  have htext :
      ".`value`, CONCAT('$.\"', " =
        "." ++ Dialect.mysql.quoted "value" ++ ", CONCAT(" ++ stringLiteral "$.\"" ++ ", " := by
    decide
  have hpath : Opens .mysql ".`value`, CONCAT('$.\"', " := by
    rw [htext]
    exact ((opens_rowColumn hconcat rfl (by decide)).append_reads
      (reads_stringLiteral "$.\"")).append_opens hcomma rfl (by decide)
  have hrow := hopen.append_reads (reads_quoted source)
  exact hrow.append_opens hpath rfl (by decide)

theorem reads_memberText_closing_mysql :
    Reads .mysql ", '\"')))" [] := by
  have hcomma : Opens .mysql ", " := opens_of_unmarked (by decide)
  have hclose : Opens .mysql ")))" := opens_of_unmarked (by decide)
  have hquote := hcomma.append_reads (reads_stringLiteral "\"")
  have htext : ", '\"')))" = ", " ++ stringLiteral "\"" ++ ")))" := by
    decide
  rw [htext]
  exact (hquote.append_opens hclose rfl (by decide)).reads

theorem readable_jsonValue_mysql
    (source : String) (key : Option String) :
    Piece.Readable .mysql (jsonValuePieces .mysql source key) := by
  cases key with
  | none =>
      exact Piece.readable_text (reads_rowText_mysql source)
  | some key =>
      have hend : Piece.Readable .mysql [.text ", '\"')))"] :=
        Piece.readable_text reads_memberText_closing_mysql
      have hpieces := (Piece.readable_hole (.str (Dialect.mysql.memberKey key))).append hend
        (Piece.apart_text rfl (by decide) [])
      exact hpieces.cons (opens_memberText_mysql source)

/-- The text of a JSON row, or of one of its members. -/
theorem readable_jsonValue
    (source : String) (key : Option String) :
    Piece.Readable d (jsonValuePieces d source key) := by
  cases d with
  | postgres =>
      exact readable_jsonValue_postgres source key
  | mysql =>
      exact readable_jsonValue_mysql source key

end Names

section Readability

variable {d : Dialect}

/-- A closing text behind readable pieces. -/
theorem readable_close
    {pieces : List Piece} {s : String} {c : Char}
    (h : Piece.Readable d pieces)
    (hs : Unmarked s) (hhead : s.toList.head? = some c) (hc : c ∈ separators) :
    Piece.Readable d (pieces ++ [.text s]) :=
  h.append (Piece.readable_text (opens_of_unmarked hs).reads) (Piece.apart_text hhead hc [])

/-- A text between readable pieces. -/
theorem readable_between
    {first second : List Piece} {s : String} {c : Char}
    (h₁ : Piece.Readable d first) (h₂ : Piece.Readable d second)
    (hs : Unmarked s) (hhead : s.toList.head? = some c) (hc : c ∈ separators) :
    Piece.Readable d (first ++ .text s :: second) :=
  h₁.append (h₂.cons (opens_of_unmarked hs)) (Piece.apart_text hhead hc _)

theorem apart_source
    (source : Option RowSource) :
    Piece.Apart d (RowSource.optionPieces d source) := by
  cases source with
  | none =>
      exact Piece.apart_nil
  | some source =>
      exact Piece.apart_text rfl (by decide) _

theorem apart_joins
    (joins : List Join) :
    Piece.Apart d (Join.listPieces d joins) := by
  cases joins with
  | nil =>
      exact Piece.apart_nil
  | cons join rest =>
      exact Piece.apart_text rfl (by decide) _

theorem apart_condition
    (condition : Option Expr) :
    Piece.Apart d (Expr.conditionPieces d condition) := by
  cases condition with
  | none =>
      exact Piece.apart_nil
  | some e =>
      exact Piece.apart_text rfl (by decide) _

theorem unmarked_operator
    (op : BinaryOp) :
    Unmarked (" " ++ op.symbol ++ " ") := by
  cases op <;> decide

theorem unmarked_keyword
    (op : Connective) :
    Unmarked (" " ++ op.keyword ++ " ") := by
  cases op <;> decide

theorem unmarked_castType
    (d : Dialect) (type : CastType) :
    Unmarked (" AS " ++ d.castType type ++ ")") := by
  cases d <;> cases type <;> decide

theorem unmarked_datePart
    (d : Dialect) (part : DatePart) :
    Unmarked (d.datePart part).opening := by
  cases d <;> cases part <;> decide

theorem unmarked_append
    {first second : String}
    (h₁ : Unmarked first) (h₂ : Unmarked second) :
    Unmarked (first ++ second) := by
  intro c hc
  rw [String.toList_append, List.mem_append] at hc
  rcases hc with hc | hc
  · exact h₁ c hc
  · exact h₂ c hc

mutual

/-- If an expression writes no marks as they stand, the placeholders found in its
text are those of its holes. -/
theorem Expr.readable :
    (e : Expr) → (∀ text ∈ e.verbatim, Unmarked text) → Piece.Readable d (e.pieces d)
  | .ident qualifier name, _ => Piece.readable_text (reads_identifierText qualifier name)
  | .value v, _ => Piece.readable_hole v
  | .raw text, h => Piece.readable_text (opens_of_unmarked (h text (by simp [Expr.verbatim]))).reads
  | .binary left op right, h => by
      simp only [Expr.verbatim, List.mem_append] at h
      have hleft := Expr.readable left fun t ht => h t (.inl ht)
      have hright := Expr.readable right fun t ht => h t (.inr ht)
      simp only [Expr.pieces]
      refine (readable_between hleft ?_ (unmarked_operator op) (c := ' ')
        (by simp) (by decide)).cons (opens_of_unmarked (by decide))
      exact readable_close hright (by decide) rfl (by decide)
  | .logical op operands, h => by
      have hrows := Expr.rows_readable operands h
      simp only [Expr.pieces]
      refine (readable_close ?_ (by decide) rfl (by decide)).cons
        (opens_of_unmarked (by decide))
      exact Piece.readable_separated (opens_of_unmarked (unmarked_keyword op)) (c := ' ')
        (by simp) (by decide) hrows
  | .call function args wildcard, h => by
      simp only [Expr.verbatim, List.mem_cons] at h
      have hname : Unmarked (function ++ "(") :=
        unmarked_append (h function (.inl rfl)) (by decide)
      have hrows := Expr.rows_readable args fun t ht => h t (.inr ht)
      simp only [Expr.pieces]
      refine (readable_close ?_ (by decide) rfl (by decide)).cons (opens_of_unmarked hname)
      cases wildcard with
      | true =>
          exact Piece.readable_text (opens_of_unmarked (by decide)).reads
      | false =>
          exact Piece.readable_separated (opens_of_unmarked (by decide)) rfl (by decide) hrows
  | .cast expr type, h => by
      have hexpr := Expr.readable expr h
      exact (readable_close hexpr (unmarked_castType d type) (c := ' ')
        (by simp) (by decide)).cons (opens_of_unmarked (by decide))
  | .inList expr list negated, h => by
      simp only [Expr.verbatim, List.mem_append] at h
      have hexpr := Expr.readable expr fun t ht => h t (.inl ht)
      have hrows := Expr.rows_readable list fun t ht => h t (.inr ht)
      have hcomma : Opens d ", " := opens_of_unmarked (by decide)
      have hlist := Piece.readable_separated hcomma rfl (by decide) hrows
      have hclose := readable_close (s := "))") hlist (by decide) rfl (by decide)
      simp only [Expr.pieces]
      cases negated <;>
        exact (readable_between hexpr hclose (by decide) rfl (by decide)).cons
          (opens_of_unmarked (by decide))
  | .between expr low high negated, h => by
      simp only [Expr.verbatim, List.mem_append] at h
      have hexpr := Expr.readable expr fun t ht => h t (.inl ht)
      have hlow := Expr.readable low fun t ht => h t (.inr (.inl ht))
      have hhigh := Expr.readable high fun t ht => h t (.inr (.inr ht))
      have hclose := readable_close (s := ")") hhigh (by decide) rfl (by decide)
      have hbounds := readable_between (s := " AND ") hlow hclose (by decide) rfl (by decide)
      simp only [Expr.pieces]
      cases negated <;>
        exact (readable_between hexpr hbounds (by decide) rfl (by decide)).cons
          (opens_of_unmarked (by decide))
  | .isNull expr negated, h => by
      have hexpr := Expr.readable expr h
      simp only [Expr.pieces]
      cases negated <;>
        exact (readable_close hexpr (by decide) rfl (by decide)).cons
          (opens_of_unmarked (by decide))
  | .existsRow query, h =>
      (readable_close (Select.readable query h) (by decide) rfl (by decide)).cons
        (opens_of_unmarked (by decide))
  | .inQuery expr query negated, h => by
      simp only [Expr.verbatim, List.mem_append] at h
      have hexpr := Expr.readable expr fun t ht => h t (.inl ht)
      have hquery := Select.readable query fun t ht => h t (.inr ht)
      have hclose := readable_close (s := "))") hquery (by decide) rfl (by decide)
      simp only [Expr.pieces]
      cases negated <;>
        exact (readable_between hexpr hclose (by decide) rfl (by decide)).cons
          (opens_of_unmarked (by decide))
  | .scalar query, h =>
      (readable_close (Select.readable query h) (by decide) rfl (by decide)).cons
        (opens_of_unmarked (by decide))
  | .jsonValue source key, _ => readable_jsonValue source key
  | .jsonLength expr, h => by
      have hexpr := Expr.readable expr h
      have hname : Unmarked (d.arrayLength ++ "(") := by
        cases d <;> decide
      exact (readable_close hexpr (by decide) rfl (by decide)).cons (opens_of_unmarked hname)
  | .datePart part expr, h => by
      have hexpr := Expr.readable expr h
      have hclose : (d.datePart part).closing = ")" := by
        cases d <;> rfl
      simp only [Expr.pieces, hclose]
      exact (readable_close hexpr (by decide) rfl (by decide)).cons
        (opens_of_unmarked (unmarked_datePart d part))

theorem Expr.rows_readable :
    (list : List Expr) → (∀ text ∈ Expr.listVerbatim list, Unmarked text) →
      ∀ row ∈ Expr.rows d list, Piece.Readable d row
  | [], _ => by simp [Expr.rows]
  | e :: rest, h => by
      simp only [Expr.listVerbatim, List.mem_append] at h
      have he := Expr.readable e fun t ht => h t (.inl ht)
      have hrest := Expr.rows_readable rest fun t ht => h t (.inr ht)
      intro row hrow
      simp only [Expr.rows, List.mem_cons] at hrow
      rcases hrow with rfl | hrow
      · exact he
      · exact hrest row hrow

theorem Expr.condition_readable :
    (condition : Option Expr) →
      (∀ text ∈ Expr.optionVerbatim condition, Unmarked text) →
        Piece.Readable d (Expr.conditionPieces d condition)
  | none, _ => Piece.readable_nil
  | some e, h => (Expr.readable e h).cons (opens_of_unmarked (by decide))

/-- The same for selections. -/
theorem Select.readable :
    (s : Select) → (∀ text ∈ s.verbatim, Unmarked text) → Piece.Readable d (s.pieces d)
  | ⟨columns, source, joins, condition⟩, h => by
      simp only [Select.verbatim, List.mem_append] at h
      have hrows := Expr.rows_readable columns fun t ht => h t (.inl ht)
      have hcomma : Opens d ", " := opens_of_unmarked (by decide)
      have hcolumns := Piece.readable_separated hcomma rfl (by decide) hrows
      have hsource := RowSource.option_readable source fun t ht => h t (.inr (.inl ht))
      have hjoins := Join.list_readable joins fun t ht => h t (.inr (.inr (.inl ht)))
      have hcondition := Expr.condition_readable condition
        fun t ht => h t (.inr (.inr (.inr ht)))
      have hapart := apart_condition (d := d) condition
      have htail := hjoins.append hcondition hapart
      have htails := hsource.append htail ((apart_joins joins).append hapart)
      exact (hcolumns.append htails
        ((apart_source source).append ((apart_joins joins).append hapart))).cons
          (opens_of_unmarked (by decide))

theorem RowSource.readable :
    (source : RowSource) → (∀ text ∈ source.verbatim, Unmarked text) →
      Piece.Readable d (source.pieces d)
  | .table table label, _ => readable_table table label
  | .jsonRows document path label, h => by
      have hdocument := Expr.readable document h
      have hfrom : Unmarked ("FROM " ++ d.jsonRows.opening) := by
        cases d <;> decide
      have hpath := (readable_path (d := d) path).append (readable_jsonRows_closing label)
        (apart_jsonRows_closing label)
      have hrows := readable_between (s := ", ") hdocument hpath (by decide) rfl (by decide)
      exact hrows.cons (opens_of_unmarked hfrom)

theorem RowSource.option_readable :
    (source : Option RowSource) →
      (∀ text ∈ RowSource.optionVerbatim source, Unmarked text) →
        Piece.Readable d (RowSource.optionPieces d source)
  | none, _ => Piece.readable_nil
  | some source, h => (RowSource.readable source h).cons (opens_of_unmarked (by decide))

theorem Join.list_readable :
    (joins : List Join) → (∀ text ∈ Join.listVerbatim joins, Unmarked text) →
      Piece.Readable d (Join.listPieces d joins)
  | [], _ => Piece.readable_nil
  | ⟨table, label, condition⟩ :: rest, h => by
      simp only [Join.listVerbatim, List.mem_append] at h
      have hcondition := Expr.readable condition fun t ht => h t (.inl ht)
      have hrest := Join.list_readable rest fun t ht => h t (.inr ht)
      have hjoin := hcondition.cons (opens_join table label)
      exact (hjoin.append hrest (apart_joins rest)).cons (opens_of_unmarked (by decide))

end

end Readability

/-- What the placeholders of a statement with `n` parameters must be. -/
def Dialect.numbering : Dialect → Nat → List String
  | .postgres, n => (List.range n).map fun i => "$" ++ toString (i + 1)
  | .mysql, n => List.replicate n "?"

theorem Dialect.map_placeholder
    (d : Dialect) (n : Nat) :
    (List.range n).map d.placeholder = d.numbering n := by
  cases d with
  | postgres =>
      rfl
  | mysql =>
      show (List.range n).map (fun _ => "?") = List.replicate n "?"
      rw [List.map_const', List.length_range]

namespace Clause

/-- The placeholders of the statement are numbered from left to right, one for
each parameter, and the parameters are the items in their order. -/
structure Binds (d : Dialect) (c : Clause) (items : List Item) : Prop where
  placeholders_eq : d.placeholders c.sql = d.numbering c.params.length
  params_eq : c.params = items.map (Item.param d)

theorem binds_ofPieces
    {d : Dialect} {pieces : List Piece} {items : List Item}
    (hread : Piece.Readable d pieces)
    (hitems : Piece.values pieces = items.map (Item.param d)) :
    (Clause.ofPieces d pieces).Binds d items := by
  refine ⟨?_, hitems⟩
  have hfound := (hread 0).2
  rw [← List.range_eq_range'] at hfound
  rw [← Dialect.map_placeholder]
  exact hfound

end Clause

theorem Expr.binds
    (d : Dialect) (e : Expr)
    (h : ∀ text ∈ e.verbatim, Unmarked text) :
    (e.clause d).Binds d (e.items d false) :=
  Clause.binds_ofPieces (e.readable h) (e.params_eq d)

theorem Select.binds
    (d : Dialect) (s : Select)
    (h : ∀ text ∈ s.verbatim, Unmarked text) :
    (s.clause d).Binds d (s.items d false) :=
  Clause.binds_ofPieces (s.readable h) (s.params_eq d)

end Sql
end RowFilter
