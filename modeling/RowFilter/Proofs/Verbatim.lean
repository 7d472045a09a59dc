import Mathlib.Data.List.Basic
import RowFilter.Compilation.Basic
import RowFilter.Proofs.Attempts
import RowFilter.Proofs.Binding
import RowFilter.Proofs.Inquiries

/-!
# What compiled filters write as it stands

A compiled filter is plain: the texts in it that are written as they stand are
fixed words of the compiler, none of which holds a mark, and no argument is
hidden behind a star.  So nothing of the input reaches a statement unquoted, and
`Expr.binds` holds of every compiled condition and selection.

The proof follows the steps of a compilation.  Its invariant is that the joins
planned so far and the conditions kept for folded siblings are plain.
-/

namespace RowFilter

open Sql (Connective Dialect Expr Item Join RowSource Select Unmarked)

/-- The words that the compiler writes as they stand. -/
def compilerWords : List String :=
  ["*", "1", "1 = 0", "COUNT", "LOWER"]

theorem compilerWords_unmarked :
    ∀ word ∈ compilerWords, Unmarked word := by
  decide

/-- The expression writes only words of the compiler as they stand, and hides no
argument behind a star. -/
structure Sql.Expr.Plain (e : Expr) : Prop where
  verbatim : ∀ text ∈ e.verbatim, text ∈ compilerWords
  items : ∀ d, e.items d true = e.items d false

/-- The same for a selection. -/
structure Sql.Select.Plain (s : Select) : Prop where
  verbatim : ∀ text ∈ s.verbatim, text ∈ compilerWords
  items : ∀ d, s.items d true = s.items d false

namespace Sql

theorem Expr.listVerbatim_eq
    (list : List Expr) :
    Expr.listVerbatim list = list.flatMap Expr.verbatim := by
  induction list with
  | nil =>
      simp [Expr.listVerbatim]
  | cons e rest ih =>
      simp [Expr.listVerbatim, ih]

theorem Expr.listItems_eq
    (d : Dialect) (starred : Bool) (list : List Expr) :
    Expr.listItems d starred list = list.flatMap (Expr.items d starred) := by
  induction list with
  | nil =>
      simp [Expr.listItems]
  | cons e rest ih =>
      simp [Expr.listItems, ih]

theorem Join.listVerbatim_eq
    (joins : List Join) :
    Join.listVerbatim joins = joins.flatMap fun j => j.condition.verbatim := by
  induction joins with
  | nil =>
      simp [Join.listVerbatim]
  | cons j rest ih =>
      obtain ⟨table, label, condition⟩ := j
      simp [Join.listVerbatim, ih]

theorem Join.listItems_eq
    (d : Dialect) (starred : Bool) (joins : List Join) :
    Join.listItems d starred joins = joins.flatMap fun j => j.condition.items d starred := by
  induction joins with
  | nil =>
      simp [Join.listItems]
  | cons j rest ih =>
      obtain ⟨table, label, condition⟩ := j
      simp [Join.listItems, ih]

namespace Expr

theorem plain_column
    (qualifier field : String) :
    (Expr.column qualifier field).Plain := by
  constructor <;> simp [Expr.column, Expr.verbatim, Expr.items]

theorem plain_value
    (v : Value) :
    (Expr.value v).Plain := by
  constructor <;> simp [Expr.verbatim, Expr.items]

theorem plain_raw
    {text : String}
    (h : text ∈ compilerWords) :
    (Expr.raw text).Plain := by
  constructor <;> simp [Expr.verbatim, Expr.items, h]

theorem plain_jsonValue
    (source : String) (key : Option String) :
    (Expr.jsonValue source key).Plain := by
  cases key <;> constructor <;> simp [Expr.verbatim, Expr.items]

theorem Plain.binary
    {left right : Expr}
    (hleft : left.Plain) (hright : right.Plain) (op : BinaryOp) :
    (Expr.binary left op right).Plain := by
  constructor
  · intro text htext
    simp only [Expr.verbatim, List.mem_append] at htext
    rcases htext with htext | htext
    · exact hleft.verbatim text htext
    · exact hright.verbatim text htext
  · intro d
    simp [Expr.items, hleft.items d, hright.items d]

theorem Plain.cast
    {e : Expr}
    (h : e.Plain) (type : CastType) :
    (Expr.cast e type).Plain :=
  ⟨h.verbatim, h.items⟩

theorem Plain.jsonLength
    {e : Expr}
    (h : e.Plain) :
    (Expr.jsonLength e).Plain :=
  ⟨h.verbatim, h.items⟩

theorem Plain.datePart
    {e : Expr}
    (h : e.Plain) (part : DatePart) :
    (Expr.datePart part e).Plain :=
  ⟨h.verbatim, h.items⟩

theorem Plain.isNull
    {e : Expr}
    (h : e.Plain) (negated : Bool) :
    (Expr.isNull e negated).Plain :=
  ⟨h.verbatim, h.items⟩

/-- Expressions of a list, seen as one. -/
theorem plain_list
    {list : List Expr}
    (h : ∀ e ∈ list, e.Plain) :
    (∀ text ∈ Expr.listVerbatim list, text ∈ compilerWords) ∧
      ∀ d, Expr.listItems d true list = Expr.listItems d false list := by
  constructor
  · intro text htext
    rw [Expr.listVerbatim_eq, List.mem_flatMap] at htext
    obtain ⟨e, he, htext⟩ := htext
    exact (h e he).verbatim text htext
  · intro d
    rw [Expr.listItems_eq, Expr.listItems_eq]
    exact List.flatMap_congr fun e he => (h e he).items d

theorem plain_logical
    (op : Connective) {operands : List Expr}
    (h : ∀ e ∈ operands, e.Plain) :
    (Expr.logical op operands).Plain :=
  ⟨(plain_list h).1, (plain_list h).2⟩

theorem plain_group?
    {op : Connective} {operands : List Expr}
    (h : ∀ e ∈ operands, e.Plain) :
    ∀ e ∈ Expr.group? op operands, e.Plain := by
  intro e he
  match operands with
  | [] => simp [Expr.group?] at he
  | [only] =>
      have heq : only = e := by simpa [Expr.group?] using he
      exact heq ▸ h only (by simp)
  | first :: second :: rest =>
      have heq : Expr.logical op (first :: second :: rest) = e := by
        simpa [Expr.group?] using he
      exact heq ▸ plain_logical op h

theorem Plain.lower
    {e : Expr}
    (h : e.Plain) :
    (Expr.call "LOWER" [e] false).Plain := by
  constructor
  · intro text htext
    simp only [Expr.verbatim, Expr.listVerbatim, List.append_nil, List.mem_cons] at htext
    rcases htext with rfl | htext
    · decide
    · exact h.verbatim text htext
  · intro d
    simp [Expr.items, Expr.listItems, h.items d]

theorem Plain.inList
    {e : Expr}
    (h : e.Plain) (values : List Value) (negated : Bool) :
    (Expr.inList e (values.map .value) negated).Plain := by
  have hvalues : ∀ item ∈ values.map Expr.value, item.Plain := by
    intro item hitem
    obtain ⟨v, _, rfl⟩ := List.mem_map.1 hitem
    exact plain_value v
  obtain ⟨hverbatim, hitems⟩ := plain_list hvalues
  constructor
  · intro text htext
    simp only [Expr.verbatim, List.mem_append] at htext
    rcases htext with htext | htext
    · exact h.verbatim text htext
    · exact hverbatim text htext
  · intro d
    simp only [Expr.items, h.items d, hitems d]

theorem Plain.between
    {e low high : Expr}
    (h : e.Plain) (hlow : low.Plain) (hhigh : high.Plain) (negated : Bool) :
    (Expr.between e low high negated).Plain := by
  constructor
  · intro text htext
    simp only [Expr.verbatim, List.mem_append] at htext
    rcases htext with htext | htext | htext
    · exact h.verbatim text htext
    · exact hlow.verbatim text htext
    · exact hhigh.verbatim text htext
  · intro d
    simp only [Expr.items, h.items d, hlow.items d, hhigh.items d]

theorem Plain.inQuery
    {e : Expr} {query : Select}
    (h : e.Plain) (hquery : query.Plain) (negated : Bool) :
    (Expr.inQuery e query negated).Plain := by
  constructor
  · intro text htext
    simp only [Expr.verbatim, List.mem_append] at htext
    rcases htext with htext | htext
    · exact h.verbatim text htext
    · exact hquery.verbatim text htext
  · intro d
    simp only [Expr.items, h.items d, hquery.items d]

end Expr

/-- A selection is plain if its parts are. -/
theorem Select.plain_mk
    {columns : List Expr} {source : RowSource} {joins : List Join} {condition : Option Expr}
    (hcolumns : ∀ e ∈ columns, e.Plain)
    (hverbatim : ∀ text ∈ source.verbatim, text ∈ compilerWords)
    (hitems : ∀ d, source.items d true = source.items d false)
    (hjoins : ∀ j ∈ joins, j.condition.Plain)
    (hcondition : ∀ e ∈ condition, e.Plain) :
    (Select.mk columns (some source) joins condition).Plain := by
  obtain ⟨hcolumnTexts, hcolumnItems⟩ := Expr.plain_list hcolumns
  constructor
  · intro text htext
    simp only [Select.verbatim, List.mem_append] at htext
    rcases htext with htext | htext | htext | htext
    · exact hcolumnTexts text htext
    · exact hverbatim text htext
    · rw [Join.listVerbatim_eq, List.mem_flatMap] at htext
      obtain ⟨j, hj, htext⟩ := htext
      exact (hjoins j hj).verbatim text htext
    · cases condition with
      | none =>
          simp [Expr.optionVerbatim] at htext
      | some e =>
          exact (hcondition e rfl).verbatim text htext
  · intro d
    have hjoinItems : Join.listItems d true joins = Join.listItems d false joins := by
      rw [Join.listItems_eq, Join.listItems_eq]
      exact List.flatMap_congr fun j hj => (hjoins j hj).items d
    have hconditionItems :
        Expr.optionItems d true condition = Expr.optionItems d false condition := by
      cases condition with
      | none =>
          rfl
      | some e =>
          exact (hcondition e rfl).items d
    simp only [Select.items, RowSource.optionItems, hcolumnItems d, hitems d, hjoinItems,
      hconditionItems]

/-- Rows of a table. -/
theorem Select.plain_table
    {columns : List Expr} {table : Table} {label : Option String} {joins : List Join}
    {condition : Option Expr}
    (hcolumns : ∀ e ∈ columns, e.Plain)
    (hjoins : ∀ j ∈ joins, j.condition.Plain)
    (hcondition : ∀ e ∈ condition, e.Plain) :
    (Select.mk columns (some (.table table label)) joins condition).Plain :=
  Select.plain_mk hcolumns (by simp [RowSource.verbatim])
    (fun _ => by simp [RowSource.items]) hjoins hcondition

end Sql

/-- What a criterion asks of a plain expression is plain. -/
theorem Criterion.plain_apply
    {target : Expr}
    (h : target.Plain) (c : Criterion) :
    ∀ e ∈ c.apply target, e.Plain := by
  intro e he
  cases c with
  | compare op v =>
      obtain rfl : _ = e := by simpa [Criterion.apply] using he
      exact h.binary (Sql.Expr.plain_value v) op
  | like pattern negated caseless =>
      obtain rfl : _ = e := by simpa [Criterion.apply] using he
      refine Sql.Expr.Plain.binary ?_ (Sql.Expr.plain_value pattern) _
      cases caseless with
      | true =>
          exact h.lower
      | false =>
          exact h
  | inList vs negated =>
      obtain rfl : _ = e := by simpa [Criterion.apply] using he
      exact h.inList vs negated
  | between low high negated =>
      obtain rfl : _ = e := by simpa [Criterion.apply] using he
      exact h.between (Sql.Expr.plain_value low) (Sql.Expr.plain_value high) negated
  | isNull negated =>
      obtain rfl : _ = e := by simpa [Criterion.apply] using he
      exact h.isNull negated
  | never =>
      obtain rfl : _ = e := by simpa [Criterion.apply] using he
      exact Sql.Expr.plain_raw (by decide)
  | always =>
      simp [Criterion.apply] at he

namespace DocumentTest

theorem plain_condition?
    (label : String) (key : Option String) (c : Criterion) :
    ∀ e ∈ condition? label key c, e.Plain :=
  Criterion.plain_apply ((Sql.Expr.plain_jsonValue label key).cast c.castType) c.casted

theorem plain_existsMatch
    {document condition : Expr}
    (hdocument : document.Plain) (hcondition : condition.Plain)
    (path : Sql.PathArg) (label : String) :
    (existsMatch document path label condition).Plain := by
  have hone : ∀ e ∈ [Expr.raw "1"], e.Plain := by
    intro e he
    obtain rfl : e = _ := by simpa using he
    exact Sql.Expr.plain_raw (by decide)
  have hquery : (Select.mk [.raw "1"] (some (.jsonRows document path (some label))) []
      (some condition)).Plain :=
    Sql.Select.plain_mk hone hdocument.verbatim
      (fun d => by simp [RowSource.items, hdocument.items d]) (by simp) (by simpa using hcondition)
  exact ⟨hquery.verbatim, hquery.items⟩

theorem plain_alone
    (t : DocumentTest) :
    Attempt.Ensures (fun _ => True) t.alone fun condition _ => ∀ e ∈ condition, e.Plain := by
  unfold alone
  refine Attempt.Ensures.bind (Attempt.ensures_ofExcept fun _ _ _ _ => trivial) fun criterion => ?_
  split
  · exact Attempt.ensures_pure fun _ _ => by simp
  · refine Attempt.Ensures.bind (R := fun _ _ => True)
      (Attempt.ensures_ofState fun _ _ => trivial) fun rows => ?_
    refine Attempt.ensures_pure fun _ _ => ?_
    intro e he
    obtain ⟨condition, hcondition, rfl⟩ := Option.map_eq_some_iff.1 he
    exact plain_existsMatch (Sql.Expr.plain_column _ _)
      (plain_condition? _ _ _ condition hcondition) _ _

theorem plain_together
    (tests : List DocumentTest) :
    Attempt.Ensures (fun _ => True) (together tests)
      fun condition _ => ∀ e ∈ condition, e.Plain := by
  cases tests with
  | nil =>
      exact Attempt.ensures_fail _
  | cons first others =>
      unfold together
      refine Attempt.Ensures.bind (Attempt.ensures_ofExcept fun _ _ _ _ => trivial) fun asked => ?_
      split
      · exact Attempt.ensures_pure fun _ _ => by simp
      · refine Attempt.Ensures.bind (R := fun _ _ => True)
          (Attempt.ensures_ofState fun _ _ => trivial) fun rows => ?_
        refine Attempt.ensures_pure fun _ _ => ?_
        intro e he
        obtain ⟨condition, hcondition, rfl⟩ := Option.map_eq_some_iff.1 he
        refine plain_existsMatch (Sql.Expr.plain_column _ _) ?_ _ _
        refine Sql.Expr.plain_group? ?_ condition hcondition
        intro part hpart
        obtain ⟨asked, _, hasked⟩ := List.mem_filterMap.1 hpart
        exact plain_condition? _ _ _ part hasked

end DocumentTest

namespace JoinPlan

/-- The planned joins are plain. -/
def Plain (t : Planning) : Prop :=
  ∀ j ∈ t.plan.joins, j.condition.Plain

theorem plain_connect
    (schema : Schema) (path : List Segment) (parent : String) (relation : Relation) :
    Attempt.Ensures Plain (connect schema path parent relation) fun _ t => Plain t := by
  unfold connect
  refine Attempt.Ensures.bind (Attempt.ensures_state fun _ h => h) fun s => ?_
  split
  · exact Attempt.ensures_pure fun _ h => h
  · refine Attempt.Ensures.bind (Attempt.ensures_ofExcept fun _ _ h _ => h) fun related => ?_
    split
    · exact Attempt.ensures_fail _
    · refine Attempt.ensures_ofState fun t h => ?_
      intro j hj
      simp only [add, List.mem_append, List.mem_singleton] at hj
      rcases hj with hj | rfl
      · exact h j hj
      · exact (Sql.Expr.plain_column _ _).binary (Sql.Expr.plain_column _ _) _

theorem plain_follow
    (schema : Schema) (path before : List Segment) (qualifier collection : String) :
    Attempt.Ensures Plain (follow schema before qualifier collection path)
      fun _ t => Plain t := by
  induction path generalizing before qualifier collection with
  | nil =>
      exact Attempt.ensures_fail _
  | cons segment rest ih =>
      unfold follow
      refine Attempt.Ensures.bind (Attempt.ensures_ofExcept fun _ _ h _ => h) fun step => ?_
      split
      · exact Attempt.ensures_pure fun _ h => h
      · refine Attempt.Ensures.bind (plain_connect _ _ _ _) fun connection => ?_
        refine Attempt.Ensures.bind (Attempt.ensures_ofExcept fun _ _ h _ => h) fun related => ?_
        exact ih _ _ _

theorem plain_locate
    (schema : Schema) (path : List Segment) :
    Attempt.Ensures Plain (locate schema path) fun _ t => Plain t := by
  unfold locate
  refine Attempt.Ensures.bind (Attempt.ensures_state fun _ h => h) fun s => ?_
  exact plain_follow _ _ _ _ _

end JoinPlan

/-- The planned joins and the conditions kept for folded siblings are plain. -/
structure Progress.Plain (p : Progress) : Prop where
  joins : ∀ j ∈ p.plan.joins, j.condition.Plain
  folded : ∀ entry ∈ p.folded, ∀ e ∈ entry.2, e.Plain

namespace Compiling

/-- The step keeps the state plain, and its result meets `Q`. -/
def StaysPlain {α : Type} (x : Compiling α) (Q : α → Prop) : Prop :=
  Attempt.Ensures Progress.Plain x fun a p => Q a ∧ p.Plain

/-- A condition, if there is one, is plain. -/
def PlainCondition (condition : Option Expr) : Prop :=
  ∀ e ∈ condition, e.Plain

section Rules

variable {α β : Type} {Q : α → Prop} {R : β → Prop}

theorem StaysPlain.bind
    {x : Compiling α} {f : α → Compiling β}
    (hx : StaysPlain x Q) (hf : ∀ a, Q a → StaysPlain (f a) R) :
    StaysPlain (x >>= f) R := by
  refine Attempt.Ensures.bind hx fun a => ?_
  intro p hp
  exact hf a hp.1 p hp.2

theorem staysPlain_pure
    {a : α}
    (h : Q a) :
    StaysPlain (pure a) Q :=
  Attempt.ensures_pure fun _ hp => ⟨h, hp⟩

theorem staysPlain_ofExcept
    {result : Except QueryError α}
    (h : ∀ a, result = .ok a → Q a) :
    StaysPlain (Attempt.ofExcept result) Q :=
  Attempt.ensures_ofExcept fun _ a hp ha => ⟨h a ha, hp⟩

/-- A check, or a lookup of which only the success matters. -/
theorem staysPlain_check
    {result : Except QueryError α} {f : α → Compiling β}
    (h : ∀ a, StaysPlain (f a) R) :
    StaysPlain (Attempt.ofExcept result >>= f) R :=
  (staysPlain_ofExcept (Q := fun _ => True) fun _ _ => trivial).bind fun a _ => h a

theorem staysPlain_locate
    (schema : Schema) (path : List Segment) :
    StaysPlain (locate schema path) fun _ => True := by
  refine Attempt.ensures_focus fun p hp => ?_
  refine ((JoinPlan.plain_locate schema path).weaken ?_).mono ?_
  · rintro t rfl
    exact hp.joins
  · intro _ t ht
    exact ⟨trivial, ht, hp.folded⟩

theorem staysPlain_label
    {step : Attempt Labels α}
    (h : Attempt.Ensures (fun _ => True) step fun a _ => Q a) :
    StaysPlain (label step) Q := by
  refine Attempt.ensures_focus fun p hp => ?_
  refine (h.weaken fun _ _ => trivial).mono ?_
  intro a l ha
  exact ⟨ha, hp.joins, hp.folded⟩

theorem staysPlain_freshLabel
    (base : String) :
    StaysPlain (freshLabel base) fun _ => True :=
  staysPlain_label (Attempt.ensures_ofState fun _ _ => trivial)

/-- A query of its own starts without joins. -/
theorem staysPlain_inQuery
    {step : Compiling α} (collection qualifier : String)
    (h : StaysPlain step Q) :
    StaysPlain (inQuery collection qualifier step)
      fun result => Q result.1 ∧ ∀ j ∈ result.2, j.condition.Plain := by
  intro p hp result t hrun
  have hinside : (p.inside collection qualifier).Plain :=
    ⟨by simp [Progress.inside, JoinPlan.start], hp.folded⟩
  cases hstep : step.run (p.inside collection qualifier) with
  | mk outcome q =>
      cases outcome with
      | error e =>
          simp [inQuery, hstep, Except.map] at hrun
      | ok a =>
          obtain ⟨ha, hq⟩ := h _ hinside a q hstep
          simp only [inQuery, hstep, Except.map, Prod.mk.injEq, Except.ok.injEq] at hrun
          obtain ⟨rfl, rfl⟩ := hrun
          exact ⟨⟨ha, hq.joins⟩, hp.joins, hq.folded⟩

end Rules
end Compiling

open Compiling

theorem Place.plain_compared
    (p : Place) :
    p.compared.Plain := by
  have hcolumn : p.column.Plain := Sql.Expr.plain_column _ _
  unfold Place.compared
  split
  · exact hcolumn
  · exact hcolumn.jsonLength
  · exact hcolumn.datePart _

theorem Place.plain_condition
    {p : Place} {relation : Option Relation} {c : Comparison} {operand : Json}
    {condition : Option Expr}
    (h : p.condition relation c operand = .ok condition) :
    PlainCondition condition := by
  unfold Place.condition at h
  obtain ⟨_, _, h⟩ := exists_of_bind_ok h
  obtain ⟨criterion, _, h⟩ := exists_of_bind_ok h
  cases h
  exact Criterion.plain_apply p.plain_compared criterion

/-- The key that a link looks up is a column. -/
theorem Link.plain_parentKey
    {schema : Schema} {place : Place} {relation : Relation} {scope : Option String} {link : Link}
    (h : Link.of schema place relation scope = .ok link) :
    link.parentKey.Plain := by
  obtain ⟨primary, _, hkey⟩ := (Link.made_of_ok h).parentKey
  rw [hkey]
  exact Sql.Expr.plain_column _ _

theorem Link.plain_discriminates
    (label : String) (discriminator : String × String) :
    (Link.discriminates label discriminator).Plain :=
  (Sql.Expr.plain_column _ _).binary (Sql.Expr.plain_value _) _

theorem Link.plain_countRows
    {link : Link}
    (h : link.parentKey.Plain) (label : String) :
    (link.countRows label).Plain := by
  have hcount : ∀ e ∈ [Expr.call "COUNT" [] true], e.Plain := by
    intro e he
    obtain rfl : e = _ := by simpa using he
    constructor <;> simp [Expr.verbatim, Expr.listVerbatim, Expr.items, Expr.listItems,
      compilerWords]
  have hlink : (Expr.binary (.column label link.relatedField) .eq link.parentKey).Plain :=
    (Sql.Expr.plain_column _ _).binary h _
  have hquery : ∀ conditions : List Expr, (∀ e ∈ conditions, e.Plain) →
      (Select.mk [.call "COUNT" [] true] (some (.table { name := link.related } (some label))) []
        (Expr.group? .and conditions)).Plain := by
    intro conditions hconditions
    exact Sql.Select.plain_table hcount (by simp) (Sql.Expr.plain_group? hconditions)
  unfold Link.countRows
  cases hdiscriminator : link.discriminator with
  | none =>
      have hone := hquery [_] (by simpa using hlink)
      exact ⟨hone.verbatim, hone.items⟩
  | some d =>
      have htwo := hquery [_, Link.discriminates label d] (by
        intro e he
        simp only [List.mem_cons, List.not_mem_nil, or_false] at he
        rcases he with rfl | rfl
        · exact hlink
        · exact Link.plain_discriminates label d)
      exact ⟨htwo.verbatim, htwo.items⟩

/-- An inquiry whose rows and discriminator are plain asks plainly for rows that
meet a plain condition. -/
structure Inquiry.Plain (q : Inquiry) : Prop where
  meeting : ∀ condition, PlainCondition condition → (q.meeting condition).Plain

theorem staysPlain_enter
    {α : Type} {schema : Schema} {probe : Probe} {step : Compiling α} {Q : α → Prop}
    (h : StaysPlain step Q) :
    StaysPlain (probe.enter schema step) fun result => Q result.1 ∧ result.2.Plain := by
  unfold Probe.enter
  refine staysPlain_check fun _ => ?_
  refine (staysPlain_freshLabel probe.related).bind fun label _ => ?_
  refine (staysPlain_inQuery probe.related label h).bind fun result hresult => ?_
  obtain ⟨a, joins⟩ := result
  obtain ⟨ha, hjoins⟩ := hresult
  refine staysPlain_pure ⟨ha, ⟨fun condition hcondition => ?_⟩⟩
  have hconditions : ∀ e ∈ condition.toList ++
      (probe.discriminator.map (Link.discriminates label)).toList, e.Plain := by
    intro e he
    simp only [List.mem_append, Option.mem_toList] at he
    rcases he with he | he
    · exact hcondition e he
    · obtain ⟨d, _, rfl⟩ := Option.map_eq_some_iff.1 he
      exact Link.plain_discriminates label d
  have hcolumn : ∀ e ∈ [Expr.column label probe.column], e.Plain := by
    intro e he
    obtain rfl : e = _ := by simpa using he
    exact Sql.Expr.plain_column _ _
  refine Sql.Select.plain_table hcolumn (by simpa [Select.join, Select.of] using hjoins) ?_
  have hgroup : ∀ e ∈ Expr.group? .and _, e.Plain := Sql.Expr.plain_group? hconditions
  simpa [Select.join, Select.of] using hgroup

theorem staysPlain_countCondition
    {link : Link} (hlink : link.parentKey.Plain) (schema : Schema) (place : Place)
    (relation : Relation) (c : Comparison) (operand : Json) :
    StaysPlain (link.countCondition schema place relation c operand) PlainCondition := by
  unfold Link.countCondition
  refine staysPlain_check fun _ => ?_
  refine staysPlain_check fun _ => ?_
  refine (staysPlain_freshLabel link.related).bind fun label _ => ?_
  refine staysPlain_check fun criterion => ?_
  exact staysPlain_pure (Criterion.plain_apply (Link.plain_countRows hlink label) criterion)

theorem staysPlain_arrivalCondition
    (schema : Schema) (id : Nat) (c : Comparison) (operand : Json) (destination : Destination) :
    StaysPlain (arrivalCondition schema id c operand destination) PlainCondition := by
  cases destination with
  | column place relation =>
      exact staysPlain_ofExcept fun _ => Place.plain_condition
  | json place rest =>
      cases rest with
      | nil =>
          exact staysPlain_ofExcept fun _ => Place.plain_condition
      | cons s rest =>
          refine staysPlain_check fun _ => ?_
          exact staysPlain_label (DocumentTest.plain_alone _)
  | toMany place relation scope rest =>
      refine (staysPlain_ofExcept fun _ => Link.plain_parentKey).bind fun link hlink => ?_
      exact staysPlain_countCondition hlink schema place relation c operand

theorem staysPlain_comparisonCondition
    (schema : Schema) (id : Nat) (c : Comparison) (operand : Json)
    (limit : Nat) (path : List Segment) :
    StaysPlain (comparisonCondition schema id c operand limit path) PlainCondition := by
  induction limit generalizing path with
  | zero =>
      exact Attempt.ensures_fail _
  | succ limit ih =>
      rw [comparisonCondition_eq]
      refine (staysPlain_locate schema path).bind fun destination _ => ?_
      split
      · refine (staysPlain_ofExcept fun _ => Link.plain_parentKey).bind fun link hlink => ?_
        refine (staysPlain_enter (Q := PlainCondition) ?_).bind fun result hresult => ?_
        · exact (staysPlain_locate schema _).bind fun _ _ => ih _
        · refine staysPlain_pure ?_
          simpa [PlainCondition, Inquiry.predicate] using
            hlink.inQuery (hresult.2.meeting _ hresult.1) false
      · exact staysPlain_arrivalCondition schema id c operand destination

theorem staysPlain_quantifierProbe
    (schema : Schema) (field : Segment) (q : Quantifier) :
    StaysPlain (quantifierProbe schema field q) fun probe => probe.key.Plain := by
  unfold quantifierProbe
  refine (staysPlain_locate schema [field]).bind fun destination _ => ?_
  split
  · refine (staysPlain_ofExcept fun _ => Link.plain_parentKey).bind fun link hlink => ?_
    refine staysPlain_check fun _ => ?_
    exact staysPlain_pure hlink
  · refine staysPlain_check fun _ => ?_
    split
    · exact Attempt.ensures_fail _
    · refine staysPlain_check fun related => ?_
      refine staysPlain_check fun primary => ?_
      exact staysPlain_pure (Sql.Expr.plain_column _ _)

theorem staysPlain_quantifiedCondition
    (schema : Schema) (field : Segment) (q : Quantifier) {step : Compiling (Option Expr)}
    (h : StaysPlain step PlainCondition) :
    StaysPlain (quantifiedCondition schema field q step) PlainCondition := by
  rw [quantifiedCondition_eq]
  refine (staysPlain_quantifierProbe schema field q).bind fun probe hprobe => ?_
  refine (staysPlain_enter h).bind fun result hresult => ?_
  refine staysPlain_pure ?_
  simpa [PlainCondition, Inquiry.predicate] using
    hprobe.inQuery (hresult.2.meeting _ hresult.1) (q == .none)

theorem staysPlain_testOf?
    (schema : Schema) (id : Nat) (path : List Segment) (c : Comparison) (operand : Json) :
    StaysPlain (testOf? schema id path c operand) fun _ => True := by
  unfold testOf?
  refine Attempt.Ensures.bind (Attempt.ensures_state fun _ hp => hp) fun p => ?_
  split
  · exact staysPlain_pure trivial
  · refine (staysPlain_locate schema path).bind fun destination _ => ?_
    split
    · exact staysPlain_check fun _ => staysPlain_pure trivial
    · exact staysPlain_pure trivial

mutual

theorem staysPlain_testsOf
    (schema : Schema) :
    (f : Filter) → StaysPlain (testsOf schema f) fun _ => True
  | .and children => by
      unfold testsOf
      exact staysPlain_testsOfAll schema children
  | .or _ => by
      unfold testsOf
      exact staysPlain_pure trivial
  | .compare id path c operand => by
      unfold testsOf
      exact (staysPlain_testOf? schema id path c operand).bind fun _ _ => staysPlain_pure trivial
  | .quantify _ _ _ _ => by
      unfold testsOf
      exact staysPlain_pure trivial

theorem staysPlain_testsOfAll
    (schema : Schema) :
    (children : List Filter) → StaysPlain (testsOfAll schema children) fun _ => True
  | [] => by
      unfold testsOfAll
      exact staysPlain_pure trivial
  | child :: rest => by
      unfold testsOfAll
      refine (staysPlain_testsOf schema child).bind fun _ _ => ?_
      exact (staysPlain_testsOfAll schema rest).bind fun _ _ => staysPlain_pure trivial

end

theorem staysPlain_foldGroup
    (group : List DocumentTest) :
    StaysPlain (foldGroup group) fun _ => True := by
  match group with
  | [] => exact staysPlain_pure trivial
  | [_] => exact staysPlain_pure trivial
  | first :: second :: rest =>
      unfold foldGroup
      refine (staysPlain_label (DocumentTest.plain_together _)).bind fun condition hcondition => ?_
      refine Attempt.ensures_update fun p hp => ⟨trivial, hp.joins, ?_⟩
      intro entry hentry
      simp only [List.mem_append, List.mem_cons, List.mem_map] at hentry
      rcases hentry with hentry | rfl | ⟨t, _, rfl⟩
      · exact hp.folded entry hentry
      · exact hcondition
      · simp

theorem staysPlain_foldGroups
    (groups : List (List DocumentTest)) :
    StaysPlain (foldGroups groups) fun _ => True := by
  induction groups with
  | nil =>
      exact staysPlain_pure trivial
  | cons group rest ih =>
      unfold foldGroups
      exact (staysPlain_foldGroup group).bind fun _ _ => ih

theorem staysPlain_foldSiblings
    (schema : Schema) (children : List Filter) :
    StaysPlain (foldSiblings schema children) fun _ => True := by
  unfold foldSiblings
  refine (staysPlain_testsOfAll schema children).bind fun tests _ => ?_
  exact staysPlain_foldGroups _

mutual

theorem staysPlain_planJoins
    (s : Setting) :
    (f : Filter) → StaysPlain (planJoins s f) fun _ => True
  | .and children => by
      unfold planJoins
      exact staysPlain_planAllJoins s children
  | .or children => by
      unfold planJoins
      split
      · exact staysPlain_pure trivial
      · exact staysPlain_planAllJoins s children
  | .compare _ path _ _ => by
      unfold planJoins
      exact (staysPlain_locate s.schema path).bind fun _ _ => staysPlain_pure trivial
  | .quantify _ field _ _ => by
      unfold planJoins
      exact (staysPlain_locate s.schema [field]).bind fun _ _ => staysPlain_pure trivial

theorem staysPlain_planAllJoins
    (s : Setting) :
    (children : List Filter) → StaysPlain (planAllJoins s children) fun _ => True
  | [] => by
      unfold planAllJoins
      exact staysPlain_pure trivial
  | child :: rest => by
      unfold planAllJoins
      exact (staysPlain_planJoins s child).bind fun _ _ => staysPlain_planAllJoins s rest

end

mutual

/-- Compiling a filter keeps the state plain and builds a plain condition. -/
theorem staysPlain_filterCondition
    (s : Setting) :
    (f : Filter) → StaysPlain (filterCondition s f) PlainCondition
  | .and children => by
      unfold filterCondition
      refine (staysPlain_foldSiblings s.schema children).bind fun _ _ => ?_
      refine (staysPlain_allConditions s children).bind fun conditions hconditions => ?_
      exact staysPlain_pure (Sql.Expr.plain_group? hconditions)
  | .or children => by
      unfold filterCondition
      split
      · exact staysPlain_pure (by simp [PlainCondition])
      · refine (staysPlain_alternativeConditions s children).bind fun conditions hconditions => ?_
        refine staysPlain_pure ?_
        intro e he
        obtain ⟨operands, hoperands, he⟩ := Option.bind_eq_some_iff.1 he
        exact Sql.Expr.plain_group? (hconditions operands hoperands) e he
  | .compare id path c operand => by
      unfold filterCondition
      refine Attempt.Ensures.bind (R := fun (seen p : Progress) => seen.Plain ∧ p.Plain)
        (Attempt.ensures_state fun _ hp => ⟨hp, hp⟩) fun seen => ?_
      split
      · rename_i condition hlookup
        refine Attempt.ensures_pure fun p hp => ⟨?_, hp.2⟩
        obtain ⟨before, after, hfolded, _⟩ := List.lookup_eq_some_iff.1 hlookup
        exact hp.1.folded (id, condition) (by simp [hfolded])
      · exact (staysPlain_comparisonCondition _ _ _ _ _ _).weaken fun _ hp => hp.2
  | .quantify _ field q inner => by
      unfold filterCondition
      refine staysPlain_quantifiedCondition s.schema field q ?_
      exact (staysPlain_planJoins s inner).bind fun _ _ => staysPlain_filterCondition s inner

theorem staysPlain_allConditions
    (s : Setting) :
    (children : List Filter) →
      StaysPlain (allConditions s children) fun conditions => ∀ e ∈ conditions, e.Plain
  | [] => by
      unfold allConditions
      exact staysPlain_pure (by simp)
  | child :: rest => by
      unfold allConditions
      refine (staysPlain_filterCondition s child).bind fun condition hcondition => ?_
      refine (staysPlain_allConditions s rest).bind fun conditions hconditions => ?_
      refine staysPlain_pure ?_
      intro e he
      simp only [List.mem_append, Option.mem_toList] at he
      rcases he with he | he
      · exact hcondition e he
      · exact hconditions e he

theorem staysPlain_alternativeConditions
    (s : Setting) :
    (children : List Filter) →
      StaysPlain (alternativeConditions s children)
        fun conditions => ∀ operands ∈ conditions, ∀ e ∈ operands, e.Plain
  | [] => by
      unfold alternativeConditions
      exact staysPlain_pure (by simp)
  | child :: rest => by
      unfold alternativeConditions
      refine (staysPlain_filterCondition s child).bind fun condition hcondition => ?_
      split
      · exact staysPlain_pure (by simp)
      · rename_i e
        refine (staysPlain_alternativeConditions s rest).bind fun conditions hconditions => ?_
        refine staysPlain_pure ?_
        intro operands hoperands
        obtain ⟨others, hothers, rfl⟩ := Option.map_eq_some_iff.1 hoperands
        intro operand hoperand
        rcases List.mem_cons.1 hoperand with rfl | hoperand
        · exact hcondition _ rfl
        · exact hconditions others hothers operand hoperand

end

/-- Whatever is compiled, its condition and its joins are plain. -/
theorem Setting.plain_of_compile
    {s : Setting} {collection : String} {filter : Json} {c : Compiled}
    (h : s.compile collection filter = .ok c) :
    PlainCondition c.condition ∧ ∀ j ∈ c.joins, j.condition.Plain := by
  unfold Setting.compile at h
  obtain ⟨_, _, h⟩ := exists_of_bind_ok h
  obtain ⟨tree, _, h⟩ := exists_of_bind_ok h
  have hstart : (Progress.start collection).Plain :=
    ⟨by simp [Progress.start, JoinPlan.start], by simp [Progress.start]⟩
  have hrun : StaysPlain (s.run tree) PlainCondition :=
    (staysPlain_planJoins s tree).bind fun _ _ => staysPlain_filterCondition s tree
  unfold Setting.compileTree at h
  split at h
  · rename_i condition p hok
    obtain ⟨hcondition, hp⟩ := hrun _ hstart condition p hok
    cases h
    exact ⟨hcondition, hp.joins⟩
  · cases h

theorem Compiled.plain_selection
    {c : Compiled}
    (hcondition : PlainCondition c.condition) (hjoins : ∀ j ∈ c.joins, j.condition.Plain)
    (names : List String) :
    (c.selection names).Plain := by
  have hcolumns : ∀ e ∈ c.columns names, e.Plain := by
    intro e he
    cases names with
    | nil =>
        obtain rfl : e = .raw "*" := by simpa [Compiled.columns] using he
        exact Sql.Expr.plain_raw (by decide)
    | cons name rest =>
        obtain ⟨_, _, rfl⟩ := List.mem_map.1 he
        exact Sql.Expr.plain_column _ _
  have hselection : (Select.mk (c.columns names) (some (.table { name := c.collection } none))
      c.joins c.condition).Plain :=
    Sql.Select.plain_table hcolumns hjoins hcondition
  simpa [Compiled.selection, Select.of, Select.join, Select.filter] using hselection

/-- A plain selection binds all its items. -/
theorem Sql.Select.Plain.binds
    {q : Select}
    (h : q.Plain) (d : Dialect) :
    (q.clause d).Binds d (q.items d true) := by
  rw [h.items d]
  exact q.binds d fun text htext => compilerWords_unmarked text (h.verbatim text htext)

/-- A plain condition binds all its items. -/
theorem Compiled.binds_clause
    {c : Compiled}
    (h : PlainCondition c.condition) (d : Dialect) :
    (c.clause d).Binds d (Expr.optionItems d true c.condition) := by
  unfold Compiled.clause
  cases hcondition : c.condition with
  | none =>
      exact ⟨by cases d <;> decide, rfl⟩
  | some e =>
      have he : e.Plain := h e hcondition
      show (e.clause d).Binds d (e.items d true)
      rw [he.items d]
      exact e.binds d fun text htext => compilerWords_unmarked text (he.verbatim text htext)

/-- **Positional binding.**  If the texts that an expression or a selection writes
as they stand hold no marks, its placeholders are numbered through from left to
right, one for each parameter, and its parameters are its items in their order.
That is so of every compiled condition and selection, and these hide nothing
behind a star. -/
theorem statements_bind_in_order :
    (∀ (d : Dialect) (e : Expr), (∀ text ∈ e.verbatim, Unmarked text) →
      (e.clause d).Binds d (e.items d false)) ∧
    (∀ (d : Dialect) (q : Select), (∀ text ∈ q.verbatim, Unmarked text) →
      (q.clause d).Binds d (q.items d false)) ∧
    (∀ (s : Setting) (collection : String) (filter : Json) (clause : Sql.Clause),
      s.clause collection filter = .ok clause →
        ∃ c, s.compile collection filter = .ok c ∧
          clause.Binds s.options.dialect (Expr.optionItems s.options.dialect true c.condition)) ∧
    (∀ (s : Setting) (collection : String) (names : List String) (filter : Json)
      (clause : Sql.Clause),
      s.select collection names filter = .ok clause →
        ∃ c, s.compile collection filter = .ok c ∧
          clause.Binds s.options.dialect
            ((c.selection names).items s.options.dialect true)) := by
  refine ⟨fun d e => e.binds d, fun d q => q.binds d, ?_, ?_⟩
  · intro s collection filter clause h
    obtain ⟨c, hc, h⟩ := exists_of_bind_ok h
    cases h
    exact ⟨c, hc, c.binds_clause (Setting.plain_of_compile hc).1 _⟩
  · intro s collection names filter clause h
    obtain ⟨c, hc, h⟩ := exists_of_bind_ok h
    cases h
    obtain ⟨hcondition, hjoins⟩ := Setting.plain_of_compile hc
    exact ⟨c, hc, (Compiled.plain_selection hcondition hjoins names).binds _⟩

/-- Names and paths may hold any marks: they are read as quoted, and the three
placeholders are the condition's own. -/
theorem statements_bind_in_order_doubled_marks :
    (Expr.clause .postgres (.logical .and
      [.binary (.column "t" "a$1?") .eq (.value (.int 5)),
        .binary (.jsonValue "x" (some "k'")) .eq (.value (.bool true))])).Binds .postgres
      [.value (.int 5), .memberKey "k'", .value (.bool true)] :=
  statements_bind_in_order.1 .postgres _ (by
    simp only [Expr.verbatim, Expr.listVerbatim]
    decide)

/-- Arguments behind a star are not bound: not every value in an expression is a
parameter. -/
theorem starred_argument_not_bound :
    ¬ ∀ (d : Dialect) (e : Expr), (∀ text ∈ e.verbatim, Unmarked text) →
      (e.clause d).Binds d (e.items d true) := by
  intro h
  have hcount := h .postgres (.call "COUNT" [.value (.int 1)] true) (by
    simp only [Expr.verbatim, Expr.listVerbatim]
    decide)
  have hparams : ([] : List Value) = [Value.int 1] := hcount.params_eq
  cases hparams

end RowFilter
