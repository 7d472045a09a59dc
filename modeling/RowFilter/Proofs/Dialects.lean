import RowFilter.Proofs.Acceptance
import RowFilter.Proofs.Choices
import RowFilter.Proofs.Verbatim

/-!
# One query in two dialects

What is compiled does not depend on the dialect, and the statements written from it
bind almost the same parameters.  A test of a JSON document on its own binds its
path, which one of the dialects cannot do; tests that share an element bind the
keys of its members, which the dialects write differently.

* `Carries`: the forms of compiled conditions, with what each of them binds.
* `dialects_bind_alike`: both dialects bind what the condition carries.
-/

namespace RowFilter

open Sql (Dialect Expr Item Join Select)

/-- The setting with another dialect. -/
def Setting.inDialect (s : Setting) (d : Dialect) : Setting :=
  { s with options := { s.options with dialect := d } }

/-- The dialect does not matter to what is compiled. -/
theorem Setting.compile_inDialect
    (s : Setting) (d : Dialect) (collection : String) (filter : Json) :
    (s.inDialect d).compile collection filter = s.compile collection filter := by
  have hconcurs (exacting : Bool) : (s.inDialect d).Concurs s exacting := ⟨rfl, .inl rfl⟩
  exact compile_eq_of_concurs (s := s.inDialect d) (t := s) rfl rfl (fun _ _ => hconcurs _)
    collection

/-- The parameter that an item becomes in a dialect.  Keys of members are escaped
in one of them, and there paths are no parameters. -/
def Sql.Item.param? : Dialect → Item → Option Value
  | _, .value v => some v
  | .postgres, .memberKey key => some (.str key)
  | .mysql, .memberKey key => some (.str (Sql.escapedMember key))
  | .postgres, .path text => some (.str text)
  | .mysql, .path _ => none

/-- A dialect binds an item. -/
def Sql.Item.isBoundBy (d : Dialect) : Item → Bool
  | .value _ => true
  | .memberKey _ => true
  | .path _ => d == .postgres

/-- A join compares two columns. -/
def Sql.Join.IsPlanned (join : Join) : Prop :=
  ∃ related label primary parent field, join = JoinPlan.joinOf related label primary parent field

/-- All joins of the plan do. -/
def JoinPlan.IsConnected (plan : JoinPlan) : Prop :=
  ∀ join ∈ plan.joins, join.IsPlanned

/-- The criterion looks at what it is put on. -/
def Criterion.compares : Criterion → Bool
  | .never => false
  | .always => false
  | _ => true

/-- What a test of the member `key` of a shared element binds. -/
def memberItems (key : String) (c : Criterion) : List Item :=
  (if c.compares then [.memberKey key] else []) ++ c.casted.values.map .value

/-- The forms of compiled conditions, with what they bind from left to right. -/
inductive Carries : Expr → List Item → Prop
  /-- A condition without JSON rows binds values. -/
  | plain {e : Expr} {values : List Value}
      (h : ∀ d, e.items d false = values.map .value) :
      Carries e (values.map .value)
  /-- A test of a document on its own binds its path and the values that it compares with. -/
  | alone {t : DocumentTest} {c : Criterion} {label : String} {condition : Expr}
      (hcriterion : t.operator.criterion t.operand = .ok c)
      (hcondition : DocumentTest.condition? label none c = some condition) :
      Carries
        (DocumentTest.existsMatch t.column (.bound (JsonPath.text t.path false)) label condition)
        (.path (JsonPath.text t.path false) :: c.casted.values.map .value)
  /-- Tests that share an element bind the keys of its members, each before the values that
  the member is compared with. -/
  | together {first : DocumentTest} {others : List DocumentTest}
      {asked : List (String × Criterion)} {label : String} {condition : Expr}
      (hasked : DocumentTest.criteria (first :: others) = .ok asked)
      (hcondition : Expr.group? .and (asked.filterMap fun (key, c) =>
        DocumentTest.condition? label (some key) c) = some condition) :
      Carries
        (DocumentTest.existsMatch first.column (.inline first.elementPath) label condition)
        (asked.flatMap fun (key, c) => memberItems key c)
  /-- A query binds what its condition does, and the name of the collection that its rows
  point to. -/
  | among {probe : Probe} {label : String} {joins : List Join} {condition : Option Expr}
      {items : List Item} (negated : Bool)
      (hkey : ∃ qualifier field, probe.key = .column qualifier field)
      (hjoins : ∀ join ∈ joins, join.IsPlanned)
      (hnone : condition = none → items = [])
      (hcondition : ∀ e ∈ condition, Carries e items) :
      Carries ((probe.inquiry label joins).predicate probe.key negated condition)
        (items ++ probe.discriminator.toList.map fun d => .value (.str d.2))
  | group {operands : List (Expr × List Item)} (op : Sql.Connective)
      (hoperands : ∀ x ∈ operands, Carries x.1 x.2) :
      Carries (.logical op (operands.map Prod.fst)) (operands.flatMap Prod.snd)

/-- What a condition binds, if there is one. -/
structure CarriesIfAny (condition : Option Expr) (items : List Item) : Prop where
  none : condition = none → items = []
  some : ∀ e ∈ condition, Carries e items

/-- The condition has one of the forms, if there is one. -/
def Carrying (condition : Option Expr) : Prop :=
  ∃ items, CarriesIfAny condition items

theorem carrying_none :
    Carrying none :=
  ⟨[], fun _ => rfl, by rintro e ⟨⟩⟩

theorem Carries.carrying
    {e : Expr} {items : List Item}
    (h : Carries e items) :
    Carrying (some e) :=
  ⟨items, by rintro ⟨⟩, by rintro e ⟨⟩; exact h⟩

theorem carrying_group?
    {operands : List Expr}
    (op : Sql.Connective) (h : ∀ e ∈ operands, Carrying (some e)) :
    Carrying (Expr.group? op operands) := by
  match operands, h with
  | [], _ => exact carrying_none
  | [e], h => exact h e List.mem_cons_self
  | e :: second :: rest, h =>
      have hpairs : ∀ es : List Expr, (∀ e ∈ es, Carrying (some e)) →
          ∃ pairs : List (Expr × List Item),
            pairs.map Prod.fst = es ∧ ∀ x ∈ pairs, Carries x.1 x.2 := by
        intro es hes
        induction es with
        | nil => exact ⟨[], rfl, by simp⟩
        | cons e rest ih =>
            obtain ⟨⟨items, hitems⟩, hrest⟩ := List.forall_mem_cons.1 hes
            obtain ⟨pairs, hfst, hpairs⟩ := ih hrest
            refine ⟨(e, items) :: pairs, by rw [List.map_cons, hfst], ?_⟩
            exact List.forall_mem_cons.2 ⟨hitems.some e rfl, hpairs⟩
      obtain ⟨pairs, hfst, hpairs⟩ := hpairs _ h
      rw [Expr.group?, ← hfst]
      · exact (Carries.group op hpairs).carrying
      all_goals simp

/-! ## What the forms bind -/

section Items

variable (d : Dialect)

theorem Sql.Expr.optionItems_group?
    (op : Sql.Connective) (operands : List Expr) :
    Expr.optionItems d false (Expr.group? op operands) =
      operands.flatMap (Expr.items d false) := by
  rcases operands with _ | ⟨e, _ | ⟨second, rest⟩⟩
  · rfl
  · simp [Expr.group?, Expr.optionItems]
  · simp [Expr.group?, Expr.optionItems, Expr.items, Sql.Expr.listItems_eq]

theorem Criterion.items_apply
    {c : Criterion} {target e : Expr}
    (h : c.apply target = some e) :
    e.items d false =
      (if c.compares then target.items d false else []) ++ c.values.map .value := by
  have hlist (vs : List Value) :
      Expr.listItems d false (vs.map .value) = vs.map .value := by
    induction vs with
    | nil => rfl
    | cons v rest ih => simp [Expr.listItems, Expr.items, ih]
  cases c with
  | always => cases h
  | like pattern negated caseless =>
      cases h
      cases caseless <;> simp [Expr.items, Expr.listItems, Criterion.compares, Criterion.values]
  | inList vs negated =>
      cases h
      simp [Expr.items, hlist, Criterion.compares, Criterion.values]
  | _ =>
      cases h
      simp [Expr.items, Criterion.compares, Criterion.values]

theorem Criterion.compares_casted
    (c : Criterion) :
    c.casted.compares = c.compares := by
  unfold Criterion.casted
  split <;> cases c <;> rfl

theorem DocumentTest.items_existsMatch
    (qualifier field : String) (path : Sql.PathArg) (label : String) (condition : Expr) :
    (existsMatch (.column qualifier field) path label condition).items d false =
      path.items d ++ condition.items d false := by
  simp [existsMatch, Expr.items, Select.of, Select.filter, Select.items, Expr.listItems,
    Sql.RowSource.optionItems, Sql.RowSource.items, Join.listItems, Expr.optionItems,
    Expr.column]

theorem DocumentTest.items_condition?
    {label : String} {key : Option String} {c : Criterion} {condition : Expr}
    (h : condition? label key c = some condition) :
    condition.items d false =
      (if c.compares then key.toList.map .memberKey else []) ++ c.casted.values.map .value := by
  rw [Criterion.items_apply d h, Criterion.compares_casted]
  cases key <;> simp [Expr.items]

/-- Planned joins bind nothing. -/
theorem Sql.Join.listItems_of_isPlanned
    {joins : List Join}
    (h : ∀ join ∈ joins, join.IsPlanned) :
    Join.listItems d false joins = [] := by
  rw [Sql.Join.listItems_eq, List.flatMap_eq_nil_iff]
  intro join hjoin
  obtain ⟨related, label, primary, parent, field, rfl⟩ := h join hjoin
  rfl

theorem Probe.items_meeting
    (probe : Probe) (label : String) {joins : List Join} (condition : Option Expr)
    (hjoins : ∀ join ∈ joins, join.IsPlanned) :
    ((probe.inquiry label joins).meeting condition).items d false =
      Expr.optionItems d false condition ++
        probe.discriminator.toList.map fun d => .value (.str d.2) := by
  have hcondition : condition.toList.flatMap (Expr.items d false) =
      Expr.optionItems d false condition := by
    cases condition <;> simp [Expr.optionItems]
  have hdiscriminator :
      (probe.discriminator.map (Link.discriminates label)).toList.flatMap (Expr.items d false) =
        probe.discriminator.toList.map fun d => .value (.str d.2) := by
    cases probe.discriminator <;> simp [Link.discriminates, Expr.items, Expr.column]
  rw [Probe.meeting_eq, Select.items, Sql.Join.listItems_of_isPlanned d hjoins,
    Sql.Expr.optionItems_group?, List.flatMap_append,
    hcondition, hdiscriminator]
  rfl

/-- Every dialect binds values. -/
theorem Sql.Item.filter_values
    (values : List Value) :
    (values.map Item.value).filter (Item.isBoundBy d) = values.map .value := by
  rw [List.filter_eq_self]
  intro item hitem
  obtain ⟨v, -, rfl⟩ := List.mem_map.1 hitem
  rfl

theorem memberItems_filter
    (key : String) (c : Criterion) :
    (memberItems key c).filter (Item.isBoundBy d) = memberItems key c := by
  rw [memberItems, List.filter_append, Item.filter_values]
  split <;> rfl

/-- What a test of the member of a shared element binds. -/
theorem items_toList_condition?
    (label key : String) (c : Criterion) :
    (DocumentTest.condition? label (some key) c).toList.flatMap (Expr.items d false) =
      memberItems key c := by
  cases hcondition : DocumentTest.condition? label (some key) c with
  | none =>
      have halways : c.casted.isAlways = true := (Criterion.apply_eq_none_iff _ _).1 hcondition
      rw [Criterion.isAlways_casted] at halways
      cases c with
      | always => rfl
      | _ => cases halways
  | some condition =>
      rw [Option.toList_some, List.flatMap_singleton, DocumentTest.items_condition? d hcondition]
      rfl

/-- What the tests of a shared element bind, one after the other. -/
theorem items_filterMap_condition?
    (label : String) (asked : List (String × Criterion)) :
    (asked.filterMap fun (key, c) => DocumentTest.condition? label (some key) c).flatMap
        (Expr.items d false) =
      asked.flatMap fun (key, c) => memberItems key c := by
  induction asked with
  | nil => rfl
  | cons x rest ih =>
      obtain ⟨key, c⟩ := x
      rw [List.flatMap_cons, ← ih]
      change _ = memberItems key c ++ _
      rw [← items_toList_condition? d label]
      cases hcondition : DocumentTest.condition? label (some key) c with
      | none => simp [hcondition]
      | some e => simp [hcondition]

/-- A form binds its items, up to paths where the dialect takes none. -/
theorem Carries.items_eq
    {e : Expr} {items : List Item}
    (h : Carries e items) :
    e.items d false = items.filter (Item.isBoundBy d) := by
  induction h with
  | plain hitems =>
      rw [hitems, Item.filter_values]
  | @alone t c label condition hcriterion hcondition =>
      rw [DocumentTest.column, DocumentTest.items_existsMatch,
        DocumentTest.items_condition? d hcondition, List.filter_cons, Item.filter_values]
      cases d <;> simp [Sql.PathArg.items, Item.isBoundBy]
  | @together first others asked label condition hasked hcondition =>
      have hitems : condition.items d false =
          (asked.filterMap fun (key, c) => DocumentTest.condition? label (some key) c).flatMap
            (Expr.items d false) := by
        rw [← Sql.Expr.optionItems_group? d .and, hcondition, Expr.optionItems]
      have hinline : (Sql.PathArg.inline first.elementPath).items d = [] := by
        cases d <;> rfl
      rw [DocumentTest.column, DocumentTest.items_existsMatch, hitems, hinline, List.nil_append,
        items_filterMap_condition?, List.filter_flatMap]
      exact List.flatMap_congr fun x _ => (memberItems_filter d x.1 x.2).symm
  | @among probe label joins condition items negated hkey hjoins hnone hcondition ih =>
      obtain ⟨qualifier, field, hkey⟩ := hkey
      have hinner : Expr.optionItems d false condition = items.filter (Item.isBoundBy d) := by
        cases condition with
        | none => rw [hnone rfl]; rfl
        | some e => exact ih e rfl
      rw [Inquiry.predicate, Expr.items, hkey, Expr.column, Expr.items, List.nil_append,
        Probe.items_meeting d probe label condition hjoins, List.filter_append, hinner]
      cases probe.discriminator <;> rfl
  | @group operands op hoperands ih =>
      rw [Expr.items, Sql.Expr.listItems_eq, List.flatMap_map, List.filter_flatMap]
      exact List.flatMap_congr ih

end Items

theorem CarriesIfAny.items_eq
    {condition : Option Expr} {items : List Item}
    (h : CarriesIfAny condition items) (d : Dialect) :
    Expr.optionItems d false condition = items.filter (Item.isBoundBy d) := by
  cases condition with
  | none => rw [h.none rfl]; rfl
  | some e => exact (h.some e rfl).items_eq d

/-- The items that a dialect binds, as parameters. -/
theorem Sql.Item.map_param_filter
    (d : Dialect) (items : List Item) :
    (items.filter (Item.isBoundBy d)).map (Item.param d) = items.filterMap (Item.param? d) := by
  induction items with
  | nil => rfl
  | cons item rest ih =>
      rw [List.filter_cons, List.filterMap_cons, ← ih]
      cases d <;> cases item <;> rfl

/-! ## Compiled conditions have these forms -/

theorem JoinPlan.staysConnected_connect
    (schema : Schema) (path : List Segment) (parent : String) (relation : Relation) :
    Attempt.Ensures (fun t => t.plan.IsConnected) (connect schema path parent relation)
      fun _ t => t.plan.IsConnected := by
  unfold connect
  refine Attempt.Ensures.bind (R := fun _ t => t.plan.IsConnected)
    (Attempt.ensures_state fun _ h => h) fun seen => ?_
  split
  · exact Attempt.ensures_pure fun _ h => h
  · refine Attempt.Ensures.bind (Attempt.ensures_ofExcept fun _ _ h _ => h) fun related => ?_
    split
    · exact Attempt.ensures_fail _
    · refine Attempt.ensures_ofState fun t h join hjoin => ?_
      rcases List.mem_append.1 hjoin with hjoin | hjoin
      · exact h join hjoin
      · rw [List.mem_singleton.1 hjoin]
        exact ⟨_, _, _, _, _, rfl⟩

namespace Compiling

variable {α β : Type} {Q : α → Prop} {R : β → Prop}

/-- From a plan whose joins compare columns the step leads to such a plan, and its result
meets `Q`. -/
def StaysConnected (x : Compiling α) (Q : α → Prop) : Prop :=
  Attempt.Ensures (fun p => p.plan.IsConnected) x fun a p => p.plan.IsConnected ∧ Q a

theorem StaysConnected.bind
    {x : Compiling α} {f : α → Compiling β}
    (hx : StaysConnected x Q) (hf : ∀ a, Q a → StaysConnected (f a) R) :
    StaysConnected (x >>= f) R :=
  Attempt.Ensures.bind hx fun a p hp => hf a hp.2 p hp.1

theorem staysConnected_pure
    {a : α}
    (h : Q a) :
    StaysConnected (pure a) Q :=
  Attempt.ensures_pure fun _ hp => ⟨hp, h⟩

theorem staysConnected_ofExcept
    {result : Except QueryError α}
    (h : ∀ a, result = .ok a → Q a) :
    StaysConnected (Attempt.ofExcept result) Q :=
  Attempt.ensures_ofExcept fun _ a hp ha => ⟨hp, h a ha⟩

/-- A step that gives out labels and does nothing else to the state. -/
theorem LabelsOnly.staysConnected
    {x : Compiling α}
    (h : LabelsOnly x) (hgives : x.Gives Q) :
    StaysConnected x Q := by
  intro p hp a q hrun
  have hplan : q.plan = p.plan := by
    have hkeeps := h.keeps p.plan p rfl
    rwa [hrun] at hkeeps
  exact ⟨by rwa [hplan], hgives p a q hrun⟩

theorem staysConnected_locate
    (schema : Schema) (path : List Segment) :
    StaysConnected (locate schema path) fun _ => True := by
  have hfollow : ∀ (path before : List Segment) (qualifier collection : String),
      Attempt.Ensures (fun t => t.plan.IsConnected)
        (JoinPlan.follow schema before qualifier collection path)
        fun _ t => t.plan.IsConnected := by
    intro path
    induction path with
    | nil =>
        intro before qualifier collection
        exact Attempt.ensures_fail _
    | cons segment rest ih =>
        intro before qualifier collection
        unfold JoinPlan.follow
        refine Attempt.Ensures.bind (Attempt.ensures_ofExcept fun _ _ h _ => h) fun step => ?_
        split
        · exact Attempt.ensures_pure fun _ h => h
        · refine Attempt.Ensures.bind (JoinPlan.staysConnected_connect _ _ _ _) fun _ => ?_
          refine Attempt.Ensures.bind (Attempt.ensures_ofExcept fun _ _ h _ => h) fun _ => ?_
          exact ih _ _ _
  refine Attempt.ensures_focus fun p hp => ?_
  unfold JoinPlan.locate
  refine Attempt.Ensures.bind (Attempt.ensures_state ?_) fun seen => (hfollow _ _ _ _).mono ?_
  · rintro t rfl
    exact hp
  · exact fun _ t ht => ⟨ht, trivial⟩

/-- The joins of a query that is entered compare columns. -/
theorem staysConnected_enter
    {step : Compiling α}
    (h : StaysConnected step Q) (schema : Schema) (probe : Probe) :
    StaysConnected (probe.enter schema step) fun x => Q x.1 ∧ ∃ label joins,
      (∀ join ∈ joins, join.IsPlanned) ∧ x.2 = probe.inquiry label joins := by
  unfold Probe.enter
  refine (staysConnected_ofExcept (Q := fun _ => True) fun _ _ => trivial).bind fun _ _ => ?_
  refine ((labelsOnly_label _).staysConnected (Q := fun _ => True)
    fun _ _ _ _ => trivial).bind fun label _ => ?_
  refine StaysConnected.bind
    (Q := fun x => Q x.1 ∧ ∀ join ∈ x.2, Sql.Join.IsPlanned join) ?_ fun x hx => ?_
  · refine ensures_inQuery fun p hp => ?_
    refine (h.weaken ?_).mono fun a q hq => ⟨hp, hq.2, hq.1⟩
    rintro q rfl
    simp [JoinPlan.IsConnected, Progress.inside, JoinPlan.start]
  · exact staysConnected_pure ⟨hx.1, label, x.2, hx.2, rfl⟩

mutual

theorem staysConnected_planJoins
    (s : Setting) :
    ∀ filter : Filter, StaysConnected (planJoins s filter) fun _ => True
  | .and children => by
      rw [planJoins]
      exact staysConnected_planAllJoins s children
  | .or children => by
      rw [planJoins]
      split
      · exact staysConnected_pure trivial
      · exact staysConnected_planAllJoins s children
  | .compare _ path _ _ => by
      rw [planJoins]
      exact (staysConnected_locate _ _).bind fun _ _ => staysConnected_pure trivial
  | .quantify _ field _ _ => by
      rw [planJoins]
      exact (staysConnected_locate _ _).bind fun _ _ => staysConnected_pure trivial

theorem staysConnected_planAllJoins
    (s : Setting) :
    ∀ filters : List Filter, StaysConnected (planAllJoins s filters) fun _ => True
  | [] => by
      rw [planAllJoins]
      exact staysConnected_pure trivial
  | child :: rest => by
      rw [planAllJoins]
      exact (staysConnected_planJoins s child).bind fun _ _ => staysConnected_planAllJoins s rest

end

end Compiling

/-! ### Conditions -/

theorem Place.items_compared
    (d : Dialect) (place : Place) :
    place.compared.items d false = [] := by
  unfold Place.compared
  split <;> rfl

theorem Link.items_countRows
    {link : Link}
    (hkey : ∃ qualifier field, link.parentKey = .column qualifier field) (label : String) :
    ∃ values : List Value, ∀ d, (link.countRows label).items d false = values.map .value := by
  obtain ⟨qualifier, field, hkey⟩ := hkey
  refine ⟨link.discriminator.toList.map fun d => .str d.2, fun d => ?_⟩
  unfold Link.countRows
  cases link.discriminator with
  | none => simp only [hkey]; rfl
  | some pair => simp only [hkey]; rfl

theorem carrying_apply
    {target : Expr} {values : List Value}
    (htarget : ∀ d, target.items d false = values.map .value) (c : Criterion) :
    Carrying (c.apply target) := by
  cases he : c.apply target with
  | none => exact carrying_none
  | some e =>
      have hplain (d : Dialect) : e.items d false =
          ((if c.compares then values else []) ++ c.values).map .value := by
        rw [Criterion.items_apply d he, htarget]
        by_cases hcompares : c.compares = true
        · rw [if_pos hcompares, if_pos hcompares, List.map_append]
        · rw [if_neg hcompares, if_neg hcompares, List.map_append, List.map_nil]
      exact (Carries.plain hplain).carrying

theorem carrying_condition
    {place : Place} {relation : Option Relation} {c : Comparison} {operand : Json}
    {condition : Option Expr}
    (h : place.condition relation c operand = .ok condition) :
    Carrying condition := by
  obtain ⟨_, _, h⟩ := exists_of_bind_ok h
  obtain ⟨criterion, _, h⟩ := exists_of_bind_ok h
  cases h
  have hcompared (d : Dialect) : place.compared.items d false = ([] : List Value).map .value :=
    place.items_compared d
  exact carrying_apply hcompared criterion

theorem gives_carrying_alone
    (t : DocumentTest) :
    t.alone.Gives Carrying := by
  unfold DocumentTest.alone
  refine Attempt.Gives.bind (Q := fun c => t.operator.criterion t.operand = .ok c)
    (Attempt.gives_ofExcept fun _ h => h) fun c hc => ?_
  split
  · exact Attempt.gives_pure carrying_none
  · refine Attempt.gives_after fun rows => Attempt.gives_pure ?_
    cases hcondition : DocumentTest.condition? rows.label none c with
    | none => exact carrying_none
    | some condition => exact (Carries.alone hc hcondition).carrying

theorem gives_carrying_together
    (tests : List DocumentTest) :
    (DocumentTest.together tests).Gives Carrying := by
  cases tests with
  | nil => exact Attempt.gives_fail _
  | cons first others =>
      unfold DocumentTest.together
      refine Attempt.Gives.bind
        (Q := fun asked => DocumentTest.criteria (first :: others) = .ok asked)
        (Attempt.gives_ofExcept fun _ h => h) fun asked hasked => ?_
      split
      · exact Attempt.gives_pure carrying_none
      · refine Attempt.gives_after fun rows => Attempt.gives_pure ?_
        cases hcondition : Expr.group? .and (asked.filterMap fun (key, c) =>
            DocumentTest.condition? rows.label (some key) c) with
        | none => exact carrying_none
        | some condition => exact (Carries.together hasked hcondition).carrying

theorem gives_carrying_arrival
    (schema : Schema) (id : Nat) (c : Comparison) (operand : Json) (destination : Destination) :
    (arrivalCondition schema id c operand destination).Gives Carrying := by
  cases destination with
  | column place relation => exact Attempt.gives_ofExcept fun _ => carrying_condition
  | json place rest =>
      cases rest with
      | nil => exact Attempt.gives_ofExcept fun _ => carrying_condition
      | cons s rest => exact Attempt.gives_after fun _ => (gives_carrying_alone _).focus _ _
  | toMany place relation scope rest =>
      refine Attempt.Gives.bind
        (Q := fun link => ∃ qualifier field, link.parentKey = .column qualifier field)
        (Attempt.gives_ofExcept fun link hlink => ?_) fun link hkey => ?_
      · obtain ⟨primary, -, hkey⟩ := (Link.made_of_ok hlink).parentKey
        exact ⟨_, _, hkey⟩
      · unfold Link.countCondition
        refine Attempt.gives_after fun _ => Attempt.gives_after fun _ => ?_
        refine Attempt.gives_after fun label => Attempt.gives_after fun criterion => ?_
        obtain ⟨values, hvalues⟩ := Link.items_countRows hkey label
        exact Attempt.gives_pure (carrying_apply hvalues criterion)

/-! ### Accounts -/

theorem Carrying.of_mem
    {condition : Option Expr}
    (h : Carrying condition) :
    ∀ e ∈ condition, Carrying (some e) := by
  rintro e rfl
  exact h

/-- A condition on the rows of a query. -/
theorem carrying_predicate
    {probe : Probe} {inquiry : Inquiry} {condition : Option Expr}
    (hkey : ∃ qualifier field, probe.key = .column qualifier field) (negated : Bool)
    (h : Carrying condition ∧ ∃ label joins,
      (∀ join ∈ joins, join.IsPlanned) ∧ inquiry = probe.inquiry label joins) :
    Carrying (some (inquiry.predicate probe.key negated condition)) := by
  obtain ⟨⟨items, hitems⟩, label, joins, hjoins, rfl⟩ := h
  exact (Carries.among negated hkey hjoins hitems.none hitems.some).carrying

section Accounts

open Compiling

/-- The conditions of the folds have one of the forms. -/
def FoldsCarrying (folds : List Fold) : Prop :=
  ∀ fold ∈ folds, Carrying fold.shared

theorem gives_carrying_makeFolds :
    ∀ groups : List (List DocumentTest), (makeFolds groups).Gives FoldsCarrying
  | [] => Attempt.gives_pure (by simp [FoldsCarrying])
  | members :: rest => by
      rw [makeFolds]
      refine ((gives_carrying_together members).focus _ _).bind fun shared hshared => ?_
      refine (gives_carrying_makeFolds rest).bind fun folds hfolds => Attempt.gives_pure ?_
      exact List.forall_mem_cons.2 ⟨hshared, hfolds⟩

theorem staysConnected_foldsWithin
    (schema : Schema) (children : List Filter) {within : Option (List Fold)}
    (h : ∀ folds ∈ within, FoldsCarrying folds) :
    StaysConnected (foldsWithin schema children within) FoldsCarrying := by
  cases within with
  | some folds => exact staysConnected_pure (h folds rfl)
  | none =>
      rw [foldsWithin, closureFolds]
      refine Attempt.Ensures.bind (R := fun _ p => p.plan.IsConnected)
        (Attempt.ensures_state fun _ hp => hp) fun seen => ?_
      refine (staysConnected_ofExcept (Q := fun _ => True) fun _ _ => trivial).bind fun _ _ => ?_
      exact (labelsOnly_makeFolds _).staysConnected (gives_carrying_makeFolds _)

theorem staysConnected_comparisonAccount
    (schema : Schema) (id : Nat) (c : Comparison) (operand : Json) :
    ∀ (limit : Nat) (path : List Segment),
      StaysConnected (comparisonAccount schema id c operand limit path)
        fun a => Carrying a.condition := by
  intro limit
  induction limit with
  | zero =>
      intro path
      exact Attempt.ensures_fail _
  | succ limit ih =>
      intro path
      rw [comparisonAccount]
      refine (staysConnected_locate schema path).bind fun destination _ => ?_
      split
      · refine (staysConnected_ofExcept fun _ h => h).bind fun link hlink => ?_
        obtain ⟨primary, -, hkey⟩ := (Link.made_of_ok hlink).parentKey
        refine (staysConnected_enter (Q := fun a => Carrying a.condition) ?_ schema
          link.probe).bind fun x hx => staysConnected_pure ?_
        · exact (staysConnected_locate _ _).bind fun _ _ => ih _
        · rw [Account.condition]
          have hprobe : ∃ qualifier field, link.probe.key = .column qualifier field := ⟨_, _, hkey⟩
          exact carrying_predicate hprobe false hx
      · refine ((labelsOnly_arrivalCondition _ _ _ _ _).staysConnected
          (gives_carrying_arrival _ _ _ _ _)).bind fun condition hcondition => ?_
        refine staysConnected_pure ?_
        rwa [Account.condition]

theorem staysConnected_quantifierProbe
    (schema : Schema) (field : Segment) (q : Quantifier) :
    StaysConnected (quantifierProbe schema field q)
      fun probe => ∃ qualifier field, probe.key = .column qualifier field := by
  unfold quantifierProbe
  refine (staysConnected_locate schema [field]).bind fun destination _ => ?_
  split
  · refine (staysConnected_ofExcept fun _ h => h).bind fun link hlink => ?_
    obtain ⟨primary, -, hkey⟩ := (Link.made_of_ok hlink).parentKey
    refine (staysConnected_ofExcept (Q := fun _ => True) fun _ _ => trivial).bind fun _ _ => ?_
    exact staysConnected_pure ⟨_, _, hkey⟩
  · refine (staysConnected_ofExcept (Q := fun _ => True) fun _ _ => trivial).bind fun _ _ => ?_
    split
    · exact Attempt.ensures_fail _
    · refine (staysConnected_ofExcept (Q := fun _ => True) fun _ _ => trivial).bind fun _ _ => ?_
      refine (staysConnected_ofExcept (Q := fun _ => True) fun _ _ => trivial).bind fun _ _ => ?_
      exact staysConnected_pure ⟨_, _, rfl⟩

mutual

/-- The condition of every account has one of the forms. -/
theorem staysConnected_account
    (s : Setting) :
    ∀ (filter : Filter) {within : Option (List Fold)},
      (∀ folds ∈ within, FoldsCarrying folds) →
      StaysConnected (account s within filter) fun a => Carrying a.condition
  | .and children, within, hwithin => by
      rw [account]
      refine (staysConnected_foldsWithin s.schema children hwithin).bind fun folds hfolds => ?_
      refine (staysConnected_accounts s children hfolds).bind fun as has => ?_
      refine staysConnected_pure ?_
      rw [Account.condition]
      exact carrying_group? .and (Account.forall_conditions fun a ha => (has a ha).of_mem)
  | .or children, within, hwithin => by
      rw [account]
      split
      · rename_i hall
        have hne : children ≠ [] := by
          rintro rfl
          cases hall
        refine staysConnected_pure ?_
        rw [Account.condition, alternatives?_unbuilt hne]
        exact carrying_none
      · refine (staysConnected_alternativeAccounts s children).bind fun as has => ?_
        refine staysConnected_pure ?_
        rw [Account.condition]
        cases hes : Account.alternatives? as with
        | none => exact carrying_none
        | some es =>
            exact carrying_group? .or
              (Account.forall_alternatives (fun a ha => (has a ha).of_mem) hes)
  | .compare id path c operand, within, hwithin => by
      rw [account]
      split
      · rename_i fold hfold
        refine staysConnected_pure ?_
        obtain ⟨folds, hfolds, hfold⟩ := Option.bind_eq_some_iff.1 hfold
        rw [Account.condition, Fold.standing]
        split
        · exact hwithin folds hfolds fold (List.mem_of_find?_eq_some hfold)
        · exact carrying_none
      · exact staysConnected_comparisonAccount s.schema id c operand path.length path
  | .quantify id field q inner, within, hwithin => by
      rw [account]
      refine (staysConnected_quantifierProbe s.schema field q).bind fun probe hkey => ?_
      refine (staysConnected_enter (Q := fun a => Carrying a.condition) ?_ s.schema
        probe).bind fun x hx => staysConnected_pure ?_
      · refine (staysConnected_planJoins s inner).bind fun _ _ => ?_
        exact staysConnected_account s inner (by rintro folds ⟨⟩)
      · rw [Account.condition]
        exact carrying_predicate hkey (q == .none) hx

theorem staysConnected_accounts
    (s : Setting) :
    ∀ (filters : List Filter) {folds : List Fold}, FoldsCarrying folds →
      StaysConnected (accounts s folds filters) fun as => ∀ a ∈ as, Carrying a.condition
  | [], folds, _ => by
      rw [accounts]
      exact staysConnected_pure (by simp)
  | child :: rest, folds, hfolds => by
      rw [accounts]
      refine (staysConnected_account s child (by rintro _ ⟨⟩; exact hfolds)).bind fun a ha => ?_
      refine (staysConnected_accounts s rest hfolds).bind fun as has => staysConnected_pure ?_
      exact List.forall_mem_cons.2 ⟨ha, has⟩

theorem staysConnected_alternativeAccounts
    (s : Setting) :
    ∀ filters : List Filter,
      StaysConnected (alternativeAccounts s filters) fun as => ∀ a ∈ as, Carrying a.condition
  | [] => by
      rw [alternativeAccounts]
      exact staysConnected_pure (by simp)
  | child :: rest => by
      rw [alternativeAccounts]
      refine (staysConnected_account s child (by rintro folds ⟨⟩)).bind fun a ha => ?_
      split
      · refine staysConnected_pure (List.forall_mem_cons.2 ⟨ha, fun b hb => ?_⟩)
        obtain ⟨f, -, rfl⟩ := List.mem_map.1 hb
        rw [Account.condition]
        exact carrying_none
      · refine (staysConnected_alternativeAccounts s rest).bind fun as has => ?_
        exact staysConnected_pure (List.forall_mem_cons.2 ⟨ha, has⟩)

end

end Accounts

/-- A compiled condition has one of the forms, and its joins compare columns. -/
theorem carrying_of_compile
    {s : Setting} {collection : String} {filter : Json} {c : Compiled}
    (h : s.compile collection filter = .ok c) :
    Carrying c.condition ∧ ∀ join ∈ c.joins, join.IsPlanned := by
  obtain ⟨tree, a, p, -, hrun, -, rfl⟩ := account_of_compile h
  have haccount : Compiling.StaysConnected (s.account tree) fun a => Carrying a.condition :=
    (Compiling.staysConnected_planJoins s tree).bind fun _ _ =>
      staysConnected_account s tree (by rintro folds ⟨⟩)
  have hstart : (Progress.start collection).plan.IsConnected := by
    simp [JoinPlan.IsConnected, Progress.start, JoinPlan.start]
  obtain ⟨hjoins, hcondition⟩ := haccount _ hstart a p hrun
  exact ⟨hcondition, hjoins⟩

/-- What the condition of a compiled filter binds, where paths can be bound. -/
def Compiled.items (c : Compiled) : List Item :=
  Expr.optionItems .postgres false c.condition

theorem carries_items_of_compile
    {s : Setting} {collection : String} {filter : Json} {c : Compiled}
    (h : s.compile collection filter = .ok c) :
    CarriesIfAny c.condition c.items := by
  obtain ⟨⟨items, hitems⟩, -⟩ := carrying_of_compile h
  have hall : items.filter (Item.isBoundBy .postgres) = items :=
    List.filter_eq_self.2 fun item _ => by cases item <;> rfl
  rwa [Compiled.items, hitems.items_eq .postgres, hall]

/-- The parameters of a compiled condition. -/
theorem Compiled.params_clause
    {c : Compiled}
    (h : CarriesIfAny c.condition c.items) (d : Dialect) :
    (c.clause d).params = c.items.filterMap (Item.param? d) := by
  rw [← Item.map_param_filter, ← h.items_eq d]
  unfold Compiled.clause
  cases c.condition with
  | none => rfl
  | some e => exact Sql.Expr.params_eq d e

/-- The columns and the joins of a selection bind nothing. -/
theorem Compiled.items_selection
    {c : Compiled}
    (hjoins : ∀ join ∈ c.joins, join.IsPlanned) (names : List String) (d : Dialect) :
    (c.selection names).items d false = Expr.optionItems d false c.condition := by
  have hcolumns : Expr.listItems d false (c.columns names) = [] := by
    rw [Sql.Expr.listItems_eq, List.flatMap_eq_nil_iff]
    intro e he
    cases names with
    | nil => rw [List.mem_singleton.1 he]; rfl
    | cons name rest =>
        obtain ⟨_, -, rfl⟩ := List.mem_map.1 he
        rfl
  have hselection : c.selection names =
      ⟨c.columns names, some (.table { name := c.collection } none), c.joins, c.condition⟩ := by
    simp [Compiled.selection, Select.of, Select.join, Select.filter]
  rw [hselection, Select.items, hcolumns, Sql.Join.listItems_of_isPlanned d hjoins]
  rfl

/-- The parameters of a selection are those of the condition. -/
theorem Compiled.params_selection
    {c : Compiled}
    (h : CarriesIfAny c.condition c.items) (hjoins : ∀ join ∈ c.joins, join.IsPlanned)
    (names : List String) (d : Dialect) :
    ((c.selection names).clause d).params = c.items.filterMap (Item.param? d) := by
  rw [← Item.map_param_filter, ← h.items_eq d, ← Compiled.items_selection hjoins names d]
  exact Sql.Select.params_eq d _

/-- **One query in two dialects.**  A filter is refused in all dialects with the same error, or
compiles in all of them to the same condition, joins and labels.  The condition binds items of
three kinds, told by its form: values, the paths of tests on their own, and the keys of members
that tests of a shared element read.  The parameters of the clause and of any selection are
these items in their order: all of them as they are in the one dialect, and in the other without
the paths and with the keys escaped. -/
theorem dialects_bind_alike
    (s : Setting) (collection : String) (filter : Json) :
    (∃ e, ∀ d, (s.inDialect d).compile collection filter = .error e ∧
      (s.inDialect d).clause collection filter = .error e ∧
      ∀ names, (s.inDialect d).select collection names filter = .error e) ∨
    ∃ c, CarriesIfAny c.condition c.items ∧
      ∀ d, (s.inDialect d).compile collection filter = .ok c ∧
        (∃ clause, (s.inDialect d).clause collection filter = .ok clause ∧
          clause.params = c.items.filterMap (Item.param? d)) ∧
        ∀ names, ∃ clause, (s.inDialect d).select collection names filter = .ok clause ∧
          clause.params = c.items.filterMap (Item.param? d) := by
  have hcompile (d : Dialect) := s.compile_inDialect d collection filter
  cases h : s.compile collection filter with
  | error e =>
      simp only [h] at hcompile
      refine .inl ⟨e, fun d => ⟨hcompile d, ?_, fun names => ?_⟩⟩
      · rw [Setting.clause, hcompile d]
        rfl
      · rw [Setting.select, hcompile d]
        rfl
  | ok c =>
      simp only [h] at hcompile
      have hitems := carries_items_of_compile h
      obtain ⟨-, hjoins⟩ := carrying_of_compile h
      refine .inr ⟨c, hitems, fun d => ⟨hcompile d, ?_, fun names => ?_⟩⟩
      · refine ⟨c.clause d, ?_, Compiled.params_clause hitems d⟩
        rw [Setting.clause, hcompile d]
        rfl
      · refine ⟨(c.selection names).clause d, ?_, Compiled.params_selection hitems hjoins names d⟩
        rw [Setting.select, hcompile d]
        rfl

end RowFilter
