import RowFilter.Proofs.Meaning

/-!
# Conditions of queries inside conditions

A compiled condition asks about the rows of other queries, and their conditions in
turn ask about rows of further ones.  Each of these queries belongs to a condition
of the filter, and its own condition means what that condition asks of the rows.

* `Sql.Expr.lookups`: the predicates that ask about rows, at any depth.
* `Account.queries`: the queries that the conditions of an account ask.
* `compile_preserves_truth`: truth of compiled conditions and of all queries inside
  them.
-/

namespace RowFilter

open Sql (Expr)

namespace Sql

mutual

/-- The predicates of a condition that ask about the rows of another query, with
those in the conditions of such queries. -/
def Expr.lookups : Expr → List Expr
  | .logical _ operands => Expr.allLookups operands
  | .inQuery e query negated => .inQuery e query negated :: query.lookups
  | _ => []

/-- The lookups of several conditions. -/
def Expr.allLookups : List Expr → List Expr
  | [] => []
  | e :: rest => e.lookups ++ Expr.allLookups rest

/-- The lookups of the condition of a query. -/
def Select.lookups : Select → List Expr
  | ⟨_, _, _, some e⟩ => e.lookups
  | ⟨_, _, _, none⟩ => []

end

namespace Expr

theorem allLookups_append
    (es fs : List Expr) :
    allLookups (es ++ fs) = allLookups es ++ allLookups fs := by
  induction es with
  | nil => rw [allLookups, List.nil_append, List.nil_append]
  | cons e rest ih => rw [List.cons_append, allLookups, ih, allLookups, List.append_assoc]

/-- The lookups of a condition that may be missing. -/
def lookups? (condition : Option Expr) : List Expr :=
  allLookups condition.toList

theorem lookups?_some
    (e : Expr) :
    lookups? (some e) = e.lookups := by
  simp [lookups?, allLookups]

theorem lookups?_of_atomIfAny
    {predicate : Option Expr}
    (h : AtomIfAny predicate) :
    lookups? predicate = [] := by
  cases predicate with
  | none => rfl
  | some e =>
      have he := h e rfl
      rw [lookups?_some]
      cases e with
      | logical op operands => cases he
      | inQuery key query negated => cases he
      | _ => rw [lookups] <;> simp

theorem lookups?_group?
    (op : Connective) (operands : List Expr) :
    lookups? (group? op operands) = allLookups operands := by
  rcases operands with _ | ⟨e, _ | ⟨second, rest⟩⟩
  · rfl
  · rfl
  · rw [group?, lookups?_some, lookups]
    all_goals simp

end Expr

theorem Select.lookups_eq
    (query : Select) :
    query.lookups = Expr.lookups? query.condition := by
  rcases query with ⟨columns, source, joins, _ | e⟩
  · rfl
  · rw [lookups, Expr.lookups?_some]

end Sql

/-- A query that a condition asks. -/
structure Asked where
  /-- The condition. -/
  node : Filter
  /-- The key that is looked up in the rows. -/
  key : Expr
  negated : Bool
  inquiry : Inquiry
  /-- The account of the filter that the rows must meet. -/
  inner : Account

/-- The rows that meet the filter. -/
def Asked.rows (q : Asked) : Sql.Select :=
  q.inquiry.meeting q.inner.condition

mutual

/-- The queries that the conditions of an account ask, and those asked in turn by
the filters of their rows. -/
def Account.queries : Account → List Asked
  | .and children => Account.allQueries children
  | .or children => Account.allQueries children
  | .unbuilt _ => []
  | .own _ _ => []
  | .folded _ _ => []
  | .behind leaf key inquiry inner => ⟨leaf.filter, key, false, inquiry, inner⟩ :: inner.queries
  | .quantified id field q key inquiry inner =>
      ⟨.quantify id field q inner.filter, key, q == .none, inquiry, inner⟩ :: inner.queries

/-- The queries of several accounts. -/
def Account.allQueries : List Account → List Asked
  | [] => []
  | a :: as => a.queries ++ Account.allQueries as

end

/-- The filter that a condition asks of the rows of its query: the quantified one,
or a comparison at the end of the rest of the path. -/
inductive Filter.AsksOfRows : Filter → Filter → Prop
  | quantify (id : Nat) (field : Segment) (q : Quantifier) (inner : Filter) :
      AsksOfRows (.quantify id field q inner) inner
  | compare (id : Nat) {path rest : List Segment} (c : Comparison) (operand : Json)
      (hrest : rest <:+ path) :
      AsksOfRows (.compare id path c operand) (.compare id rest c operand)

/-- The query is still open to the condition of its filter, which is what its
condition asks of the rows and has a sound account. -/
structure Asked.Sound (ids : List Nat) (q : Asked) : Prop where
  asks : q.node.AsksOfRows q.inner.filter
  isOpen : q.inquiry.IsOpen
  closures : ∀ b ∈ q.inner.closures, b.ClosureSound ids

theorem Asked.Sound.condition_rows
    {ids : List Nat} {q : Asked}
    (h : q.Sound ids) :
    q.rows.condition =
      Expr.group? .and (q.inner.condition.toList ++ q.inquiry.discriminator.toList) := by
  simp [Asked.rows, Inquiry.meeting, Sql.Select.filter, h.isOpen.1]

/-- The condition of a query is true of the rows that meet its filter and what
else must hold of them. -/
theorem Asked.Sound.truth_rows
    {ids : List Nat} {q : Asked}
    (h : q.Sound ids) (hids : ids.Nodup) (v : Expr → Bool) :
    Expr.truth? v q.rows.condition =
      (q.inner.filter.holds (q.inner.value v) && q.inquiry.discriminator.elim true v) := by
  rw [h.condition_rows, Expr.truth?_group?_and, List.all_append, Expr.all_toList, Expr.all_toList,
    Expr.truth?_of_atomIfAny h.isOpen.2, Account.truth_condition_filter h.closures hids]

theorem Asked.Sound.lookups_rows
    {ids : List Nat} {q : Asked}
    (h : q.Sound ids) :
    q.rows.lookups = Expr.lookups? q.inner.condition := by
  have hdiscriminator : Expr.allLookups q.inquiry.discriminator.toList = [] :=
    Expr.lookups?_of_atomIfAny h.isOpen.2
  rw [Sql.Select.lookups_eq, h.condition_rows, Expr.lookups?_group?, Expr.allLookups_append,
    hdiscriminator, List.append_nil]
  rfl

namespace Account

theorem lookups_and
    (children : List Account) :
    Expr.lookups? (and children).condition =
      children.flatMap fun child => Expr.lookups? child.condition := by
  rw [condition, Expr.lookups?_group?]
  induction children with
  | nil => rw [conditions, Expr.allLookups, List.flatMap_nil]
  | cons child rest ih =>
      rw [conditions, Expr.allLookups_append, ih, List.flatMap_cons]
      rfl

theorem lookups_or
    {children : List Account} {e : Expr}
    (h : e ∈ Expr.lookups? (or children).condition) :
    ∃ child ∈ children, e ∈ Expr.lookups? child.condition := by
  cases halternatives : alternatives? children with
  | none =>
      rw [condition, halternatives] at h
      cases h
  | some es =>
      rw [condition, halternatives, Option.bind_some, Expr.lookups?_group?] at h
      induction children generalizing es with
      | nil =>
          rw [alternatives?] at halternatives
          cases halternatives
          cases h
      | cons child rest ih =>
          cases hcondition : child.condition with
          | none =>
              simp only [alternatives?, hcondition] at halternatives
              cases halternatives
          | some first =>
              simp only [alternatives?, hcondition] at halternatives
              obtain ⟨others, hothers, rfl⟩ := Option.map_eq_some_iff.1 halternatives
              rw [Expr.allLookups] at h
              rcases List.mem_append.1 h with h | h
              · exact ⟨child, List.mem_cons_self, by rwa [hcondition, Expr.lookups?_some]⟩
              · obtain ⟨other, hother, he⟩ := ih others h hothers
                exact ⟨other, List.mem_cons_of_mem _ hother, he⟩

/-- A part asks an atom, or a query that is open to the condition of its rows. -/
def Asking : Account → Prop
  | own _ predicate => AtomIfAny predicate
  | folded _ fold => AtomIfAny fold.shared
  | behind leaf _ inquiry inner => inner.RestOf leaf ∧ inquiry.IsOpen
  | quantified _ _ _ _ inquiry _ => inquiry.IsOpen
  | _ => True

theorem asking_of_closures
    {a : Account} {ids : List Nat}
    (hclosures : ∀ b ∈ a.closures, b.ClosureSound ids) :
    ∀ x ∈ a.parts, x.Asking := by
  rcases unbuilt_or_mem_closures a with ⟨f, rfl⟩ | hself
  · intro x hx
    rw [parts] at hx
    cases List.mem_singleton.1 hx
    trivial
  · obtain ⟨folds, hfolds, hparts⟩ := (hclosures a hself).folds
    intro x hx
    have hfolded := hparts x hx
    cases x with
    | own leaf predicate => exact hfolded.2
    | folded leaf fold => exact (hfolds.asks fold (Fold.mem_of_of? hfolded).1).atomIfAny
    | behind leaf key inquiry inner => exact hfolded.2
    | quantified id field q key inquiry inner => exact hfolded
    | _ => trivial

/-- A lookup of a query that is asked: it is the query's own, or one in the
condition of its rows. -/
theorem exists_asked_of_lookup
    {ids : List Nat} {q : Asked} {queries : List Asked} {e : Expr}
    (hsound : q.Sound ids)
    (hinner : ∀ f ∈ Expr.lookups? q.inner.condition,
      ∃ r ∈ queries, f = .inQuery r.key r.rows r.negated ∧ r.Sound ids)
    (h : e ∈ Expr.lookups (.inQuery q.key q.rows q.negated)) :
    ∃ r ∈ q :: queries, e = .inQuery r.key r.rows r.negated ∧ r.Sound ids := by
  rw [Expr.lookups, hsound.lookups_rows] at h
  rcases List.mem_cons.1 h with rfl | h
  · exact ⟨q, List.mem_cons_self, rfl, hsound⟩
  · obtain ⟨r, hr, hasked⟩ := hinner e h
    exact ⟨r, List.mem_cons_of_mem _ hr, hasked⟩

mutual

/-- Every lookup of the condition of a closure is a query that its account asks. -/
theorem exists_asked
    {ids : List Nat} :
    ∀ a : Account, (∀ x ∈ a.parts, x.Asking) → (∀ b ∈ a.closures.tail, b.ClosureSound ids) →
      ∀ e ∈ Expr.lookups? a.condition,
        ∃ q ∈ a.queries, e = .inQuery q.key q.rows q.negated ∧ q.Sound ids
  | and children, hparts, hinner, e, he => by
      rw [parts] at hparts
      rw [closures] at hinner
      rw [lookups_and] at he
      rw [queries]
      obtain ⟨child, hchild, he⟩ := List.mem_flatMap.1 he
      exact exists_asked_conjunct children hparts hinner child hchild e he
  | or children, _, hinner, e, he => by
      rw [closures] at hinner
      rw [queries]
      obtain ⟨child, hchild, he⟩ := lookups_or he
      exact exists_asked_alternative children hinner child hchild e he
  | unbuilt f, _, _, e, he => by
      rw [condition] at he
      cases he
  | own leaf predicate, hparts, _, e, he => by
      have hatom : AtomIfAny predicate := hparts (own leaf predicate) (by simp [parts])
      rw [condition, Expr.lookups?_of_atomIfAny hatom] at he
      cases he
  | folded leaf fold, hparts, _, e, he => by
      have hatom : AtomIfAny fold.shared := hparts (folded leaf fold) (by simp [parts])
      rw [condition, Fold.standing] at he
      split at he
      · rw [Expr.lookups?_of_atomIfAny hatom] at he
        cases he
      · cases he
  | behind leaf key inquiry inner, hparts, hinner, e, he => by
      obtain ⟨⟨rest, hrest, hfilter⟩, hopen⟩ :=
        hparts (behind leaf key inquiry inner) (by simp [parts])
      rw [closures] at hinner
      rw [condition, Expr.lookups?_some] at he
      rw [queries]
      refine exists_asked_of_lookup ⟨?_, hopen, hinner⟩ ?_ he
      · rw [hfilter]
        exact .compare leaf.id leaf.comparison leaf.operand hrest
      · exact exists_asked inner (asking_of_closures hinner)
          fun b hb => hinner b (List.mem_of_mem_tail hb)
  | quantified id field q key inquiry inner, hparts, hinner, e, he => by
      have hopen := hparts (quantified id field q key inquiry inner) (by simp [parts])
      rw [closures] at hinner
      rw [condition, Expr.lookups?_some] at he
      rw [queries]
      refine exists_asked_of_lookup ⟨.quantify id field q inner.filter, hopen, hinner⟩ ?_ he
      exact exists_asked inner (asking_of_closures hinner)
        fun b hb => hinner b (List.mem_of_mem_tail hb)

theorem exists_asked_conjunct
    {ids : List Nat} :
    ∀ children : List Account, (∀ x ∈ partsOfAll children, x.Asking) →
      (∀ b ∈ innerClosures children, b.ClosureSound ids) →
        ∀ child ∈ children, ∀ e ∈ Expr.lookups? child.condition,
          ∃ q ∈ allQueries children, e = .inQuery q.key q.rows q.negated ∧ q.Sound ids
  | [], _, _, child, hchild, _, _ => by
      cases hchild
  | first :: rest, hparts, hinner, child, hchild, e, he => by
      rw [partsOfAll] at hparts
      rw [innerClosures] at hinner
      rw [allQueries]
      rcases List.mem_cons.1 hchild with heq | hchild
      · obtain ⟨q, hq, hasked⟩ := exists_asked first
          (fun x hx => hparts x (List.mem_append_left _ hx))
          (fun b hb => hinner b (List.mem_append_left _ hb)) e (heq ▸ he)
        exact ⟨q, List.mem_append_left _ hq, hasked⟩
      · obtain ⟨q, hq, hasked⟩ := exists_asked_conjunct rest
          (fun x hx => hparts x (List.mem_append_right _ hx))
          (fun b hb => hinner b (List.mem_append_right _ hb)) child hchild e he
        exact ⟨q, List.mem_append_right _ hq, hasked⟩

theorem exists_asked_alternative
    {ids : List Nat} :
    ∀ children : List Account, (∀ b ∈ closuresOfAll children, b.ClosureSound ids) →
      ∀ child ∈ children, ∀ e ∈ Expr.lookups? child.condition,
        ∃ q ∈ allQueries children, e = .inQuery q.key q.rows q.negated ∧ q.Sound ids
  | [], _, child, hchild, _, _ => by
      cases hchild
  | first :: rest, hclosures, child, hchild, e, he => by
      rw [closuresOfAll] at hclosures
      rw [allQueries]
      rcases List.mem_cons.1 hchild with heq | hchild
      · have hfirst : ∀ b ∈ first.closures, b.ClosureSound ids :=
          fun b hb => hclosures b (List.mem_append_left _ hb)
        obtain ⟨q, hq, hasked⟩ := exists_asked first (asking_of_closures hfirst)
          (fun b hb => hfirst b (List.mem_of_mem_tail hb)) e (heq ▸ he)
        exact ⟨q, List.mem_append_left _ hq, hasked⟩
      · obtain ⟨q, hq, hasked⟩ := exists_asked_alternative rest
          (fun b hb => hclosures b (List.mem_append_right _ hb)) child hchild e he
        exact ⟨q, List.mem_append_right _ hq, hasked⟩

end

end Account

/-- **Conditions mean what filters say.**  Under every assignment of truth values
to predicates, the condition that a filter is compiled to is true when the filter
is, if each condition of the filter has the value of the predicate that stands for
it.  The same holds of every query in the condition, at any depth, and of the
filter that is asked of its rows, together with what tells the rows apart. -/
theorem compile_preserves_truth
    {s : Setting} {collection : String} {filter : Json} {c : Compiled}
    (h : s.compile collection filter = .ok c) :
    ∃ tree a p, Filter.ofJson s.options.maxDepth filter = .ok tree ∧
      (s.account tree).run (Progress.start collection) = (.ok a, p) ∧
      a.filter = tree ∧ c.condition = a.condition ∧
      (∀ v, Expr.truth? v c.condition = tree.holds (a.value v)) ∧
      ∀ e ∈ Expr.lookups? c.condition, ∃ q ∈ a.queries,
        e = .inQuery q.key q.rows q.negated ∧ q.node.AsksOfRows q.inner.filter ∧
        ∀ v, Expr.truth? v q.rows.condition =
          (q.inner.filter.holds (q.inner.value v) && q.inquiry.discriminator.elim true v) := by
  obtain ⟨tree, a, p, htree, hrun, -, rfl⟩ := account_of_compile h
  obtain ⟨hfilter, hclosures⟩ := closures_of_account hrun
  have hids := Filter.nodup_ids htree
  refine ⟨tree, a, p, htree, hrun, hfilter, rfl, fun v => ?_, fun e he => ?_⟩
  · rw [← hfilter]
    exact Account.truth_condition_filter hclosures hids v
  · obtain ⟨q, hq, heq, hsound⟩ := Account.exists_asked a (Account.asking_of_closures hclosures)
      (fun b hb => hclosures b (List.mem_of_mem_tail hb)) e he
    exact ⟨q, hq, heq, hsound.asks, hsound.truth_rows hids⟩

/-- Threads with their posts. -/
def forum : Setting where
  schema := {
    collections := [
      ("threads", {
        primary := "id"
        fields := [
          ("pinned", { type := .boolean, specials := .ofFlags [] }),
          ("posts", { type := .virtual, specials := .ofFlags [.oneToMany] })] }),
      ("posts", {
        primary := "id"
        fields := [
          ("thread", { type := .integer, specials := .ofFlags [] }),
          ("likes", { type := .integer, specials := .ofFlags [] })] })]
    relations := [{
      collection := "threads"
      field := "posts"
      relatedCollection := some "posts"
      relatedField := some "thread"
      collectionField := none
      allowed := []
      cardinality := .oneToMany }] }
  options := {}

/-- Pinned threads, and threads with a liked post. -/
def worthReading : Json :=
  .obj [("_or", .arr [
    .obj [("pinned", .obj [("_eq", .bool true)])],
    .obj [("posts", .obj [("_some", .obj [("likes", .obj [("_nnull", .bool true)])])])]])]

theorem compile_preserves_truth_worthReading :
    ∃ (c : Compiled) (tree : Filter) (a : Account),
      forum.compile "threads" worthReading = .ok c ∧
      (Expr.lookups? c.condition).length = 1 ∧
      Filter.ofJson forum.options.maxDepth worthReading = .ok tree ∧
      ∀ v, Expr.truth? v c.condition = tree.holds (a.value v) := by
  have hok : ((forum.compile "threads" worthReading).toOption.map fun c =>
      (Expr.lookups? c.condition).length) = some 1 := by
    decide +kernel
  cases hc : forum.compile "threads" worthReading with
  | error e =>
      rw [hc] at hok
      cases hok
  | ok c =>
      rw [hc] at hok
      obtain ⟨tree, a, p, htree, -, -, -, htruth, -⟩ := compile_preserves_truth hc
      exact ⟨c, tree, a, rfl, Option.some.inj hok, htree, htruth⟩

end RowFilter
