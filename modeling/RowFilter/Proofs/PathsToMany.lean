import RowFilter.Proofs.Frames
import RowFilter.Proofs.KeyGrammar
import RowFilter.Proofs.Quantifiers
import RowFilter.Proofs.Scopes

/-!
# Paths through relations to many rows

A path that leads through a relation to many rows asks whether one of those rows meets the
rest of it.  The same can be written with a quantifier on the field of the relation and the
rest of the path in its filter.  The two documents are read differently: the first as one
comparison, the second as a condition with a filter of its own.  They are compiled to the
same condition, joins and labels.

* `FieldPath.ofKey_append_dot`: the segments of a key that is put together.
* `run_quantify_some`: what is compiled from the two trees.
* `path_through_many_means_some`: the two documents.
-/

namespace RowFilter

open Sql (Expr)

/-! ## Keys that are put together -/

namespace FieldPath

/-- The key itself is only named in errors. -/
theorem splitKey_of_ok
    {key : String} {depth : Nat} {cs : List Char} {parts : List (List Char)}
    (h : splitKey key depth cs = .ok parts) (key' : String) :
    splitKey key' depth cs = .ok parts := by
  induction cs generalizing depth parts with
  | nil =>
      rw [splitKey] at h ⊢
      split_ifs at h ⊢
      exact h
  | cons c cs ih =>
      rw [splitKey] at h ⊢
      split_ifs at h ⊢
      all_goals
        obtain ⟨rest, hrest, rfl⟩ := exists_of_map_ok h
        rw [ih hrest]
        rfl

/-- There is at least one segment. -/
theorem ne_nil_of_ofKey
    {key : String} {segments : List Segment}
    (h : ofKey key = .ok segments) :
    segments ≠ [] := by
  obtain ⟨parts, hparts, h⟩ := exists_of_bind_ok h
  intro hnil
  have hlength := (results_of_mapM_ok h).1
  rw [hnil, List.length_nil, eq_comm, List.length_eq_zero_iff] at hlength
  exact ne_nil_of_splitKey hparts hlength

/-- A key with a dot behind one that can be read has the segments of both. -/
theorem ofKey_append_dot
    {first second : String} {segments all : List Segment}
    (h : ofKey first = .ok segments) :
    ofKey (first ++ "." ++ second) = .ok all ↔
      ∃ more, ofKey second = .ok more ∧ all = segments ++ more := by
  obtain ⟨parts, hparts, hread⟩ := exists_of_bind_ok h
  have hchars : (first ++ "." ++ second).toList = first.toList ++ '.' :: second.toList := by simp
  unfold ofKey
  rw [hchars, splitKey_append_dot hparts]
  constructor
  · intro hall
    obtain ⟨_, hsplit, hall⟩ := exists_of_bind_ok hall
    obtain ⟨others, hothers, rfl⟩ := exists_of_map_ok hsplit
    rw [List.mapM_append] at hall
    obtain ⟨_, hsame, hall⟩ := exists_of_bind_ok hall
    obtain ⟨more, hmore, hall⟩ := exists_of_bind_ok hall
    rw [hread] at hsame
    cases hsame
    cases hall
    refine ⟨more, ?_, rfl⟩
    rw [splitKey_of_ok hothers]
    exact hmore
  · rintro ⟨more, hmore, rfl⟩
    obtain ⟨others, hothers, hmore⟩ := exists_of_bind_ok hmore
    rw [splitKey_of_ok hothers]
    change (parts ++ others).mapM readSegment = _
    rw [List.mapM_append, hread]
    change (others.mapM readSegment >>= _) = _
    rw [hmore]
    rfl

end FieldPath

/-! ## Reading the two documents -/

namespace Filter

/-- The document of a comparison of the field at the end of a path. -/
def compared (key op : String) (operand : Json) : Json :=
  .obj [(key, .obj [(op, operand)])]

/-- The key of an operator that compares. -/
structure IsComparison (op : String) (c : Comparison) : Prop where
  underscore : op.toList.head? = some '_'
  ne_and : op ≠ "_and"
  ne_or : op ≠ "_or"
  operator : operatorOf op = .compare c

/-- An object with one member is read as that member. -/
theorem atDepth_single
    {limit depth : Nat} {path : List Segment} {key : String} {value : Json}
    (h : depth ≤ limit) :
    atDepth limit depth (readMembers limit depth path [(key, value)]) =
      readMember limit depth path key value := by
  rw [atDepth, if_neg (by omega), readMembers, readMembers]
  simp [conjunction]

theorem readMember_comparison
    {limit depth : Nat} {path : List Segment} {op : String} {c : Comparison} {operand : Json}
    (h : IsComparison op c) :
    readMember limit depth path op operand = (do
      Attempt.ofExcept (checkPath op path)
      return .compare (← nextId) path c operand) := by
  unfold readMember
  rw [if_neg h.ne_and, if_neg h.ne_or, if_pos h.underscore]
  refine bind_congr fun _ => ?_
  rw [h.operator]

/-- A comparison of a field, read at any depth that is allowed. -/
theorem readMember_compared
    {limit depth : Nat} {key op : String} {c : Comparison} {operand : Json}
    (hlimit : depth < limit) (hkey : key.toList.head? ≠ some '_') (hop : IsComparison op c) :
    readMember limit depth [] key (.obj [(op, operand)]) = (do
      let path ← Attempt.ofExcept (FieldPath.ofKey key)
      Attempt.ofExcept (checkPath op path)
      return .compare (← nextId) path c operand) := by
  rw [readMember_field hkey]
  refine bind_congr fun path => ?_
  rw [List.nil_append, atDepth_single hlimit, readMember_comparison hop]

/-- The comparison of a field, as a document. -/
theorem ofJson_compared
    {limit : Nat} {key op : String} {c : Comparison} {operand : Json}
    (hlimit : 0 < limit) (hkey : key.toList.head? ≠ some '_') (hop : IsComparison op c) :
    ofJson limit (compared key op operand) = (do
      let path ← FieldPath.ofKey key
      checkPath op path
      return .compare 0 path c operand) := by
  rw [compared, ofJson, atDepth_single (Nat.zero_le _), readMember_compared hlimit hkey hop]
  cases FieldPath.ofKey key with
  | error e => rfl
  | ok path =>
      change ((Attempt.ofExcept (checkPath op path) >>= _).run 0).1 = (checkPath op path >>= _)
      cases checkPath op path <;> rfl

theorem readMember_quantifier
    {limit depth : Nat} {field : Segment} {members : List (String × Json)} (q : Quantifier) :
    readMember limit depth [field] q.key (.obj members) = (do
      let inner ← atDepth limit (depth + 1) (readMembers limit (depth + 1) [] members)
      return .quantify (← nextId) field q inner) := by
  have hand : q.key ≠ "_and" := by cases q <;> decide
  have hor : q.key ≠ "_or" := by cases q <;> decide
  have hunderscore : q.key.toList.head? = some '_' := by cases q <;> rfl
  have hoperator : operatorOf q.key = .quantify q := by cases q <;> decide +kernel
  unfold readMember
  rw [if_neg hand, if_neg hor, if_pos hunderscore, hoperator]
  rfl

/-- The comparison of a field of related rows, as a document. -/
theorem ofJson_quantified_compared
    {limit : Nat} {key inner op : String} {field : Segment} {c : Comparison} {operand : Json}
    (hlimit : 2 < limit) (hkey : key.toList.head? ≠ some '_')
    (hfield : FieldPath.ofKey key = .ok [field]) (hinner : inner.toList.head? ≠ some '_')
    (hop : IsComparison op c) (q : Quantifier) :
    ofJson limit (quantified key q (compared inner op operand)) = (do
      let path ← FieldPath.ofKey inner
      checkPath op path
      return .quantify 1 field q (.compare 0 path c operand)) := by
  have hread : readMember limit 0 [] key (.obj [(q.key, compared inner op operand)]) = (do
      let body ← readMember limit 2 [] inner (.obj [(op, operand)])
      return .quantify (← nextId) field q body) := by
    rw [readMember_field hkey, hfield]
    change atDepth limit 1 (readMembers limit 1 [field] [(q.key, compared inner op operand)]) = _
    rw [atDepth_single (by omega), compared, readMember_quantifier, atDepth_single (by omega)]
  rw [quantified, ofJson, atDepth_single (Nat.zero_le _), hread,
    readMember_compared hlimit hinner hop]
  cases FieldPath.ofKey inner with
  | error e => rfl
  | ok path =>
      change (((Attempt.ofExcept (checkPath op path) >>= _) >>= _).run 0).1 =
        (checkPath op path >>= _)
      cases checkPath op path <;> rfl

/-- A function may only be applied at the end of a path. -/
theorem checkPath_cons
    {segment : Segment} {rest : List Segment}
    (h : rest ≠ []) (op : String) :
    checkPath op (segment :: rest) =
      if segment.function.isSome then .error .functionBeforeLast else checkPath op rest := by
  obtain ⟨next, others, rfl⟩ := List.exists_cons_of_ne_nil h
  cases hfunction : segment.function <;> simp [checkPath, hfunction]

/-- A field whose key begins like that of an operator is not read. -/
theorem ofJson_of_underscore
    {key : String} (limit : Nat) (members : List (String × Json))
    (h : key.toList.head? = some '_') :
    ∃ e, ofJson limit (.obj [(key, .obj members)]) = .error e := by
  rw [ofJson, atDepth_single (Nat.zero_le _)]
  unfold readMember
  split_ifs
  · exact ⟨_, rfl⟩
  · exact ⟨_, rfl⟩
  · exact ⟨_, rfl⟩

/-- What the two documents are read as, if they are: the trees differ in where the segment
stands, and a function on it only stops the first. -/
theorem readings_through_many
    {limit : Nat} {r p op : String} {segment : Segment} {c : Comparison}
    (hlimit : 2 < limit) (hkey : FieldPath.ofKey r = .ok [segment])
    (hrest : p.toList.head? ≠ some '_') (hop : IsComparison op c) (operand : Json) :
    (∃ e e', ofJson limit (compared (r ++ "." ++ p) op operand) = .error e ∧
      ofJson limit (quantified r .some (compared p op operand)) = .error e') ∨
    ∃ more, more ≠ [] ∧
      ofJson limit (compared (r ++ "." ++ p) op operand) =
        (if segment.function.isSome then .error .functionBeforeLast
          else .ok (.compare 0 (segment :: more) c operand)) ∧
      ofJson limit (quantified r .some (compared p op operand)) =
        .ok (.quantify 1 segment .some (.compare 0 more c operand)) := by
  have hhead : (r ++ "." ++ p).toList.head? = some '_' ↔ r.toList.head? = some '_' := by
    cases h : r.toList <;> simp [h]
  by_cases hr : r.toList.head? = some '_'
  · obtain ⟨e, he⟩ := ofJson_of_underscore limit [(op, operand)] (hhead.2 hr)
    obtain ⟨e', he'⟩ := ofJson_of_underscore limit
      [(Quantifier.some.key, compared p op operand)] hr
    exact .inl ⟨e, e', he, he'⟩
  · rw [ofJson_compared (by omega) (mt hhead.1 hr) hop,
      ofJson_quantified_compared hlimit hr hkey hrest hop]
    cases hp : FieldPath.ofKey p with
    | error e =>
        cases hall : FieldPath.ofKey (r ++ "." ++ p) with
        | error e' => exact .inl ⟨e', e, rfl, rfl⟩
        | ok all =>
            obtain ⟨more, hmore, -⟩ := (FieldPath.ofKey_append_dot hkey).1 hall
            rw [hp] at hmore
            cases hmore
    | ok more =>
        have hmore := FieldPath.ne_nil_of_ofKey hp
        rw [(FieldPath.ofKey_append_dot hkey).2 ⟨more, hp, rfl⟩]
        change (∃ e e', (checkPath op (segment :: more) >>= _) = .error e ∧
          (checkPath op more >>= _) = .error e') ∨ ∃ rest, rest ≠ [] ∧
            (checkPath op (segment :: more) >>= _) = _ ∧ (checkPath op more >>= _) = _
        rw [checkPath_cons hmore]
        cases hcheck : checkPath op more with
        | error e =>
            cases hfunction : segment.function with
            | none => exact .inl ⟨e, e, rfl, rfl⟩
            | some function => exact .inl ⟨_, e, rfl, rfl⟩
        | ok _ =>
            refine .inr ⟨more, hmore, ?_, rfl⟩
            cases hfunction : segment.function <;> rfl

end Filter

/-! ## Compiling the two trees -/

section Compiling

variable {schema : Schema} {segment : Segment} {relation : Relation} {p : Progress}

/-- A path whose first segment ends it plans no join. -/
theorem run_locate_of_step
    {rest : List Segment} {result : Except QueryError Destination}
    (h : schema.step p.plan.qualifier p.plan.collection segment rest = result.map .arrive) :
    (Compiling.locate schema (segment :: rest)).run p = (result, p) := by
  have hlocate : (JoinPlan.locate schema (segment :: rest)).run p.planning =
      (result, p.planning) := by
    unfold JoinPlan.locate
    rw [Attempt.run_bind_of_ok _ (Attempt.run_state _), JoinPlan.follow]
    change (Attempt.ofExcept (schema.step p.plan.qualifier p.plan.collection segment rest) >>=
      _).run p.planning = _
    rw [h]
    cases result <;> rfl
  unfold Compiling.locate
  rw [Attempt.run_focus, hlocate]
  rfl

/-- A segment with a relation to many rows ends a path, whatever is left of it, and plans no
join. -/
theorem run_locate_cons_toMany
    (hrelation : schema.relation? p.plan.collection segment.name = some relation)
    (hmany : relation.cardinality.leadsToMany = true) :
    (∃ e, ∀ rest, (Compiling.locate schema (segment :: rest)).run p = (.error e, p)) ∨
      ∃ place scope, place.segment = segment ∧ ∀ rest,
        (Compiling.locate schema (segment :: rest)).run p =
          (.ok (.toMany place relation scope rest), p) := by
  cases hfield : schema.field? p.plan.collection segment.name with
  | none =>
      refine .inl ⟨.unknownField segment.name p.plan.collection, fun rest => ?_⟩
      refine run_locate_of_step ?_
      rw [Schema.step, hfield]
      rfl
  | some field =>
      have hstep (rest : List Segment) :
          schema.step p.plan.qualifier p.plan.collection segment rest =
            Place.relate ⟨p.plan.qualifier, p.plan.collection, segment, field⟩ relation rest := by
        rw [Schema.step, hfield]
        simp only [hrelation]
      by_cases hindex : segment.index.isSome = true
      · refine .inl ⟨.indexOutsideJson segment.name, fun rest => run_locate_of_step ?_⟩
        rw [hstep, Place.relate, if_pos hindex]
        rfl
      · cases hscope : segment.choose relation with
        | error e =>
            refine .inl ⟨e, fun rest => run_locate_of_step ?_⟩
            rw [hstep, Place.relate, if_neg hindex, hscope]
            rfl
        | ok scope =>
            refine .inr ⟨⟨p.plan.qualifier, p.plan.collection, segment, field⟩, scope, rfl,
              fun rest => run_locate_of_step ?_⟩
            rw [hstep, Place.relate, if_neg hindex, hscope]
            change (if relation.cardinality.leadsToMany = true then _ else _) = _
            rw [if_pos hmany]
            rfl

/-- Steps that agree where nothing else is folded can be exchanged in a query of their own. -/
theorem run_enter_congr
    {α : Type} {x y : Compiling α} (schema : Schema) (probe : Probe)
    (h : ∀ q : Progress, q.folded = p.folded → x.run q = y.run q) :
    (probe.enter schema x).run p = (probe.enter schema y).run p := by
  unfold Probe.enter
  cases schema.primaryKey probe.related with
  | error e => rfl
  | ok primary =>
      have hsame := h ((p.withLabels (Labels.fresh probe.related p.labels).2).inside probe.related
        (Labels.fresh probe.related p.labels).1) rfl
      change (Compiling.inQuery probe.related (Labels.fresh probe.related p.labels).1 x >>= _).run
          (p.withLabels (Labels.fresh probe.related p.labels).2) =
        (Compiling.inQuery probe.related (Labels.fresh probe.related p.labels).1 y >>= _).run
          (p.withLabels (Labels.fresh probe.related p.labels).2)
      rw [Attempt.run_bind, Attempt.run_bind, run_inQuery, run_inQuery, hsame]

theorem run_quantifierProbe_toMany
    {place : Place} {scope : Option String} {rest : List Segment}
    (h : (Compiling.locate schema [segment]).run p = (.ok (.toMany place relation scope rest), p))
    (q : Quantifier) :
    (quantifierProbe schema segment q).run p = ((do
      let link ← Link.of schema place relation scope
      place.check (some relation) (.quantify q)
      return link.probe), p) := by
  unfold quantifierProbe
  rw [Attempt.run_bind_of_ok _ h]
  dsimp only
  cases Link.of schema place relation scope with
  | error e => rfl
  | ok link =>
      change ((Attempt.ofExcept (place.check (some relation) (.quantify q)) >>= _ :
          Compiling Probe)).run p = (place.check (some relation) (.quantify q) >>= _, p)
      cases place.check (some relation) (.quantify q) <;> rfl

/-- A quantifier fits every field with a relation, unless a function is applied to it. -/
theorem check_quantify
    (place : Place) (relation : Relation) (q : Quantifier) :
    place.check (some relation) (.quantify q) =
      if place.segment.function.isSome then
        .error (.quantifierWithFunction (.quantify q) place.segment.name)
      else
        .ok () := by
  simp [Place.check, Field.check, Operator.isQuantified]

theorem run_filterCondition_compare
    {id : Nat} (h : p.folded.lookup id = none)
    (s : Setting) (path : List Segment) (c : Comparison) (operand : Json) :
    (filterCondition s (.compare id path c operand)).run p =
      (comparisonCondition s.schema id c operand path.length path).run p := by
  rw [filterCondition, Attempt.run_bind_of_ok _ (Attempt.run_state p), h]

/-- The tree of a comparison that is not folded is compiled by following its path twice. -/
theorem run_compare
    {id : Nat} (h : p.folded.lookup id = none)
    (s : Setting) (path : List Segment) (c : Comparison) (operand : Json) :
    (s.run (.compare id path c operand)).run p = (do
      let _ ← Compiling.locate s.schema path
      comparisonCondition s.schema id c operand path.length path : Compiling _).run p := by
  have hkeeps := (Compiling.blind_locate s.schema path).folded_eq p
  simp only [Setting.run, planJoins, bind_assoc, pure_bind]
  rw [Attempt.run_bind, Attempt.run_bind]
  rcases hlocate : (Compiling.locate s.schema path).run p with ⟨_ | destination, q⟩
  · rfl
  · rw [hlocate] at hkeeps
    refine run_filterCondition_compare ?_ s path c operand
    rw [hkeeps, h]

/-- A comparison behind a relation to many rows is compiled as the question whether some of
the rows meet the comparison of the rest of its path. -/
theorem run_quantify_some
    {s : Setting} {rest : List Segment} {id : Nat} (number : Nat) (c : Comparison) (operand : Json)
    (hrelation : s.schema.relation? p.plan.collection segment.name = some relation)
    (hmany : relation.cardinality.leadsToMany = true) (hfunction : segment.function = none)
    (hrest : rest ≠ []) (hfolded : p.folded.lookup id = none) :
    (s.run (.quantify number segment .some (.compare id rest c operand))).run p =
      (s.run (.compare id (segment :: rest) c operand)).run p := by
  obtain ⟨next, others, rfl⟩ := List.exists_cons_of_ne_nil hrest
  rw [run_compare hfolded]
  simp only [Setting.run, planJoins, bind_assoc, pure_bind]
  rcases run_locate_cons_toMany hrelation hmany with ⟨e, hlocate⟩ | ⟨place, scope, hplace, hlocate⟩
  · rw [Attempt.run_bind_of_error _ (hlocate []), Attempt.run_bind_of_error _ (hlocate _)]
  · have hprobe := run_quantifierProbe_toMany (hlocate []) .some
    rw [check_quantify, hplace, hfunction] at hprobe
    rw [Attempt.run_bind_of_ok _ (hlocate []), Attempt.run_bind_of_ok _ (hlocate _),
      filterCondition, quantifiedCondition_eq, List.length_cons, comparisonCondition_eq,
      Attempt.run_bind_of_ok _ (hlocate _)]
    dsimp only
    cases hlink : Link.of s.schema place relation scope with
    | error e =>
        rw [hlink] at hprobe
        rw [Attempt.run_bind_of_error _ hprobe]
        rfl
    | ok link =>
        rw [hlink] at hprobe
        rw [Attempt.run_bind_of_ok _ hprobe]
        -- inside the query both follow the rest of the path and compare at its end
        have hinner := run_enter_congr (p := p) s.schema link.probe fun q hq =>
          run_compare (p := q) (by rw [hq, hfolded]) s (next :: others) c operand
        change ((link.probe.enter s.schema (s.run (.compare id (next :: others) c operand))) >>=
          _).run p = (link.probe.enter s.schema _ >>= _).run p
        rw [Attempt.run_bind, Attempt.run_bind, hinner]
        rfl

/-- A quantifier on a field to which a function is applied is not compiled. -/
theorem exists_error_of_function
    {s : Setting}
    (hrelation : s.schema.relation? p.plan.collection segment.name = some relation)
    (hmany : relation.cardinality.leadsToMany = true) (hfunction : segment.function.isSome = true)
    (number : Nat) (q : Quantifier) (inner : Filter) :
    ∃ e, ((s.run (.quantify number segment q inner)).run p).1 = .error e := by
  simp only [Setting.run, planJoins, bind_assoc, pure_bind]
  rcases run_locate_cons_toMany hrelation hmany with ⟨e, hlocate⟩ | ⟨place, scope, hplace, hlocate⟩
  · exact ⟨e, by rw [Attempt.run_bind_of_error _ (hlocate [])]⟩
  · have hprobe := run_quantifierProbe_toMany (hlocate []) q
    rw [check_quantify, hplace, if_pos hfunction] at hprobe
    rw [Attempt.run_bind_of_ok _ (hlocate []), filterCondition, quantifiedCondition_eq]
    cases hlink : Link.of s.schema place relation scope with
    | error e =>
        rw [hlink] at hprobe
        exact ⟨e, by rw [Attempt.run_bind_of_error _ hprobe]⟩
    | ok link =>
        rw [hlink] at hprobe
        exact ⟨_, by rw [Attempt.run_bind_of_error _ hprobe]⟩

end Compiling

/-! ## The two documents -/

theorem toOption_bind_pure
    {α β : Type} (x : Except QueryError α) (f : α → β) :
    (x >>= fun a => pure (f a) : Except QueryError β).toOption = x.toOption.map f := by
  cases x <;> rfl

theorem compileTree_quantify_some
    {s : Setting} {collection : String} {segment : Segment} {relation : Relation}
    {rest : List Segment} (c : Comparison) (operand : Json)
    (hrelation : s.schema.relation? collection segment.name = some relation)
    (hmany : relation.cardinality.leadsToMany = true) (hfunction : segment.function = none)
    (hrest : rest ≠ []) :
    s.compileTree collection (.quantify 1 segment .some (.compare 0 rest c operand)) =
      s.compileTree collection (.compare 0 (segment :: rest) c operand) := by
  unfold Setting.compileTree
  rw [run_quantify_some (p := Progress.start collection) 1 c operand hrelation hmany hfunction
    hrest rfl]

theorem exists_error_compileTree_of_function
    {s : Setting} {collection : String} {segment : Segment} {relation : Relation}
    (hrelation : s.schema.relation? collection segment.name = some relation)
    (hmany : relation.cardinality.leadsToMany = true) (hfunction : segment.function.isSome = true)
    (number : Nat) (q : Quantifier) (inner : Filter) :
    ∃ e, s.compileTree collection (.quantify number segment q inner) = .error e := by
  obtain ⟨e, he⟩ := exists_error_of_function (p := Progress.start collection) hrelation hmany
    hfunction number q inner
  refine ⟨e, ?_⟩
  unfold Setting.compileTree
  split
  · rename_i hrun
    rw [hrun] at he
    cases he
  · rename_i hrun
    rw [hrun] at he
    cases he
    rfl

/-- The comparison at the end of a path through a relation to many rows, and the quantifier
with the comparison at the end of the rest, are compiled alike or not at all. -/
theorem compile_toOption_eq
    {s : Setting} {collection r p op : String} {segment : Segment} {relation : Relation}
    {c : Comparison}
    (hkey : FieldPath.ofKey r = .ok [segment])
    (hrelation : s.schema.relation? collection segment.name = some relation)
    (hmany : relation.cardinality.leadsToMany = true)
    (hrest : p.toList.head? ≠ some '_') (hop : Filter.IsComparison op c)
    (hdepth : 3 ≤ s.options.maxDepth) (operand : Json) :
    (s.compile collection (Filter.compared (r ++ "." ++ p) op operand)).toOption =
      (s.compile collection
        (Filter.quantified r .some (Filter.compared p op operand))).toOption := by
  unfold Setting.compile
  cases s.schema.primaryKey collection with
  | error e => rfl
  | ok primary =>
      change (Filter.ofJson s.options.maxDepth (Filter.compared (r ++ "." ++ p) op operand) >>=
          s.compileTree collection).toOption =
        (Filter.ofJson s.options.maxDepth
          (Filter.quantified r .some (Filter.compared p op operand)) >>=
            s.compileTree collection).toOption
      rcases Filter.readings_through_many hdepth hkey hrest hop operand with
        ⟨e, e', hpath, hquantified⟩ | ⟨more, hmore, hpath, hquantified⟩
      · rw [hpath, hquantified]
        rfl
      · rw [hpath, hquantified]
        cases hfunction : segment.function with
        | none =>
            exact congrArg Except.toOption
              (compileTree_quantify_some c operand hrelation hmany hfunction hmore).symm
        | some function =>
            -- the first document is not read, the second is read but not compiled
            obtain ⟨e, he⟩ := exists_error_compileTree_of_function hrelation hmany
              (by rw [hfunction]; rfl) 1 .some (.compare 0 more c operand)
            exact (congrArg Except.toOption he).symm

/-- **A path through many rows means some of them.**  Let a key name a field that leads to
many rows, and let another key be the rest of a path from those rows.  The comparison of the
field at the end of the whole path, and the quantifier that some of the rows meet the
comparison at the end of the rest, are both refused, or both compiled to the same condition,
joins and labels, and written as the same statements with the same parameters. -/
theorem path_through_many_means_some
    {s : Setting} {collection r p op : String} {segment : Segment} {relation : Relation}
    {c : Comparison}
    (hkey : FieldPath.ofKey r = .ok [segment])
    (hrelation : s.schema.relation? collection segment.name = some relation)
    (hmany : relation.cardinality.leadsToMany = true)
    (hrest : p.toList.head? ≠ some '_') (hop : Filter.IsComparison op c)
    (hdepth : 3 ≤ s.options.maxDepth) (operand : Json) :
    let path := Filter.compared (r ++ "." ++ p) op operand
    let quantified := Filter.quantified r .some (Filter.compared p op operand)
    (s.compile collection path).toOption = (s.compile collection quantified).toOption ∧
      (s.clause collection path).toOption = (s.clause collection quantified).toOption ∧
      ∀ names, (s.select collection names path).toOption =
        (s.select collection names quantified).toOption := by
  intro path quantified
  have hsame := compile_toOption_eq hkey hrelation hmany hrest hop hdepth operand
  refine ⟨hsame, ?_, fun names => ?_⟩
  · rw [Setting.clause, Setting.clause, toOption_bind_pure, toOption_bind_pure, hsame]
  · rw [Setting.select, Setting.select, toOption_bind_pure, toOption_bind_pure, hsame]

/-- Projects that someone named Lin remarked on: the path leads through a choice of rows and
on to their author. -/
theorem path_through_many_means_some_remarks :
    ∃ compiled,
      studio.compile "projects"
        (Filter.compared ("remarks:comments" ++ "." ++ "author.name") "_contains" (.str "Lin")) =
          .ok compiled ∧
      studio.compile "projects"
        (Filter.quantified "remarks:comments" .some
          (Filter.compared "author.name" "_contains" (.str "Lin"))) = .ok compiled := by
  have hop : Filter.IsComparison "_contains" (.pattern ⟨.anywhere, false, false⟩) :=
    ⟨rfl, by decide, by decide, by decide +kernel⟩
  have hkey : FieldPath.ofKey "remarks:comments" =
      .ok [{ name := "remarks", scope := some "comments" }] :=
    rfl
  have hrelation : studio.schema.relation? "projects" "remarks" = studio.schema.relations[2]? :=
    rfl
  have hsame := (path_through_many_means_some (p := "author.name") hkey hrelation rfl (by decide)
    hop (by decide) (.str "Lin")).1
  obtain ⟨compiled, hcompiled⟩ := exists_of_isOk (show (studio.compile "projects"
    (Filter.compared ("remarks:comments" ++ "." ++ "author.name") "_contains"
      (.str "Lin"))).isOk = true by decide +kernel)
  refine ⟨compiled, hcompiled, ?_⟩
  rw [hcompiled] at hsame
  cases hquantified : studio.compile "projects" (Filter.quantified "remarks:comments" .some
      (Filter.compared "author.name" "_contains" (.str "Lin"))) with
  | error e =>
      rw [hquantified] at hsame
      cases hsame
  | ok other =>
      rw [hquantified] at hsame
      cases hsame
      rfl

end RowFilter
