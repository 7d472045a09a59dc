import RowFilter.Filter.Reader
import RowFilter.Proofs.Inquiries
import RowFilter.Proofs.Likeness

/-!
# Filters that differ in operands only

Two documents are compared that are the same but for the operands of comparisons.
Corresponding operands give criteria of one shape: the same template with the same
number of values.

* `Filter.SameDocument`: such documents.
* `Filter.parallel_ofJson`: they are read in the same way, to filters that differ
  in operands only.
* `Filter.casts`: the casts that are chosen by conditions inside JSON documents.
* `Filter.Parallel.indistinct`: filters that differ in operands only and choose the
  same casts have alike criteria at every condition.
-/

namespace RowFilter

/-- The operands give criteria of one shape, or the same error. -/
def Comparison.SameShape (c : Comparison) (o o' : Json) : Prop :=
  (c.criterion o).map Criterion.shape = (c.criterion o').map Criterion.shape

namespace Filter

/-- The comparison that the name of a member stands for. -/
def comparisonOf? (key : String) : Option Comparison :=
  if key = "_and" ∨ key = "_or" then
    none
  else if key.toList.head? = some '_' then
    match operatorOf key with
    | .compare c => some c
    | .quantify _ => none
  else
    none

mutual

/-- Members with the same names whose values are the same but for operands. -/
inductive SameMembers : List (String × Json) → List (String × Json) → Prop
  | nil : SameMembers [] []
  | cons {key : String} {v v' : Json} {rest rest' : List (String × Json)}
      (hvalue : SameValue key v v') (hrest : SameMembers rest rest') :
      SameMembers ((key, v) :: rest) ((key, v') :: rest')

/-- Values under a name that are the same but for operands: the values are operands
themselves, or operands stand inside them. -/
inductive SameValue : String → Json → Json → Prop
  | same (key : String) (v : Json) : SameValue key v v
  | operand {key : String} {c : Comparison} {o o' : Json} (hkey : comparisonOf? key = some c)
      (h : c.SameShape o o') : SameValue key o o'
  | group {key : String} {items items' : List Json} (hkey : key = "_and" ∨ key = "_or")
      (h : SameItems items items') : SameValue key (.arr items) (.arr items')
  | nested {key : String} {members members' : List (String × Json)}
      (hkey : comparisonOf? key = none) (h : SameMembers members members') :
      SameValue key (.obj members) (.obj members')

/-- Items of a group that are the same but for operands. -/
inductive SameItems : List Json → List Json → Prop
  | nil : SameItems [] []
  | same (item : Json) {rest rest' : List Json} (hrest : SameItems rest rest') :
      SameItems (item :: rest) (item :: rest')
  | cons {members members' : List (String × Json)} {rest rest' : List Json}
      (h : SameMembers members members') (hrest : SameItems rest rest') :
      SameItems (.obj members :: rest) (.obj members' :: rest')

end

/-- Documents that are the same but for the operands of comparisons. -/
inductive SameDocument : Json → Json → Prop
  | same (document : Json) : SameDocument document document
  | nested {members members' : List (String × Json)} (h : SameMembers members members') :
      SameDocument (.obj members) (.obj members')

mutual

/-- Filters that differ in operands only, which give criteria of one shape. -/
inductive Parallel : Filter → Filter → Prop
  | and {children children' : List Filter} (h : AllParallel children children') :
      Parallel (.and children) (.and children')
  | or {children children' : List Filter} (h : AllParallel children children') :
      Parallel (.or children) (.or children')
  | compare (id : Nat) (path : List Segment) {c : Comparison} {o o' : Json}
      (h : c.SameShape o o') : Parallel (.compare id path c o) (.compare id path c o')
  | quantify (id : Nat) (field : Segment) (q : Quantifier) {inner inner' : Filter}
      (h : Parallel inner inner') :
      Parallel (.quantify id field q inner) (.quantify id field q inner')

/-- Lists of such filters. -/
inductive AllParallel : List Filter → List Filter → Prop
  | nil : AllParallel [] []
  | cons {child child' : Filter} {rest rest' : List Filter} (h : Parallel child child')
      (hrest : AllParallel rest rest') : AllParallel (child :: rest) (child' :: rest')

end

mutual

theorem parallel_refl :
    ∀ filter : Filter, Parallel filter filter
  | .and children => .and (allParallel_refl children)
  | .or children => .or (allParallel_refl children)
  | .compare id path _ _ => .compare id path rfl
  | .quantify id field q inner => .quantify id field q (parallel_refl inner)

theorem allParallel_refl :
    ∀ filters : List Filter, AllParallel filters filters
  | [] => .nil
  | filter :: rest => .cons (parallel_refl filter) (allParallel_refl rest)

end

/-! ## Reading -/

theorem parallel_conjunction
    {children children' : List Filter}
    (h : AllParallel children children') :
    Parallel (conjunction children) (conjunction children') := by
  cases h with
  | nil => exact .and .nil
  | cons hchild hrest =>
      cases hrest with
      | nil => exact hchild
      | cons hsecond hrest => exact .and (.cons hchild (.cons hsecond hrest))

theorem inStep_atDepth
    {limit depth : Nat} {members members' : Reading (List Filter)}
    (h : Attempt.InStep AllParallel members members') :
    Attempt.InStep Parallel (atDepth limit depth members) (atDepth limit depth members') := by
  rw [atDepth, atDepth]
  split
  · exact Attempt.inStep_fail _
  · exact h.bind fun _ _ hchildren => Attempt.inStep_pure (parallel_conjunction hchildren)

/-- A comparison is read without a look at its operand. -/
theorem readMember_operand
    {limit depth : Nat} {path : List Segment} {key : String} {c : Comparison}
    (hkey : comparisonOf? key = some c) (v : Json) :
    readMember limit depth path key v = (do
      Attempt.ofExcept (checkPath key path)
      return .compare (← nextId) path c v) := by
  unfold comparisonOf? at hkey
  split_ifs at hkey with hgroup hoperator
  obtain ⟨hand, hor⟩ := not_or.1 hgroup
  split at hkey
  · rename_i c' hop
    cases hkey
    unfold readMember
    simp only [if_neg hand, if_neg hor, if_pos hoperator, hop]
  · cases hkey

theorem inStep_readMember_operand
    {key : String} {c : Comparison} {o o' : Json}
    (hkey : comparisonOf? key = some c) (h : c.SameShape o o') (limit depth : Nat)
    (path : List Segment) :
    Attempt.InStep Parallel (readMember limit depth path key o)
      (readMember limit depth path key o') := by
  rw [readMember_operand hkey, readMember_operand hkey]
  refine (Attempt.inStep_same (Q := Eq) (fun _ => rfl) _).bind fun _ _ _ => ?_
  refine (Attempt.inStep_same (Q := Eq) (fun _ => rfl) _).bind fun id _ hid => ?_
  cases hid
  exact Attempt.inStep_pure (.compare id path h)

theorem inStep_readMember_nested
    {key : String} {members members' : List (String × Json)} {limit depth : Nat}
    (hkey : comparisonOf? key = none)
    (h : ∀ path, Attempt.InStep AllParallel (readMembers limit (depth + 1) path members)
      (readMembers limit (depth + 1) path members'))
    (path : List Segment) :
    Attempt.InStep Parallel (readMember limit depth path key (.obj members))
      (readMember limit depth path key (.obj members')) := by
  unfold readMember
  split_ifs with hand hor hoperator
  · exact Attempt.inStep_fail _
  · exact Attempt.inStep_fail _
  · refine (Attempt.inStep_same (Q := Eq) (fun _ => rfl) _).bind fun _ _ _ => ?_
    cases hop : operatorOf key with
    | compare c =>
        rw [comparisonOf?, if_neg (not_or.2 ⟨hand, hor⟩), if_pos hoperator, hop] at hkey
        cases hkey
    | quantify q =>
        rcases path with _ | ⟨field, _ | ⟨second, rest⟩⟩
        · exact Attempt.inStep_fail _
        · refine (inStep_atDepth (h [])).bind fun inner inner' hinner => ?_
          refine (Attempt.inStep_same (Q := Eq) (fun _ => rfl) _).bind fun id _ hid => ?_
          cases hid
          exact Attempt.inStep_pure (.quantify id field q hinner)
        · exact Attempt.inStep_fail _
  · refine (Attempt.inStep_same (Q := Eq) (fun _ => rfl) _).bind fun segments _ hsegments => ?_
    cases hsegments
    exact inStep_atDepth (h _)

mutual

/-- Members that are the same but for operands are read in the same way. -/
theorem inStep_readMembers
    (limit : Nat) :
    ∀ {members members' : List (String × Json)}, SameMembers members members' →
      ∀ depth path, Attempt.InStep AllParallel (readMembers limit depth path members)
        (readMembers limit depth path members')
  | _, _, .nil, depth, path => by
      rw [readMembers]
      exact Attempt.inStep_pure .nil
  | _, _, .cons hvalue hrest, depth, path => by
      rw [readMembers, readMembers]
      refine (inStep_readMember limit hvalue depth path).bind fun child child' hchild => ?_
      refine (inStep_readMembers limit hrest depth path).bind fun children children' hchildren => ?_
      exact Attempt.inStep_pure (.cons hchild hchildren)

theorem inStep_readMember
    (limit : Nat) :
    ∀ {key : String} {v v' : Json}, SameValue key v v' →
      ∀ depth path, Attempt.InStep Parallel (readMember limit depth path key v)
        (readMember limit depth path key v')
  | _, _, _, .same key v, depth, path => Attempt.inStep_same parallel_refl _
  | _, _, _, .operand hkey h, depth, path => inStep_readMember_operand hkey h limit depth path
  | key, _, _, .group hkey h, depth, path => by
      have hitems := inStep_readItems limit h depth path key
      unfold readMember
      split_ifs with hand hor
      · exact hitems.bind fun _ _ hchildren => Attempt.inStep_pure (.and hchildren)
      · exact hitems.bind fun _ _ hchildren => Attempt.inStep_pure (.or hchildren)
      · exact absurd hkey (not_or.2 ⟨hand, hor⟩)
      · exact absurd hkey (not_or.2 ⟨hand, hor⟩)
  | _, _, _, .nested hkey h, depth, path =>
      inStep_readMember_nested hkey (inStep_readMembers limit h (depth + 1)) path

theorem inStep_readItems
    (limit : Nat) :
    ∀ {items items' : List Json}, SameItems items items' →
      ∀ depth path key, Attempt.InStep AllParallel (readItems limit depth path key items)
        (readItems limit depth path key items')
  | _, _, .nil, depth, path, key => by
      rw [readItems]
      exact Attempt.inStep_pure .nil
  | _, _, .same item hrest, depth, path, key => by
      have hitem (child : Reading Filter) := (Attempt.inStep_same parallel_refl child).bind
        fun _ _ hchild => (inStep_readItems limit hrest depth path key).bind
          fun _ _ hchildren => Attempt.inStep_pure (AllParallel.cons hchild hchildren)
      unfold readItems
      dsimp only
      split
      · exact hitem _
      · exact hitem _
  | _, _, .cons h hrest, depth, path, key => by
      rw [readItems, readItems]
      refine (inStep_atDepth (inStep_readMembers limit h (depth + 1) path)).bind
        fun child child' hchild => ?_
      refine (inStep_readItems limit hrest depth path key).bind fun children children' hchildren => ?_
      exact Attempt.inStep_pure (.cons hchild hchildren)

end

/-- Documents that are the same but for operands are read to parallel filters, or
give the same error. -/
theorem parallel_ofJson
    {document document' : Json}
    (h : SameDocument document document') (limit : Nat) :
    SameOutcome Parallel (ofJson limit document) (ofJson limit document') := by
  cases h with
  | same =>
      cases ofJson limit document with
      | ok filter => exact .ok (parallel_refl filter)
      | error e => exact .error e
  | @nested members members' h =>
      have hread : Attempt.InStep Parallel (atDepth limit 0 (readMembers limit 0 [] members))
          (atDepth limit 0 (readMembers limit 0 [] members')) :=
        inStep_atDepth (inStep_readMembers limit h 0 [])
      have hrun := hread 0 0 rfl
      rw [ofJson, ofJson]
      generalize (atDepth limit 0 (readMembers limit 0 [] members)).run 0 = outcome at hrun ⊢
      generalize (atDepth limit 0 (readMembers limit 0 [] members')).run 0 = outcome' at hrun ⊢
      cases hrun with
      | ok hfilter => exact .ok hfilter.1
      | error e => exact .error e

end Filter

/-! ## Casts -/

/-- The collection behind a relation on a field. -/
def Schema.rowsBehind? (schema : Schema) (collection : String) (field : Segment) :
    Option String :=
  (schema.relation? collection field.name).bind fun relation =>
    (relation.target field.scope).toOption

/-- A path from a collection ends inside a JSON document. -/
def Schema.readsDocument (schema : Schema) (collection : String) : List Segment → Bool
  | [] => false
  | segment :: rest =>
      match schema.relation? collection segment.name with
      | some relation =>
          (relation.target segment.scope).toOption.any fun related =>
            schema.readsDocument related rest
      | none =>
          (schema.field? collection segment.name).any (·.type.isJson) && !rest.isEmpty

namespace Criterion

theorem shape_map
    (f : Value → Value) (c : Criterion) :
    (c.map f).shape = c.shape := by
  cases c <;> simp [shape, map, Function.comp_def]

theorem shape_casted
    (c : Criterion) :
    c.casted.shape = c.shape := by
  rw [casted]
  split
  · exact shape_map _ c
  · exact shape_map _ c

theorem length_values_of_shape
    {c c' : Criterion}
    (h : c.shape = c'.shape) :
    c.values.length = c'.values.length := by
  have hvalues := congrArg (fun k => k.values.length) h
  simpa [shape] using hvalues

end Criterion

/-- Values for which the operands of two comparisons stand, at the same place of
their criteria. -/
def Comparison.OperandValues (c : Comparison) (o o' : Json) (v v' : Value) : Prop :=
  ∃ k k', c.criterion o = .ok k ∧ c.criterion o' = .ok k' ∧
    ((v, v') ∈ k.values.zip k'.values ∨ (v, v') ∈ k.casted.values.zip k'.casted.values)

/-- Operands of one shape that choose the same cast where one is chosen give
criteria that are alike. -/
theorem Comparison.SameShape.indistinct
    {R : Value → Value → Prop} {c : Comparison} {o o' : Json} {inside : Bool}
    (h : c.SameShape o o')
    (hcast : inside = true →
      (c.criterion o).toOption.map Criterion.castType =
        (c.criterion o').toOption.map Criterion.castType)
    (hR : ∀ v v', c.OperandValues o o' v v' → R v v') :
    SameOutcome (Criterion.Indistinct R inside) (c.criterion o) (c.criterion o') := by
  rw [Comparison.SameShape] at h
  cases ho : c.criterion o with
  | error e =>
      rw [ho] at h
      cases ho' : c.criterion o' with
      | error e' =>
          rw [ho'] at h
          cases h
          exact .error e
      | ok k' =>
          rw [ho'] at h
          cases h
  | ok k =>
      rw [ho] at h
      cases ho' : c.criterion o' with
      | error e' =>
          rw [ho'] at h
          cases h
      | ok k' =>
          rw [ho'] at h
          have hshape : k.shape = k'.shape := Except.ok.inj h
          have hcasted : k.casted.shape = k'.casted.shape := by
            rw [k.shape_casted, k'.shape_casted, hshape]
          refine .ok ⟨Criterion.alike_of_shape hshape ?_, fun hinside => ?_, fun _ =>
            Criterion.alike_of_shape hcasted ?_⟩
          · refine List.forall₂_iff_zip.2 ⟨Criterion.length_values_of_shape hshape, ?_⟩
            exact fun hv => hR _ _ ⟨k, k', ho, ho', .inl hv⟩
          · have hcast := hcast hinside
            rw [ho, ho'] at hcast
            exact Option.some.inj hcast
          · refine List.forall₂_iff_zip.2 ⟨Criterion.length_values_of_shape hcasted, ?_⟩
            exact fun hv => hR _ _ ⟨k, k', ho, ho', .inr hv⟩

namespace Filter

mutual

/-- The casts that the conditions inside JSON documents choose, in order.  The
filter is one on a collection. -/
def casts (schema : Schema) (collection : String) : Filter → List (Option Sql.CastType)
  | .and children => allCasts schema collection children
  | .or children => allCasts schema collection children
  | .compare _ path c operand =>
      if schema.readsDocument collection path then
        [(c.criterion operand).toOption.map Criterion.castType]
      else
        []
  | .quantify _ field _ inner =>
      match schema.rowsBehind? collection field with
      | some related => inner.casts schema related
      | none => []

/-- The casts of several filters. -/
def allCasts (schema : Schema) (collection : String) :
    List Filter → List (Option Sql.CastType)
  | [] => []
  | child :: rest => child.casts schema collection ++ allCasts schema collection rest

end

mutual

theorem Parallel.length_casts
    {schema : Schema} :
    ∀ {f f' : Filter}, Parallel f f' → ∀ collection,
      (f.casts schema collection).length = (f'.casts schema collection).length
  | _, _, .and h, collection => by
      rw [casts, casts]
      exact h.length_casts collection
  | _, _, .or h, collection => by
      rw [casts, casts]
      exact h.length_casts collection
  | _, _, .compare id path h, collection => by
      rw [casts, casts]
      split
      · rfl
      · rfl
  | _, _, .quantify id field q h, collection => by
      rw [casts, casts]
      split
      · exact h.length_casts _
      · rfl

theorem AllParallel.length_casts
    {schema : Schema} :
    ∀ {fs fs' : List Filter}, AllParallel fs fs' → ∀ collection,
      (allCasts schema collection fs).length = (allCasts schema collection fs').length
  | _, _, .nil, _ => rfl
  | _, _, .cons h hrest, collection => by
      rw [allCasts, allCasts, List.length_append, List.length_append, h.length_casts collection,
        hrest.length_casts collection]

end

mutual

/-- The comparisons of a filter with their numbers and operands. -/
def comparisons : Filter → List (Nat × Comparison × Json)
  | .and children => allComparisons children
  | .or children => allComparisons children
  | .compare id _ c operand => [(id, c, operand)]
  | .quantify _ _ _ inner => inner.comparisons

/-- The comparisons of several filters. -/
def allComparisons : List Filter → List (Nat × Comparison × Json)
  | [] => []
  | child :: rest => child.comparisons ++ allComparisons rest

end

/-- Values that are the same, or for which the operands of one and the same
comparison stand in the two filters. -/
def BoundAlike (f f' : Filter) (v v' : Value) : Prop :=
  v = v' ∨ ∃ id c o o', (id, c, o) ∈ f.comparisons ∧ (id, c, o') ∈ f'.comparisons ∧
    c.OperandValues o o' v v'

mutual

/-- Filters on a collection that differ in operands only, with alike criteria at
every condition. -/
inductive Indistinct (schema : Schema) (R : Value → Value → Prop) :
    String → Filter → Filter → Prop
  | and {collection : String} {children children' : List Filter}
      (h : AllIndistinct schema R collection children children') :
      Indistinct schema R collection (.and children) (.and children')
  | or {collection : String} {children children' : List Filter}
      (h : AllIndistinct schema R collection children children') :
      Indistinct schema R collection (.or children) (.or children')
  | compare {collection : String} (id : Nat) (path : List Segment) {c : Comparison} {o o' : Json}
      (h : SameOutcome (Criterion.Indistinct R (schema.readsDocument collection path))
        (c.criterion o) (c.criterion o')) :
      Indistinct schema R collection (.compare id path c o) (.compare id path c o')
  | quantify {collection : String} (id : Nat) (field : Segment) (q : Quantifier)
      {inner inner' : Filter}
      (h : ∀ related, schema.rowsBehind? collection field = some related →
        Indistinct schema R related inner inner') :
      Indistinct schema R collection (.quantify id field q inner) (.quantify id field q inner')

/-- Lists of such filters. -/
inductive AllIndistinct (schema : Schema) (R : Value → Value → Prop) :
    String → List Filter → List Filter → Prop
  | nil {collection : String} : AllIndistinct schema R collection [] []
  | cons {collection : String} {child child' : Filter} {rest rest' : List Filter}
      (h : Indistinct schema R collection child child')
      (hrest : AllIndistinct schema R collection rest rest') :
      AllIndistinct schema R collection (child :: rest) (child' :: rest')

end

mutual

/-- Parallel filters that choose the same casts cannot be told apart, if `R` relates
the values for which the operands of their comparisons stand. -/
theorem Parallel.indistinct
    {schema : Schema} {R : Value → Value → Prop} :
    ∀ {f f' : Filter}, Parallel f f' → ∀ collection,
      f.casts schema collection = f'.casts schema collection →
      (∀ id c o o' v v', (id, c, o) ∈ f.comparisons → (id, c, o') ∈ f'.comparisons →
        c.OperandValues o o' v v' → R v v') →
      Indistinct schema R collection f f'
  | _, _, .and h, collection, hcasts, hR => by
      rw [casts, casts] at hcasts
      simp only [comparisons] at hR
      exact .and (h.indistinct collection hcasts hR)
  | _, _, .or h, collection, hcasts, hR => by
      rw [casts, casts] at hcasts
      simp only [comparisons] at hR
      exact .or (h.indistinct collection hcasts hR)
  | .compare id path c o, .compare _ _ _ o', .compare _ _ h, collection, hcasts, hR => by
      rw [casts, casts] at hcasts
      simp only [comparisons] at hR
      refine .compare id path (h.indistinct (fun hinside => ?_) fun v v' hv =>
        hR id c o o' v v' List.mem_cons_self List.mem_cons_self hv)
      rw [if_pos hinside, if_pos hinside] at hcasts
      exact List.head_eq_of_cons_eq hcasts
  | _, _, .quantify id field q h, collection, hcasts, hR => by
      rw [casts, casts] at hcasts
      simp only [comparisons] at hR
      refine .quantify id field q fun related hrelated => ?_
      rw [hrelated] at hcasts
      exact h.indistinct related hcasts hR

theorem AllParallel.indistinct
    {schema : Schema} {R : Value → Value → Prop} :
    ∀ {fs fs' : List Filter}, AllParallel fs fs' → ∀ collection,
      allCasts schema collection fs = allCasts schema collection fs' →
      (∀ id c o o' v v', (id, c, o) ∈ allComparisons fs → (id, c, o') ∈ allComparisons fs' →
        c.OperandValues o o' v v' → R v v') →
      AllIndistinct schema R collection fs fs'
  | _, _, .nil, _, _, _ => .nil
  | _, _, .cons h hrest, collection, hcasts, hR => by
      rw [allCasts, allCasts] at hcasts
      simp only [allComparisons] at hR
      obtain ⟨hhead, htail⟩ := List.append_inj hcasts (h.length_casts collection)
      refine .cons (h.indistinct collection hhead fun id c o o' v v' ho ho' => ?_)
        (hrest.indistinct collection htail fun id c o o' v v' ho ho' => ?_)
      · exact hR id c o o' v v' (List.mem_append_left _ ho) (List.mem_append_left _ ho')
      · exact hR id c o o' v v' (List.mem_append_right _ ho) (List.mem_append_right _ ho')

end

end Filter

end RowFilter
