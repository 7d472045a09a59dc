import Mathlib.Data.List.Forall2
import Mathlib.Tactic.SplitIfs
import RowFilter.Proofs.Numbering

/-!
# The conditions of a document

The operators of a document are the members whose names start with an underscore, other than
those of groups.  What stands in the operand of a comparison is no part of the filter, but
the value of a quantifier is a filter of its own, which is a scope: field paths start anew in
it.  A document that can be read has one condition for each operator, numbered in the order in
which the reading of the operators ends.

* `Filter.operatorsOf`: the operators of a document, with the field paths around them.
* `Filter.conditions`: the conditions of a filter.
* `Filter.listed_ofJson`: each operator becomes one condition.
* `Filter.conditions_match_operators`: the numbers, paths and operands of the conditions.
-/

namespace RowFilter
namespace Filter

/-! ## Operators of documents -/

/-- An operator in a document, with the field path around it in its scope. -/
structure OperatorMember where
  path : List Segment
  key : String
  value : Json

/-- The segments of a field key; none if it cannot be read. -/
def keySegments (key : String) : List Segment :=
  match FieldPath.ofKey key with
  | .ok segments => segments
  | .error _ => []

mutual

/-- The operators in the members of an object under a field path. -/
def operatorsOfMembers (path : List Segment) : List (String × Json) → List OperatorMember
  | [] => []
  | (key, value) :: rest => operatorsOfMember path key value ++ operatorsOfMembers path rest

/-- The operators in one member.  A quantifier comes after those in its filter. -/
def operatorsOfMember (path : List Segment) (key : String) (value : Json) :
    List OperatorMember :=
  if key = "_and" ∨ key = "_or" then
    match value with
    | .arr items => operatorsOfItems path items
    | _ => []
  else if key = "_some" ∨ key = "_none" then
    match value with
    | .obj members => operatorsOfMembers [] members ++ [⟨path, key, value⟩]
    | _ => [⟨path, key, value⟩]
  else if key.toList.head? = some '_' then
    [⟨path, key, value⟩]
  else
    match value with
    | .obj members => operatorsOfMembers (path ++ keySegments key) members
    | _ => []

/-- The operators in the items of a group. -/
def operatorsOfItems (path : List Segment) : List Json → List OperatorMember
  | [] => []
  | item :: rest =>
      (match item with
        | .obj members => operatorsOfMembers path members
        | _ => []) ++ operatorsOfItems path rest

end

/-- The operators of a document. -/
def operatorsOf : Json → List OperatorMember
  | .obj members => operatorsOfMembers [] members
  | _ => []

/-! ## Conditions of filters -/

/-- What an operator is given. -/
inductive Operand where
  | value (v : Json)
  /-- A filter for related rows. -/
  | filter (inner : Filter)

/-- A condition of a filter. -/
structure Condition where
  id : Nat
  path : List Segment
  operator : Operator
  operand : Operand

mutual

/-- The conditions of a filter, also those in the filters of quantified conditions. -/
def conditions : Filter → List Condition
  | .and children => conditionsOfAll children
  | .or children => conditionsOfAll children
  | .compare id path c v => [⟨id, path, .compare c, .value v⟩]
  | .quantify id field q inner => inner.conditions ++ [⟨id, [field], .quantify q, .filter inner⟩]

/-- The conditions of several filters. -/
def conditionsOfAll : List Filter → List Condition
  | [] => []
  | child :: rest => child.conditions ++ conditionsOfAll rest

end

theorem conditions_conjunction
    (children : List Filter) :
    (conjunction children).conditions = conditionsOfAll children := by
  rcases children with _ | ⟨child, _ | ⟨second, rest⟩⟩
  · rfl
  · simp [conjunction, conditionsOfAll]
  · rfl

mutual

theorem map_id_conditions :
    ∀ filter : Filter, filter.conditions.map Condition.id = filter.ids
  | .and children => map_id_conditionsOfAll children
  | .or children => map_id_conditionsOfAll children
  | .compare id path c v => rfl
  | .quantify id field q inner => by
      rw [conditions, ids, List.map_append, map_id_conditions inner]
      rfl

theorem map_id_conditionsOfAll :
    ∀ filters : List Filter, (conditionsOfAll filters).map Condition.id = idsOfAll filters
  | [] => rfl
  | child :: rest => by
      rw [conditionsOfAll, idsOfAll, List.map_append, map_id_conditions child,
        map_id_conditionsOfAll rest]

end

/-- A condition as it should be. -/
structure Condition.WellFormed (c : Condition) : Prop where
  path_ne : c.path ≠ []
  function : ∀ s ∈ c.path.dropLast, s.function = none
  filter_iff : (∃ inner, c.operand = .filter inner) ↔ ∃ q, c.operator = .quantify q
  single : (∃ q, c.operator = .quantify q) → c.path.length = 1

/-! ## Operators become conditions -/

namespace OperatorMember

/-- The operator takes a filter for related rows. -/
def Quantified (m : OperatorMember) : Prop :=
  m.key = "_some" ∨ m.key = "_none"

/-- The operator stands where it may stand: under a field, with functions on the last field at
most, and directly under it if it is a quantifier. -/
structure WellPlaced (m : OperatorMember) : Prop where
  path_ne : m.path ≠ []
  function : ∀ s ∈ m.path.dropLast, s.function = none
  single : m.Quantified → m.path.length = 1

/-- The condition has the path and the operator of the member.  Its operand is the value of
the member, as it is for a comparison and as a filter for a quantifier. -/
structure Becomes (m : OperatorMember) (c : Condition) : Prop where
  path : c.path = m.path
  operator : c.operator = operatorOf m.key
  value : ¬ m.Quantified → c.operand = .value m.value
  filter : m.Quantified → (∃ members, m.value = .obj members) ∧ ∃ inner, c.operand = .filter inner

end OperatorMember

theorem exists_operatorOf_eq_quantify_iff
    {key : String} :
    (∃ q, operatorOf key = .quantify q) ↔ key = "_some" ∨ key = "_none" := by
  constructor
  · rintro ⟨q, hq⟩
    cases hfound : Operator.ofKey? key with
    | none => simp [operatorOf, hfound] at hq
    | some op =>
        have hkey : op.key = key := by simpa using List.find?_some hfound
        obtain rfl : op = .quantify q := by simpa [operatorOf, hfound] using hq
        cases q
        · exact .inl hkey.symm
        · exact .inr hkey.symm
  · rintro (rfl | rfl)
    · exact ⟨.some, by decide +kernel⟩
    · exact ⟨.none, by decide +kernel⟩

theorem not_quantifier_of_compare
    {key : String} {c : Comparison}
    (hop : operatorOf key = .compare c) :
    ¬(key = "_some" ∨ key = "_none") := by
  simp [← exists_operatorOf_eq_quantify_iff, hop]

theorem operatorsOfMember_field
    {path segments : List Segment} {key : String} {members : List (String × Json)}
    (hkey : key.toList.head? ≠ some '_') (hsegments : FieldPath.ofKey key = .ok segments) :
    operatorsOfMember path key (.obj members) = operatorsOfMembers (path ++ segments) members := by
  have hgroup : ¬(key = "_and" ∨ key = "_or") :=
    not_or.2 ⟨ne_of_head?_ne hkey rfl, ne_of_head?_ne hkey rfl⟩
  have hquantifier : ¬(key = "_some" ∨ key = "_none") :=
    not_or.2 ⟨ne_of_head?_ne hkey rfl, ne_of_head?_ne hkey rfl⟩
  simp [operatorsOfMember, if_neg hgroup, if_neg hquantifier, if_neg hkey, keySegments, hsegments]

theorem OperatorMember.WellPlaced.wellFormed
    {m : OperatorMember} {c : Condition}
    (hm : m.WellPlaced) (h : m.Becomes c) :
    c.WellFormed := by
  have hquantified : (∃ q, c.operator = .quantify q) ↔ m.Quantified := by
    rw [h.operator]
    exact exists_operatorOf_eq_quantify_iff
  constructor
  · rw [h.path]
    exact hm.path_ne
  · rw [h.path]
    exact hm.function
  · rw [hquantified]
    constructor
    · rintro ⟨inner, hinner⟩
      by_contra hvalue
      simp [h.value hvalue] at hinner
    · exact fun hm => (h.filter hm).2
  · rw [hquantified, h.path]
    exact hm.single

/-- The members are well placed, and each one becomes the condition at its place. -/
def Listed (members : List OperatorMember) (conditions : List Condition) : Prop :=
  List.Forall₂ (fun m c => m.WellPlaced ∧ m.Becomes c) members conditions

theorem Listed.wellPlaced
    {members : List OperatorMember} {conditions : List Condition}
    (h : Listed members conditions) :
    ∀ m ∈ members, m.WellPlaced :=
  ((List.forall₂_and_left _ _).1 h).1

theorem Listed.becomes
    {members : List OperatorMember} {conditions : List Condition}
    (h : Listed members conditions) :
    List.Forall₂ OperatorMember.Becomes members conditions :=
  ((List.forall₂_and_left _ _).1 h).2

theorem Listed.wellFormed
    {members : List OperatorMember} {conditions : List Condition}
    (h : Listed members conditions) :
    ∀ c ∈ conditions, c.WellFormed := by
  induction h with
  | nil => simp
  | cons hmember _ ih =>
      intro c hc
      rcases List.mem_cons.1 hc with rfl | hc
      · exact hmember.1.wellFormed hmember.2
      · exact ih c hc

theorem checkPath_eq_ok
    {key : String} {path : List Segment} {u : Unit}
    (h : checkPath key path = .ok u) :
    path ≠ [] ∧ ∀ s ∈ path.dropLast, s.function = none := by
  unfold checkPath at h
  split_ifs at h with hempty hfunction
  constructor
  · simpa using hempty
  · intro s hs
    simp only [List.any_eq_true, not_exists, not_and, Option.isSome_iff_ne_none, ne_eq,
      not_not] at hfunction
    exact hfunction s hs

section Reading

variable {limit depth : Nat} {path : List Segment} {key : String}

theorem gives_listed_atDepth
    {members : Reading (List Filter)} {listed : List OperatorMember}
    (h : members.Gives fun filters => Listed listed (conditionsOfAll filters)) :
    (atDepth limit depth members).Gives fun filter => Listed listed filter.conditions := by
  unfold atDepth
  split
  · exact Attempt.gives_fail _
  · refine h.bind fun filters hfilters => Attempt.gives_pure ?_
    rwa [conditions_conjunction]

/-- A comparison under a field. -/
theorem listed_compare
    {c : Comparison} (id : Nat) (value : Json)
    (hkey : IsOperatorKey key) (hpath : checkPath key path = .ok ())
    (hop : operatorOf key = .compare c) :
    Listed (operatorsOfMember path key value) (Filter.compare id path c value).conditions := by
  have hquantified := not_quantifier_of_compare hop
  obtain ⟨hne, hfunction⟩ := checkPath_eq_ok hpath
  unfold operatorsOfMember
  rw [if_neg (not_or.2 ⟨hkey.ne_and, hkey.ne_or⟩), if_neg hquantified, if_pos hkey.head]
  refine .cons ⟨?_, ?_⟩ .nil
  · exact ⟨hne, hfunction, fun h => absurd h hquantified⟩
  · exact ⟨rfl, hop.symm, fun _ => rfl, fun h => absurd h hquantified⟩

/-- A quantifier under a field, after what stands inside it. -/
theorem listed_quantify
    {q : Quantifier} {field : Segment} {inner : Filter} {members : List (String × Json)} (id : Nat)
    (hkey : IsOperatorKey key) (hpath : checkPath key [field] = .ok ())
    (hop : operatorOf key = .quantify q)
    (hinner : Listed (operatorsOfMembers [] members) inner.conditions) :
    Listed (operatorsOfMember [field] key (.obj members))
      (Filter.quantify id field q inner).conditions := by
  have hquantified : key = "_some" ∨ key = "_none" :=
    exists_operatorOf_eq_quantify_iff.1 ⟨q, hop⟩
  obtain ⟨hne, hfunction⟩ := checkPath_eq_ok hpath
  rw [operatorsOfMember, if_neg (not_or.2 ⟨hkey.ne_and, hkey.ne_or⟩), if_pos hquantified]
  refine List.rel_append hinner (.cons ⟨?_, ?_⟩ .nil)
  · exact ⟨hne, hfunction, fun _ => rfl⟩
  · exact ⟨rfl, hop.symm, fun h => absurd hquantified h, fun _ => ⟨⟨_, rfl⟩, _, rfl⟩⟩

/-- One member of an object, from the readings of what stands inside its value. -/
theorem gives_listed_readMember_of
    {value : Json}
    (hitems : ∀ items, value = .arr items → (readItems limit depth path key items).Gives
      fun filters => Listed (operatorsOfItems path items) (conditionsOfAll filters))
    (hmembers : ∀ path members, value = .obj members →
      (readMembers limit (depth + 1) path members).Gives
        fun filters => Listed (operatorsOfMembers path members) (conditionsOfAll filters)) :
    (readMember limit depth path key value).Gives
      fun filter => Listed (operatorsOfMember path key value) filter.conditions := by
  obtain ⟨read, hreading, hread⟩ := exists_memberReading path key value
  rw [hread]
  cases hreading with
  | refused _ e => exact Attempt.gives_fail e
  | group items hgroup =>
      rw [operatorsOfMember, if_pos (hgroup.imp And.left And.left)]
      refine (hitems items rfl).bind fun filters hfilters => Attempt.gives_pure ?_
      rcases hgroup with ⟨-, rfl⟩ | ⟨-, rfl⟩ <;> exact hfilters
  | compare _ hkey hpath hop =>
      exact Attempt.gives_after fun id => Attempt.gives_pure (listed_compare id _ hkey hpath hop)
  | quantify members hkey hpath hop hfield =>
      subst hfield
      refine (gives_listed_atDepth (hmembers [] members rfl)).bind fun inner hinner => ?_
      refine Attempt.gives_after fun id => Attempt.gives_pure ?_
      exact listed_quantify id hkey hpath hop hinner
  | field members hkey hsegments =>
      rw [operatorsOfMember_field hkey hsegments]
      exact gives_listed_atDepth (hmembers _ members rfl)

end Reading

theorem gives_listed_readMembers
    (limit depth : Nat) (path : List Segment) (members : List (String × Json)) :
    (readMembers limit depth path members).Gives
      fun filters => Listed (operatorsOfMembers path members) (conditionsOfAll filters) := by
  have h : Json.InsideOut
      (fun members => ∀ depth path, (readMembers limit depth path members).Gives
        fun filters => Listed (operatorsOfMembers path members) (conditionsOfAll filters))
      (fun v => ∀ depth path key, (readMember limit depth path key v).Gives
        fun filter => Listed (operatorsOfMember path key v) filter.conditions)
      (fun items => ∀ depth path key, (readItems limit depth path key items).Gives
        fun filters => Listed (operatorsOfItems path items) (conditionsOfAll filters)) := by
    constructor
    · intro depth path
      rw [readMembers]
      exact Attempt.gives_pure .nil
    · intro key v rest hvalue hrest depth path
      rw [readMembers, operatorsOfMembers]
      refine (hvalue depth path key).bind fun child hchild => ?_
      refine (hrest depth path).bind fun children hchildren => ?_
      exact Attempt.gives_pure (List.rel_append hchild hchildren)
    · intro v hitems hmembers depth path key
      exact gives_listed_readMember_of (fun items hv => hitems items hv depth path key)
        fun path members hv => hmembers members hv (depth + 1) path
    · intro depth path key
      rw [readItems]
      exact Attempt.gives_pure .nil
    · intro v rest hmembers hrest depth path key
      cases v with
      | obj members =>
          rw [readItems, operatorsOfItems]
          refine (gives_listed_atDepth (hmembers members rfl (depth + 1) path)).bind
            fun child hchild => ?_
          refine (hrest depth path key).bind fun children hchildren => ?_
          exact Attempt.gives_pure (List.rel_append hchild hchildren)
      | _ => exact Attempt.gives_fail _
  exact h.ofMembers members depth path

/-- Each operator of a document that can be read is well placed and becomes one condition. -/
theorem listed_ofJson
    {limit : Nat} {document : Json} {filter : Filter}
    (h : ofJson limit document = .ok filter) :
    Listed (operatorsOf document) filter.conditions := by
  unfold ofJson at h
  split at h
  · cases h
    exact .nil
  · rename_i members
    exact gives_listed_atDepth (gives_listed_readMembers limit 0 [] members) 0 filter _
      (Prod.ext h rfl)
  · cases h

/-- The conditions of a filter are the operators of its document, one each and in order, and
they are numbered from zero on.  Every condition has a path, with functions on its last
segment at most, and it has a filter as its operand just if its operator is a quantifier.  A
document with a quantifier that does not stand directly under a field is refused. -/
theorem conditions_match_operators :
    (∀ (limit : Nat) (document : Json) (filter : Filter), ofJson limit document = .ok filter →
      filter.conditions.map Condition.id = List.range (operatorsOf document).length ∧
      List.Forall₂ OperatorMember.Becomes (operatorsOf document) filter.conditions ∧
      ∀ c ∈ filter.conditions, c.WellFormed) ∧
    ∀ (limit : Nat) (document : Json),
      (∃ m ∈ operatorsOf document, m.Quantified ∧ m.path.length ≠ 1) →
      ∃ e, ofJson limit document = .error e := by
  constructor
  · intro limit document filter h
    have hlisted := listed_ofJson h
    obtain ⟨k, hk⟩ := ids_ofJson h
    rw [← map_id_conditions] at hk
    have hlength : k = (operatorsOf document).length := by
      simpa [← hlisted.length_eq] using (congrArg List.length hk).symm
    rw [hk, hlength, List.range_eq_range']
    exact ⟨rfl, hlisted.becomes, hlisted.wellFormed⟩
  · rintro limit document ⟨m, hm, hquantified, hpath⟩
    cases h : ofJson limit document with
    | ok filter => exact absurd (((listed_ofJson h).wellPlaced m hm).single hquantified) hpath
    | error e => exact ⟨e, rfl⟩

/-- Orders that ask for more than a number of pieces of some part, or have no customer of a
given name.  The operand of `_in` looks like a filter and is none. -/
def bulkOrNobody : Json :=
  .obj [("_or", .arr [
    .obj [("items", .obj [("_some", .obj [
      ("part.kind", .obj [("_in", .arr [.obj [("_eq", .str "bolt")]])]),
      ("pieces", .obj [("_gt", .num (.int 100))])])])],
    .obj [("customers", .obj [("_none", .obj [("name", .obj [("_eq", .str "Kim")])])])]])]

/-- A quantifier two fields below its scope. -/
def partsOfItems : Json :=
  .obj [("items", .obj [("parts", .obj [
    ("_none", .obj [("kind", .obj [("_null", .bool true)])])])])]

theorem conditions_match_operators_bulkOrNobody :
    (∃ filter, ofJson 5 bulkOrNobody = .ok filter ∧
      filter.conditions.map Condition.id = [0, 1, 2, 3, 4]) ∧
    ∃ e, ofJson 5 partsOfItems = .error e := by
  constructor
  · have hok : (ofJson 5 bulkOrNobody).isOk = true := by decide +kernel
    have hlength : (operatorsOf bulkOrNobody).length = 5 := by decide +kernel
    obtain ⟨filter, hfilter⟩ := exists_of_isOk hok
    have hids := (conditions_match_operators.1 5 _ _ hfilter).1
    rw [hlength] at hids
    exact ⟨filter, hfilter, hids⟩
  · have hmember : (operatorsOf partsOfItems).any
        (fun m => (m.key == "_none") && (m.path.length != 1)) = true := by decide +kernel
    obtain ⟨m, hm, h⟩ := List.any_eq_true.1 hmember
    rw [Bool.and_eq_true, beq_iff_eq, bne_iff_ne] at h
    exact conditions_match_operators.2 5 partsOfItems ⟨m, hm, .inr h.1, h.2⟩

end Filter
end RowFilter
