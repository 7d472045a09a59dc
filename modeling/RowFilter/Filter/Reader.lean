import RowFilter.Attempt
import RowFilter.FieldPath.Key
import RowFilter.Filter.Basic

/-!
# Reading filters

A filter is written as an object.  A member `_and` or `_or` holds an array of
filters, any other member whose name starts with an underscore is an operator on
the field around it, and every other member is a field key with the filter for
that field.  Several members of an object must all hold.

Conditions are numbered in the order in which their reading ends, so a
quantified condition comes after the conditions of its own filter.
-/

namespace RowFilter
namespace Filter

/-- Reading with the number of the next condition. -/
abbrev Reading (α : Type) : Type :=
  Attempt Nat α

/-- Takes the next number. -/
def nextId : Reading Nat :=
  Attempt.ofState fun n => (n, n + 1)

/-- The filter of an object at a depth, from the filters of its members. -/
def atDepth (limit depth : Nat) (members : Reading (List Filter)) : Reading Filter :=
  if depth > limit then
    .fail (.tooDeep limit)
  else do
    return conjunction (← members)

/-- The operator of a member; a key that is not known compares for equality. -/
def operatorOf (key : String) : Operator :=
  (Operator.ofKey? key).getD (.compare (.equal false))

/-- A field path that an operator may stand under. -/
def checkPath (key : String) (path : List Segment) : Except QueryError Unit :=
  if path.isEmpty then
    .error (.operatorWithoutField key)
  else if path.dropLast.any (·.function.isSome) then
    .error .functionBeforeLast
  else
    .ok ()

mutual

/-- The filters of the members of an object under a field path. -/
def readMembers (limit depth : Nat) (path : List Segment) :
    List (String × Json) → Reading (List Filter)
  | [] => return []
  | (key, value) :: rest => do
      let child ← readMember limit depth path key value
      let children ← readMembers limit depth path rest
      return child :: children

/-- The filter of one member. -/
def readMember (limit depth : Nat) (path : List Segment) (key : String) (value : Json) :
    Reading Filter :=
  if key = "_and" then
    match value with
    | .arr items => return .and (← readItems limit depth path key items)
    | _ => .fail (.groupNotArray key)
  else if key = "_or" then
    match value with
    | .arr items => return .or (← readItems limit depth path key items)
    | _ => .fail (.groupNotArray key)
  else if key.toList.head? = some '_' then do
    Attempt.ofExcept (checkPath key path)
    match operatorOf key with
    | .compare c => return .compare (← nextId) path c value
    | .quantify q =>
        match path with
        | [field] =>
            match value with
            | .obj members => do
                let inner ← atDepth limit (depth + 1) (readMembers limit (depth + 1) [] members)
                return .quantify (← nextId) field q inner
            | _ => .fail (.quantifierNotObject key)
        | _ => .fail (.quantifierTooDeep key)
  else
    match value with
    | .obj members => do
        let segments ← Attempt.ofExcept (FieldPath.ofKey key)
        atDepth limit (depth + 1) (readMembers limit (depth + 1) (path ++ segments) members)
    | got => .fail (.fieldNotObject key got)

/-- The filters of the items of a group. -/
def readItems (limit depth : Nat) (path : List Segment) (key : String) :
    List Json → Reading (List Filter)
  | [] => return []
  | item :: rest => do
      let child ←
        match item with
        | .obj members => atDepth limit (depth + 1) (readMembers limit (depth + 1) path members)
        | got => .fail (.groupItemNotObject key got)
      let children ← readItems limit depth path key rest
      return child :: children

end

section Fields

variable {limit depth : Nat} {path : List Segment} {key : String}

theorem ne_of_head?_ne
    {other : String}
    (hkey : key.toList.head? ≠ some '_') (hother : other.toList.head? = some '_') :
    key ≠ other := by
  rintro rfl
  exact hkey hother

/-- A key without an underscore is a field key. -/
theorem readMember_field
    (hkey : key.toList.head? ≠ some '_') (members : List (String × Json)) :
    readMember limit depth path key (.obj members) = (do
      let segments ← Attempt.ofExcept (FieldPath.ofKey key)
      atDepth limit (depth + 1) (readMembers limit (depth + 1) (path ++ segments) members)) := by
  have hand : key ≠ "_and" := ne_of_head?_ne hkey rfl
  have hor : key ≠ "_or" := ne_of_head?_ne hkey rfl
  rw [readMember, if_neg hand, if_neg hor, if_neg hkey]

/-- The value of a field must be an object. -/
theorem readMember_field_of_ne
    {v : Json}
    (hkey : key.toList.head? ≠ some '_') (hobj : ∀ members, v ≠ .obj members) :
    readMember limit depth path key v = .fail (.fieldNotObject key v) := by
  have hand : key ≠ "_and" := ne_of_head?_ne hkey rfl
  have hor : key ≠ "_or" := ne_of_head?_ne hkey rfl
  cases v with
  | obj members => exact absurd rfl (hobj members)
  | _ =>
      unfold readMember
      rw [if_neg hand, if_neg hor, if_neg hkey]

end Fields

/-- A key with an underscore that is none of a group. -/
structure IsOperatorKey (key : String) : Prop where
  ne_and : key ≠ "_and"
  ne_or : key ≠ "_or"
  head : key.toList.head? = some '_'

/-- The ways in which a member is read, at every limit and depth. -/
inductive MemberReading (path : List Segment) (key : String) :
    Json → (Nat → Nat → Reading Filter) → Prop
  | refused (value : Json) (e : QueryError) : MemberReading path key value fun _ _ => .fail e
  | group {combine : List Filter → Filter} (items : List Json)
      (hkey : key = "_and" ∧ combine = .and ∨ key = "_or" ∧ combine = .or) :
      MemberReading path key (.arr items) fun limit depth => do
        return combine (← readItems limit depth path key items)
  | compare {c : Comparison} (value : Json) (hkey : IsOperatorKey key)
      (hpath : checkPath key path = .ok ()) (hop : operatorOf key = .compare c) :
      MemberReading path key value fun _ _ => do
        return .compare (← nextId) path c value
  | quantify {q : Quantifier} {field : Segment} (members : List (String × Json))
      (hkey : IsOperatorKey key) (hpath : checkPath key path = .ok ())
      (hop : operatorOf key = .quantify q) (hfield : path = [field]) :
      MemberReading path key (.obj members) fun limit depth => do
        let inner ← atDepth limit (depth + 1) (readMembers limit (depth + 1) [] members)
        return .quantify (← nextId) field q inner
  | field {segments : List Segment} (members : List (String × Json))
      (hkey : key.toList.head? ≠ some '_') (hsegments : FieldPath.ofKey key = .ok segments) :
      MemberReading path key (.obj members) fun limit depth =>
        atDepth limit (depth + 1) (readMembers limit (depth + 1) (path ++ segments) members)

/-- An operator, at every limit and depth. -/
theorem exists_memberReading_of_isOperatorKey
    {key : String}
    (hkey : IsOperatorKey key) (path : List Segment) (value : Json) :
    ∃ read, MemberReading path key value read ∧
      ∀ limit depth, readMember limit depth path key value = read limit depth := by
  unfold readMember
  simp only [if_neg hkey.ne_and, if_neg hkey.ne_or, if_pos hkey.head]
  cases hpath : checkPath key path with
  | error e => exact ⟨_, .refused value e, fun _ _ => rfl⟩
  | ok _ =>
      cases hop : operatorOf key with
      | compare c => exact ⟨_, .compare value hkey hpath hop, fun _ _ => rfl⟩
      | quantify q =>
          rcases path with _ | ⟨field, _ | ⟨second, rest⟩⟩
          · exact ⟨_, .refused value (.quantifierTooDeep key), fun _ _ => rfl⟩
          · cases value with
            | obj members => exact ⟨_, .quantify members hkey hpath hop rfl, fun _ _ => rfl⟩
            | _ => exact ⟨_, .refused _ (.quantifierNotObject key), fun _ _ => rfl⟩
          · exact ⟨_, .refused value (.quantifierTooDeep key), fun _ _ => rfl⟩

/-- Every member is read in one of these ways. -/
theorem exists_memberReading
    (path : List Segment) (key : String) (value : Json) :
    ∃ read, MemberReading path key value read ∧
      ∀ limit depth, readMember limit depth path key value = read limit depth := by
  by_cases hand : key = "_and"
  · unfold readMember
    simp only [if_pos hand]
    cases value with
    | arr items => exact ⟨_, .group items (.inl ⟨hand, rfl⟩), fun _ _ => rfl⟩
    | _ => exact ⟨_, .refused _ (.groupNotArray key), fun _ _ => rfl⟩
  by_cases hor : key = "_or"
  · unfold readMember
    simp only [if_neg hand, if_pos hor]
    cases value with
    | arr items => exact ⟨_, .group items (.inr ⟨hor, rfl⟩), fun _ _ => rfl⟩
    | _ => exact ⟨_, .refused _ (.groupNotArray key), fun _ _ => rfl⟩
  by_cases hhead : key.toList.head? = some '_'
  · exact exists_memberReading_of_isOperatorKey ⟨hand, hor, hhead⟩ path value
  cases value with
  | obj members =>
      simp only [readMember_field hhead]
      cases hsegments : FieldPath.ofKey key with
      | error e => exact ⟨_, .refused _ e, fun _ _ => rfl⟩
      | ok segments => exact ⟨_, .field members hhead hsegments, fun _ _ => rfl⟩
  | _ =>
      exact ⟨_, .refused _ _, fun _ _ => readMember_field_of_ne hhead (by rintro _ ⟨⟩)⟩

/-- The filter written by a document, nested at most `limit` levels deep.  Null
and the empty object match every row. -/
def ofJson (limit : Nat) : Json → Except QueryError Filter
  | .null => .ok matchAll
  | .obj members => ((atDepth limit 0 (readMembers limit 0 [] members)).run 0).1
  | got => .error (.filterNotObject got)

end Filter
end RowFilter
