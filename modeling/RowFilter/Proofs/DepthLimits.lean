import RowFilter.Proofs.OperatorMembers

/-!
# Limits of depth

The objects of a document that are read as filters are the document itself, the values of
fields, the items of groups and the values of quantifiers, each of the last three one level
below the object around it.  Nothing in the operand of a comparison is read as a filter.  The
limit of depth refuses the documents that go deeper, and does nothing else to the others.

* `Filter.depthOf`: the depth of a document.
* `Filter.ReadsUnlimited`: what is read when the depth is not limited.
* `Attempt.AlikeIf`: attempts that are the same if a condition holds, and else the first fails.
* `Filter.depth_limit_is_exact`: what is read up to a limit.
-/

namespace RowFilter

/-! ## Attempts under a condition -/

namespace Attempt

variable {σ α β : Type} {P Q : Prop}

/-- The attempts are the same if the condition holds.  The first one succeeds only then. -/
structure AlikeIf (P : Prop) (x y : Attempt σ α) : Prop where
  alike : P → x = y
  only : x.Gives fun _ => P

theorem alikeIf_of_holds
    (h : P) (x : Attempt σ α) :
    AlikeIf P x x where
  alike _ := rfl
  only _ _ _ _ := h

theorem alikeIf_fail
    (e : QueryError) :
    AlikeIf P (fail e : Attempt σ α) (fail e) where
  alike _ := rfl
  only := gives_fail e

theorem AlikeIf.of_iff
    {x y : Attempt σ α}
    (h : AlikeIf P x y) (hiff : P ↔ Q) :
    AlikeIf Q x y := by
  rwa [propext hiff] at h

theorem AlikeIf.bind
    {x y : Attempt σ α} {f g : α → Attempt σ β}
    (hx : AlikeIf P x y) (hf : ∀ a, AlikeIf Q (f a) (g a)) :
    AlikeIf (P ∧ Q) (x >>= f) (y >>= g) := by
  constructor
  · rintro ⟨hP, hQ⟩
    have hfg : f = g := funext fun a => (hf a).alike hQ
    rw [hx.alike hP, hfg]
  · refine hx.only.bind fun a hP s b t hrun => ?_
    exact ⟨hP, (hf a).only s b t hrun⟩

/-- What follows the first step is the same. -/
theorem AlikeIf.andThen
    {x y : Attempt σ α}
    (h : AlikeIf P x y) (f : α → Attempt σ β) :
    AlikeIf P (x >>= f) (y >>= f) :=
  (h.bind fun a => alikeIf_of_holds trivial (f a)).of_iff (and_iff_left trivial)

end Attempt

open Attempt (AlikeIf)

namespace Filter

/-! ## Depths of documents -/

mutual

/-- How many levels the members of an object go below it. -/
def depthOfMembers : List (String × Json) → Nat
  | [] => 0
  | (key, value) :: rest => max (depthOfMember key value) (depthOfMembers rest)

/-- How many levels one member goes below its object.  The operand of a comparison has none. -/
def depthOfMember (key : String) (value : Json) : Nat :=
  if key = "_and" ∨ key = "_or" then
    match value with
    | .arr items => depthOfItems items
    | _ => 0
  else if (key = "_some" ∨ key = "_none") ∨ key.toList.head? ≠ some '_' then
    match value with
    | .obj members => depthOfMembers members + 1
    | _ => 0
  else
    0

/-- How many levels the items of a group go below the object around the group. -/
def depthOfItems : List Json → Nat
  | [] => 0
  | item :: rest =>
      max
        (match item with
          | .obj members => depthOfMembers members + 1
          | _ => 0)
        (depthOfItems rest)

end

/-- The most fields, items of groups and quantifiers on the way from a document to an object in
it that is read as a filter. -/
def depthOf : Json → Nat
  | .obj members => depthOfMembers members
  | _ => 0

/-- The document is read as the filter if its depth is not limited: by every limit from some
number on. -/
def ReadsUnlimited (document : Json) (filter : Filter) : Prop :=
  ∃ bound, ∀ limit, bound ≤ limit → ofJson limit document = .ok filter

theorem depthOfMember_compare
    {key : String} {c : Comparison} {value : Json}
    (hkey : IsOperatorKey key) (hop : operatorOf key = .compare c) :
    depthOfMember key value = 0 := by
  have hother : ¬((key = "_some" ∨ key = "_none") ∨ key.toList.head? ≠ some '_') :=
    not_or.2 ⟨not_quantifier_of_compare hop, not_not.2 hkey.head⟩
  unfold depthOfMember
  rw [if_neg (not_or.2 ⟨hkey.ne_and, hkey.ne_or⟩), if_neg hother]

/-- The values of quantifiers and fields are one level below. -/
theorem depthOfMember_obj
    {key : String} {members : List (String × Json)}
    (hand : key ≠ "_and") (hor : key ≠ "_or")
    (hkey : (key = "_some" ∨ key = "_none") ∨ key.toList.head? ≠ some '_') :
    depthOfMember key (.obj members) = depthOfMembers members + 1 := by
  unfold depthOfMember
  rw [if_neg (not_or.2 ⟨hand, hor⟩), if_pos hkey]

/-! ## Reading up to two limits -/

section Reading

variable {limit limit' depth n : Nat} {path : List Segment} {key : String}

theorem alikeIf_atDepth
    {members members' : Reading (List Filter)}
    (hlimit : limit ≤ limit')
    (h : depth ≤ limit → AlikeIf (depth + n ≤ limit) members members') :
    AlikeIf (depth + n ≤ limit) (atDepth limit depth members) (atDepth limit' depth members') := by
  by_cases hdepth : depth ≤ limit
  · rw [atDepth, atDepth, if_neg (by omega), if_neg (by omega)]
    exact (h hdepth).andThen _
  · rw [atDepth, if_pos (by omega)]
    constructor
    · intro hn
      omega
    · exact Attempt.gives_fail _

/-- An object one level below the depth reached. -/
theorem alikeIf_below
    {members members' : Reading (List Filter)}
    (hlimit : limit ≤ limit')
    (h : depth + 1 ≤ limit → AlikeIf (depth + 1 + n ≤ limit) members members') :
    AlikeIf (depth + (n + 1) ≤ limit) (atDepth limit (depth + 1) members)
      (atDepth limit' (depth + 1) members') :=
  (alikeIf_atDepth hlimit h).of_iff (by omega)

/-- One member of an object, from the readings of what stands inside its value. -/
theorem alikeIf_readMember_of
    {value : Json}
    (hdepth : depth ≤ limit)
    (hitems : ∀ items, value = .arr items →
      AlikeIf (depth + depthOfItems items ≤ limit) (readItems limit depth path key items)
        (readItems limit' depth path key items))
    (hmembers : ∀ path members, value = .obj members →
      AlikeIf (depth + (depthOfMembers members + 1) ≤ limit)
        (atDepth limit (depth + 1) (readMembers limit (depth + 1) path members))
        (atDepth limit' (depth + 1) (readMembers limit' (depth + 1) path members))) :
    AlikeIf (depth + depthOfMember key value ≤ limit) (readMember limit depth path key value)
      (readMember limit' depth path key value) := by
  obtain ⟨read, hreading, hread⟩ := exists_memberReading path key value
  rw [hread, hread]
  cases hreading with
  | refused _ e => exact Attempt.alikeIf_fail e
  | group items hgroup =>
      rw [depthOfMember, if_pos (hgroup.imp And.left And.left)]
      exact (hitems items rfl).andThen _
  | compare _ hkey _ hop =>
      rw [depthOfMember_compare hkey hop]
      exact Attempt.alikeIf_of_holds hdepth _
  | quantify members hkey _ hop _ =>
      have hquantifier := exists_operatorOf_eq_quantify_iff.1 ⟨_, hop⟩
      rw [depthOfMember_obj hkey.ne_and hkey.ne_or (.inl hquantifier)]
      exact (hmembers [] members rfl).andThen _
  | field members hkey hsegments =>
      rw [depthOfMember_obj (ne_of_head?_ne hkey rfl) (ne_of_head?_ne hkey rfl) (.inr hkey)]
      exact hmembers _ members rfl

end Reading

/-- Objects that do not go below the lower limit are read alike up to both limits; others cannot
be read up to the lower one. -/
theorem alikeIf_readMembers
    {limit limit' depth : Nat}
    (hlimit : limit ≤ limit') (hdepth : depth ≤ limit) (path : List Segment)
    (members : List (String × Json)) :
    AlikeIf (depth + depthOfMembers members ≤ limit) (readMembers limit depth path members)
      (readMembers limit' depth path members) := by
  have h : Json.InsideOut
      (fun members => ∀ depth path, depth ≤ limit →
        AlikeIf (depth + depthOfMembers members ≤ limit) (readMembers limit depth path members)
          (readMembers limit' depth path members))
      (fun v => ∀ depth path key, depth ≤ limit →
        AlikeIf (depth + depthOfMember key v ≤ limit) (readMember limit depth path key v)
          (readMember limit' depth path key v))
      (fun items => ∀ depth path key, depth ≤ limit →
        AlikeIf (depth + depthOfItems items ≤ limit) (readItems limit depth path key items)
          (readItems limit' depth path key items)) := by
    constructor
    · intro depth path hdepth
      rw [readMembers, readMembers, depthOfMembers]
      exact Attempt.alikeIf_of_holds hdepth _
    · intro key v rest hvalue hrest depth path hdepth
      rw [readMembers, readMembers, depthOfMembers]
      have hchildren := fun child : Filter =>
        (hrest depth path hdepth).andThen fun children => pure (child :: children)
      exact ((hvalue depth path key hdepth).bind hchildren).of_iff (by omega)
    · intro v hitems hmembers depth path key hdepth
      refine alikeIf_readMember_of hdepth (fun items hv => hitems items hv depth path key hdepth) ?_
      exact fun path members hv => alikeIf_below hlimit (hmembers members hv (depth + 1) path)
    · intro depth path key hdepth
      rw [readItems, readItems, depthOfItems]
      exact Attempt.alikeIf_of_holds hdepth _
    · intro v rest hmembers hrest depth path key hdepth
      cases v with
      | obj members =>
          rw [readItems, readItems, depthOfItems]
          have hitem := alikeIf_below hlimit (hmembers members rfl (depth + 1) path)
          have hchildren := fun child : Filter =>
            (hrest depth path key hdepth).andThen fun children => pure (child :: children)
          exact (hitem.bind hchildren).of_iff (by omega)
      | _ => exact Attempt.alikeIf_fail _
  exact h.ofMembers members depth path hdepth

/-! ## The limit -/

theorem alikeIf_ofMembers
    {limit limit' : Nat}
    (hlimit : limit ≤ limit') (members : List (String × Json)) :
    AlikeIf (depthOfMembers members ≤ limit) (atDepth limit 0 (readMembers limit 0 [] members))
      (atDepth limit' 0 (readMembers limit' 0 [] members)) :=
  (alikeIf_atDepth hlimit fun hdepth => alikeIf_readMembers hlimit hdepth [] members).of_iff
    (by omega)

/-- A limit that a document does not pass has no effect, also on refusals. -/
theorem ofJson_eq_of_depthOf_le
    {limit limit' : Nat} {document : Json}
    (hlimit : limit ≤ limit') (hdepth : depthOf document ≤ limit) :
    ofJson limit document = ofJson limit' document := by
  cases document with
  | obj members => rw [ofJson, ofJson, (alikeIf_ofMembers hlimit members).alike hdepth]
  | _ => rfl

/-- A document that goes below the limit is refused. -/
theorem depthOf_le_of_ofJson
    {limit : Nat} {document : Json} {filter : Filter}
    (h : ofJson limit document = .ok filter) :
    depthOf document ≤ limit := by
  cases document with
  | obj members =>
      rw [ofJson] at h
      exact (alikeIf_ofMembers (Nat.le_refl limit) members).only 0 filter _ (Prod.ext h rfl)
  | _ => exact Nat.zero_le _

/-- A document is read up to a limit as it is read without limit if it is not deeper than that,
and else it is refused.  So a document that is read up to some limit is read as the same filter
up to every higher one. -/
theorem depth_limit_is_exact
    (document : Json) (limit : Nat) (filter : Filter) :
    (ofJson limit document = .ok filter ↔
      ReadsUnlimited document filter ∧ depthOf document ≤ limit) ∧
    (ofJson limit document = .ok filter →
      ∀ limit', limit ≤ limit' → ofJson limit' document = .ok filter) := by
  have hraise : ofJson limit document = .ok filter →
      ∀ limit', limit ≤ limit' → ofJson limit' document = .ok filter := by
    intro h limit' hlimit
    rw [← ofJson_eq_of_depthOf_le hlimit (depthOf_le_of_ofJson h), h]
  constructor
  · constructor
    · intro h
      exact ⟨⟨limit, hraise h⟩, depthOf_le_of_ofJson h⟩
    · rintro ⟨⟨bound, hbound⟩, hdepth⟩
      rw [ofJson_eq_of_depthOf_le (Nat.le_max_left limit bound) hdepth]
      exact hbound _ (Nat.le_max_right limit bound)
  · exact hraise

/-- The filters for the names and kinds of `bulkOrNobody` stand below an item, a field, a
quantifier and a field, and what looks like a filter in an operand is not counted. -/
theorem depth_limit_is_exact_bulkOrNobody :
    depthOf bulkOrNobody = 4 ∧
    (∃ filter, ofJson 4 bulkOrNobody = .ok filter ∧ ofJson 9 bulkOrNobody = .ok filter) ∧
    ∀ filter, ofJson 3 bulkOrNobody ≠ .ok filter := by
  have hdepth : depthOf bulkOrNobody = 4 := by decide +kernel
  have hok : (ofJson 4 bulkOrNobody).isOk = true := by decide +kernel
  obtain ⟨filter, hfilter⟩ := exists_of_isOk hok
  refine ⟨hdepth, ⟨filter, hfilter, ?_⟩, ?_⟩
  · exact (depth_limit_is_exact bulkOrNobody 4 filter).2 hfilter 9 (by decide)
  · intro other hother
    have hle := ((depth_limit_is_exact bulkOrNobody 3 other).1.1 hother).2
    omega

end Filter
end RowFilter
