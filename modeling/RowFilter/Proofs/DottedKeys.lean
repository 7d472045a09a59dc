import RowFilter.Proofs.PathsToMany
import RowFilter.Proofs.Reordering

/-!
# Dotted and nested keys

A path can be written as one key with dots, or as fields inside of fields.  A dot inside
parentheses does not end a segment, but a part that holds such a dot is refused, so a key
with a dot can be read exactly if what stands on both sides of the dot can.  So a field whose
value is an object with one field can be written with one key, wherever in a document an
object is read as a filter.  One level of nesting is saved that way, so the document with
dots may be read where the other one is too deep.

* `FieldPath.ofKey_append_dot_iff`: keys with a dot.
* `Filter.DottedDocument`: documents in which nested keys were put together.
* `Attempt.UnlessDeep`: attempts with one result, unless the first one goes too deep.
* `Filter.dotted_keys_read_alike`: how the documents are read.
-/

namespace RowFilter

/-! ## Keys -/

namespace FieldPath

theorem dotless_of_consHead
    {c : Char} {parts : List (List Char)}
    (h : ∀ part ∈ consHead c parts, '.' ∉ part) :
    c ≠ '.' ∧ ∀ part ∈ parts, '.' ∉ part := by
  cases parts with
  | nil =>
      have hc := h [c] (by simp [consHead])
      exact ⟨fun heq => hc (by simp [heq]), by simp⟩
  | cons first others =>
      obtain ⟨hfirst, hothers⟩ := List.forall_mem_cons.1 h
      rw [List.mem_cons, not_or] at hfirst
      exact ⟨Ne.symm hfirst.1, List.forall_mem_cons.2 ⟨hfirst.2, hothers⟩⟩

/-- A dot that went into no part stands where no parenthesis is open, so what comes before it
is complete. -/
theorem exists_of_splitKey_append_dot
    {key : String} {depth : Nat} {cs rest : List Char} {parts : List (List Char)}
    (h : splitKey key depth (cs ++ '.' :: rest) = .ok parts)
    (hparts : ∀ part ∈ parts, '.' ∉ part) :
    ∃ before, splitKey key depth cs = .ok before := by
  induction cs generalizing depth parts with
  | nil =>
      rw [List.nil_append, splitKey, if_neg (by decide), if_neg (by decide)] at h
      by_cases hdepth : depth = 0
      · exact ⟨[[]], by rw [splitKey, if_pos hdepth]⟩
      · rw [if_neg fun hdot => hdepth hdot.2] at h
        obtain ⟨others, -, rfl⟩ := exists_of_map_ok h
        exact absurd rfl (dotless_of_consHead hparts).1
  | cons c cs ih =>
      rw [List.cons_append, splitKey] at h
      rw [splitKey]
      split_ifs at h ⊢
      all_goals obtain ⟨others, hothers, rfl⟩ := exists_of_map_ok h
      · obtain ⟨before, hbefore⟩ := ih hothers (dotless_of_consHead hparts).2
        exact ⟨_, by rw [hbefore]; rfl⟩
      · obtain ⟨before, hbefore⟩ := ih hothers (dotless_of_consHead hparts).2
        exact ⟨_, by rw [hbefore]; rfl⟩
      · obtain ⟨before, hbefore⟩ := ih hothers (List.forall_mem_cons.1 hparts).2
        exact ⟨_, by rw [hbefore]; rfl⟩
      · obtain ⟨before, hbefore⟩ := ih hothers (dotless_of_consHead hparts).2
        exact ⟨_, by rw [hbefore]; rfl⟩

/-- The parts of a key that can be read hold no dots. -/
theorem dotless_parts_of_ofKey
    {key : String} {segments : List Segment} {parts : List (List Char)}
    (hparts : splitKey key 0 key.toList = .ok parts)
    (hread : parts.mapM readSegment = .ok segments) :
    ∀ part ∈ parts, '.' ∉ part := by
  obtain ⟨hhead, htail⟩ := dots_of_splitKey hparts
  intro part hpart
  have hdots : '.' ∈ part → '(' ∈ part := by
    cases parts with
    | nil => cases hpart
    | cons first others =>
        rcases List.mem_cons.1 hpart with rfl | hpart
        · exact hhead rfl part rfl
        · exact htail part hpart
  obtain ⟨s, hs⟩ := (results_of_mapM_ok hread).2 part hpart
  exact not_mem_of_readSegment hdots hs

/-- What stands before a dot can be read if the whole key can. -/
theorem exists_of_ofKey_append_dot
    {first second : String} {segments : List Segment}
    (h : ofKey (first ++ "." ++ second) = .ok segments) :
    ∃ before, ofKey first = .ok before := by
  have hchars : (first ++ "." ++ second).toList = first.toList ++ '.' :: second.toList := by simp
  obtain ⟨parts, hparts, hread⟩ := exists_of_bind_ok h
  have hdotless := dotless_parts_of_ofKey hparts hread
  rw [hchars] at hparts
  obtain ⟨before, hbefore⟩ := exists_of_splitKey_append_dot hparts hdotless
  rw [splitKey_append_dot hbefore] at hparts
  obtain ⟨after, -, rfl⟩ := exists_of_map_ok hparts
  rw [List.mapM_append] at hread
  obtain ⟨start, hstart, -⟩ := exists_of_bind_ok hread
  refine ⟨start, ?_⟩
  rw [ofKey, splitKey_of_ok hbefore]
  exact hstart

/-- A key with a dot can be read exactly if both sides of the dot can, and has the segments
of both. -/
theorem ofKey_append_dot_iff
    {first second : String} {segments : List Segment} :
    ofKey (first ++ "." ++ second) = .ok segments ↔
      ∃ before after, ofKey first = .ok before ∧ ofKey second = .ok after ∧
        segments = before ++ after := by
  constructor
  · intro h
    obtain ⟨before, hbefore⟩ := exists_of_ofKey_append_dot h
    obtain ⟨after, hafter, hsegments⟩ := (ofKey_append_dot hbefore).1 h
    exact ⟨before, after, hbefore, hafter, hsegments⟩
  · rintro ⟨before, after, hbefore, hafter, hsegments⟩
    exact (ofKey_append_dot hbefore).2 ⟨after, hafter, hsegments⟩

theorem exists_error_append_dot
    (first second : String)
    (h : ∀ before after, ofKey first = .ok before → ofKey second ≠ .ok after) :
    ∃ e, ofKey (first ++ "." ++ second) = .error e := by
  cases hkey : ofKey (first ++ "." ++ second) with
  | error e => exact ⟨e, rfl⟩
  | ok segments =>
      obtain ⟨before, after, hbefore, hafter, -⟩ := ofKey_append_dot_iff.1 hkey
      exact absurd hafter (h before after hbefore)

end FieldPath

/-! ## Attempts that go too deep -/

namespace Attempt

variable {σ α β : Type} {limit : Nat}

/-- Outcomes that are the same, or both failures; the first one may also be the failure for
depth, whatever the second one is. -/
inductive KeptUnlessDeep (limit : Nat) :
    Except QueryError α × σ → Except QueryError α × σ → Prop
  | same (r : Except QueryError α × σ) : KeptUnlessDeep limit r r
  | failed (e e' : QueryError) (s t : σ) : KeptUnlessDeep limit (.error e, s) (.error e', t)
  | deep (s : σ) (r : Except QueryError α × σ) :
      KeptUnlessDeep limit (.error (.tooDeep limit), s) r

/-- From every state the attempts have outcomes that are kept, unless the first one goes too
deep. -/
def UnlessDeep (limit : Nat) (x y : Attempt σ α) : Prop :=
  ∀ s, KeptUnlessDeep limit (x.run s) (y.run s)

theorem unlessDeep_refl
    (x : Attempt σ α) :
    UnlessDeep limit x x :=
  fun _ => .same _

theorem unlessDeep_fail
    (e e' : QueryError) :
    UnlessDeep limit (fail e : Attempt σ α) (fail e') :=
  fun s => .failed e e' s s

theorem unlessDeep_tooDeep
    (y : Attempt σ α) :
    UnlessDeep limit (fail (.tooDeep limit)) y :=
  fun s => .deep s _

theorem UnlessDeep.bind
    {x y : Attempt σ α} {f g : α → Attempt σ β}
    (hx : UnlessDeep limit x y) (hf : ∀ a, UnlessDeep limit (f a) (g a)) :
    UnlessDeep limit (x >>= f) (y >>= g) := by
  intro s
  have hstep := hx s
  rw [run_bind, run_bind]
  generalize x.run s = u at hstep ⊢
  generalize y.run s = v at hstep ⊢
  cases hstep with
  | same =>
      obtain ⟨result, t⟩ := u
      cases result with
      | ok a => exact hf a t
      | error e => exact .same _
  | failed e e' t t' => exact .failed e e' t t'
  | deep t => exact .deep t _

end Attempt

open Attempt (UnlessDeep)

namespace Filter

/-! ## Documents -/

mutual

/-- Members of which some were put together with the only member of their value. -/
inductive DottedMembers : List (String × Json) → List (String × Json) → Prop
  | nil : DottedMembers [] []
  | cons {key : String} {v v' : Json} {rest rest' : List (String × Json)}
      (hvalue : DottedValue key v v') (hrest : DottedMembers rest rest') :
      DottedMembers ((key, v) :: rest) ((key, v') :: rest')
  /-- A member `first: {second: v}`, which may be the only one, is written `first.second: v`. -/
  | dot {first second : String} {v v' : Json} {rest rest' : List (String × Json)}
      (hfirst : first.toList.head? ≠ some '_') (hsecond : second.toList.head? ≠ some '_')
      (hvalue : DottedValue second v v') (hrest : DottedMembers rest rest') :
      DottedMembers ((first, .obj [(second, v)]) :: rest)
        ((first ++ "." ++ second, v') :: rest')

/-- Values under a name with dotted keys inside.  Operands are the same. -/
inductive DottedValue : String → Json → Json → Prop
  | operand {key : String} {c : Comparison} (v : Json) (hkey : comparisonOf? key = some c) :
      DottedValue key v v
  | plain (key : String) (v : Json) (harr : ∀ items, v ≠ .arr items)
      (hobj : ∀ members, v ≠ .obj members) : DottedValue key v v
  | group {key : String} {items items' : List Json} (hkey : comparisonOf? key = none)
      (h : DottedItems items items') : DottedValue key (.arr items) (.arr items')
  | nested {key : String} {members members' : List (String × Json)}
      (hkey : comparisonOf? key = none) (h : DottedMembers members members') :
      DottedValue key (.obj members) (.obj members')

/-- Items of a group with dotted keys inside. -/
inductive DottedItems : List Json → List Json → Prop
  | nil : DottedItems [] []
  | plain (item : Json) {rest rest' : List Json} (hobj : ∀ members, item ≠ .obj members)
      (hrest : DottedItems rest rest') : DottedItems (item :: rest) (item :: rest')
  | cons {members members' : List (String × Json)} {rest rest' : List Json}
      (h : DottedMembers members members') (hrest : DottedItems rest rest') :
      DottedItems (.obj members :: rest) (.obj members' :: rest')

end

/-- Documents of which the second is the first with keys put together, at any number of
places where an object is read as a filter. -/
inductive DottedDocument : Json → Json → Prop
  | plain (document : Json) (hobj : ∀ members, document ≠ .obj members) :
      DottedDocument document document
  | nested {members members' : List (String × Json)} (h : DottedMembers members members') :
      DottedDocument (.obj members) (.obj members')

mutual

theorem dottedMembers_refl :
    ∀ members : List (String × Json), DottedMembers members members
  | [] => .nil
  | (key, v) :: rest => .cons (dottedValue_refl key v) (dottedMembers_refl rest)

theorem dottedValue_refl
    (key : String) :
    ∀ v : Json, DottedValue key v v
  | .arr items => by
      cases hkey : comparisonOf? key with
      | some c => exact .operand _ hkey
      | none => exact .group hkey (dottedItems_refl items)
  | .obj members => by
      cases hkey : comparisonOf? key with
      | some c => exact .operand _ hkey
      | none => exact .nested hkey (dottedMembers_refl members)
  | .null => .plain key _ nofun nofun
  | .bool _ => .plain key _ nofun nofun
  | .num _ => .plain key _ nofun nofun
  | .str _ => .plain key _ nofun nofun

theorem dottedItems_refl :
    ∀ items : List Json, DottedItems items items
  | [] => .nil
  | .obj members :: rest => .cons (dottedMembers_refl members) (dottedItems_refl rest)
  | .arr _ :: rest => .plain _ nofun (dottedItems_refl rest)
  | .null :: rest => .plain _ nofun (dottedItems_refl rest)
  | .bool _ :: rest => .plain _ nofun (dottedItems_refl rest)
  | .num _ :: rest => .plain _ nofun (dottedItems_refl rest)
  | .str _ :: rest => .plain _ nofun (dottedItems_refl rest)

end

/-! ## Reading -/

section Reading

variable {limit depth depth' : Nat} {path : List Segment} {key : String}

theorem unlessDeep_atDepth
    {members members' : Reading (List Filter)}
    (hdepth : depth' ≤ depth) (h : UnlessDeep limit members members') :
    UnlessDeep limit (atDepth limit depth members) (atDepth limit depth' members') := by
  rw [atDepth, atDepth]
  by_cases hlimit : depth > limit
  · rw [if_pos hlimit]
    exact Attempt.unlessDeep_tooDeep _
  · rw [if_neg hlimit, if_neg (by omega)]
    exact h.bind fun children => Attempt.unlessDeep_refl _

/-- A value that holds no filter is read alike at all depths. -/
theorem readMember_eq_of_plain
    {v : Json}
    (harr : ∀ items, v ≠ .arr items) (hobj : ∀ members, v ≠ .obj members) :
    readMember limit depth path key v = readMember limit depth' path key v := by
  cases v with
  | arr items => exact absurd rfl (harr items)
  | obj members => exact absurd rfl (hobj members)
  | _ =>
      unfold readMember
      rfl

theorem readMember_eq_of_operand
    {c : Comparison} (v : Json)
    (hkey : comparisonOf? key = some c) :
    readMember limit depth path key v = readMember limit depth' path key v := by
  rw [readMember_operand hkey, readMember_operand hkey]

theorem unlessDeep_readMember_group
    {items items' : List Json}
    (hkey : comparisonOf? key = none)
    (h : UnlessDeep limit (readItems limit depth path key items)
      (readItems limit depth' path key items')) :
    UnlessDeep limit (readMember limit depth path key (.arr items))
      (readMember limit depth' path key (.arr items')) := by
  unfold readMember
  split_ifs with hand hor hoperator
  · exact h.bind fun children => Attempt.unlessDeep_refl _
  · exact h.bind fun children => Attempt.unlessDeep_refl _
  · obtain ⟨q, hq⟩ := exists_quantifier hkey hand hor hoperator
    simp only [hq]
    refine (Attempt.unlessDeep_refl _).bind fun _ => ?_
    rcases path with _ | ⟨field, _ | ⟨second, rest⟩⟩
    · exact Attempt.unlessDeep_fail _ _
    · exact Attempt.unlessDeep_fail _ _
    · exact Attempt.unlessDeep_fail _ _
  · exact Attempt.unlessDeep_fail _ _

theorem unlessDeep_readMember_nested
    {members members' : List (String × Json)}
    (hkey : comparisonOf? key = none) (hdepth : depth' ≤ depth)
    (h : ∀ path, UnlessDeep limit (readMembers limit (depth + 1) path members)
      (readMembers limit (depth' + 1) path members')) :
    UnlessDeep limit (readMember limit depth path key (.obj members))
      (readMember limit depth' path key (.obj members')) := by
  have hinner := fun path => unlessDeep_atDepth (Nat.add_le_add_right hdepth 1) (h path)
  unfold readMember
  split_ifs with hand hor hoperator
  · exact Attempt.unlessDeep_fail _ _
  · exact Attempt.unlessDeep_fail _ _
  · obtain ⟨q, hq⟩ := exists_quantifier hkey hand hor hoperator
    simp only [hq]
    refine (Attempt.unlessDeep_refl _).bind fun _ => ?_
    rcases path with _ | ⟨field, _ | ⟨second, rest⟩⟩
    · exact Attempt.unlessDeep_fail _ _
    · exact (hinner []).bind fun inner => Attempt.unlessDeep_refl _
    · exact Attempt.unlessDeep_fail _ _
  · exact (Attempt.unlessDeep_refl _).bind fun segments => hinner (path ++ segments)

end Reading

/-! ## Keys that were put together -/

section Dot

variable {limit depth depth' : Nat} {path : List Segment} {first second : String}

theorem head_append_dot
    (h : first.toList.head? ≠ some '_') (second : String) :
    (first ++ "." ++ second).toList.head? ≠ some '_' := by
  cases hchars : first.toList with
  | nil => simp [hchars]
  | cons c cs =>
      rw [hchars] at h
      simpa [hchars] using h

/-- Where the value of the inner field is no object, both forms are refused. -/
theorem unlessDeep_dot_of_ne
    {v : Json}
    (hfirst : first.toList.head? ≠ some '_') (hsecond : second.toList.head? ≠ some '_')
    (hobj : ∀ members, v ≠ .obj members) (v' : Json) (hobj' : ∀ members, v' ≠ .obj members) :
    UnlessDeep limit (readMember limit depth path first (.obj [(second, v)]))
      (readMember limit depth' path (first ++ "." ++ second) v') := by
  rw [readMember_field hfirst, readMember_field_of_ne (head_append_dot hfirst second) hobj']
  cases FieldPath.ofKey first with
  | error e => exact Attempt.unlessDeep_fail _ _
  | ok before =>
      change UnlessDeep limit (atDepth limit (depth + 1) _) _
      by_cases hlimit : depth + 1 ≤ limit
      · rw [atDepth_single hlimit, readMember_field_of_ne hsecond hobj]
        exact Attempt.unlessDeep_fail _ _
      · rw [atDepth, if_pos (by omega)]
        exact Attempt.unlessDeep_fail _ _

/-- A field of a field is read as the field at the end of the dotted key. -/
theorem unlessDeep_dot
    {members members' : List (String × Json)}
    (hfirst : first.toList.head? ≠ some '_') (hsecond : second.toList.head? ≠ some '_')
    (hdepth : depth' ≤ depth)
    (h : ∀ path, UnlessDeep limit (readMembers limit (depth + 2) path members)
      (readMembers limit (depth' + 1) path members')) :
    UnlessDeep limit (readMember limit depth path first (.obj [(second, .obj members)]))
      (readMember limit depth' path (first ++ "." ++ second) (.obj members')) := by
  rw [readMember_field hfirst, readMember_field (head_append_dot hfirst second)]
  cases hbefore : FieldPath.ofKey first with
  | error e =>
      obtain ⟨e', he'⟩ := FieldPath.exists_error_append_dot first second (by simp [hbefore])
      rw [he']
      exact Attempt.unlessDeep_fail e e'
  | ok before =>
      change UnlessDeep limit (atDepth limit (depth + 1) _) _
      by_cases hlimit : depth + 1 ≤ limit
      · rw [atDepth_single hlimit, readMember_field hsecond]
        cases hafter : FieldPath.ofKey second with
        | error e =>
            obtain ⟨e', he'⟩ := FieldPath.exists_error_append_dot first second (by simp [hafter])
            rw [he']
            exact Attempt.unlessDeep_fail e e'
        | ok after =>
            rw [FieldPath.ofKey_append_dot_iff.2 ⟨before, after, hbefore, hafter, rfl⟩]
            change UnlessDeep limit (atDepth limit (depth + 1 + 1) _) (atDepth limit (depth' + 1) _)
            rw [← List.append_assoc]
            exact unlessDeep_atDepth (by omega) (h _)
      · rw [atDepth, if_pos (by omega)]
        exact Attempt.unlessDeep_tooDeep _

end Dot

mutual

theorem unlessDeep_readMembers
    (limit : Nat) :
    ∀ {members members' : List (String × Json)}, DottedMembers members members' →
      ∀ {depth depth'} path, depth' ≤ depth →
        UnlessDeep limit (readMembers limit depth path members)
          (readMembers limit depth' path members')
  | _, _, .nil, _, _, path, _ => by
      rw [readMembers, readMembers]
      exact Attempt.unlessDeep_refl _
  | _, _, .cons hvalue hrest, _, _, path, hdepth => by
      rw [readMembers, readMembers]
      refine (unlessDeep_readMember limit hvalue path hdepth).bind fun child => ?_
      exact (unlessDeep_readMembers limit hrest path hdepth).bind fun children =>
        Attempt.unlessDeep_refl _
  | _, _, .dot hfirst hsecond hvalue hrest, _, _, path, hdepth => by
      rw [readMembers, readMembers]
      refine UnlessDeep.bind ?_ fun child =>
        (unlessDeep_readMembers limit hrest path hdepth).bind fun children =>
          Attempt.unlessDeep_refl _
      cases hvalue with
      | operand v hkey =>
          rw [comparisonOf?, if_neg hsecond] at hkey
          split at hkey <;> cases hkey
      | plain _ _ harr hobj => exact unlessDeep_dot_of_ne hfirst hsecond hobj _ hobj
      | group hkey h =>
          have hobj (items : List Json) : ∀ members, Json.arr items ≠ .obj members := nofun
          exact unlessDeep_dot_of_ne hfirst hsecond (hobj _) _ (hobj _)
      | nested hkey h =>
          exact unlessDeep_dot hfirst hsecond hdepth fun path =>
            unlessDeep_readMembers limit h path (by omega)

theorem unlessDeep_readMember
    (limit : Nat) :
    ∀ {key : String} {v v' : Json}, DottedValue key v v' →
      ∀ {depth depth'} path, depth' ≤ depth →
        UnlessDeep limit (readMember limit depth path key v)
          (readMember limit depth' path key v')
  | _, _, _, .operand v hkey, _, _, path, _ => by
      rw [readMember_eq_of_operand v hkey]
      exact Attempt.unlessDeep_refl _
  | _, _, _, .plain _ _ harr hobj, _, _, path, _ => by
      rw [readMember_eq_of_plain harr hobj]
      exact Attempt.unlessDeep_refl _
  | key, _, _, .group hkey h, _, _, path, hdepth =>
      unlessDeep_readMember_group hkey (unlessDeep_readItems limit h path key hdepth)
  | _, _, _, .nested hkey h, _, _, path, hdepth =>
      unlessDeep_readMember_nested hkey hdepth fun path =>
        unlessDeep_readMembers limit h path (Nat.add_le_add_right hdepth 1)

theorem unlessDeep_readItems
    (limit : Nat) :
    ∀ {items items' : List Json}, DottedItems items items' →
      ∀ {depth depth'} path key, depth' ≤ depth →
        UnlessDeep limit (readItems limit depth path key items)
          (readItems limit depth' path key items')
  | _, _, .nil, _, _, path, key, _ => by
      rw [readItems, readItems]
      exact Attempt.unlessDeep_refl _
  | _, _, .plain item hobj hrest, _, _, path, key, hdepth => by
      rw [readItems_cons, readItems_cons]
      cases item with
      | obj members => exact absurd rfl (hobj members)
      | _ => exact Attempt.unlessDeep_fail _ _
  | _, _, .cons h hrest, _, _, path, key, hdepth => by
      rw [readItems_cons, readItems_cons]
      have hmembers := unlessDeep_readMembers limit h path (Nat.add_le_add_right hdepth 1)
      refine (unlessDeep_atDepth (Nat.add_le_add_right hdepth 1) hmembers).bind fun child => ?_
      exact (unlessDeep_readItems limit hrest path key hdepth).bind fun children =>
        Attempt.unlessDeep_refl _

end

/-- **Dotted and nested keys agree.**  A key with a dot can be read exactly if both sides of
the dot can, and has the segments of both.  A document in which nested keys are put together,
wherever objects are read as filters, gives the same filter with the same numbers, or both
documents are refused, unless the nested one is too deep. -/
theorem dotted_keys_read_alike :
    (∀ (first second : String) (segments : List Segment),
      FieldPath.ofKey (first ++ "." ++ second) = .ok segments ↔
        ∃ before after, FieldPath.ofKey first = .ok before ∧
          FieldPath.ofKey second = .ok after ∧ segments = before ++ after) ∧
    ∀ limit document document', DottedDocument document document' →
      ofJson limit document ≠ .error (.tooDeep limit) →
      ∀ filter, ofJson limit document = .ok filter ↔ ofJson limit document' = .ok filter := by
  refine ⟨fun _ _ _ => FieldPath.ofKey_append_dot_iff, ?_⟩
  intro limit document document' h hdeep filter
  cases h with
  | plain _ hobj => rfl
  | @nested members members' h =>
      have hread : UnlessDeep limit (atDepth limit 0 (readMembers limit 0 [] members))
          (atDepth limit 0 (readMembers limit 0 [] members')) :=
        unlessDeep_atDepth (Nat.le_refl 0) (unlessDeep_readMembers limit h [] (Nat.le_refl 0))
      have hkept := hread 0
      rw [ofJson, ofJson]
      rw [ofJson] at hdeep
      generalize (atDepth limit 0 (readMembers limit 0 [] members)).run 0 = r at hkept hdeep ⊢
      generalize (atDepth limit 0 (readMembers limit 0 [] members')).run 0 = r' at hkept ⊢
      cases hkept with
      | same => rfl
      | failed e e' => simp
      | deep => exact absurd rfl hdeep

/-- Orders from a city, or with an item whose part has many tags. -/
def cityOrParts : Json :=
  .obj [("_or", .arr [
    .obj [("customer", .obj [("address.city", .obj [("_eq", .str "Oslo")])])],
    .obj [("items", .obj [("_some", .obj [("part", .obj [
      ("count(tags)", .obj [("_gt", .num (.int 2))])])])])]])]

/-- The same with dotted keys, in the group and in the filter of the quantifier. -/
def cityOrPartsDotted : Json :=
  .obj [("_or", .arr [
    .obj [("customer.address.city", .obj [("_eq", .str "Oslo")])],
    .obj [("items", .obj [("_some", .obj [
      ("part.count(tags)", .obj [("_gt", .num (.int 2))])])])]])]

theorem dotted_cityOrParts :
    DottedDocument cityOrParts cityOrPartsDotted := by
  have hcustomer : "customer".toList.head? ≠ some '_' := by decide
  have hcity : "address.city".toList.head? ≠ some '_' := by decide
  have hpart : "part".toList.head? ≠ some '_' := by decide
  have htags : "count(tags)".toList.head? ≠ some '_' := by decide
  refine .nested (.cons (.group rfl (.cons ?_ (.cons ?_ .nil))) .nil)
  · exact .dot hcustomer hcity (dottedValue_refl _ _) .nil
  · refine .cons (.nested rfl (.cons (.nested rfl ?_) .nil)) .nil
    exact .dot hpart htags (dottedValue_refl _ _) .nil

theorem dotted_keys_read_alike_cityOrParts :
    DottedDocument cityOrParts cityOrPartsDotted ∧
      ∃ filter, ofJson 5 cityOrParts = .ok filter ∧ ofJson 5 cityOrPartsDotted = .ok filter := by
  have hok : (ofJson 5 cityOrParts).isOk = true := by decide +kernel
  obtain ⟨filter, hfilter⟩ := exists_of_isOk hok
  have hdeep : ofJson 5 cityOrParts ≠ .error (.tooDeep 5) := by simp [hfilter]
  refine ⟨dotted_cityOrParts, filter, hfilter, ?_⟩
  exact (dotted_keys_read_alike.2 5 _ _ dotted_cityOrParts hdeep filter).1 hfilter

end Filter
end RowFilter
