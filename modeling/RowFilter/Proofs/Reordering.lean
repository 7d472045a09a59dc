import RowFilter.Proofs.Operands
import RowFilter.Proofs.Outlooks
import RowFilter.Proofs.Scopes

/-!
# The order of alternatives

Documents are compared that differ in the order of the items of groups, at any depth.  They
are read to filters with the same outlook, or none of them can be read.

* `Attempt.FailTogether`: attempts that fail together, from any two states.
* `Filter.ReorderedDocument`: documents that differ in the order of items.
* `Filter.failsLike_ofJson`: how they are read.
* `compile_isOk_of_reordered`: without mixed disjunctions the order decides nothing.
* `mixed_alternatives_ordered`: in a mixed disjunction it does.
-/

namespace RowFilter

/-! ## Attempts that fail together -/

/-- Two results: errors, or values that `Q` relates. -/
inductive FailsLike {α β : Type} (Q : α → β → Prop) :
    Except QueryError α → Except QueryError β → Prop
  | ok {a : α} {b : β} (h : Q a b) : FailsLike Q (.ok a) (.ok b)
  | error (e e' : QueryError) : FailsLike Q (.error e) (.error e')

namespace FailsLike

variable {α β : Type} {Q : α → β → Prop} {x : Except QueryError α} {y : Except QueryError β}
  {test : α → Bool} {test' : β → Bool}

theorem all_eq
    (h : FailsLike Q x y) (htest : ∀ a b, Q a b → test a = test' b) :
    x.toOption.all test = y.toOption.all test' := by
  cases h with
  | ok h => exact htest _ _ h
  | error e e' => rfl

theorem any_eq
    (h : FailsLike Q x y) (htest : ∀ a b, Q a b → test a = test' b) :
    x.toOption.any test = y.toOption.any test' := by
  cases h with
  | ok h => exact htest _ _ h
  | error e e' => rfl

end FailsLike

namespace Attempt

variable {σ α β γ δ : Type}

/-- From any two states both attempts fail, or their results are related. -/
def FailTogether (Q : α → β → Prop) (x : Attempt σ α) (y : Attempt σ β) : Prop :=
  ∀ s t, FailsLike Q (x.run s).1 (y.run t).1

theorem failTogether_pure
    {Q : α → β → Prop} {a : α} {b : β}
    (h : Q a b) :
    FailTogether Q (pure a : Attempt σ α) (pure b) :=
  fun _ _ => .ok h

theorem failTogether_fail
    {Q : α → β → Prop} (e e' : QueryError) :
    FailTogether Q (fail e : Attempt σ α) (fail e') :=
  fun _ _ => .error e e'

theorem failTogether_ofExcept
    (result : Except QueryError α) :
    FailTogether Eq (ofExcept result : Attempt σ α) (ofExcept result) := by
  intro s t
  cases result with
  | error e => exact .error e e
  | ok a => exact .ok rfl

theorem failTogether_ofState
    (step : σ → α × σ) :
    FailTogether (fun _ _ => True) (ofState step) (ofState step) :=
  fun _ _ => .ok trivial

theorem FailTogether.bind
    {Q : α → β → Prop} {R : γ → δ → Prop} {x : Attempt σ α} {y : Attempt σ β}
    {f : α → Attempt σ γ} {g : β → Attempt σ δ}
    (hx : FailTogether Q x y) (hf : ∀ a b, Q a b → FailTogether R (f a) (g b)) :
    FailTogether R (x >>= f) (y >>= g) := by
  intro s t
  have h := hx s t
  cases hs : x.run s with
  | mk result s' =>
      cases ht : y.run t with
      | mk result' t' =>
          rw [hs, ht] at h
          cases h with
          | ok hQ =>
              rw [run_bind_of_ok f hs, run_bind_of_ok g ht]
              exact hf _ _ hQ s' t'
          | error e e' =>
              rw [run_bind_of_error f hs, run_bind_of_error g ht]
              exact .error e e'

/-- Two steps that do the same from all states may be taken in either order. -/
theorem FailTogether.swap
    {Q : α → α → Prop} {R : γ → γ → Prop} {x y : Attempt σ α} {f g : α → α → Attempt σ γ}
    (hx : FailTogether Q x x) (hy : FailTogether Q y y)
    (hf : ∀ a a' b b', Q a a' → Q b b' → FailTogether R (f a b) (g b' a')) :
    FailTogether R (do let a ← x; let b ← y; f a b) (do let b ← y; let a ← x; g b a) := by
  intro s t
  cases hxs : x.run s with
  | mk first s₁ =>
      cases hyt : y.run t with
      | mk first' t₁ =>
          cases hys : y.run s₁ with
          | mk second s₂ =>
              cases hxt : x.run t₁ with
              | mk second' t₂ =>
                  have hsame := hx s t₁
                  have hsame' := hy s₁ t
                  rw [hxs, hxt] at hsame
                  rw [hys, hyt] at hsame'
                  cases hsame with
                  | error e e' =>
                      rw [run_bind_of_error _ hxs]
                      cases hsame' with
                      | error d d' =>
                          rw [run_bind_of_error _ hyt]
                          exact .error e d'
                      | ok _ =>
                          rw [run_bind_of_ok _ hyt, run_bind_of_error _ hxt]
                          exact .error e e'
                  | ok hQ =>
                      rw [run_bind_of_ok _ hxs]
                      cases hsame' with
                      | error d d' =>
                          rw [run_bind_of_error _ hys, run_bind_of_error _ hyt]
                          exact .error d d'
                      | ok hQ' =>
                          rw [run_bind_of_ok _ hys, run_bind_of_ok _ hyt, run_bind_of_ok _ hxt]
                          exact hf _ _ _ _ hQ hQ' s₂ t₂

theorem FailTogether.symm
    {Q : α → α → Prop} {x y : Attempt σ α}
    (h : FailTogether Q x y) (hQ : ∀ a b, Q a b → Q b a) :
    FailTogether Q y x := by
  intro s t
  have hresult := h t s
  generalize (x.run t).1 = result at hresult ⊢
  generalize (y.run s).1 = result' at hresult ⊢
  cases hresult with
  | ok h => exact .ok (hQ _ _ h)
  | error e e' => exact .error e' e

theorem FailTogether.trans
    {Q : α → α → Prop} {x y z : Attempt σ α}
    (hx : FailTogether Q x y) (hy : FailTogether Q y z)
    (hQ : ∀ a b c, Q a b → Q b c → Q a c) :
    FailTogether Q x z := by
  intro s t
  -- any state will do for the attempt in the middle
  have hleft := hx s s
  have hright := hy s t
  generalize (x.run s).1 = result at hleft ⊢
  generalize (y.run s).1 = middle at hleft hright
  generalize (z.run t).1 = result' at hright ⊢
  cases hleft with
  | ok h =>
      cases hright with
      | ok h' => exact .ok (hQ _ _ _ h h')
  | error e e' =>
      cases hright with
      | error _ e'' => exact .error e e''

end Attempt

open Attempt (FailTogether)

namespace Filter

/-! ## Reordered documents -/

mutual

/-- Members with the same names whose values differ in the order of items. -/
inductive ReorderedMembers : List (String × Json) → List (String × Json) → Prop
  | nil : ReorderedMembers [] []
  | cons {key : String} {v v' : Json} {rest rest' : List (String × Json)}
      (hvalue : ReorderedValue key v v') (hrest : ReorderedMembers rest rest') :
      ReorderedMembers ((key, v) :: rest) ((key, v') :: rest')

/-- Values under a name that differ in the order of the items of groups.  Operands are the
same. -/
inductive ReorderedValue : String → Json → Json → Prop
  | operand {key : String} {c : Comparison} (v : Json) (hkey : comparisonOf? key = some c) :
      ReorderedValue key v v
  | plain (key : String) (v : Json) (harr : ∀ items, v ≠ .arr items)
      (hobj : ∀ members, v ≠ .obj members) : ReorderedValue key v v
  | group {key : String} {items middle items' : List Json} (hkey : comparisonOf? key = none)
      (hperm : items.Perm middle) (h : ReorderedItems middle items') :
      ReorderedValue key (.arr items) (.arr items')
  | nested {key : String} {members members' : List (String × Json)}
      (hkey : comparisonOf? key = none) (h : ReorderedMembers members members') :
      ReorderedValue key (.obj members) (.obj members')

/-- Items at the same places that differ in the order of items inside them. -/
inductive ReorderedItems : List Json → List Json → Prop
  | nil : ReorderedItems [] []
  | plain (item : Json) {rest rest' : List Json} (hobj : ∀ members, item ≠ .obj members)
      (hrest : ReorderedItems rest rest') : ReorderedItems (item :: rest) (item :: rest')
  | cons {members members' : List (String × Json)} {rest rest' : List Json}
      (h : ReorderedMembers members members') (hrest : ReorderedItems rest rest') :
      ReorderedItems (.obj members :: rest) (.obj members' :: rest')

end

/-- Documents that differ in the order of the items of groups, at any depth. -/
inductive ReorderedDocument : Json → Json → Prop
  | plain (document : Json) (hobj : ∀ members, document ≠ .obj members) :
      ReorderedDocument document document
  | nested {members members' : List (String × Json)} (h : ReorderedMembers members members') :
      ReorderedDocument (.obj members) (.obj members')

mutual

theorem reorderedMembers_refl :
    ∀ members : List (String × Json), ReorderedMembers members members
  | [] => .nil
  | (key, v) :: rest => .cons (reorderedValue_refl key v) (reorderedMembers_refl rest)

theorem reorderedValue_refl
    (key : String) :
    ∀ v : Json, ReorderedValue key v v
  | .arr items => by
      cases hkey : comparisonOf? key with
      | some c => exact .operand _ hkey
      | none => exact .group hkey (.refl items) (reorderedItems_refl items)
  | .obj members => by
      cases hkey : comparisonOf? key with
      | some c => exact .operand _ hkey
      | none => exact .nested hkey (reorderedMembers_refl members)
  | .null => .plain key _ nofun nofun
  | .bool _ => .plain key _ nofun nofun
  | .num _ => .plain key _ nofun nofun
  | .str _ => .plain key _ nofun nofun

theorem reorderedItems_refl :
    ∀ items : List Json, ReorderedItems items items
  | [] => .nil
  | .obj members :: rest => .cons (reorderedMembers_refl members) (reorderedItems_refl rest)
  | .arr _ :: rest => .plain _ nofun (reorderedItems_refl rest)
  | .null :: rest => .plain _ nofun (reorderedItems_refl rest)
  | .bool _ :: rest => .plain _ nofun (reorderedItems_refl rest)
  | .num _ :: rest => .plain _ nofun (reorderedItems_refl rest)
  | .str _ :: rest => .plain _ nofun (reorderedItems_refl rest)

end

/-! ## Reading -/

/-- The filter of one item of a group. -/
def readItem (limit depth : Nat) (path : List Segment) (key : String) : Json → Reading Filter
  | .obj members => atDepth limit (depth + 1) (readMembers limit (depth + 1) path members)
  | got => .fail (.groupItemNotObject key got)

theorem readItems_cons
    (limit depth : Nat) (path : List Segment) (key : String) (item : Json) (rest : List Json) :
    readItems limit depth path key (item :: rest) = (do
      let child ← readItem limit depth path key item
      let children ← readItems limit depth path key rest
      return child :: children) := by
  cases item with
  | obj members =>
      rw [readItems]
      rfl
  | _ =>
      rw [readItems]
      · rfl
      · nofun

section Reading

variable {s : Setting} {limit depth : Nat} {path : List Segment} {key : String}

theorem failTogether_atDepth
    {members members' : Reading (List Filter)}
    (h : FailTogether (SameOutlooks s) members members') :
    FailTogether (SameOutlook s) (atDepth limit depth members) (atDepth limit depth members') := by
  rw [atDepth, atDepth]
  split
  · exact Attempt.failTogether_fail _ _
  · exact h.bind fun _ _ hchildren => Attempt.failTogether_pure (sameOutlook_conjunction hchildren)

/-- Items that are read alike one by one are read alike. -/
theorem failTogether_readItems
    {items items' : List Json}
    (h : List.Forall₂ (fun item item' => FailTogether (SameOutlook s)
      (readItem limit depth path key item) (readItem limit depth path key item')) items items') :
    FailTogether (SameOutlooks s) (readItems limit depth path key items)
      (readItems limit depth path key items') := by
  induction h with
  | nil =>
      rw [readItems]
      exact Attempt.failTogether_pure (.refl _)
  | cons hitem _ ih =>
      rw [readItems_cons, readItems_cons]
      refine hitem.bind fun child child' hchild => ih.bind fun children children' hchildren => ?_
      exact Attempt.failTogether_pure (.cons hchild hchildren)

/-- Items that are read alike from all numbers may be read in any order. -/
theorem failTogether_readItems_perm
    {items items' : List Json}
    (hperm : items.Perm items')
    (h : ∀ item ∈ items, FailTogether (SameOutlook s) (readItem limit depth path key item)
      (readItem limit depth path key item)) :
    FailTogether (SameOutlooks s) (readItems limit depth path key items)
      (readItems limit depth path key items') := by
  induction hperm with
  | nil =>
      rw [readItems]
      exact Attempt.failTogether_pure (.refl _)
  | cons item _ ih =>
      obtain ⟨hitem, hrest⟩ := List.forall_mem_cons.1 h
      rw [readItems_cons, readItems_cons]
      refine hitem.bind fun child child' hchild =>
        (ih hrest).bind fun children children' hchildren => ?_
      exact Attempt.failTogether_pure (.cons hchild hchildren)
  | swap first second rest =>
      obtain ⟨hsecond, hfirst, hrest⟩ : _ ∧ _ ∧ _ := by
        simpa only [List.forall_mem_cons] using h
      have hothers := failTogether_readItems (List.forall₂_same.2 hrest)
      simp only [readItems_cons, bind_assoc, pure_bind]
      refine hsecond.swap hfirst fun a a' b b' ha hb => ?_
      refine hothers.bind fun children children' hchildren => Attempt.failTogether_pure ?_
      exact (List.Perm.swap _ _ _).trans (SameOutlooks.cons hb (.cons ha hchildren))
  | trans hleft _ ihleft ihright =>
      refine (ihleft h).trans (ihright fun item hitem => h item (hleft.mem_iff.2 hitem)) ?_
      exact fun _ _ _ => List.Perm.trans

/-- Items that are read alike one by one, after they were put in another order. -/
theorem failTogether_readItems_reordered
    {items middle items' : List Json}
    (hperm : items.Perm middle)
    (h : List.Forall₂ (fun item item' => FailTogether (SameOutlook s)
      (readItem limit depth path key item) (readItem limit depth path key item')) middle items') :
    FailTogether (SameOutlooks s) (readItems limit depth path key items)
      (readItems limit depth path key items') := by
  have hself : ∀ item ∈ middle, FailTogether (SameOutlook s)
      (readItem limit depth path key item) (readItem limit depth path key item) := by
    clear hperm
    induction h with
    | nil => simp
    | cons hitem _ ih =>
        refine List.forall_mem_cons.2 ⟨?_, ih⟩
        exact hitem.trans (hitem.symm fun _ _ => Eq.symm) fun _ _ _ => Eq.trans
  have hitems := failTogether_readItems_perm hperm fun item hitem =>
    hself item (hperm.mem_iff.1 hitem)
  exact hitems.trans (failTogether_readItems h) fun _ _ _ => List.Perm.trans

/-- A comparison is read alike from all numbers. -/
theorem failTogether_readMember_operand
    {c : Comparison} (v : Json)
    (hkey : comparisonOf? key = some c) :
    FailTogether (SameOutlook s) (readMember limit depth path key v)
      (readMember limit depth path key v) := by
  rw [readMember_operand hkey]
  refine (Attempt.failTogether_ofExcept _).bind fun _ _ _ => ?_
  refine (Attempt.failTogether_ofState _).bind fun id id' _ => ?_
  exact Attempt.failTogether_pure (sameOutlook_compare id id' path c v)

theorem exists_quantifier
    (hkey : comparisonOf? key = none) (hand : key ≠ "_and") (hor : key ≠ "_or")
    (hoperator : key.toList.head? = some '_') :
    ∃ q, operatorOf key = .quantify q := by
  rw [comparisonOf?, if_neg (not_or.2 ⟨hand, hor⟩), if_pos hoperator] at hkey
  cases hop : operatorOf key with
  | compare c =>
      rw [hop] at hkey
      cases hkey
  | quantify q => exact ⟨q, rfl⟩

/-- A value that is neither an array nor an object is an operand, or it is refused. -/
theorem failTogether_readMember_plain
    {v : Json}
    (harr : ∀ items, v ≠ .arr items) (hobj : ∀ members, v ≠ .obj members) :
    FailTogether (SameOutlook s) (readMember limit depth path key v)
      (readMember limit depth path key v) := by
  obtain ⟨read, hreading, hread⟩ := exists_memberReading path key v
  rw [hread]
  cases hreading with
  | refused _ e => exact Attempt.failTogether_fail e e
  | group items => exact absurd rfl (harr items)
  | compare =>
      refine (Attempt.failTogether_ofState _).bind fun id id' _ => ?_
      exact Attempt.failTogether_pure (sameOutlook_compare id id' path _ v)
  | quantify members => exact absurd rfl (hobj members)
  | field members => exact absurd rfl (hobj members)

/-- The items of a group are read alike, or no group may stand there. -/
theorem failTogether_readMember_group
    {items items' : List Json}
    (hkey : comparisonOf? key = none)
    (h : FailTogether (SameOutlooks s) (readItems limit depth path key items)
      (readItems limit depth path key items')) :
    FailTogether (SameOutlook s) (readMember limit depth path key (.arr items))
      (readMember limit depth path key (.arr items')) := by
  unfold readMember
  split_ifs with hand hor hoperator
  · exact h.bind fun _ _ hchildren => Attempt.failTogether_pure (sameOutlook_and hchildren)
  · exact h.bind fun _ _ hchildren => Attempt.failTogether_pure (sameOutlook_or hchildren)
  · obtain ⟨q, hq⟩ := exists_quantifier hkey hand hor hoperator
    simp only [hq]
    refine (Attempt.failTogether_ofExcept _).bind fun _ _ _ => ?_
    rcases path with _ | ⟨field, _ | ⟨second, rest⟩⟩
    · exact Attempt.failTogether_fail _ _
    · exact Attempt.failTogether_fail _ _
    · exact Attempt.failTogether_fail _ _
  · exact Attempt.failTogether_fail _ _

/-- The members of an object are read alike, under a field or in a quantified condition. -/
theorem failTogether_readMember_nested
    {members members' : List (String × Json)}
    (hkey : comparisonOf? key = none)
    (h : ∀ path, FailTogether (SameOutlooks s) (readMembers limit (depth + 1) path members)
      (readMembers limit (depth + 1) path members')) :
    FailTogether (SameOutlook s) (readMember limit depth path key (.obj members))
      (readMember limit depth path key (.obj members')) := by
  unfold readMember
  split_ifs with hand hor hoperator
  · exact Attempt.failTogether_fail _ _
  · exact Attempt.failTogether_fail _ _
  · obtain ⟨q, hq⟩ := exists_quantifier hkey hand hor hoperator
    simp only [hq]
    refine (Attempt.failTogether_ofExcept _).bind fun _ _ _ => ?_
    rcases path with _ | ⟨field, _ | ⟨second, rest⟩⟩
    · exact Attempt.failTogether_fail _ _
    · refine (failTogether_atDepth (h [])).bind fun inner inner' hinner => ?_
      refine (Attempt.failTogether_ofState _).bind fun id id' _ => ?_
      exact Attempt.failTogether_pure (sameOutlook_quantify id id' field q hinner)
    · exact Attempt.failTogether_fail _ _
  · refine (Attempt.failTogether_ofExcept _).bind fun segments _ hsegments => ?_
    cases hsegments
    exact failTogether_atDepth (h _)

end Reading

mutual

/-- Members that differ in the order of items are read alike. -/
theorem failTogether_readMembers
    (s : Setting) (limit : Nat) :
    ∀ {members members' : List (String × Json)}, ReorderedMembers members members' →
      ∀ depth path, FailTogether (SameOutlooks s) (readMembers limit depth path members)
        (readMembers limit depth path members')
  | _, _, .nil, depth, path => by
      rw [readMembers]
      exact Attempt.failTogether_pure (.refl _)
  | _, _, .cons hvalue hrest, depth, path => by
      rw [readMembers, readMembers]
      refine (failTogether_readMember s limit hvalue depth path).bind fun child child' hchild => ?_
      refine (failTogether_readMembers s limit hrest depth path).bind
        fun children children' hchildren => Attempt.failTogether_pure (.cons hchild hchildren)

theorem failTogether_readMember
    (s : Setting) (limit : Nat) :
    ∀ {key : String} {v v' : Json}, ReorderedValue key v v' →
      ∀ depth path, FailTogether (SameOutlook s) (readMember limit depth path key v)
        (readMember limit depth path key v')
  | _, _, _, .operand v hkey, _, _ => failTogether_readMember_operand v hkey
  | _, _, _, .plain _ _ harr hobj, _, _ => failTogether_readMember_plain harr hobj
  | key, _, _, .group hkey hperm h, depth, path =>
      failTogether_readMember_group hkey
        (failTogether_readItems_reordered hperm (failTogether_readItem s limit h depth path key))
  | _, _, _, .nested hkey h, depth, _ =>
      failTogether_readMember_nested hkey (failTogether_readMembers s limit h (depth + 1))

theorem failTogether_readItem
    (s : Setting) (limit : Nat) :
    ∀ {items items' : List Json}, ReorderedItems items items' →
      ∀ depth path key, List.Forall₂ (fun item item' => FailTogether (SameOutlook s)
        (readItem limit depth path key item) (readItem limit depth path key item')) items items'
  | _, _, .nil, depth, path, key => .nil
  | _, _, .plain item hobj hrest, depth, path, key => by
      refine .cons ?_ (failTogether_readItem s limit hrest depth path key)
      cases item with
      | obj members => exact absurd rfl (hobj members)
      | _ => exact Attempt.failTogether_fail _ _
  | _, _, .cons h hrest, depth, path, key =>
      .cons (failTogether_atDepth (failTogether_readMembers s limit h (depth + 1) path))
        (failTogether_readItem s limit hrest depth path key)

end

/-- Reordered documents are read to filters with the same outlook, or both are refused. -/
theorem failsLike_ofJson
    {document document' : Json}
    (h : ReorderedDocument document document') (s : Setting) (limit : Nat) :
    FailsLike (SameOutlook s) (ofJson limit document) (ofJson limit document') := by
  cases h with
  | plain _ hobj =>
      cases ofJson limit document with
      | ok filter => exact .ok rfl
      | error e => exact .error e e
  | nested h => exact failTogether_atDepth (failTogether_readMembers s limit h 0 []) 0 0

end Filter

/-! ## What compiles -/

/-- Without mixed disjunctions the order of the items of groups, at any depth, does not change
whether a document compiles.  A condition that is refused is fatal wherever it stands. -/
theorem compile_isOk_of_reordered
    {s : Setting} {collection : String} {filter filter' : Json}
    (h : Filter.ReorderedDocument filter filter')
    (hunmixed : (Filter.ofJson s.options.maxDepth filter).toOption.all
      (fun tree => tree.unmixed s collection) = true) :
    (s.compile collection filter').isOk = (s.compile collection filter).isOk ∧
      ((s.compile collection filter).isOk = true ↔
        (s.schema.primaryKey collection).isOk = true ∧
          ∃ tree, Filter.ofJson s.options.maxDepth filter = .ok tree ∧
            tree.plans s collection = true ∧ tree.refuses s collection = false) := by
  have hread := Filter.failsLike_ofJson h s s.options.maxDepth
  have hunmixed' : (Filter.ofJson s.options.maxDepth filter').toOption.all
      (fun tree => tree.unmixed s collection) = true := by
    rw [← hunmixed]
    exact (hread.all_eq fun _ _ hsame =>
      congrFun (congrArg Filter.Outlook.unmixed hsame) collection).symm
  have haccepted : ∀ tree tree' : Filter, Filter.SameOutlook s tree tree' →
      (tree.plans s collection && !tree.refuses s collection) =
        (tree'.plans s collection && !tree'.refuses s collection) := by
    intro tree tree' hsame
    have hplans : tree.plans s collection = tree'.plans s collection :=
      congrFun (congrArg Filter.Outlook.plans hsame) collection
    have hrefuses : tree.refuses s = tree'.refuses s := congrArg Filter.Outlook.refuses hsame
    rw [hplans, hrefuses]
  rw [compile_isOk_of_unmixed hunmixed, compile_isOk_of_unmixed hunmixed']
  constructor
  · rw [hread.any_eq haccepted]
  · rw [Bool.and_eq_true]
    refine and_congr_right fun _ => ⟨fun hany => ?_, ?_⟩
    · obtain ⟨tree, htree, haccepted⟩ := exists_of_any_toOption hany
      rw [Bool.and_eq_true, Bool.not_eq_true'] at haccepted
      exact ⟨tree, htree, haccepted⟩
    · rintro ⟨tree, htree, hplans, hrefuses⟩
      rw [htree]
      change (tree.plans s collection && !tree.refuses s collection) = true
      rw [hplans, hrefuses]
      rfl

/-- Projects led by somebody, or with a remark that says something or has no author. -/
def talkedAbout : Json :=
  .obj [("_or", .arr [
    .obj [("lead", .obj [("name", .obj [("_eq", .str "Ada")])])],
    .obj [("remarks:comments", .obj [("_some", .obj [("_or", .arr [
      .obj [("body", .obj [("_contains", .str "late")])],
      .obj [("author", .obj [("_null", .bool true)])]])])])]])]

/-- The same, with the alternatives in the other order at both depths. -/
def talkedAboutFirst : Json :=
  .obj [("_or", .arr [
    .obj [("remarks:comments", .obj [("_some", .obj [("_or", .arr [
      .obj [("author", .obj [("_null", .bool true)])],
      .obj [("body", .obj [("_contains", .str "late")])]])])])],
    .obj [("lead", .obj [("name", .obj [("_eq", .str "Ada")])])]])]

theorem reordered_talkedAbout :
    Filter.ReorderedDocument talkedAbout talkedAboutFirst := by
  refine .nested (.cons (.group rfl (.swap _ _ _) (.cons ?_ ?_)) .nil)
  · refine .cons (.nested rfl (.cons (.nested rfl (.cons ?_ .nil)) .nil)) .nil
    exact .group rfl (.swap _ _ _) (Filter.reorderedItems_refl _)
  · exact Filter.reorderedItems_refl _

theorem compile_isOk_of_reordered_talkedAbout :
    Filter.ReorderedDocument talkedAbout talkedAboutFirst ∧
      (studio.compile "projects" talkedAboutFirst).isOk = true := by
  have hunmixed : (Filter.ofJson studio.options.maxDepth talkedAbout).toOption.all
      (fun tree => tree.unmixed studio "projects") = true := by
    decide +kernel
  refine ⟨reordered_talkedAbout, ?_⟩
  rw [(compile_isOk_of_reordered reordered_talkedAbout hunmixed).1]
  decide +kernel

/-- Orders with an amount and a title. -/
def shop : Setting where
  schema := {
    collections := [
      ("orders", {
        primary := "id"
        fields := [
          ("id", { type := .integer, specials := .ofFlags [] }),
          ("amount", { type := .integer, specials := .ofFlags [] }),
          ("title", { type := .string, specials := .ofFlags [] })] })]
    relations := [] }
  options := {}

/-- An alternative that asks nothing. -/
def anyTitle : Json :=
  .obj [("title", .obj [("_nin", .arr [])])]

/-- An alternative that is refused: an amount is not a text. -/
def amountText : Json :=
  .obj [("amount", .obj [("_contains", .str "x")])]

/-- In a mixed disjunction the order decides. -/
theorem mixed_alternatives_ordered :
    Filter.ReorderedDocument (.obj [("_or", .arr [anyTitle, amountText])])
        (.obj [("_or", .arr [amountText, anyTitle])]) ∧
      (shop.compile "orders" (.obj [("_or", .arr [anyTitle, amountText])])).isOk = true ∧
      (shop.compile "orders" (.obj [("_or", .arr [amountText, anyTitle])])).isOk = false := by
  refine ⟨?_, by decide +kernel, by decide +kernel⟩
  exact .nested (.cons (.group rfl (.swap _ _ _) (Filter.reorderedItems_refl _)) .nil)

end RowFilter
