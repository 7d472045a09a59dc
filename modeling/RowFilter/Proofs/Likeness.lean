import Mathlib.Data.List.Forall2
import RowFilter.DocumentTest
import RowFilter.Proofs.Attempts
import RowFilter.Proofs.Binding

/-!
# Conditions that differ in values only

Two expressions are alike if they are written with the same text, and bind the
same member keys and paths at the same places.  The values that they bind may
differ, by a relation that is given.

* `Sql.Expr.Alike.sql_eq`: alike expressions have the same text.
* `Criterion.Alike.apply`: criteria of one shape ask alike conditions.
* `DocumentTest.inStep_alone`, `DocumentTest.inStep_together`: tests whose operands
  are read alike are asked in the same way.
-/

namespace RowFilter

open Sql (Expr Select)

namespace Sql

/-- A piece without the value in it. -/
def Piece.blank : Piece → Piece
  | text s => text s
  | hole _ => hole .null

theorem Piece.write_blank
    (d : Dialect) (n : Nat) (pieces : List Piece) :
    write d n (pieces.map blank) = write d n pieces := by
  induction pieces generalizing n with
  | nil => rfl
  | cons piece rest ih =>
      cases piece with
      | text s => rw [List.map_cons, blank, write, write, ih]
      | hole v => rw [List.map_cons, blank, write, write, ih]

theorem Piece.write_congr
    {first second : List Piece}
    (h : first.map blank = second.map blank) (d : Dialect) (n : Nat) :
    write d n first = write d n second := by
  rw [← write_blank d n first, h, write_blank]

theorem Piece.blank_separated
    (separator : String) (rows : List (List Piece)) :
    (separated separator rows).map blank = separated separator (rows.map (·.map blank)) := by
  rcases rows with _ | ⟨first, rest⟩
  · rfl
  · induction rest generalizing first with
    | nil => simp [separated, List.intercalate]
    | cons second rest ih =>
        have hrest := ih second
        simp only [List.map_cons, separated_cons_cons, List.map_append] at hrest ⊢
        rw [hrest]
        rfl

/-- Items that are the same, or values that `R` relates. -/
inductive Item.Alike (R : Value → Value → Prop) : Item → Item → Prop
  | value {v w : Value} (h : R v w) : Alike R (.value v) (.value w)
  | memberKey (key : String) : Alike R (.memberKey key) (.memberKey key)
  | path (text : String) : Alike R (.path text) (.path text)

/-- The expressions differ in values only, which `R` relates. -/
structure Expr.Alike (R : Value → Value → Prop) (e f : Expr) : Prop where
  pieces : ∀ d, (e.pieces d).map Piece.blank = (f.pieces d).map Piece.blank
  items : ∀ d, List.Forall₂ (Item.Alike R) (e.items d false) (f.items d false)

/-- The same for selections. -/
structure Select.Alike (R : Value → Value → Prop) (s t : Select) : Prop where
  pieces : ∀ d, (s.pieces d).map Piece.blank = (t.pieces d).map Piece.blank
  items : ∀ d, List.Forall₂ (Item.Alike R) (s.items d false) (t.items d false)

variable {R : Value → Value → Prop}

theorem Expr.Alike.sql_eq
    {e f : Expr}
    (h : e.Alike R f) (d : Dialect) :
    (e.clause d).sql = (f.clause d).sql :=
  Piece.write_congr (h.pieces d) d 0

theorem Select.Alike.sql_eq
    {s t : Select}
    (h : s.Alike R t) (d : Dialect) :
    (s.clause d).sql = (t.clause d).sql :=
  Piece.write_congr (h.pieces d) d 0

theorem Item.alike_refl
    (hR : ∀ v, R v v) (items : List Item) :
    List.Forall₂ (Item.Alike R) items items := by
  refine List.forall₂_same.2 fun item _ => ?_
  cases item with
  | value v => exact .value (hR v)
  | memberKey key => exact .memberKey key
  | path text => exact .path text

theorem Expr.alike_refl
    (hR : ∀ v, R v v) (e : Expr) :
    e.Alike R e :=
  ⟨fun _ => rfl, fun _ => Item.alike_refl hR _⟩

namespace Expr

theorem alike_value
    {v w : Value}
    (h : R v w) :
    (Expr.value v).Alike R (.value w) where
  pieces _ := rfl
  items _ := .cons (.value h) .nil

theorem Alike.binary
    {left left' right right' : Expr}
    (hleft : left.Alike R left') (hright : right.Alike R right') (op : BinaryOp) :
    (Expr.binary left op right).Alike R (.binary left' op right') where
  pieces d := by
    simp [Expr.pieces, hleft.pieces d, hright.pieces d]
  items d := by
    rw [Expr.items, Expr.items]
    exact List.rel_append (hleft.items d) (hright.items d)

theorem Alike.between
    {e e' low low' high high' : Expr}
    (he : e.Alike R e') (hlow : low.Alike R low') (hhigh : high.Alike R high') (negated : Bool) :
    (Expr.between e low high negated).Alike R (.between e' low' high' negated) where
  pieces d := by
    simp [Expr.pieces, he.pieces d, hlow.pieces d, hhigh.pieces d]
  items d := by
    rw [Expr.items, Expr.items]
    exact List.rel_append (he.items d) (List.rel_append (hlow.items d) (hhigh.items d))

section Lists

variable {es fs : List Expr}

theorem blank_rows
    (h : List.Forall₂ (Alike R) es fs) (d : Dialect) :
    (rows d es).map (·.map Piece.blank) = (rows d fs).map (·.map Piece.blank) := by
  induction h with
  | nil => rfl
  | cons hhead _ ih => simp [rows, hhead.pieces d, ih]

theorem alike_listItems
    (h : List.Forall₂ (Alike R) es fs) (d : Dialect) :
    List.Forall₂ (Item.Alike R) (listItems d false es) (listItems d false fs) := by
  induction h with
  | nil => exact .nil
  | cons hhead _ ih =>
      rw [listItems, listItems]
      exact List.rel_append (hhead.items d) ih

theorem alike_logical
    (h : List.Forall₂ (Alike R) es fs) (op : Connective) :
    (Expr.logical op es).Alike R (.logical op fs) where
  pieces d := by
    simp [Expr.pieces, Piece.blank_separated, blank_rows h d]
  items d := by
    rw [Expr.items, Expr.items]
    exact alike_listItems h d

theorem Alike.inList
    {e e' : Expr}
    (he : e.Alike R e') (h : List.Forall₂ (Alike R) es fs) (negated : Bool) :
    (Expr.inList e es negated).Alike R (.inList e' fs negated) where
  pieces d := by
    simp [Expr.pieces, Piece.blank_separated, he.pieces d, blank_rows h d]
  items d := by
    rw [Expr.items, Expr.items]
    exact List.rel_append (he.items d) (alike_listItems h d)

theorem alike_group?
    (h : List.Forall₂ (Alike R) es fs) (op : Connective) :
    Option.Rel (Alike R) (group? op es) (group? op fs) := by
  cases h with
  | nil => exact .none
  | cons hfirst hrest =>
      cases hrest with
      | nil => exact .some hfirst
      | cons hsecond hrest => exact .some (alike_logical (.cons hfirst (.cons hsecond hrest)) op)

end Lists

end Expr

/-- Selections with alike conditions. -/
theorem Select.alike_filter
    {c c' : Option Expr}
    (hR : ∀ v, R v v) (s : Select) (h : Option.Rel (Expr.Alike R) c c') :
    (s.filter c).Alike R (s.filter c') := by
  obtain ⟨columns, source, joins, condition⟩ := s
  cases h with
  | none => exact ⟨fun _ => rfl, fun _ => Item.alike_refl hR _⟩
  | some he =>
      constructor
      · intro d
        simp [Select.filter, Select.pieces, Expr.conditionPieces, he.pieces d]
      · intro d
        simp only [Select.filter, Select.items, Option.orElse_eq_orElse, Option.orElse_some,
          Expr.optionItems]
        exact List.rel_append (Item.alike_refl hR _) (List.rel_append (Item.alike_refl hR _)
          (List.rel_append (Item.alike_refl hR _) (he.items d)))

theorem Expr.alike_existsRow
    {s t : Select}
    (h : s.Alike R t) :
    (Expr.existsRow s).Alike R (.existsRow t) where
  pieces d := by
    simp [Expr.pieces, h.pieces d]
  items d := by
    rw [Expr.items, Expr.items]
    exact h.items d

theorem Expr.alike_inQuery
    {s t : Select}
    (hR : ∀ v, R v v) (key : Expr) (h : s.Alike R t) (negated : Bool) :
    (Expr.inQuery key s negated).Alike R (.inQuery key t negated) where
  pieces d := by
    simp [Expr.pieces, h.pieces d]
  items d := by
    rw [Expr.items, Expr.items]
    exact List.rel_append (Item.alike_refl hR _) (h.items d)

end Sql

/-! ## Criteria -/

namespace Criterion

/-- The criterion without its values: its template, and how many there are. -/
def shape (c : Criterion) : Criterion :=
  c.map fun _ => .null

/-- Criteria of one shape with values that `R` relates. -/
inductive Alike (R : Value → Value → Prop) : Criterion → Criterion → Prop
  | compare (op : Sql.BinaryOp) {v w : Value} (h : R v w) : Alike R (compare op v) (compare op w)
  | like {v w : Value} (h : R v w) (negated caseless : Bool) :
      Alike R (like v negated caseless) (like w negated caseless)
  | inList {vs ws : List Value} (h : List.Forall₂ R vs ws) (negated : Bool) :
      Alike R (inList vs negated) (inList ws negated)
  | between {low low' high high' : Value} (hlow : R low low') (hhigh : R high high')
      (negated : Bool) : Alike R (between low high negated) (between low' high' negated)
  | isNull (negated : Bool) : Alike R (isNull negated) (isNull negated)
  | never : Alike R never never
  | always : Alike R always always

variable {R : Value → Value → Prop} {c c' : Criterion}

/-- Criteria are alike if they have one shape and their values are related. -/
theorem alike_of_shape
    (hshape : c.shape = c'.shape) (hvalues : List.Forall₂ R c.values c'.values) :
    c.Alike R c' := by
  cases c with
  | compare op v =>
      cases c' <;> cases hshape
      cases hvalues with
      | cons hv _ => exact .compare op hv
  | like v negated caseless =>
      cases c' <;> cases hshape
      cases hvalues with
      | cons hv _ => exact .like hv negated caseless
  | inList vs negated =>
      cases c' with
      | inList ws negated' =>
          obtain ⟨-, rfl⟩ : _ ∧ negated = negated' := by
            simpa only [shape, map, inList.injEq] using hshape
          exact .inList hvalues negated
      | _ => cases hshape
  | between low high negated =>
      cases c' <;> cases hshape
      cases hvalues with
      | cons hlow hrest =>
          cases hrest with
          | cons hhigh _ => exact .between hlow hhigh negated
  | isNull negated =>
      cases c' <;> cases hshape
      exact .isNull negated
  | never =>
      cases c' <;> cases hshape
      exact .never
  | always =>
      cases c' <;> cases hshape
      exact .always

theorem Alike.isAlways_eq
    (h : c.Alike R c') :
    c.isAlways = c'.isAlways := by
  cases h <;> rfl

/-- Criteria of one shape ask alike conditions. -/
theorem Alike.apply
    (h : c.Alike R c') (hR : ∀ v, R v v) (target : Expr) :
    Option.Rel (Expr.Alike R) (c.apply target) (c'.apply target) := by
  have htarget := Expr.alike_refl hR target
  cases h with
  | compare op hv => exact .some (htarget.binary (Expr.alike_value hv) op)
  | like hv negated caseless =>
      exact .some ((Expr.alike_refl hR _).binary (Expr.alike_value hv) _)
  | inList hvs negated =>
      refine .some (htarget.inList ?_ negated)
      rw [List.forall₂_map_left_iff, List.forall₂_map_right_iff]
      exact hvs.imp fun _ _ hv => Expr.alike_value hv
  | between hlow hhigh negated =>
      exact .some (htarget.between (Expr.alike_value hlow) (Expr.alike_value hhigh) negated)
  | isNull negated => exact .some (Expr.alike_refl hR _)
  | never => exact .some (Expr.alike_refl hR _)
  | always => exact .none

/-- Criteria that are alike; inside a document they must also be cast to the same
type, and be alike after the cast. -/
structure Indistinct (R : Value → Value → Prop) (inside : Bool) (c c' : Criterion) : Prop where
  alike : c.Alike R c'
  castType : inside = true → c.castType = c'.castType
  casted : inside = true → c.casted.Alike R c'.casted

theorem Indistinct.condition?
    (h : c.Indistinct R true c') (hR : ∀ v, R v v) (label : String) (key : Option String) :
    Option.Rel (Expr.Alike R) (DocumentTest.condition? label key c)
      (DocumentTest.condition? label key c') := by
  rw [DocumentTest.condition?, DocumentTest.condition?, h.castType rfl]
  exact (h.casted rfl).apply hR _

end Criterion

/-! ## Tests -/

namespace DocumentTest

variable {R : Value → Value → Prop}

/-- Tests of the same place with operands that are read alike. -/
structure Alike (R : Value → Value → Prop) (t t' : DocumentTest) : Prop where
  place : t' = { t with operand := t'.operand }
  criterion : SameOutcome (Criterion.Indistinct R true)
    (t.operator.criterion t.operand) (t'.operator.criterion t'.operand)

theorem alike_existsMatch
    {c c' : Option Expr}
    (hR : ∀ v, R v v) (h : Option.Rel (Expr.Alike R) c c') (document : Expr)
    (path : Sql.PathArg) (label : String) :
    Option.Rel (Expr.Alike R) (c.map (existsMatch document path label))
      (c'.map (existsMatch document path label)) := by
  cases h with
  | none => exact .none
  | some he =>
      exact .some (Expr.alike_existsRow (Select.alike_filter hR _ (.some he)))

theorem inStep_alone
    {t t' : DocumentTest}
    (h : t.Alike R t') (hR : ∀ v, R v v) :
    Attempt.InStep (Option.Rel (Expr.Alike R)) t.alone t'.alone := by
  rw [alone, alone]
  refine (Attempt.inStep_ofExcept h.criterion).bind fun c c' hc => ?_
  rw [← hc.alike.isAlways_eq, h.place]
  split
  · exact Attempt.inStep_pure .none
  · refine (Attempt.inStep_same (Q := Eq) (fun _ => rfl) _).bind fun rows _ hrows => ?_
    cases hrows
    exact Attempt.inStep_pure (alike_existsMatch hR (hc.condition? hR _ _) _ _ _)

/-- The members that are read are the same, with criteria that are alike. -/
theorem sameOutcome_criteria
    {tests tests' : List DocumentTest}
    (h : List.Forall₂ (Alike R) tests tests') :
    SameOutcome (List.Forall₂ fun x x' => x.1 = x'.1 ∧ x.2.Indistinct R true x'.2)
      (criteria tests) (criteria tests') := by
  induction h with
  | nil => exact .ok .nil
  | @cons t t' rest rest' ht hrest ih =>
      have hpath : t'.path = t.path := by
        rw [ht.place]
      have hfield : t'.field = t.field := by
        rw [ht.place]
      rw [criteria, criteria, hpath, hfield]
      split
      · exact .error _
      · refine ht.criterion.bind fun c c' hc => ?_
        refine ih.bind fun asked asked' hasked => ?_
        rw [← hc.alike.isAlways_eq]
        split
        · exact .ok hasked
        · exact .ok (.cons ⟨rfl, hc⟩ hasked)

theorem alike_conditions
    {asked asked' : List (String × Criterion)}
    (hR : ∀ v, R v v) (label : String)
    (h : List.Forall₂ (fun x x' => x.1 = x'.1 ∧ x.2.Indistinct R true x'.2) asked asked') :
    List.Forall₂ (Expr.Alike R)
      (asked.filterMap fun (key, c) => condition? label (some key) c)
      (asked'.filterMap fun (key, c) => condition? label (some key) c) := by
  induction h with
  | nil => exact .nil
  | @cons x x' _ _ hx _ ih =>
      obtain ⟨key, c⟩ := x
      obtain ⟨key', c'⟩ := x'
      obtain ⟨rfl, hc⟩ : key = key' ∧ c.Indistinct R true c' := hx
      have hcondition := hc.condition? hR label (some key)
      simp only [List.filterMap_cons]
      generalize condition? label (some key) c = e at hcondition ⊢
      generalize condition? label (some key) c' = e' at hcondition ⊢
      cases hcondition with
      | none => exact ih
      | some he => exact .cons he ih

theorem inStep_together
    {tests tests' : List DocumentTest}
    (h : List.Forall₂ (Alike R) tests tests') (hR : ∀ v, R v v) :
    Attempt.InStep (Option.Rel (Expr.Alike R)) (together tests) (together tests') := by
  cases h with
  | nil => exact Attempt.inStep_fail _
  | @cons first first' others others' hfirst hothers =>
      rw [together, together]
      refine (Attempt.inStep_ofExcept (sameOutcome_criteria (.cons hfirst hothers))).bind
        fun asked asked' hasked => ?_
      rw [hfirst.place]
      cases hasked with
      | nil => exact Attempt.inStep_pure .none
      | cons hx hrest =>
          refine (Attempt.inStep_same (Q := Eq) (fun _ => rfl) _).bind fun rows _ hrows => ?_
          cases hrows
          refine Attempt.inStep_pure (alike_existsMatch hR ?_ _ _ _)
          exact Expr.alike_group? (alike_conditions hR _ (.cons hx hrest)) .and

end DocumentTest

end RowFilter
