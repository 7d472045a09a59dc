import RowFilter.Proofs.Closures

/-!
# Siblings are folded once

What the table of folded conditions brings about is what one pass without a table
gives.

* `Account.conjuncts_condition`: the operands of a compiled closure, with nested
  conjunctions opened, are the conditions at its parts.
* `compile_folds_once`: every compiled filter is given by its account.
-/

namespace RowFilter

open Sql (Expr)

namespace Sql

mutual

/-- The operands of a condition, with nested conjunctions opened. -/
def Expr.conjuncts : Expr → List Expr
  | .logical .and operands => Expr.allConjuncts operands
  | e => [e]

/-- The operands of conditions that must hold together. -/
def Expr.allConjuncts : List Expr → List Expr
  | [] => []
  | e :: rest => e.conjuncts ++ Expr.allConjuncts rest

end

theorem Expr.allConjuncts_eq
    (operands : List Expr) :
    Expr.allConjuncts operands = operands.flatMap Expr.conjuncts := by
  induction operands with
  | nil =>
      rw [Expr.allConjuncts, List.flatMap_nil]
  | cons e rest ih =>
      rw [Expr.allConjuncts, List.flatMap_cons, ih]

/-- Grouping conditions does not change their operands. -/
theorem Expr.conjuncts_group?
    (operands : List Expr) :
    (Expr.group? .and operands).toList.flatMap Expr.conjuncts =
      operands.flatMap Expr.conjuncts := by
  rcases operands with _ | ⟨e, _ | ⟨second, rest⟩⟩
  · rfl
  · rfl
  · simp only [Expr.group?, Option.toList_some, List.flatMap_cons, List.flatMap_nil,
      Expr.conjuncts, Expr.allConjuncts, Expr.allConjuncts_eq, List.append_nil]

end Sql

namespace Account

mutual

/-- The operands of a closure are the conditions at its parts. -/
theorem conjuncts_condition :
    ∀ a : Account, a.condition.toList.flatMap Expr.conjuncts =
      (a.parts.flatMap fun x => x.condition.toList).flatMap Expr.conjuncts
  | and children => by
      rw [condition, parts, Expr.conjuncts_group?]
      exact conjuncts_conditions children
  | or children => by
      simp [parts]
  | unbuilt f => by
      simp [parts]
  | own leaf predicate => by
      simp [parts]
  | folded leaf fold => by
      simp [parts]
  | behind leaf key inquiry inner => by
      simp [parts]
  | quantified id field q key inquiry inner => by
      simp [parts]

theorem conjuncts_conditions :
    ∀ as : List Account, (conditions as).flatMap Expr.conjuncts =
      ((partsOfAll as).flatMap fun x => x.condition.toList).flatMap Expr.conjuncts
  | [] => by
      rfl
  | a :: as => by
      rw [conditions, partsOfAll, List.flatMap_append, List.flatMap_append, List.flatMap_append,
        conjuncts_condition a, conjuncts_conditions as]

end

end Account

/-- **Siblings are folded once.**  A filter that compiles has an account, made in
one pass that keeps no table: at the first member of each family of two or more
tests of a closure stands the condition of the family, at the other members
nothing, and everything else stands for itself.  The compiled condition, its joins
and its labels are those of the account.  In every closure the operands are the
conditions at the parts in their order, the condition of a family asks what its
members ask, and every condition is accounted for at one part and at no other. -/
theorem compile_folds_once
    {s : Setting} {collection : String} {filter : Json} {c : Compiled}
    (h : s.compile collection filter = .ok c) :
    ∃ tree a p, Filter.ofJson s.options.maxDepth filter = .ok tree ∧
      (s.account tree).run (Progress.start collection) = (.ok a, p) ∧ p.folded = [] ∧
      a.filter = tree ∧ c = ⟨collection, a.condition, p.plan.joins, p.labels⟩ ∧
      ∀ b ∈ a.closures,
        b.condition.toList.flatMap Expr.conjuncts =
          (b.parts.flatMap fun x => x.condition.toList).flatMap Expr.conjuncts ∧
        (∀ leaf fold, .folded leaf fold ∈ b.parts →
          leaf.id ∈ fold.members.map DocumentTest.id ∧ fold.Asks) ∧
        (b.parts.flatMap Account.covers).Perm (b.parts.flatMap Account.numbers) ∧
        (b.parts.flatMap Account.numbers).Nodup := by
  obtain ⟨tree, a, p, htree, hrun, hfolded, hc⟩ := account_of_compile h
  obtain ⟨hfilter, hclosures⟩ := closures_of_account hrun
  refine ⟨tree, a, p, htree, hrun, hfolded, hfilter, hc, fun b hb => ?_⟩
  have hclosure := hclosures b hb
  have hnodup : b.filter.ids.Nodup := (Filter.nodup_ids htree).sublist hclosure.ids_sublist
  refine ⟨b.conjuncts_condition, ?_, Account.covers_perm hclosure.folds hnodup, ?_⟩
  · intro leaf fold hpart
    obtain ⟨folds, hfolds, hparts⟩ := hclosure.folds
    obtain ⟨hfold, hid⟩ := Fold.mem_of_of? (hparts _ hpart)
    exact ⟨hid, hfolds.asks fold hfold⟩
  · exact hnodup.sublist (Account.sublist_numbers b)

/-- Notes with a JSON document each. -/
def notes : Setting where
  schema := {
    collections := [("notes", {
      primary := "id"
      fields := [("doc", { type := .json, specials := .ofFlags [] })] })]
    relations := [] }
  options := {}

/-- Two members of the document of a note. -/
def bothMembers : Json :=
  .obj [("doc", .obj [
    ("open", .obj [("_eq", .bool true)]),
    ("late", .obj [("_eq", .bool false)])])]

/-- The group that a part was folded into. -/
def Account.fold? : Account → Option Fold
  | .folded _ fold => some fold
  | _ => none

/-- Both conditions stand in one group: they are of the same row source and field, their paths
without the last segments have the same text, and the last segments have no index. -/
theorem compile_folds_once_bothMembers :
    ∃ c tree a p, notes.compile "notes" bothMembers = .ok c ∧
      (notes.account tree).run (Progress.start "notes") = (.ok a, p) ∧ a.filter = tree ∧
      c = ⟨"notes", a.condition, p.plan.joins, p.labels⟩ ∧
      ∃ b ∈ a.closures, ∃ leaf fold, .folded leaf fold ∈ b.parts ∧
        (fold.members.map (fun t =>
            (t.qualifier, t.field, JsonPath.text t.path.dropLast true)) =
          [("notes", "doc", "$[*]"), ("notes", "doc", "$[*]")] ∧
        fold.members.map (fun t => t.path.getLast?.map fun s => (s.name, s.index)) =
          [some ("open", none), some ("late", none)]) ∧
        leaf.id ∈ fold.members.map DocumentTest.id ∧ fold.Asks := by
  obtain ⟨c, hc⟩ := exists_of_isOk
    (show (notes.compile "notes" bothMembers).isOk = true by decide +kernel)
  obtain ⟨tree, a, p, htree, hrun, -, hfilter, heq, hclosures⟩ := compile_folds_once hc
  have hfolds : ((Filter.ofJson notes.options.maxDepth bothMembers).toOption.any fun tree =>
      ((notes.account tree).run (Progress.start "notes")).1.toOption.any fun a =>
        a.closures.any fun b => b.parts.any fun x => x.fold?.any fun fold => decide
          (fold.members.map (fun t =>
              (t.qualifier, t.field, JsonPath.text t.path.dropLast true)) =
            [("notes", "doc", "$[*]"), ("notes", "doc", "$[*]")] ∧
          fold.members.map (fun t => t.path.getLast?.map fun s => (s.name, s.index)) =
            [some ("open", none), some ("late", none)])) = true := by
    decide +kernel
  rw [htree, Except.toOption, Option.any_some, hrun, Except.toOption, Option.any_some] at hfolds
  obtain ⟨b, hb, hparts⟩ := List.any_eq_true.1 hfolds
  obtain ⟨x, hx, hfold⟩ := List.any_eq_true.1 hparts
  cases x with
  | folded leaf fold =>
      obtain ⟨-, hasks, -⟩ := hclosures b hb
      exact ⟨c, tree, a, p, hc, hrun, hfilter, heq, b, hb, leaf, fold, hx, of_decide_eq_true hfold,
        hasks leaf fold hx⟩
  | _ => cases hfold

end RowFilter
