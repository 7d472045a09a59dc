import RowFilter.Compilation.Condition
import RowFilter.Filter.Basic

/-!
# Folding sibling conditions

Conditions that must hold together and read members of the same elements of a
JSON document are asked of one element.  They are looked for through nested
conjunctions, never inside a disjunction.  The condition of a group stands at
its first member, and nothing at the others.
-/

namespace RowFilter

namespace DocumentTest

/-- What the tests of one group have in common: the row source, the field and the
path to the shared elements. -/
def groupKey (t : DocumentTest) : String × String × String :=
  (t.qualifier, t.field, t.elementPath)

/-- Puts a test at the end of its group, or opens a group after the others. -/
def addTo (t : DocumentTest) : List (List DocumentTest) → List (List DocumentTest)
  | [] => [[t]]
  | group :: groups =>
      if group.head?.map groupKey == some t.groupKey then
        (group ++ [t]) :: groups
      else
        group :: t.addTo groups

/-- The groups of tests that share their elements, in the order of their first
members. -/
def groups (tests : List DocumentTest) : List (List DocumentTest) :=
  tests.foldl (fun groups t => t.addTo groups) []

end DocumentTest

/-- The test of a comparison, if it reads inside a JSON document and is not
folded yet. -/
def testOf? (schema : Schema) (id : Nat) (path : List Segment) (c : Comparison)
    (operand : Json) : Compiling (Option DocumentTest) := do
  if ((← Attempt.state).folded.lookup id).isSome then
    return none
  else
    match ← Compiling.locate schema path with
    | .json place (s :: rest) =>
        Attempt.ofExcept (checkJsonPath place.segment.name (s :: rest) (.compare c))
        return some (place.documentTest id (s :: rest) c operand)
    | _ => return none

mutual

/-- The tests of a filter outside its disjunctions and quantified conditions. -/
def testsOf (schema : Schema) : Filter → Compiling (List DocumentTest)
  | .and children => testsOfAll schema children
  | .or _ => return []
  | .compare id path c operand => return (← testOf? schema id path c operand).toList
  | .quantify _ _ _ _ => return []

/-- The tests of filters that must hold together. -/
def testsOfAll (schema : Schema) : List Filter → Compiling (List DocumentTest)
  | [] => return []
  | child :: rest => do
      let tests ← testsOf schema child
      let others ← testsOfAll schema rest
      return tests ++ others

end

/-- Folds a group of two or more tests: its condition stands for the first. -/
def foldGroup : List DocumentTest → Compiling Unit
  | first :: second :: rest => do
      let condition ← Compiling.label (DocumentTest.together (first :: second :: rest))
      Attempt.update fun p => { p with
        folded := p.folded ++
          (first.id, condition) :: (second :: rest).map fun t => (t.id, none) }
  | _ => return ()

/-- Folds groups one after the other. -/
def foldGroups : List (List DocumentTest) → Compiling Unit
  | [] => return ()
  | group :: rest => do
      foldGroup group
      foldGroups rest

/-- Folds the conditions among filters that must hold together. -/
def foldSiblings (schema : Schema) (children : List Filter) : Compiling Unit := do
  let tests ← testsOfAll schema children
  foldGroups (DocumentTest.groups (tests.filter DocumentTest.endsInMember))

end RowFilter
