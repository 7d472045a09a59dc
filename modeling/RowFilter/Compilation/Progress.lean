import RowFilter.DocumentTest
import RowFilter.JoinPlan
import RowFilter.Options

/-!
# The state of a compilation

A compilation keeps the labels given out, the joins of the query it is in, and
what became of conditions that were folded into the condition of a sibling.
-/

namespace RowFilter

open Sql (Expr Join)

/-- The state of a compilation. -/
structure Progress where
  labels : Labels
  /-- The joins of the current query. -/
  plan : JoinPlan
  /-- What stands for each folded condition, by its number. -/
  folded : List (Nat × Option Expr)

/-- A step of a compilation. -/
abbrev Compiling (α : Type) : Type :=
  Attempt Progress α

namespace Progress

/-- The state before a filter on a collection is compiled. -/
def start (collection : String) : Progress where
  labels := {}
  plan := JoinPlan.start collection collection
  folded := []

/-- The part of the state that join planning works on. -/
def planning (p : Progress) : Planning :=
  ⟨p.labels, p.plan⟩

/-- The state after join planning. -/
def withPlanning (t : Planning) (p : Progress) : Progress :=
  { p with labels := t.labels, plan := t.plan }

/-- The state after labels were given out. -/
def withLabels (l : Labels) (p : Progress) : Progress :=
  { p with labels := l }

/-- The state inside a new query. -/
def inside (p : Progress) (collection qualifier : String) : Progress :=
  { p with plan := JoinPlan.start collection qualifier }

end Progress

namespace Compiling

/-- Follows a path in the current query. -/
def locate (schema : Schema) (path : List Segment) : Compiling Destination :=
  Attempt.focus Progress.planning Progress.withPlanning (JoinPlan.locate schema path)

/-- A step on the labels given out. -/
def label {α : Type} (step : Attempt Labels α) : Compiling α :=
  Attempt.focus Progress.labels Progress.withLabels step

/-- A new label. -/
def freshLabel (base : String) : Compiling String :=
  label (Attempt.ofState (Labels.fresh base))

/-- A step inside a query of its own: its result, and the joins planned for it.
The joins of the query around it stay as they are. -/
def inQuery {α : Type} (collection qualifier : String) (step : Compiling α) :
    Compiling (α × List Join) :=
  ⟨fun p =>
    let (result, q) := step.run (p.inside collection qualifier)
    (result.map fun a => (a, q.plan.joins), { q with plan := p.plan })⟩

end Compiling
end RowFilter
