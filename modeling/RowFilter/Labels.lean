import RowFilter.Decimal.Layout

/-!
# Labels of row sources

Row sources go by labels.  A label is a base with the next number of one
counter, so no two labels are the same.  A JSON field, and the elements at a path
inside it, keep the label that they got at their first request.
-/

namespace RowFilter

/-- The labels given out so far. -/
structure Labels where
  /-- How many were given out. -/
  count : Nat := 0
  /-- Labels of JSON fields, by collection and field. -/
  fields : List ((String × String) × String) := []
  /-- Labels of elements, by the field with its collection and the path. -/
  elements : List ((String × String) × String) := []

/-- The answer to a request for a label. -/
structure Labelled where
  label : String
  /-- The label was given out by this request. -/
  isNew : Bool
deriving DecidableEq

namespace Labels

/-- A base with a number. -/
def numbered (base : String) (n : Nat) : String :=
  base ++ "_" ++ String.ofList (Decimal.digitChars n)

/-- A label that was not given out before. -/
def fresh (base : String) (l : Labels) : String × Labels :=
  (numbered base (l.count + 1), { l with count := l.count + 1 })

/-- The label of a JSON field, if it has one. -/
def field? (l : Labels) (collection field : String) : Option String :=
  l.fields.lookup (collection, field)

/-- The label of a JSON field. -/
def ofField (collection field : String) (l : Labels) : Labelled × Labels :=
  match l.field? collection field with
  | some label => (⟨label, false⟩, l)
  | none =>
      let (label, l) := l.fresh field
      (⟨label, true⟩, { l with fields := l.fields ++ [((collection, field), label)] })

/-- The key under which the elements at a path inside a JSON field are kept. -/
def elementsKey (collection field path : String) : String × String :=
  (collection ++ "." ++ field, path)

/-- The label of the elements at a path inside a JSON field; the field gets a
label as well. -/
def ofElements (collection field path : String) (l : Labels) : Labelled × Labels :=
  let (_, l) := l.ofField collection field
  match l.elements.lookup (elementsKey collection field path) with
  | some label => (⟨label, false⟩, l)
  | none =>
      let (label, l) := l.fresh field
      (⟨label, true⟩,
        { l with elements := l.elements ++ [(elementsKey collection field path, label)] })

/-- How many JSON fields have a label. -/
def fieldCount (l : Labels) : Nat :=
  l.fields.length

/-- How many paths inside JSON fields have a label for their elements. -/
def elementsCount (l : Labels) : Nat :=
  l.elements.length

end Labels
end RowFilter
