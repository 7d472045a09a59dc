import RowFilter.Json.Basic
import RowFilter.Text.Blank
import RowFilter.Text.Lower

/-!
# Special flags of fields

A field carries a set of flags.  The set is written as the list of the flags'
names in a fixed order; reading ignores names that are not flags.
-/

namespace RowFilter

/-- A special flag of a field. -/
inductive Flag where
  | virtual
  | noData
  | oneToMany
  | manyToOne
  | manyToMany
  | manyToAny
  | castJson
  | castCsv
  | conceal
  | group
deriving DecidableEq

namespace Flag

/-- All flags, in the order in which they are written. -/
def all : List Flag :=
  [.virtual, .noData, .oneToMany, .manyToOne, .manyToMany, .manyToAny, .castJson, .castCsv,
    .conceal, .group]

/-- The name of a flag in a schema. -/
def name : Flag → String
  | .virtual => "alias"
  | .noData => "no-data"
  | .oneToMany => "o2m"
  | .manyToOne => "m2o"
  | .manyToMany => "m2m"
  | .manyToAny => "m2a"
  | .castJson => "cast-json"
  | .castCsv => "cast-csv"
  | .conceal => "conceal"
  | .group => "group"

/-- The position of a flag in the bit set. -/
def bit : Flag → Nat
  | .virtual => 0
  | .noData => 1
  | .oneToMany => 2
  | .manyToOne => 3
  | .manyToMany => 4
  | .manyToAny => 5
  | .castJson => 6
  | .castCsv => 7
  | .conceal => 8
  | .group => 9

/-- The flag with a given name, in any letter case and with blanks around it. -/
def ofName? (name : String) : Option Flag :=
  let wanted := Text.lower (String.ofList (Text.trim name.toList))
  all.find? (·.name == wanted)

/-- Every flag is written. -/
@[simp] theorem mem_all
    (f : Flag) :
    f ∈ all := by
  cases f <;> decide

/-- Every flag is found by its name. -/
theorem ofName?_name
    (f : Flag) :
    ofName? f.name = some f := by
  cases f <;> decide +kernel

end Flag

/-- A set of flags. -/
structure Specials where
  virtual : Bool := false
  noData : Bool := false
  oneToMany : Bool := false
  manyToOne : Bool := false
  manyToMany : Bool := false
  manyToAny : Bool := false
  castJson : Bool := false
  castCsv : Bool := false
  conceal : Bool := false
  group : Bool := false
deriving DecidableEq

namespace Specials

/-- The flag is in the set. -/
def has (s : Specials) : Flag → Bool
  | .virtual => s.virtual
  | .noData => s.noData
  | .oneToMany => s.oneToMany
  | .manyToOne => s.manyToOne
  | .manyToMany => s.manyToMany
  | .manyToAny => s.manyToAny
  | .castJson => s.castJson
  | .castCsv => s.castCsv
  | .conceal => s.conceal
  | .group => s.group

/-- The set of the listed flags. -/
def ofFlags (flags : List Flag) : Specials where
  virtual := flags.contains .virtual
  noData := flags.contains .noData
  oneToMany := flags.contains .oneToMany
  manyToOne := flags.contains .manyToOne
  manyToMany := flags.contains .manyToMany
  manyToAny := flags.contains .manyToAny
  castJson := flags.contains .castJson
  castCsv := flags.contains .castCsv
  conceal := flags.contains .conceal
  group := flags.contains .group

/-- The flags of the set, in the order in which they are written. -/
def flags (s : Specials) : List Flag :=
  Flag.all.filter s.has

/-- The set as a number, one bit for each flag. -/
def bits (s : Specials) : Nat :=
  s.flags.foldl (fun n f => n + Nat.pow 2 f.bit) 0

/-- The field stands for a relation. -/
def standsForRelation (s : Specials) : Bool :=
  s.oneToMany || s.manyToOne || s.manyToMany || s.manyToAny

/-- The field has no column of its own. -/
def hasNoColumn (s : Specials) : Bool :=
  s.virtual || s.noData || s.group

@[simp] theorem has_ofFlags
    (flags : List Flag) (f : Flag) :
    (ofFlags flags).has f = flags.contains f := by
  cases f <;> rfl

/-- A set is known by its members. -/
theorem ext_has
    {s t : Specials}
    (h : ∀ f, s.has f = t.has f) :
    s = t := by
  cases s
  cases t
  simp only [mk.injEq]
  exact ⟨h .virtual, h .noData, h .oneToMany, h .manyToOne, h .manyToMany, h .manyToAny,
    h .castJson, h .castCsv, h .conceal, h .group⟩

/-- The listed flags of a set make the set. -/
theorem ofFlags_flags
    (s : Specials) :
    ofFlags s.flags = s := by
  apply ext_has
  intro f
  rw [has_ofFlags, flags, Bool.eq_iff_iff]
  simp

end Specials
end RowFilter
