import RowFilter.Double

/-!
# JSON documents

A document keeps its members in the order in which they were written.  A number
is an integer of 64 bits, signed or unsigned, or a double.
-/

namespace RowFilter

/-- A JSON number. -/
inductive Json.Number where
  | int (i : Int)
  | float (x : Double)
deriving DecidableEq

/-- A JSON document. -/
inductive Json where
  | null
  | bool (b : Bool)
  | num (n : Json.Number)
  | str (s : String)
  | arr (items : List Json)
  | obj (members : List (String × Json))

namespace Json

/-- The double nearest to a number. -/
def Number.toDouble : Number → Double
  | .int i => Double.ofInt i
  | .float x => x

/-- A natural number as a document. -/
def ofNat (n : Nat) : Json :=
  .num (.int n)

/-- A text or null. -/
def ofText? : Option String → Json
  | some s => .str s
  | none => .null

/-- The value of the first member with the given name. -/
def get? (name : String) : Json → Option Json
  | .obj members => members.lookup name
  | _ => none

/-- Sets a member: a value already there is replaced where it stands, a new
member comes last. -/
def setMember {α : Type} (name : String) (value : α) :
    List (String × α) → List (String × α)
  | [] => [(name, value)]
  | (k, v) :: rest =>
      if k == name then (name, value) :: rest else (k, v) :: setMember name value rest

/-- Members with every name once: the last value counts, at the first place. -/
def uniqueMembers {α : Type} (members : List (String × α)) : List (String × α) :=
  members.foldl (fun acc m => setMember m.1 m.2 acc) []

mutual

/-- The document with repeated member names resolved everywhere. -/
def resolveRepeats : Json → Json
  | .arr items => .arr (resolveRepeatsItems items)
  | .obj members => .obj (uniqueMembers (resolveRepeatsMembers members))
  | scalar => scalar

def resolveRepeatsItems : List Json → List Json
  | [] => []
  | j :: rest => resolveRepeats j :: resolveRepeatsItems rest

def resolveRepeatsMembers : List (String × Json) → List (String × Json)
  | [] => []
  | (k, j) :: rest => (k, resolveRepeats j) :: resolveRepeatsMembers rest

end

/-- Properties of members, values and items that follow from what stands inside them. -/
structure InsideOut (M : List (String × Json) → Prop) (V : Json → Prop) (I : List Json → Prop) :
    Prop where
  nil : M []
  cons : ∀ {key v rest}, V v → M rest → M ((key, v) :: rest)
  value : ∀ {v}, (∀ items, v = .arr items → I items) → (∀ members, v = .obj members → M members) →
    V v
  noItem : I []
  item : ∀ {v rest}, (∀ members, v = .obj members → M members) → I rest → I (v :: rest)

namespace InsideOut

variable {M : List (String × Json) → Prop} {V : Json → Prop} {I : List Json → Prop}

mutual

/-- Induction on documents. -/
theorem ofMembers
    (h : InsideOut M V I) :
    ∀ members, M members
  | [] => h.nil
  | (_, v) :: rest => h.cons (ofValue h v) (ofMembers h rest)

theorem ofValue
    (h : InsideOut M V I) :
    ∀ v, V v
  | .arr items => h.value (fun _ hitems => Json.arr.inj hitems ▸ ofItems h items) nofun
  | .obj members => h.value nofun fun _ hmembers => Json.obj.inj hmembers ▸ ofMembers h members
  | .null => h.value nofun nofun
  | .bool _ => h.value nofun nofun
  | .num _ => h.value nofun nofun
  | .str _ => h.value nofun nofun

theorem ofItems
    (h : InsideOut M V I) :
    ∀ items, I items
  | [] => h.noItem
  | .obj members :: rest =>
      h.item (fun _ hmembers => Json.obj.inj hmembers ▸ ofMembers h members) (ofItems h rest)
  | .arr _ :: rest => h.item nofun (ofItems h rest)
  | .null :: rest => h.item nofun (ofItems h rest)
  | .bool _ :: rest => h.item nofun (ofItems h rest)
  | .num _ :: rest => h.item nofun (ofItems h rest)
  | .str _ :: rest => h.item nofun (ofItems h rest)

end

end InsideOut

end Json
end RowFilter
