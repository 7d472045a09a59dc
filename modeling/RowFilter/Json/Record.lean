import RowFilter.Json.Basic

/-!
# Records in JSON documents

A record with named members is written as an object, or as an array that holds
the members in their order.  In an object members of other names are passed
over, and a member of the record may stand only once.  In an array members may
be missing at the end.
-/

namespace RowFilter
namespace Json

/-- The only value of a name among the members, if there is one; more than one
is refused. -/
def onlyMember? (members : List (String × Json)) (name : String) : Option (Option Json) :=
  match members.filter (·.1 == name) with
  | [] => some none
  | [(_, j)] => some (some j)
  | _ => none

/-- The members of a record, in the order of `names`. -/
def record? (names : List String) : Json → Option (List (Option Json))
  | .obj members => names.mapM (onlyMember? members)
  | .arr items =>
      if items.length ≤ names.length then
        some (items.map some ++ List.replicate (names.length - items.length) none)
      else
        none
  | _ => none

/-- A text. -/
def text? : Json → Option String
  | .str s => some s
  | _ => none

/-- A truth value. -/
def bool? : Json → Option Bool
  | .bool b => some b
  | _ => none

/-- A natural number of 64 bits. -/
def nat? : Json → Option Nat
  | .num (.int i) => if 0 ≤ i then some i.toNat else none
  | _ => none

/-- A list of texts. -/
def texts? : Json → Option (List String)
  | .arr items => items.mapM text?
  | _ => none

/-- A text that may be null or missing. -/
def optionalText? : Option Json → Option (Option String)
  | none => some none
  | some .null => some none
  | some (.str s) => some (some s)
  | some _ => none

/-- One of a fixed set of names: the name alone, or an object with that name and
null. -/
def choice? : Json → Option String
  | .str s => some s
  | .obj [(name, .null)] => some name
  | _ => none

/-- An object read as a table from names to values; of a repeated name the last
value counts. -/
def table? {α : Type} (read? : Json → Option α) : Json → Option (List (String × α))
  | .obj members =>
      (members.mapM fun m => (read? m.2).map fun a => (m.1, a)).map uniqueMembers
  | _ => none

end Json
end RowFilter
