import RowFilter.DocumentTest

/-!
# Reading JSON paths

The text of a JSON path can be read back: names in quotes end at the first quote that is
not escaped, and names without quotes end where an access begins.  Walked through a
document, a path leads to any number of values.  The walk is lax: a member is also looked
for in the elements of an array, and what is no array counts as its own only element.

* `JsonPath.read?`: the accesses that a text spells.
* `JsonPath.read?_text`: they are those of the segments of the path.
* `JsonPath.found`: where a path leads in a document.
* `JsonPath.mem_found_member`: a path that ends in a member leads to that member of every
  element that the path before it leads to.
-/

namespace RowFilter

namespace JsonPath

/-- One access of a path. -/
inductive Access where
  | member (name : String)
  /-- All elements of an array. -/
  | elements
  /-- One element of an array. -/
  | element (n : Nat)
deriving DecidableEq

/-- The access behind the member of a segment. -/
def accessBehind (openEnd : Bool) (s : Segment) (rest : List Segment) : List Access :=
  match s.index with
  | some n => [.element n]
  | none => if rest.isEmpty && !openEnd then [] else [.elements]

/-- What is written behind the member of a segment. -/
def stepBehind (openEnd : Bool) (s : Segment) (rest : List Segment) : List Char :=
  match s.index with
  | some n => element n
  | none => if rest.isEmpty && !openEnd then [] else elements

theorem steps_cons
    (openEnd : Bool) (s : Segment) (rest : List Segment) :
    steps openEnd (s :: rest) =
      member s.name.toList ++ stepBehind openEnd s rest ++ steps openEnd rest :=
  rfl

/-- The accesses of a path. -/
def accesses (openEnd : Bool) : List Segment → List Access
  | [] => []
  | s :: rest => .member s.name :: (accessBehind openEnd s rest ++ accesses openEnd rest)

/-- The accesses of a path from the root of a document. -/
def ofSegments (segments : List Segment) (openEnd : Bool) : List Access :=
  (if segments.isEmpty && openEnd then [.elements] else []) ++ accesses openEnd segments

/-! ## Reading -/

/-- What a reader is in the middle of. -/
inductive Mode where
  | between
  | dot
  /-- A name without quotes. -/
  | name (cs : List Char)
  | quoted (cs : List Char)
  /-- Behind a backslash in quotes. -/
  | escaped (cs : List Char)
  | bracket
  | star
  | digits (n : Nat)

namespace Mode

/-- What follows a character, and the access that it completes. -/
def next : Mode → Char → Option (Mode × Option Access)
  | between, c =>
      if c = '.' then some (dot, none)
      else if c = '[' then some (bracket, none)
      else none
  | dot, c =>
      if c = '"' then some (quoted [], none)
      else if c.isAlpha || c == '_' then some (name [c], none)
      else none
  | name cs, c =>
      if c = '.' then some (dot, some (.member (.ofList cs)))
      else if c = '[' then some (bracket, some (.member (.ofList cs)))
      else if c.isAlphanum || c == '_' then some (name (cs ++ [c]), none)
      else none
  | quoted cs, c =>
      if c = '"' then some (between, some (.member (.ofList cs)))
      else if c = '\\' then some (escaped cs, none)
      else some (quoted (cs ++ [c]), none)
  | escaped cs, c =>
      if c = '"' ∨ c = '\\' then some (quoted (cs ++ [c]), none) else none
  | bracket, c =>
      if c = '*' then some (star, none)
      else if c.isDigit then some (digits (c.toNat - '0'.toNat), none)
      else none
  | star, c => if c = ']' then some (between, some .elements) else none
  | digits n, c =>
      if c = ']' then some (between, some (.element n))
      else if c.isDigit then some (digits (10 * n + (c.toNat - '0'.toNat)), none)
      else none

/-- The access that the end of the text completes. -/
def finish : Mode → Option (List Access)
  | between => some []
  | name cs => some [.member (.ofList cs)]
  | _ => none

/-- The accesses that are read from here on. -/
def read : Mode → List Char → Option (List Access)
  | mode, [] => mode.finish
  | mode, c :: cs =>
      (mode.next c).bind fun (mode', found) => (read mode' cs).map (found.toList ++ ·)

end Mode

/-- The accesses that a text spells. -/
def read? (text : String) : Option (List Access) :=
  match text.toList with
  | '$' :: cs => Mode.between.read cs
  | _ => none

namespace Mode

theorem read_cons
    {mode mode' : Mode} {c : Char} {found : Option Access}
    (h : mode.next c = some (mode', found)) (cs : List Char) :
    mode.read (c :: cs) = (mode'.read cs).map (found.toList ++ ·) := by
  rw [read, h]
  rfl

/-- Characters that complete nothing. -/
theorem read_cons_none
    {mode mode' : Mode} {c : Char}
    (h : mode.next c = some (mode', none)) (cs : List Char) :
    mode.read (c :: cs) = mode'.read cs := by
  rw [read_cons h]
  simp

theorem read_elements
    (cs : List Char) :
    between.read (elements ++ cs) = (between.read cs).map (.elements :: ·) := by
  rw [elements, List.cons_append, List.cons_append, List.cons_append, List.nil_append]
  rw [read_cons_none rfl, read_cons_none rfl, read_cons rfl]
  rfl

theorem read_digits
    {ds : List Char} (n : Nat) (cs : List Char)
    (h : ∀ d ∈ ds, d.isDigit = true) :
    (digits n).read (ds ++ ']' :: cs) =
      (between.read cs).map (.element (Nat.ofDigitChars 10 ds n) :: ·) := by
  induction ds generalizing n with
  | nil =>
      rw [List.nil_append, read_cons rfl]
      rfl
  | cons d ds ih =>
      obtain ⟨hd, hds⟩ := List.forall_mem_cons.1 h
      have hne : d ≠ ']' := by
        rintro rfl
        cases hd
      have hnext : (digits n).next d = some (digits (10 * n + (d.toNat - '0'.toNat)), none) := by
        simp [next, hne, hd]
      rw [List.cons_append, read_cons_none hnext, ih _ hds]
      rfl

theorem read_element
    (n : Nat) (cs : List Char) :
    between.read (element n ++ cs) = (between.read cs).map (.element n :: ·) := by
  have hdigits : ∀ d ∈ Decimal.digitChars n, d.isDigit = true :=
    fun d hd => Nat.isDigit_of_mem_toDigits (by decide) (by decide) hd
  have hvalue : Nat.ofDigitChars 10 (Decimal.digitChars n) 0 = n := by
    simp [Decimal.digitChars]
  unfold element
  rw [List.cons_append, List.append_assoc, List.cons_append, List.nil_append, read_cons_none rfl]
  cases hchars : Decimal.digitChars n with
  | nil => exact absurd hchars Nat.toDigits_ne_nil
  | cons d ds =>
      rw [hchars] at hdigits hvalue
      obtain ⟨hd, hds⟩ := List.forall_mem_cons.1 hdigits
      have hne : d ≠ '*' := by
        rintro rfl
        cases hd
      have hnext : bracket.next d = some (digits (d.toNat - '0'.toNat), none) := by
        simp [next, hne, hd]
      have hfirst : Nat.ofDigitChars 10 ds (d.toNat - '0'.toNat) = n := by
        rw [← hvalue, Nat.ofDigitChars_cons]
        simp
      rw [List.cons_append, read_cons_none hnext, read_digits _ _ hds, hfirst]

/-- A name in quotes ends at the first quote that is not escaped. -/
theorem read_quoted
    (name cs acc : List Char) :
    (quoted acc).read (name.flatMap escapeChar ++ '"' :: cs) =
      (between.read cs).map (.member (.ofList (acc ++ name)) :: ·) := by
  induction name generalizing acc with
  | nil =>
      rw [List.flatMap_nil, List.nil_append, read_cons rfl, List.append_nil]
      rfl
  | cons c name ih =>
      have hacc : acc ++ c :: name = acc ++ [c] ++ name := by simp
      rw [List.flatMap_cons, List.append_assoc, hacc]
      by_cases hescape : c = '"' ∨ c = '\\'
      · have hnext : (escaped acc).next c = some (quoted (acc ++ [c]), none) := by
          simp only [next, if_pos hescape]
        rw [escapeChar_special hescape, List.cons_append, List.cons_append, List.nil_append]
        rw [read_cons_none rfl, read_cons_none hnext]
        exact ih _
      · have hchars := escapeChar_plain hescape
        rw [not_or] at hescape
        have hnext : (quoted acc).next c = some (quoted (acc ++ [c]), none) := by
          simp [next, hescape]
        rw [hchars, List.cons_append, List.nil_append, read_cons_none hnext]
        exact ih _

/-- A name without quotes goes on over its characters. -/
theorem read_name
    {name : List Char} (acc cs : List Char)
    (h : ∀ c ∈ name, (c.isAlphanum || c == '_') = true) :
    (Mode.name acc).read (name ++ cs) = (Mode.name (acc ++ name)).read cs := by
  induction name generalizing acc with
  | nil => simp
  | cons c name ih =>
      obtain ⟨hc, hname⟩ := List.forall_mem_cons.1 h
      have hdot : c ≠ '.' := by
        rintro rfl
        cases hc
      have hbracket : c ≠ '[' := by
        rintro rfl
        cases hc
      have hnext : (Mode.name acc).next c = some (Mode.name (acc ++ [c]), none) := by
        simp only [next, if_neg hdot, if_neg hbracket, if_pos hc]
      rw [List.cons_append, read_cons_none hnext, ih _ hname]
      simp

/-- A name without quotes ends where an access begins, or with the text. -/
theorem read_name_end
    {cs : List Char} (name : List Char)
    (h : ∀ c ∈ cs.head?, c = '.' ∨ c = '[') :
    (Mode.name name).read cs = (between.read cs).map (.member (.ofList name) :: ·) := by
  cases cs with
  | nil => rfl
  | cons c cs =>
      rcases h c rfl with rfl | rfl
      · rw [read_cons rfl, read_cons_none rfl]
        rfl
      · rw [read_cons rfl, read_cons_none rfl]
        rfl

theorem read_member
    {cs : List Char} (name : List Char)
    (h : ∀ c ∈ cs.head?, c = '.' ∨ c = '[') :
    between.read (member name ++ cs) = (between.read cs).map (.member (.ofList name) :: ·) := by
  unfold member
  split
  · rename_i hidentifier
    cases name with
    | nil => cases hidentifier
    | cons c name =>
        simp only [isIdentifier, Bool.and_eq_true, List.all_eq_true] at hidentifier
        have hquote : c ≠ '"' := by
          rintro rfl
          cases hidentifier.1
        have hnext : dot.next c = some (Mode.name [c], none) := by
          simp only [next, if_neg hquote, if_pos hidentifier.1]
        rw [List.cons_append, List.cons_append, read_cons_none rfl, read_cons_none hnext]
        rw [read_name _ _ hidentifier.2, read_name_end _ h]
        rfl
  · rw [List.cons_append, List.cons_append, List.append_assoc]
    rw [read_cons_none rfl, read_cons_none rfl]
    exact read_quoted name cs []

theorem read_accessBehind
    (openEnd : Bool) (s : Segment) (rest : List Segment) (cs : List Char) :
    between.read (stepBehind openEnd s rest ++ cs) =
      (between.read cs).map (accessBehind openEnd s rest ++ ·) := by
  unfold stepBehind accessBehind
  cases s.index with
  | some n => exact read_element n cs
  | none =>
      by_cases hend : (rest.isEmpty && !openEnd) = true
      · simp [hend]
      · simp only [if_neg hend]
        exact read_elements cs

end Mode

/-- Behind a member the text ends or an access begins. -/
theorem head_steps
    (openEnd : Bool) (segments : List Segment) :
    ∀ c ∈ (steps openEnd segments).head?, c = '.' ∨ c = '[' := by
  cases segments with
  | nil => simp [steps]
  | cons s rest =>
      rw [steps, List.append_assoc]
      unfold member
      split <;> simp

theorem head_stepBehind
    {cs : List Char} (openEnd : Bool) (s : Segment) (rest : List Segment)
    (h : ∀ c ∈ cs.head?, c = '.' ∨ c = '[') :
    ∀ c ∈ (stepBehind openEnd s rest ++ cs).head?, c = '.' ∨ c = '[' := by
  unfold stepBehind
  cases s.index with
  | some n => simp [element]
  | none =>
      by_cases hend : (rest.isEmpty && !openEnd) = true
      · simpa only [if_pos hend, List.nil_append] using h
      · simp only [if_neg hend]
        simp [elements]

theorem read_steps
    (openEnd : Bool) (segments : List Segment) :
    Mode.between.read (steps openEnd segments) = some (accesses openEnd segments) := by
  induction segments with
  | nil => rfl
  | cons s rest ih =>
      have hhead := head_stepBehind openEnd s rest (head_steps openEnd rest)
      rw [steps_cons, List.append_assoc, Mode.read_member _ hhead, Mode.read_accessBehind, ih]
      rw [accesses, String.ofList_toList]
      rfl

/-- The text of a path spells its accesses. -/
theorem read?_text
    (segments : List Segment) (openEnd : Bool) :
    read? (text segments openEnd) = some (ofSegments segments openEnd) := by
  have hsteps := read_steps openEnd segments
  unfold read? text chars ofSegments
  rw [String.toList_ofList]
  by_cases hroot : (segments.isEmpty && openEnd) = true
  · simp only [if_pos hroot, Mode.read_elements, hsteps]
    rfl
  · simp only [if_neg hroot, List.nil_append, hsteps]

end JsonPath

/-! ## Walking -/

namespace Json

def isArray : Json → Bool
  | .arr _ => true
  | _ => false

mutual

/-- The members of a name in a value: its own, or those in the elements of an array.  With
`deep` also the elements of elements count. -/
def membersNamed (deep : Bool) (name : String) : Json → List Json
  | .obj members => (members.lookup name).toList
  | .arr items => membersNamedInAll deep name items
  | _ => []

/-- The members of a name in the values of a list. -/
def membersNamedInAll (deep : Bool) (name : String) : List Json → List Json
  | [] => []
  | item :: rest =>
      (if item.isArray && !deep then [] else membersNamed deep name item) ++
        membersNamedInAll deep name rest

end

/-- The elements of an array; any other value is its own only element. -/
def elements : Json → List Json
  | .arr items => items
  | j => [j]

theorem mem_membersNamed_of_get?
    (deep : Bool) {name : String} {j value : Json}
    (h : j.get? name = some value) :
    value ∈ j.membersNamed deep name := by
  cases j with
  | obj members => simpa [get?, membersNamed] using h
  | null | bool | num | str | arr => cases h

theorem mem_membersNamedInAll_of_get?
    (deep : Bool) {name : String} {j value : Json} {items : List Json}
    (hmem : j ∈ items) (h : j.get? name = some value) :
    value ∈ membersNamedInAll deep name items := by
  induction items with
  | nil => cases hmem
  | cons item rest ih =>
      rw [membersNamedInAll]
      rcases List.mem_cons.1 hmem with rfl | hrest
      · have harray : j.isArray = false := by
          cases j with
          | arr items => cases h
          | null | bool | num | str | obj => rfl
        rw [harray, Bool.false_and, if_neg Bool.false_ne_true]
        exact List.mem_append_left _ (mem_membersNamed_of_get? deep h)
      · exact List.mem_append_right _ (ih hrest)

/-- A member of an element is found from the whole value. -/
theorem mem_membersNamed_of_mem_elements
    (deep : Bool) {name : String} {j element value : Json}
    (hmem : element ∈ j.elements) (h : element.get? name = some value) :
    value ∈ j.membersNamed deep name := by
  cases j with
  | arr items => exact mem_membersNamedInAll_of_get? deep hmem h
  | null | bool | num | str | obj =>
      cases List.mem_singleton.1 hmem
      exact mem_membersNamed_of_get? deep h

end Json

namespace JsonPath

/-- Where an access leads from a value. -/
def Access.from (deep : Bool) (j : Json) : Access → List Json
  | .member name => j.membersNamed deep name
  | .elements => j.elements
  | .element n => j.elements[n]?.toList

/-- Where accesses lead one after the other. -/
def walk (deep : Bool) : List Access → Json → List Json
  | [], j => [j]
  | a :: rest, j => (a.from deep j).flatMap (walk deep rest)

/-- Where a path leads in a document. -/
def found (deep : Bool) (path : String) (document : Json) : List Json :=
  ((read? path).map fun accesses => walk deep accesses document).getD []

theorem found_text
    (deep : Bool) (segments : List Segment) (openEnd : Bool) (document : Json) :
    found deep (text segments openEnd) document =
      walk deep (ofSegments segments openEnd) document := by
  rw [found, read?_text]
  rfl

theorem walk_append
    (deep : Bool) (first second : List Access) (j : Json) :
    walk deep (first ++ second) j = (walk deep first j).flatMap (walk deep second) := by
  induction first generalizing j with
  | nil => simp [walk]
  | cons a rest ih =>
      have hrest : walk deep (rest ++ second) = fun k =>
          (walk deep rest k).flatMap (walk deep second) := funext ih
      rw [List.cons_append, walk, walk, hrest, List.flatMap_assoc]

theorem walk_member
    (deep : Bool) (name : String) (j : Json) :
    walk deep [.member name] j = j.membersNamed deep name := by
  simp [walk, Access.from]

/-- A path that ends in a member has the accesses of the open path before it, and the
member. -/
theorem accesses_concat
    {last : Segment} (init : List Segment)
    (h : last.index = none) :
    accesses false (init ++ [last]) = accesses true init ++ [.member last.name] := by
  induction init with
  | nil => simp [accesses, accessBehind, h]
  | cons s rest ih =>
      have hbehind : accessBehind false s (rest ++ [last]) = accessBehind true s rest := by
        simp [accessBehind]
      rw [List.cons_append, accesses, accesses, hbehind, ih, List.cons_append,
        List.append_assoc]

/-- A path that ends in a member leads to that member of every element that the open path
before it leads to. -/
theorem mem_found_member
    (deep : Bool) {init : List Segment} {last : Segment} {document element value : Json}
    (hlast : last.index = none)
    (hmem : element ∈ found deep (text init true) document)
    (h : element.get? last.name = some value) :
    value ∈ found deep (text (init ++ [last]) false) document := by
  rw [found_text] at hmem ⊢
  unfold ofSegments at hmem ⊢
  rw [Bool.and_false, if_neg Bool.false_ne_true, List.nil_append, accesses_concat init hlast,
    walk_append, List.mem_flatMap]
  cases init with
  | nil =>
      -- from the root, the elements are those of the document itself
      have hroot : element ∈ document.elements := by
        simpa [accesses, walk, Access.from] using hmem
      refine ⟨document, by simp [accesses, walk], ?_⟩
      rw [walk_member]
      exact Json.mem_membersNamed_of_mem_elements deep hroot h
  | cons s rest =>
      refine ⟨element, by simpa using hmem, ?_⟩
      rw [walk_member]
      exact Json.mem_membersNamed_of_get? deep h

end JsonPath
end RowFilter
