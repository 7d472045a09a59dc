import RowFilter.Proofs.PathReading

/-!
# Paths are told from their text

A JSON path keeps the name and the position of each of its segments, and nothing else of
them.  Both are recovered from the text, whatever characters the names hold: a name that
could be taken for an access is written in quotes, and a quote or a backslash in it is
escaped.  So comparing the texts of two paths compares the paths.

* `JsonPath.recover?`: the names and positions that a text spells.
* `JsonPath.recover?_text`: they are those of the segments.
* `JsonPath.text_tells_steps`: paths and their texts.
-/

namespace RowFilter

/-- What a JSON path keeps of a segment: its name, and its position in an array. -/
def Segment.step (s : Segment) : String × Option Nat :=
  (s.name, s.index)

namespace JsonPath

/-! ## Recovering names and positions -/

/-- The names in a row of accesses, each with the position behind it. -/
def stepsOf? : List Access → Option (List (String × Option Nat))
  | [] => some []
  | .member name :: .element n :: rest => (stepsOf? rest).map ((name, some n) :: ·)
  | .member name :: .elements :: rest => (stepsOf? rest).map ((name, none) :: ·)
  | .member name :: rest => (stepsOf? rest).map ((name, none) :: ·)
  | _ => none

/-- The names and positions that the text of a path spells.  Elements of the document
itself belong to no name. -/
def recover? (text : String) : Option (List (String × Option Nat)) :=
  (read? text).bind fun accesses =>
    match accesses with
    | [.elements] => some []
    | _ => stepsOf? accesses

theorem stepsOf?_accesses
    (openEnd : Bool) (segments : List Segment) :
    stepsOf? (accesses openEnd segments) = some (segments.map Segment.step) := by
  induction segments with
  | nil => rfl
  | cons s rest ih =>
      rw [accesses, List.map_cons, Segment.step]
      unfold accessBehind
      cases s.index with
      | some n =>
          rw [List.cons_append, List.nil_append, stepsOf?, ih]
          rfl
      | none =>
          by_cases hend : (rest.isEmpty && !openEnd) = true
          · -- nothing is written behind the last name of a closed path
            simp only [Bool.and_eq_true, List.isEmpty_iff] at hend
            obtain ⟨rfl, hclosed⟩ := hend
            simp [hclosed, accesses, stepsOf?]
          · rw [if_neg hend, List.cons_append, List.nil_append, stepsOf?, ih]
            rfl

/-- The names and positions of a path are recovered from its text. -/
theorem recover?_text
    (segments : List Segment) (openEnd : Bool) :
    recover? (text segments openEnd) = some (segments.map Segment.step) := by
  rw [recover?, read?_text, Option.bind_some, ofSegments]
  cases segments with
  | nil => cases openEnd <;> rfl
  | cons s rest =>
      have hsteps := stepsOf?_accesses openEnd (s :: rest)
      rw [List.isEmpty_cons, Bool.false_and, if_neg Bool.false_ne_true, List.nil_append]
      rw [accesses] at hsteps ⊢
      exact hsteps

/-! ## Paths and their texts -/

/-- The steps of a path are written from the names and positions alone. -/
theorem steps_congr
    {first second : List Segment} (openEnd : Bool)
    (h : first.map Segment.step = second.map Segment.step) :
    steps openEnd first = steps openEnd second := by
  induction first generalizing second with
  | nil =>
      rw [List.map_nil, eq_comm, List.map_eq_nil_iff] at h
      rw [h]
  | cons s rest ih =>
      cases second with
      | nil => cases h
      | cons s' rest' =>
          rw [List.map_cons, List.map_cons, List.cons.injEq] at h
          obtain ⟨hstep, hrest⟩ := h
          obtain ⟨hname, hindex⟩ := Prod.mk.injEq .. ▸ hstep
          have hend : rest.isEmpty = rest'.isEmpty := by
            rw [← List.isEmpty_map (f := Segment.step), hrest, List.isEmpty_map]
          rw [steps, steps, ih hrest, hname, hindex, hend]

/-- Paths have the same text if and only if they have the same names and positions. -/
theorem text_eq_iff
    {first second : List Segment} {openEnd : Bool} :
    text first openEnd = text second openEnd ↔
      first.map Segment.step = second.map Segment.step := by
  constructor
  · intro h
    have hrecover := recover?_text first openEnd
    rw [h, recover?_text] at hrecover
    exact (Option.some.inj hrecover).symm
  · intro h
    have hend : first.isEmpty = second.isEmpty := by
      rw [← List.isEmpty_map (f := Segment.step), h, List.isEmpty_map]
    rw [text, text, chars, chars, steps_congr openEnd h, hend]

theorem steps_concat
    {last : Segment} (init : List Segment)
    (h : last.index = none) :
    steps false (init ++ [last]) = steps true init ++ member last.name.toList := by
  induction init with
  | nil => simp [steps, h]
  | cons s rest ih =>
      have hbehind : stepBehind false s (rest ++ [last]) = stepBehind true s rest := by
        simp [stepBehind]
      rw [List.cons_append, steps_cons, steps_cons, hbehind, ih, ← List.append_assoc]

/-- A path that ends in a member is the open path before it, followed by access to the
member. -/
theorem text_concat
    {init : List Segment} {last : Segment}
    (hinit : init ≠ []) (hlast : last.index = none) :
    text (init ++ [last]) false =
      text init true ++ String.ofList (member last.name.toList) := by
  have hroot : (init.isEmpty && true) = false := by simpa using hinit
  rw [text, text, chars, chars, steps_concat init hlast, hroot, Bool.and_false]
  rw [← String.ofList_append]
  rfl

/-- **Paths are told from their text.**  Names and positions are recovered from the text of a
path, open or closed, and paths have the same text only if they agree in them.  A path that
ends in a member is written as the open path before it with access to the member behind it.
So tests share their elements if and only if the segments before their last ones agree in
names and positions. -/
theorem text_tells_steps :
    (∀ segments openEnd,
      recover? (text segments openEnd) = some (segments.map Segment.step)) ∧
    (∀ openEnd first second, text first openEnd = text second openEnd ↔
      first.map Segment.step = second.map Segment.step) ∧
    (∀ init last, init ≠ [] → last.index = none →
      text (init ++ [last]) false =
        text init true ++ String.ofList (member last.name.toList)) ∧
    ∀ t u : DocumentTest, t.elementPath = u.elementPath ↔
      t.path.dropLast.map Segment.step = u.path.dropLast.map Segment.step :=
  ⟨recover?_text, fun _ _ _ => text_eq_iff, fun _ _ => text_concat, fun _ _ => text_eq_iff⟩

/-- A name that spells the end of a quoted name and an access, before one that ends in a
backslash. -/
def crafted : List Segment :=
  [{ name := "a\"[*].b" }, { name := "c\\", index := some 10 }]

/-- The crafted names stay two names, and the member behind them is written behind them. -/
theorem text_tells_steps_crafted :
    recover? (text crafted true) = some [("a\"[*].b", none), ("c\\", some 10)] ∧
      text (crafted ++ [{ name := "" }]) false = text crafted true ++ ".\"\"" ∧
      text crafted true ≠ text [{ name := "a" }, { name := "b" }] true := by
  refine ⟨text_tells_steps.1 crafted true, ?_, ?_⟩
  · exact text_tells_steps.2.2.1 crafted { name := "" } (by decide) rfl
  · exact fun h => absurd ((text_tells_steps.2.1 true _ _).1 h) (by decide)

end JsonPath
end RowFilter
