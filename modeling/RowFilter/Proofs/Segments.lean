import Mathlib.Data.List.TakeWhile
import Mathlib.Tactic.SplitIfs
import RowFilter.Compilation.Basic
import RowFilter.Proofs.Attempts

/-!
# Names without dots

Keys are cut at their dots, except for dots in parentheses, and what stands in
parentheses must not hold any.  So no field name of a filter holds a dot, and the
names of a path can be told from their text with dots between them.

* `FieldPath.dotless_of_ofKey`: the names in a key hold no dot.
* `Filter.dotless_ofJson`: nor do the names in a filter.
* `dotless_intercalate_inj`: names without dots are told from their text.
-/

namespace RowFilter

theorem exists_of_map_ok
    {ε α β : Type} {f : α → β} {x : Except ε α} {b : β}
    (h : x.map f = .ok b) :
    ∃ a, x = .ok a ∧ f a = b := by
  cases x with
  | error e => cases h
  | ok a =>
      cases h
      exact ⟨a, rfl, rfl⟩

theorem forall_of_mapM_ok
    {ε α β : Type} {f : α → Except ε β} {P : α → Prop} {Q : β → Prop}
    (hf : ∀ a b, P a → f a = .ok b → Q b) :
    ∀ {as : List α} {bs : List β}, as.mapM f = .ok bs → (∀ a ∈ as, P a) → ∀ b ∈ bs, Q b
  | [], bs, h, _ => by
      cases h
      simp
  | a :: as, bs, h, has => by
      rw [List.mapM_cons] at h
      obtain ⟨b, hb, h⟩ := exists_of_bind_ok h
      obtain ⟨rest, hrest, h⟩ := exists_of_bind_ok h
      cases h
      have hfirst := hf a b (has a List.mem_cons_self) hb
      have hothers := forall_of_mapM_ok hf hrest fun x hx => has x (List.mem_cons_of_mem _ hx)
      exact List.forall_mem_cons.2 ⟨hfirst, hothers⟩

/-- A name that holds no dot. -/
def Dotless (name : String) : Prop :=
  '.' ∉ name.toList

/-- Texts without the separator are told from the text with separators between them. -/
theorem splitOn_intercalate
    {c : Char} {separator : String} {list : List String}
    (hseparator : separator.toList = [c]) (hne : list ≠ [])
    (h : ∀ s ∈ list, c ∉ s.toList) :
    (separator.intercalate list).toList.splitOn c = list.map String.toList := by
  rw [String.toList_intercalate, hseparator]
  refine List.splitOn_intercalate c ?_ (by simpa using hne)
  intro cs hcs
  obtain ⟨s, hs, rfl⟩ := List.mem_map.1 hcs
  exact h s hs

/-- Names without dots are told from their text with dots between them. -/
theorem dotless_intercalate_inj
    {names names' : List String}
    (hne : names ≠ []) (hne' : names' ≠ [])
    (hnames : ∀ name ∈ names, Dotless name) (hnames' : ∀ name ∈ names', Dotless name)
    (h : ".".intercalate names = ".".intercalate names') :
    names = names' := by
  have hdot : ".".toList = ['.'] := rfl
  have hmap : names.map String.toList = names'.map String.toList := by
    rw [← splitOn_intercalate hdot hne hnames, ← splitOn_intercalate hdot hne' hnames', h]
  exact (List.map_inj_right fun _ _ => String.toList_inj.1).1 hmap

namespace Text

theorem subset_trim
    (cs : List Char) :
    trim cs ⊆ cs := by
  intro c hc
  have hend := (List.dropWhile_suffix isBlank).subset (List.mem_reverse.1 hc)
  exact (List.dropWhile_suffix isBlank).subset (List.mem_reverse.1 hend)

theorem mem_dropWhile
    {p : Char → Bool} {c : Char} {cs : List Char}
    (hp : p c = false) (h : c ∈ cs) :
    c ∈ cs.dropWhile p := by
  rw [← List.takeWhile_append_dropWhile (p := p) (l := cs)] at h
  refine (List.mem_append.1 h).resolve_left fun hstart => ?_
  rw [List.mem_takeWhile_imp hstart] at hp
  cases hp

/-- Only blanks are trimmed. -/
theorem mem_trim
    {c : Char} {cs : List Char}
    (hblank : isBlank c = false) (h : c ∈ cs) :
    c ∈ trim cs :=
  List.mem_reverse.2 (mem_dropWhile hblank (List.mem_reverse.2 (mem_dropWhile hblank h)))

theorem not_mem_of_cutFirst?_eq_none
    {c : Char} {cs : List Char}
    (h : cutFirst? c cs = none) :
    c ∉ cs := by
  induction cs with
  | nil => simp
  | cons x rest ih =>
      rw [cutFirst?] at h
      split at h
      · cases h
      · rename_i hx
        rw [Option.map_eq_none_iff] at h
        have hne : c ≠ x := fun hc => hx (by simp [hc])
        simp [hne, ih h]

theorem eq_of_cutFirst?
    {c : Char} {cs before after : List Char}
    (h : cutFirst? c cs = some (before, after)) :
    cs = before ++ c :: after := by
  induction cs generalizing before with
  | nil => cases h
  | cons x rest ih =>
      rw [cutFirst?] at h
      split at h
      · rename_i hx
        cases h
        rw [eq_of_beq hx, List.nil_append]
      · obtain ⟨⟨start, finish⟩, hrest, heq⟩ := Option.map_eq_some_iff.1 h
        cases heq
        rw [ih hrest, List.cons_append]

theorem eq_of_cutLast?
    {c : Char} {cs before after : List Char}
    (h : cutLast? c cs = some (before, after)) :
    cs = before ++ c :: after := by
  obtain ⟨⟨start, finish⟩, hcut, heq⟩ := Option.map_eq_some_iff.1 h
  cases heq
  have hreverse := congrArg List.reverse (eq_of_cutFirst? hcut)
  simpa using hreverse

theorem subset_of_stripLast?
    {c : Char} {cs inner : List Char}
    (h : stripLast? c cs = some inner) :
    inner ⊆ cs := by
  rw [stripLast?] at h
  split at h
  · cases h
    exact List.dropLast_subset cs
  · cases h

end Text

namespace FieldPath

/-- A part with a dot also has an opening parenthesis; the first part may have it in
front of what is still read, if parentheses are open. -/
theorem dots_of_splitKey
    {key : String} {depth : Nat} {cs : List Char} {parts : List (List Char)}
    (h : splitKey key depth cs = .ok parts) :
    (depth = 0 → ∀ part ∈ parts.head?, '.' ∈ part → '(' ∈ part) ∧
      ∀ part ∈ parts.tail, '.' ∈ part → '(' ∈ part := by
  have hcons (c : Char) (rest : List (List Char)) :
      ∃ part, (consHead c rest).head? = some (c :: part) ∧ (consHead c rest).tail = rest.tail ∧
        part = rest.head?.getD [] := by
    cases rest <;> simp [consHead]
  induction cs generalizing depth parts with
  | nil =>
      rw [splitKey] at h
      split at h
      · cases h
        simp
      · cases h
  | cons c cs ih =>
      rw [splitKey] at h
      split_ifs at h with hopen hclose hdepth hdot
      · obtain ⟨rest, hrest, rfl⟩ := exists_of_map_ok h
        obtain ⟨part, hhead, htail, -⟩ := hcons c rest
        rw [hhead, htail]
        refine ⟨?_, (ih hrest).2⟩
        rintro - _ ⟨⟩ -
        simp [hopen]
      · obtain ⟨rest, hrest, rfl⟩ := exists_of_map_ok h
        obtain ⟨part, -, htail, -⟩ := hcons c rest
        rw [htail]
        exact ⟨fun hzero => absurd hzero hdepth, (ih hrest).2⟩
      · obtain ⟨rest, hrest, rfl⟩ := exists_of_map_ok h
        obtain ⟨hhead, htail⟩ := ih hrest
        refine ⟨by simp, ?_⟩
        cases rest with
        | nil => simp
        | cons first others =>
            intro part hpart
            rcases List.mem_cons.1 hpart with rfl | hpart
            · exact hhead rfl part rfl
            · exact htail part hpart
      · obtain ⟨rest, hrest, rfl⟩ := exists_of_map_ok h
        obtain ⟨hhead, htail⟩ := ih hrest
        obtain ⟨part, hhead', htail', hpart⟩ := hcons c rest
        rw [hhead', htail']
        refine ⟨?_, htail⟩
        rintro rfl _ ⟨⟩ hmem
        have hne : c ≠ '.' := fun hc => hdot ⟨hc, rfl⟩
        have hmem' : '.' ∈ part := (List.mem_cons.1 hmem).resolve_left fun hc => hne hc.symm
        cases rest with
        | nil => simp [hpart] at hmem'
        | cons first others =>
            rw [show part = first from hpart] at hmem' ⊢
            exact List.mem_cons_of_mem _ (hhead rfl first rfl hmem')

/-- What a function is applied to holds no dot, nor does a segment without a
function and without parentheses. -/
theorem dotless_of_splitFunction
    {raw inner : List Char} {function : Option FieldFunction}
    (hdots : '.' ∈ raw → '(' ∈ raw) (h : splitFunction raw = .ok (function, inner)) :
    '.' ∉ inner := by
  unfold splitFunction at h
  split at h
  · rename_i hcut
    cases h
    exact fun hdot => Text.not_mem_of_cutFirst?_eq_none hcut (hdots hdot)
  · split at h
    · cases h
    · split at h
      · cases h
      · split at h
        · cases h
        · rename_i hdot
          cases h
          exact hdot

theorem subset_splitIndex
    (inner : List Char) :
    (splitIndex inner).1 ⊆ inner := by
  unfold splitIndex
  split
  · rename_i rest position hcut
    obtain ⟨stripped, hstrip, hcut⟩ := Option.bind_eq_some_iff.1 hcut
    have hsub : rest ⊆ stripped := by
      rw [Text.eq_of_cutLast? hcut]
      exact List.subset_append_left _ _
    exact List.Subset.trans hsub (Text.subset_of_stripLast? hstrip)
  · exact List.Subset.refl inner

theorem subset_splitScope
    (inner : List Char) :
    (splitScope inner).1 ⊆ inner := by
  unfold splitScope
  split
  · rename_i name scope hcut
    rw [Text.eq_of_cutFirst? hcut]
    exact List.subset_append_left _ _
  · exact List.Subset.refl inner

theorem dotless_of_readSegment
    {part : List Char} {segment : Segment}
    (hdots : '.' ∈ part → '(' ∈ part) (h : readSegment part = .ok segment) :
    Dotless segment.name := by
  have hraw : '.' ∈ Text.trim part → '(' ∈ Text.trim part := fun hdot =>
    Text.mem_trim (by decide) (hdots (Text.subset_trim part hdot))
  unfold readSegment at h
  obtain ⟨⟨function, inner⟩, hfunction, h⟩ := exists_of_bind_ok h
  obtain ⟨index, -, h⟩ := exists_of_bind_ok h
  dsimp only at h
  split_ifs at h
  · cases h
    intro hdot
    rw [String.toList_ofList] at hdot
    have hinner := subset_splitIndex inner (subset_splitScope _ hdot)
    exact dotless_of_splitFunction hraw hfunction hinner

/-- The names in a key hold no dot. -/
theorem dotless_of_ofKey
    {key : String} {segments : List Segment}
    (h : ofKey key = .ok segments) :
    ∀ s ∈ segments, Dotless s.name := by
  unfold ofKey at h
  obtain ⟨parts, hparts, h⟩ := exists_of_bind_ok h
  obtain ⟨hhead, htail⟩ := dots_of_splitKey hparts
  refine forall_of_mapM_ok (fun _ _ => dotless_of_readSegment) h fun part hpart => ?_
  cases parts with
  | nil => cases hpart
  | cons first others =>
      rcases List.mem_cons.1 hpart with rfl | hpart
      · exact hhead rfl part rfl
      · exact htail part hpart

end FieldPath

namespace Filter

mutual

/-- The segments of the paths in a filter. -/
def segments : Filter → List Segment
  | .and children => segmentsOfAll children
  | .or children => segmentsOfAll children
  | .compare _ path _ _ => path
  | .quantify _ field _ inner => field :: inner.segments

/-- The segments of the paths in several filters. -/
def segmentsOfAll : List Filter → List Segment
  | [] => []
  | child :: rest => child.segments ++ segmentsOfAll rest

end

section Reading

variable {S : Segment → Prop}

theorem segments_conjunction
    (children : List Filter) :
    (conjunction children).segments = segmentsOfAll children := by
  rcases children with _ | ⟨child, _ | ⟨second, rest⟩⟩
  · rfl
  · simp [conjunction, segmentsOfAll]
  · rfl

theorem gives_atDepth
    {limit depth : Nat} {members : Reading (List Filter)}
    (h : members.Gives fun filters => ∀ s ∈ segmentsOfAll filters, S s) :
    (atDepth limit depth members).Gives fun filter => ∀ s ∈ filter.segments, S s := by
  unfold atDepth
  split
  · exact Attempt.gives_fail _
  · refine h.bind fun filters hfilters => Attempt.gives_pure ?_
    rwa [segments_conjunction]

/-- One member of an object, from the readings of what stands inside its value. -/
theorem gives_readMember_of
    {limit depth : Nat} {path : List Segment} {key : String} {value : Json}
    (hkey : ∀ key segments, FieldPath.ofKey key = .ok segments → ∀ s ∈ segments, S s)
    (hpath : ∀ s ∈ path, S s)
    (hitems : ∀ items, value = .arr items →
      (readItems limit depth path key items).Gives fun filters => ∀ s ∈ segmentsOfAll filters, S s)
    (hmembers : ∀ path members, value = .obj members → (∀ s ∈ path, S s) →
      (readMembers limit (depth + 1) path members).Gives
        fun filters => ∀ s ∈ segmentsOfAll filters, S s) :
    (readMember limit depth path key value).Gives fun filter => ∀ s ∈ filter.segments, S s := by
  obtain ⟨read, hreading, hread⟩ := exists_memberReading path key value
  rw [hread]
  cases hreading with
  | refused _ e => exact Attempt.gives_fail e
  | group items hgroup =>
      refine (hitems items rfl).bind fun filters hfilters => Attempt.gives_pure ?_
      rcases hgroup with ⟨-, rfl⟩ | ⟨-, rfl⟩ <;> exact hfilters
  | compare => exact Attempt.gives_after fun id => Attempt.gives_pure hpath
  | quantify members _ _ _ hfield =>
      subst hfield
      refine (gives_atDepth (hmembers [] members rfl (by simp))).bind fun inner hinner => ?_
      refine Attempt.gives_after fun id => Attempt.gives_pure ?_
      exact List.forall_mem_cons.2 ⟨List.forall_mem_singleton.1 hpath, hinner⟩
  | field members _ hsegments =>
      refine gives_atDepth (hmembers _ members rfl ?_)
      exact List.forall_mem_append.2 ⟨hpath, hkey key _ hsegments⟩

theorem gives_readMembers
    (hkey : ∀ key segments, FieldPath.ofKey key = .ok segments → ∀ s ∈ segments, S s)
    (limit depth : Nat) {path : List Segment} (hpath : ∀ s ∈ path, S s)
    (members : List (String × Json)) :
    (readMembers limit depth path members).Gives
      fun filters => ∀ s ∈ segmentsOfAll filters, S s := by
  have h : Json.InsideOut
      (fun members => ∀ depth path, (∀ s ∈ path, S s) →
        (readMembers limit depth path members).Gives
          fun filters => ∀ s ∈ segmentsOfAll filters, S s)
      (fun v => ∀ depth path key, (∀ s ∈ path, S s) →
        (readMember limit depth path key v).Gives fun filter => ∀ s ∈ filter.segments, S s)
      (fun items => ∀ depth path key, (∀ s ∈ path, S s) →
        (readItems limit depth path key items).Gives
          fun filters => ∀ s ∈ segmentsOfAll filters, S s) := by
    constructor
    · intro depth path hpath
      rw [readMembers]
      exact Attempt.gives_pure (by simp [segmentsOfAll])
    · intro key v rest hvalue hrest depth path hpath
      rw [readMembers]
      refine (hvalue depth path key hpath).bind fun child hchild => ?_
      refine (hrest depth path hpath).bind fun children hchildren => ?_
      exact Attempt.gives_pure (List.forall_mem_append.2 ⟨hchild, hchildren⟩)
    · intro v hitems hmembers depth path key hpath
      exact gives_readMember_of hkey hpath (fun items hv => hitems items hv depth path key hpath)
        fun path members hv => hmembers members hv (depth + 1) path
    · intro depth path key hpath
      rw [readItems]
      exact Attempt.gives_pure (by simp [segmentsOfAll])
    · intro v rest hmembers hrest depth path key hpath
      cases v with
      | obj members =>
          rw [readItems]
          refine (gives_atDepth (hmembers members rfl (depth + 1) path hpath)).bind
            fun child hchild => ?_
          refine (hrest depth path key hpath).bind fun children hchildren => ?_
          exact Attempt.gives_pure (List.forall_mem_append.2 ⟨hchild, hchildren⟩)
      | _ => exact Attempt.gives_fail _
  exact h.ofMembers members depth path hpath

end Reading

/-- The names in a filter hold no dot. -/
theorem dotless_ofJson
    {limit : Nat} {document : Json} {filter : Filter}
    (h : ofJson limit document = .ok filter) :
    ∀ s ∈ filter.segments, Dotless s.name := by
  unfold ofJson at h
  split at h
  · cases h
    intro s hs
    cases hs
  · rename_i members
    have hmembers : (readMembers limit 0 [] members).Gives
        fun filters => ∀ s ∈ segmentsOfAll filters, Dotless s.name :=
      gives_readMembers (fun _ _ => FieldPath.dotless_of_ofKey) limit 0 (by simp) members
    have hgives : (atDepth limit 0 (readMembers limit 0 [] members)).Gives
        fun filter => ∀ s ∈ filter.segments, Dotless s.name :=
      gives_atDepth hmembers
    exact hgives 0 filter _ (Prod.ext h rfl)
  · cases h

end Filter

end RowFilter
