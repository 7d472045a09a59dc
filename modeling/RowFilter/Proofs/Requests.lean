import Mathlib.Data.Finset.Card
import RowFilter.Proofs.Freshness
import RowFilter.Proofs.KeyGrammar

/-!
# Runs of requests for labels

Labels are asked for in three ways: a new one for a base, the one of a JSON field, and the one
of the elements at a path inside a field.  A request for elements asks for the field as well.
All requests draw from one counter, and the labels of fields and of elements are kept in two
tables with keys of different forms: a pair, and the text of the collection and the field with
a dot between them.  Names of fields without dots can be told from that text.

* `Labels.Tracks`: what holds of labels after the keys of a list were asked for.
* `Request.tracks_run`: it holds after every run.
* `Request.nodup_run`: no label is given out twice.
* `Request.answer_at`: which answers are new, and that labels stay.
* `Request.Orderly`: all of this for one run.
-/

namespace RowFilter
namespace Labels

/-- What the rows of JSON documents are labelled by: a field, or a path inside one. -/
inductive Key where
  | field (collection field : String)
  | elements (collection field path : String)
deriving DecidableEq

namespace Key

/-- The name of the field, from which the label is made. -/
def base : Key → String
  | field _ name => name
  | elements _ name _ => name

/-- The key of the whole field. -/
def whole : Key → Key
  | field collection name => field collection name
  | elements collection name _ => field collection name

def isField : Key → Bool
  | field .. => true
  | elements .. => false

end Key

/-- The label that is kept for a key. -/
def label? (l : Labels) : Key → Option String
  | .field collection name => l.field? collection name
  | .elements collection name path => l.elements.lookup (elementsKey collection name path)

/-- Keeps the next label for a key. -/
def enter (l : Labels) : Key → Labels
  | .field collection name => { l with
      count := l.count + 1
      fields := l.fields ++ [((collection, name), numbered name (l.count + 1))] }
  | .elements collection name path => { l with
      count := l.count + 1
      elements := l.elements ++
        [(elementsKey collection name path, numbered name (l.count + 1))] }

/-- The label of a key, which is a new one if none is kept yet. -/
def assign (l : Labels) (key : Key) : Labelled × Labels :=
  match l.label? key with
  | some label => (⟨label, false⟩, l)
  | none => (⟨numbered key.base (l.count + 1), true⟩, l.enter key)

theorem ofField_eq_assign
    (l : Labels) (collection name : String) :
    l.ofField collection name = l.assign (.field collection name) :=
  rfl

theorem ofElements_eq_assign
    (l : Labels) (collection name path : String) :
    l.ofElements collection name path =
      (l.assign (.field collection name)).2.assign (.elements collection name path) :=
  rfl

/-- The text of a collection and a field tells both, if the name of the field has no dot. -/
theorem elementsKey_inj
    {collection collection' name name' path path' : String}
    (hname : Dotless name) (hname' : Dotless name')
    (h : elementsKey collection name path = elementsKey collection' name' path') :
    collection = collection' ∧ name = name' ∧ path = path' := by
  obtain ⟨htext, hpath⟩ := Prod.mk.inj h
  have hchars := congrArg (fun text => Text.cutLast? '.' text.toList) htext
  simp only [String.toList_append, String.reduceToList, List.append_assoc, List.singleton_append,
    Text.cutLast?_append _ hname, Text.cutLast?_append _ hname', Option.some.injEq, Prod.mk.injEq,
    String.toList_inj] at hchars
  exact ⟨hchars.1, hchars.2, hpath⟩

/-- A look-up in a table with one more entry, for a key that had none. -/
theorem lookup_concat
    {table : List ((String × String) × String)} {key : String × String} (label : String)
    (h : table.lookup key = none) (key' : String × String) :
    (table ++ [(key, label)]).lookup key' =
      if key' = key then some label else table.lookup key' := by
  rw [List.lookup_append, List.lookup_cons, List.lookup_nil]
  by_cases hkey : key' = key
  · rw [hkey, h]
    simp
  · rw [if_neg hkey, beq_eq_false_iff_ne.2 hkey]
    simp

/-- Only the key that was entered has another label than before. -/
theorem label?_enter
    {l : Labels} {key key' : Key}
    (hkey : Dotless key.base) (hkey' : Dotless key'.base) (hnone : l.label? key = none) :
    (l.enter key).label? key' =
      if key' = key then some (numbered key.base (l.count + 1)) else l.label? key' := by
  cases key with
  | field collection name =>
      cases key' with
      | elements => rfl
      | field collection' name' =>
          refine (lookup_concat _ hnone (collection', name')).trans ?_
          simp only [Prod.mk.injEq, Key.field.injEq]
          rfl
  | elements collection name path =>
      cases key' with
      | field => rfl
      | elements collection' name' path' =>
          have hsame : elementsKey collection' name' path' = elementsKey collection name path ↔
              Key.elements collection' name' path' = Key.elements collection name path := by
            rw [Key.elements.injEq]
            refine ⟨elementsKey_inj hkey' hkey, ?_⟩
            rintro ⟨rfl, rfl, rfl⟩
            rfl
          refine (lookup_concat _ hnone (elementsKey collection' name' path')).trans ?_
          simp only [hsame]
          rfl

/-- A label that is kept is kept for good. -/
theorem label?_enter_of_some
    {l : Labels} {key' : Key} {label : String}
    (h : l.label? key' = some label) (key : Key) :
    (l.enter key).label? key' = some label := by
  cases key <;> cases key'
  all_goals simp_all [enter, label?, field?, List.lookup_append]

theorem label?_assign_of_some
    {l : Labels} {key' : Key} {label : String}
    (h : l.label? key' = some label) (key : Key) :
    (l.assign key).2.label? key' = some label := by
  unfold assign
  split
  · exact h
  · exact label?_enter_of_some h key

/-- The answer is the label that is kept from then on. -/
theorem label?_assign
    {key : Key}
    (hkey : Dotless key.base) (l : Labels) :
    (l.assign key).2.label? key = some (l.assign key).1.label := by
  unfold assign
  split
  · rename_i hlabel
    exact hlabel
  · rename_i hnone
    rw [label?_enter hkey hkey hnone, if_pos rfl]

theorem isNew_assign
    (l : Labels) (key : Key) :
    (l.assign key).1.isNew = true ↔ l.label? key = none := by
  unfold assign
  split
  · rename_i hlabel
    simp [hlabel]
  · rename_i hnone
    simp [hnone]

/-! ## What the labels keep track of -/

/-- What holds of labels after the keys of a list were asked for: these keys have labels and
no others do, no two of them the same, and each was given out.  Elements have a label only if
their field has one. -/
structure Tracks (l : Labels) (asked : List Key) : Prop where
  dotless : ∀ key ∈ asked, Dotless key.base
  whole : ∀ key ∈ asked, key.whole ∈ asked
  known : ∀ key, Dotless key.base → ((l.label? key).isSome = true ↔ key ∈ asked)
  gaveOut : ∀ key label, Dotless key.base → l.label? key = some label → l.GaveOut label
  apart : ∀ key key' label, Dotless key.base → Dotless key'.base →
    l.label? key = some label → l.label? key' = some label → key = key'
  fieldCount : l.fieldCount = (asked.filter Key.isField).toFinset.card
  elementsCount : l.elementsCount = (asked.filter fun key => !key.isField).toFinset.card

theorem tracks_empty :
    ({} : Labels).Tracks [] := by
  have hnone (key : Key) : ({} : Labels).label? key = none := by
    cases key <;> rfl
  constructor <;> simp [hnone, fieldCount, elementsCount]

/-- Only which keys were asked for counts. -/
theorem Tracks.congr
    {l : Labels} {asked asked' : List Key}
    (h : l.Tracks asked) (hsame : ∀ key, key ∈ asked ↔ key ∈ asked') :
    l.Tracks asked' where
  dotless key hkey := h.dotless key ((hsame key).2 hkey)
  whole key hkey := (hsame _).1 (h.whole key ((hsame key).2 hkey))
  known key hkey := (h.known key hkey).trans (hsame key)
  gaveOut := h.gaveOut
  apart := h.apart
  fieldCount := by
    rw [h.fieldCount]
    congr 1
    ext key
    simp [hsame]
  elementsCount := by
    rw [h.elementsCount]
    congr 1
    ext key
    simp [hsame]

theorem Tracks.fresh
    {l : Labels} {asked : List Key}
    (h : l.Tracks asked) (base : String) :
    (l.fresh base).2.Tracks asked where
  dotless := h.dotless
  whole := h.whole
  known := h.known
  gaveOut key label hkey hlabel := (h.gaveOut key label hkey hlabel).mono (Nat.le_succ _)
  apart := h.apart
  fieldCount := h.fieldCount
  elementsCount := h.elementsCount

/-- One more key in a list that did not hold it. -/
theorem card_filter_concat
    {asked : List Key} {key : Key}
    (h : key ∉ asked) (test : Key → Bool) :
    ((asked ++ [key]).filter test).toFinset.card =
      (asked.filter test).toFinset.card + if test key then 1 else 0 := by
  rw [List.filter_append, List.toFinset_append]
  by_cases htest : test key = true
  · simp [htest, h]
  · simp [htest]

/-- A new key gets a label that no other key has. -/
theorem Tracks.enter
    {l : Labels} {asked : List Key} {key : Key}
    (h : l.Tracks asked) (hkey : Dotless key.base) (hwhole : key.whole ∈ asked ++ [key])
    (hnone : l.label? key = none) :
    (l.enter key).Tracks (asked ++ [key]) := by
  have hlabel {key' : Key} (hkey' : Dotless key'.base) := label?_enter hkey hkey' hnone
  have hnew : key ∉ asked := by
    rw [← h.known key hkey, hnone]
    simp
  have hcount : (l.enter key).count = l.count + 1 := by
    cases key <;> rfl
  have hfresh (key' : Key) (hkey' : Dotless key'.base) :
      l.label? key' ≠ some (numbered key.base (l.count + 1)) := fun hold =>
    l.not_gaveOut_next key.base (h.gaveOut key' _ hkey' hold)
  constructor
  case dotless => exact List.forall_mem_append.2 ⟨h.dotless, by simpa using hkey⟩
  case whole =>
    refine List.forall_mem_append.2 ⟨fun key' hkey' => ?_, by simpa using hwhole⟩
    exact List.mem_append_left _ (h.whole key' hkey')
  case known =>
    intro key' hkey'
    rw [hlabel hkey']
    by_cases hsame : key' = key
    · simp [hsame]
    · simp [hsame, h.known key' hkey']
  case gaveOut =>
    intro key' label hkey' hkept
    rw [hlabel hkey'] at hkept
    split at hkept
    · cases hkept
      exact gaveOut_next key.base hcount
    · exact (h.gaveOut key' label hkey' hkept).mono (by omega)
  case apart =>
    intro first second label hfirst hsecond hlabel₁ hlabel₂
    rw [hlabel hfirst] at hlabel₁
    rw [hlabel hsecond] at hlabel₂
    split at hlabel₁ <;> split at hlabel₂
    · rename_i h₁ h₂
      rw [h₁, h₂]
    · cases hlabel₁
      exact absurd hlabel₂ (hfresh second hsecond)
    · cases hlabel₂
      exact absurd hlabel₁ (hfresh first hfirst)
    · exact h.apart first second label hfirst hsecond hlabel₁ hlabel₂
  case fieldCount =>
    rw [card_filter_concat hnew, ← h.fieldCount]
    cases key <;> simp [Labels.enter, Labels.fieldCount, Key.isField]
  case elementsCount =>
    rw [card_filter_concat hnew, ← h.elementsCount]
    cases key <;> simp [Labels.enter, Labels.elementsCount, Key.isField]

theorem Tracks.assign
    {l : Labels} {asked : List Key} {key : Key}
    (h : l.Tracks asked) (hkey : Dotless key.base) (hwhole : key.whole ∈ asked ++ [key]) :
    (l.assign key).2.Tracks (asked ++ [key]) := by
  unfold Labels.assign
  split
  · rename_i label hlabel
    have hknown : key ∈ asked := (h.known key hkey).1 (by rw [hlabel]; rfl)
    refine h.congr fun key' => ?_
    rw [List.mem_append, List.mem_singleton]
    refine ⟨.inl, ?_⟩
    rintro (hold | rfl)
    · exact hold
    · exact hknown
  · rename_i hnone
    exact h.enter hkey hwhole hnone

end Labels

/-! ## Requests -/

/-- A request for a label: a new one for a base, or the one of a key. -/
inductive Request where
  | fresh (base : String)
  | rows (key : Labels.Key)

namespace Request

open Labels (Key)

/-- The answer to a request, and the labels after it. -/
def answer (l : Labels) : Request → Labelled × Labels
  | fresh base => (⟨(l.fresh base).1, true⟩, (l.fresh base).2)
  | rows (.field collection name) => l.ofField collection name
  | rows (.elements collection name path) => l.ofElements collection name path

/-- The keys that are asked for: elements are asked for together with their field. -/
def asks : Request → List Key
  | fresh _ => []
  | rows (.field collection name) => [.field collection name]
  | rows (.elements collection name path) =>
      [.field collection name, .elements collection name path]

theorem answer_field
    (l : Labels) (collection name : String) :
    (rows (.field collection name)).answer l = l.assign (.field collection name) :=
  l.ofField_eq_assign collection name

theorem answer_elements
    (l : Labels) (collection name path : String) :
    (rows (.elements collection name path)).answer l =
      (l.assign (.field collection name)).2.assign (.elements collection name path) :=
  l.ofElements_eq_assign collection name path

/-- The answers to requests one after the other, and the labels after them. -/
def run (l : Labels) : List Request → List Labelled × Labels
  | [] => ([], l)
  | r :: rest =>
      let (first, l) := r.answer l
      let (others, l) := run l rest
      (first :: others, l)

/-- The fields that are asked about have names without dots. -/
def Plain (r : Request) : Prop :=
  ∀ key ∈ r.asks, Dotless key.base

theorem plain_rows_iff
    {key : Key} :
    (rows key).Plain ↔ Dotless key.base := by
  cases key <;> simp [Plain, asks, Key.base]

theorem run_append
    (l : Labels) (rs rs' : List Request) :
    run l (rs ++ rs') =
      ((run l rs).1 ++ (run (run l rs).2 rs').1, (run (run l rs).2 rs').2) := by
  induction rs generalizing l with
  | nil => rfl
  | cons r rest ih => simp [run, ih]

theorem length_run
    (l : Labels) (rs : List Request) :
    (run l rs).1.length = rs.length := by
  induction rs generalizing l with
  | nil => rfl
  | cons r rest ih => simp [run, ih]

/-! ## Labels stay -/

theorem label?_answer_of_some
    {l : Labels} {key : Key} {label : String}
    (h : l.label? key = some label) (r : Request) :
    (r.answer l).2.label? key = some label := by
  match r with
  | fresh base => cases key <;> exact h
  | rows (.field collection name) =>
      rw [answer_field]
      exact Labels.label?_assign_of_some h _
  | rows (.elements collection name path) =>
      rw [answer_elements]
      exact Labels.label?_assign_of_some (Labels.label?_assign_of_some h _) _

theorem label?_run_of_some
    {l : Labels} {key : Key} {label : String}
    (h : l.label? key = some label) (rs : List Request) :
    (run l rs).2.label? key = some label := by
  induction rs generalizing l with
  | nil => exact h
  | cons r rest ih => exact ih (label?_answer_of_some h r)

/-- The answer to a request for a key is the label that is kept for it. -/
theorem label?_answer
    {key : Key}
    (h : Dotless key.base) (l : Labels) :
    ((rows key).answer l).2.label? key = some ((rows key).answer l).1.label := by
  cases key with
  | field collection name =>
      rw [answer_field]
      exact Labels.label?_assign h l
  | elements collection name path =>
      rw [answer_elements]
      exact Labels.label?_assign h _

/-! ## New labels -/

theorem count_le_assign
    (l : Labels) (key : Key) :
    l.count ≤ (l.assign key).2.count := by
  unfold Labels.assign
  split
  · exact Nat.le_refl _
  · cases key <;> exact Nat.le_succ _

theorem count_le_answer
    (l : Labels) (r : Request) :
    l.count ≤ (r.answer l).2.count := by
  match r with
  | fresh base => exact Nat.le_succ _
  | rows (.field collection name) =>
      rw [answer_field]
      exact count_le_assign l _
  | rows (.elements collection name path) =>
      rw [answer_elements]
      exact Nat.le_trans (count_le_assign l _) (count_le_assign _ _)

theorem new_of_assign
    {l : Labels} {key : Key}
    (h : (l.assign key).1.isNew = true) :
    ¬ l.GaveOut (l.assign key).1.label ∧ (l.assign key).2.GaveOut (l.assign key).1.label := by
  unfold Labels.assign at h ⊢
  split at h
  · cases h
  · refine ⟨l.not_gaveOut_next key.base, Labels.gaveOut_next key.base ?_⟩
    cases key <;> rfl

/-- A new label was not given out before, and is from then on. -/
theorem new_of_answer
    {l : Labels} {r : Request}
    (h : (r.answer l).1.isNew = true) :
    ¬ l.GaveOut (r.answer l).1.label ∧ (r.answer l).2.GaveOut (r.answer l).1.label := by
  match r, h with
  | fresh base, _ => exact ⟨l.not_gaveOut_next base, Labels.gaveOut_next base rfl⟩
  | rows (.field collection name), h =>
      rw [answer_field] at h ⊢
      exact new_of_assign h
  | rows (.elements collection name path), h =>
      rw [answer_elements] at h ⊢
      obtain ⟨hold, hnew⟩ := new_of_assign h
      exact ⟨fun hgave => hold (hgave.mono (count_le_assign l _)), hnew⟩

/-- The new labels among answers. -/
def newLabels (answers : List Labelled) : List String :=
  (answers.filter Labelled.isNew).map Labelled.label

theorem not_gaveOut_of_mem_newLabels
    {label : String} {rs : List Request} {l : Labels}
    (h : label ∈ newLabels (run l rs).1) :
    ¬ l.GaveOut label := by
  induction rs generalizing l with
  | nil => cases h
  | cons r rest ih =>
      obtain ⟨a, ha, rfl⟩ := List.mem_map.1 h
      obtain ⟨ha, hnew⟩ := List.mem_filter.1 ha
      rcases List.mem_cons.1 ha with rfl | ha
      · exact (new_of_answer hnew).1
      · have hrest := ih (List.mem_map_of_mem (List.mem_filter.2 ⟨ha, hnew⟩))
        exact fun hgave => hrest (hgave.mono (count_le_answer l r))

/-- No label is given out twice, whatever the bases are. -/
theorem nodup_run
    (l : Labels) (rs : List Request) :
    (newLabels (run l rs).1).Nodup := by
  induction rs generalizing l with
  | nil => exact List.nodup_nil
  | cons r rest ih =>
      change (newLabels ((r.answer l).1 :: (run (r.answer l).2 rest).1)).Nodup
      unfold newLabels
      by_cases hnew : (r.answer l).1.isNew = true
      · rw [List.filter_cons_of_pos hnew, List.map_cons, List.nodup_cons]
        refine ⟨fun hmem => ?_, ih _⟩
        exact not_gaveOut_of_mem_newLabels hmem (new_of_answer hnew).2
      · rw [List.filter_cons_of_neg hnew]
        exact ih _

/-! ## Runs keep track -/

theorem tracks_answer
    {l : Labels} {asked : List Key} {r : Request}
    (h : l.Tracks asked) (hr : r.Plain) :
    (r.answer l).2.Tracks (asked ++ r.asks) := by
  match r, hr with
  | fresh base, _ =>
      rw [asks, List.append_nil]
      exact h.fresh base
  | rows (.field collection name), hr =>
      rw [answer_field]
      exact h.assign (plain_rows_iff.1 hr) (by simp [Key.whole])
  | rows (.elements collection name path), hr =>
      have hname := plain_rows_iff.1 hr
      have hfield : (l.assign (.field collection name)).2.Tracks
          (asked ++ [.field collection name]) :=
        h.assign hname (by simp [Key.whole])
      rw [answer_elements, asks, List.append_cons]
      exact hfield.assign hname (by simp [Key.whole])

theorem tracks_run
    {rs : List Request} {l : Labels} {asked : List Key}
    (h : l.Tracks asked) (hrs : ∀ r ∈ rs, r.Plain) :
    (run l rs).2.Tracks (asked ++ rs.flatMap asks) := by
  induction rs generalizing l asked with
  | nil =>
      rw [List.flatMap_nil, List.append_nil]
      exact h
  | cons r rest ih =>
      obtain ⟨hr, hrest⟩ := List.forall_mem_cons.1 hrs
      rw [List.flatMap_cons, ← List.append_assoc]
      exact ih (tracks_answer h hr) hrest

/-- The answer for a key is new exactly if the key was not asked for before. -/
theorem isNew_answer
    {l : Labels} {asked : List Key} {key : Key}
    (h : l.Tracks asked) (hkey : Dotless key.base) :
    ((rows key).answer l).1.isNew = true ↔ key ∉ asked := by
  have hassign {l : Labels} {asked : List Key} (h : l.Tracks asked) :
      (l.assign key).1.isNew = true ↔ key ∉ asked := by
    rw [Labels.isNew_assign, ← h.known key hkey]
    simp
  cases key with
  | field collection name =>
      rw [answer_field]
      exact hassign h
  | elements collection name path =>
      rw [answer_elements]
      have hfield : (l.assign (.field collection name)).2.Tracks
          (asked ++ [.field collection name]) :=
        h.assign hkey (by simp [Key.whole])
      refine (hassign hfield).trans ?_
      simp

/-- What becomes of a request within a run. -/
theorem answer_at
    {before after : List Request} {key : Key}
    (hrs : ∀ r ∈ before ++ rows key :: after, r.Plain) :
    ∃ answer, (run {} (before ++ rows key :: after)).1[before.length]? = some answer ∧
      (answer.isNew = true ↔ key ∉ before.flatMap asks) ∧
      (run {} (before ++ rows key :: after)).2.label? key = some answer.label := by
  obtain ⟨hbefore, hrest⟩ := List.forall_mem_append.1 hrs
  obtain ⟨hkey, -⟩ := List.forall_mem_cons.1 hrest
  have hdotless := plain_rows_iff.1 hkey
  have htracks := tracks_run Labels.tracks_empty hbefore
  rw [run_append]
  refine ⟨((rows key).answer (run {} before).2).1, ?_, isNew_answer htracks hdotless, ?_⟩
  · rw [List.getElem?_append_right (by rw [length_run]), length_run, Nat.sub_self]
    rfl
  · exact label?_run_of_some (label?_answer hdotless _) after

/-- What holds of a run of requests on no labels. -/
structure Orderly (rs : List Request) : Prop where
  /-- No label is given out twice, neither for a base nor for a key. -/
  distinct : (newLabels (run {} rs).1).Nodup
  /-- The answer for a key is new exactly if the key was not asked for before, and all answers
  for the key are the label that is kept in the end. -/
  answers : ∀ before key after, rs = before ++ rows key :: after → ∃ answer,
    (run {} rs).1[before.length]? = some answer ∧
      (answer.isNew = true ↔ key ∉ before.flatMap asks) ∧
      (run {} rs).2.label? key = some answer.label
  /-- The keys with a label are those that were asked for. -/
  known : ∀ key : Key, Dotless key.base →
    (((run {} rs).2.label? key).isSome = true ↔ key ∈ rs.flatMap asks)
  /-- Elements with a label have a field with another one. -/
  whole : ∀ collection field path label, Dotless field →
    (run {} rs).2.label? (.elements collection field path) = some label →
      ∃ other, (run {} rs).2.label? (.field collection field) = some other ∧ other ≠ label
  /-- Each label is the label of one key only. -/
  own : ∀ (key key' : Key) (label : String), Dotless key.base → Dotless key'.base →
    (run {} rs).2.label? key = some label → (run {} rs).2.label? key' = some label → key = key'
  fieldCount : (run {} rs).2.fieldCount =
    ((rs.flatMap asks).filter Key.isField).toFinset.card
  elementsCount : (run {} rs).2.elementsCount =
    ((rs.flatMap asks).filter fun key => !key.isField).toFinset.card

theorem orderly_of_plain
    {rs : List Request}
    (h : ∀ r ∈ rs, r.Plain) :
    Orderly rs := by
  have htracks : (run {} rs).2.Tracks (rs.flatMap asks) := tracks_run Labels.tracks_empty h
  constructor
  case distinct => exact nodup_run {} rs
  case answers =>
    rintro before key after rfl
    exact answer_at h
  case known => exact htracks.known
  case whole =>
    intro collection field path label hfield hlabel
    have hasked := (htracks.known (.elements collection field path) hfield).1 (by rw [hlabel]; rfl)
    have hwhole := (htracks.known (.field collection field) hfield).2 (htracks.whole _ hasked)
    obtain ⟨other, hother⟩ := Option.isSome_iff_exists.1 hwhole
    refine ⟨other, hother, fun hsame => ?_⟩
    rw [hsame] at hother
    cases htracks.apart (.field collection field) (.elements collection field path) label hfield
      hfield hother hlabel
  case own => exact htracks.apart
  case fieldCount => exact htracks.fieldCount
  case elementsCount => exact htracks.elementsCount

end Request

/-! ## Labels that others grow into -/

/-- The second labels are those after requests on the first. -/
def Labels.Reaches (l l' : Labels) : Prop :=
  ∃ rs : List Request, (∀ r ∈ rs, r.Plain) ∧ l' = (Request.run l rs).2

namespace Labels.Reaches

theorem refl
    (l : Labels) :
    l.Reaches l :=
  ⟨[], by simp, rfl⟩

theorem trans
    {l l' l'' : Labels}
    (h : l.Reaches l') (h' : l'.Reaches l'') :
    l.Reaches l'' := by
  obtain ⟨rs, hrs, rfl⟩ := h
  obtain ⟨rs', hrs', rfl⟩ := h'
  exact ⟨rs ++ rs', List.forall_mem_append.2 ⟨hrs, hrs'⟩, by rw [Request.run_append]⟩

theorem of_answer
    {r : Request}
    (h : r.Plain) (l : Labels) :
    l.Reaches (r.answer l).2 :=
  ⟨[r], List.forall_mem_singleton.2 h, rfl⟩

theorem of_fresh
    (base : String) (l : Labels) :
    l.Reaches (l.fresh base).2 :=
  of_answer (r := .fresh base) (by rintro key ⟨⟩) l

theorem label?_of_some
    {l l' : Labels} {key : Key} {label : String}
    (h : l.Reaches l') (hlabel : l.label? key = some label) :
    l'.label? key = some label := by
  obtain ⟨rs, -, rfl⟩ := h
  exact Request.label?_run_of_some hlabel rs

end Labels.Reaches
end RowFilter
